import ImpFront.Outline.Build
import ImpFront.Proofs.Outline.Openings
/-!
# ImpFront.Proofs.Outline.Summary

**The outline is the summary of the program.** A walk over a part of a program adds what the part
holds to the function it stands in, or to the globals (`Node.foldl_walk`).

An `else` is recognised by the place where its block starts. What carries the proof is that no block
of what is being walked over starts at the place announced last (`OutlineState.Clear`): of an `if`
with an `else`, nothing in front of the second block starts where that does (`Node.Apart`), and when
it comes, it does. Then the announcement is gone, so none is left at the end.
-/

namespace ImpFront

namespace OutlineState

/-- Adds what was found to the function that is being walked over, or to the globals. -/
def add (x : Finding) (s : OutlineState) : OutlineState :=
  match s.current with
  | some f =>
    { s with current := some { f with
        locals := f.locals ++ x.declared
        controls := f.controls ++ x.controls
        recursive := f.recursive || x.callees.contains f.name } }
  | none => { s with done := { s.done with globals := s.done.globals ++ x.declared } }

/-- No block of the node starts at the place announced last, if there is one. -/
def Clear (s : OutlineState) (n : Node) : Prop := ∀ start ∈ s.awaited.head?, start ∉ n.openings

variable {s : OutlineState}

@[simp] theorem awaited_add (x : Finding) (s : OutlineState) : (s.add x).awaited = s.awaited := by
  unfold add
  split <;> rfl

theorem add_none (s : OutlineState) : s.add .none = s := by
  obtain ⟨done, current, awaited⟩ := s
  cases current <;> simp [add, Finding.none]

theorem add_add (x y : Finding) (s : OutlineState) : (s.add x).add y = s.add (x.append y) := by
  obtain ⟨done, current, awaited⟩ := s
  cases current with
  | none => simp [add, Finding.append]
  | some f =>
    have hcontains : (x.callees ++ y.callees).contains f.name
        = (x.callees.contains f.name || y.callees.contains f.name) := by
      simp [Bool.decide_or]
    simp [add, Finding.append, Bool.or_assoc]

theorem Clear.of_awaited {n : Node} (h : s.awaited = []) : s.Clear n := by
  intro start hstart
  rw [h] at hstart
  cases hstart

theorem Clear.child {c n : Node} (h : s.Clear n) (hc : c ∈ n.children) : s.Clear c :=
  fun start hstart hmem => h start hstart ((Node.openings_sublist_of_child hc).subset hmem)

theorem Clear.add {n : Node} (h : s.Clear n) (x : Finding) : (s.add x).Clear n := by
  intro start hstart
  rw [awaited_add] at hstart
  exact h start hstart

/-! ### Entering a node -/

theorem declare_eq_add (d : Declaration) (s : OutlineState) :
    s.declare d = s.add ⟨[.ofDeclaration d], [], []⟩ := by
  obtain ⟨done, current, awaited⟩ := s
  cases current <;> simp [declare, inFunction, add, FunctionOutline.addLocal]

theorem control_eq_add (sort : ControlSort) (condition : Option Expr) (start : Position)
    (s : OutlineState) :
    s.control sort condition start
      = s.add ⟨[], [⟨sort, condition.map Expr.text, start.line⟩], []⟩ := by
  obtain ⟨done, current, awaited⟩ := s
  cases current <;> simp [control, inFunction, add, FunctionOutline.addControl]

theorem addCall_eq_add (callee : String) (s : OutlineState) :
    s.inFunction (.addCall callee) = s.add ⟨[], [], [callee]⟩ := by
  obtain ⟨done, current, awaited⟩ := s
  cases current with
  | none => simp [inFunction, add]
  | some f =>
    have hname : decide (callee = f.name) = decide (f.name = callee) :=
      decide_eq_decide.2 eq_comm
    simp [inFunction, add, FunctionOutline.addCall, hname]

/-- A block that does not start at the place announced last is not the one announced. -/
theorem block_of_clear {b : Block} (h : s.Clear (.block b)) : s.block b.span.start = s := by
  obtain ⟨done, current, awaited⟩ := s
  cases awaited with
  | nil => rfl
  | cons start others =>
    have hne : start ≠ b.span.start := by
      rintro rfl
      exact h _ rfl (Node.start_mem_openings b)
    rw [block]
    exact if_neg hne

/-- Entering a node without an `else` adds what the node is, if it is no block. -/
theorem enter_eq_add {n : Node} (hn : n.isInner = true) (halternative : n.alternative? = none)
    (hblock : n.opening? = none) (s : OutlineState) : s.enter n = s.add n.ownFinding := by
  cases n with
  | program p | function f | parameter q => cases hn
  | block b => cases hblock
  | statement st =>
    cases st with
    | declare d => exact declare_eq_add d s
    | ifElse condition body otherwise span =>
      obtain rfl : otherwise = none := halternative
      exact control_eq_add .ifThen (some condition) span.start s
    | forLoop init condition step body span =>
      exact control_eq_add .forLoop (some condition) span.start s
    | whileLoop condition body span =>
      exact control_eq_add .whileLoop (some condition) span.start s
    | update _ | ret _ _ | call _ _ => exact (add_none s).symm
  | expr e =>
    cases e with
    | call callee arguments span => exact addCall_eq_add callee s
    | _ => exact (add_none s).symm

/-- Entering a node without an `else` adds what the node is, if it is not the block announced. -/
theorem enter_eq {n : Node} (hn : n.isInner = true) (halternative : n.alternative? = none)
    (h : s.Clear n) : s.enter n = s.add n.ownFinding := by
  cases n with
  | block b =>
    have hnothing : (Node.block b).ownFinding = .none := rfl
    rw [hnothing, add_none]
    exact block_of_clear h
  | _ => exact enter_eq_add hn halternative rfl s

/-- Entering an `if` with an `else` announces the second block. -/
theorem enter_ifElse (condition : Expr) (body otherwise : Block) (span : Span) :
    s.enter (.statement (.ifElse condition body (some otherwise) span))
      = (s.await otherwise.span.start).add
        ⟨[], [⟨.ifThen, some condition.text, span.start.line⟩], []⟩ :=
  control_eq_add .ifThen (some condition) span.start _

/-- Entering the block that is announced adds an `else`, and the announcement is gone. -/
theorem enter_awaited (b : Block) (s : OutlineState) :
    (s.await b.span.start).enter (.block b)
      = s.add ⟨[], [⟨.otherwise, none, b.span.start.line⟩], []⟩ := by
  have hblock : (s.await b.span.start).enter (.block b) = s.control .otherwise none b.span.start :=
    if_pos rfl
  exact hblock.trans (control_eq_add .otherwise none b.span.start s)

theorem await_add (start : Position) (x : Finding) (s : OutlineState) :
    (s.await start).add x = (s.add x).await start := by
  obtain ⟨done, current, awaited⟩ := s
  cases current <;> rfl

end OutlineState

open OutlineState

namespace Node

variable {s : OutlineState} {n : Node}

/-! ### Walking over a node -/

/-- Leaving a statement, a block or an expression adds nothing. -/
theorem foldl_walk_eq (hn : n.isInner = true) :
    n.walk.foldl step s = (n.children.flatMap walk).foldl step (s.enter n) := by
  have hexit (s : OutlineState) : step s (.exit n) = s := by
    cases n with
    | program p | function f | parameter q => cases hn
    | _ => rfl
  rw [walk_eq, around, List.cons_append, List.foldl_cons, List.foldl_append, List.foldl_cons,
    List.foldl_nil, hexit]
  rfl

/-- Nodes that each add what they hold add it one after the other. -/
theorem foldl_flatMap_walk {cs : List Node}
    (h : ∀ c ∈ cs, ∀ s : OutlineState, s.Clear c → c.walk.foldl step s = s.add c.finding)
    (hs : ∀ c ∈ cs, s.Clear c) :
    (cs.flatMap walk).foldl step s = s.add (.concat (cs.map finding)) := by
  induction cs generalizing s with
  | nil => exact (add_none s).symm
  | cons c cs ih =>
    obtain ⟨hc, hcs⟩ := List.forall_mem_cons.1 h
    obtain ⟨hclear, hclears⟩ := List.forall_mem_cons.1 hs
    rw [List.flatMap_cons, List.foldl_append, hc s hclear,
      ih hcs fun c hc => (hclears c hc).add _, add_add, List.map_cons, Finding.concat_cons]

/-- A walk over a block that was announced adds an `else` and what the block holds. -/
theorem foldl_walk_awaited {b : Block} (hs : s.Clear (block b))
    (hwalk : ∀ s : OutlineState, s.Clear (block b) →
      (block b).walk.foldl step s = s.add (block b).finding) :
    (block b).walk.foldl step (s.await b.span.start)
      = (s.add ⟨[], [⟨.otherwise, none, b.span.start.line⟩], []⟩).add (block b).finding := by
  have hnothing : (block b).ownFinding = .none := rfl
  have hclear := hs.add ⟨[], [⟨.otherwise, none, b.span.start.line⟩], []⟩
  have henter := enter_eq (n := block b) rfl rfl hclear
  rw [hnothing, add_none] at henter
  rw [← hwalk _ hclear, foldl_walk_eq rfl, foldl_walk_eq rfl, enter_awaited, henter]

/-- A walk over an `if` with an `else`, given walks over its parts. What comes before the second
block does not start where that does, so it is not taken for it. -/
theorem foldl_walk_ifElse {condition : Expr} {body otherwise : Block} {span : Span}
    (hn : n = statement (.ifElse condition body (some otherwise) span)) (hapart : n.ElseApart)
    (hclear : s.Clear n)
    (hwalk : ∀ c ∈ n.children, ∀ s : OutlineState, s.Clear c →
      c.walk.foldl step s = s.add c.finding) :
    n.walk.foldl step s = s.add n.finding := by
  have hbefore := hapart _ _ _ _ hn
  subst hn
  have hannounced (c : Node) (hc : c ∈ [expr condition, block body]) (x : Finding) :
      ((s.add x).await otherwise.span.start).Clear c := by
    intro start hstart
    obtain rfl := Option.some.inj hstart
    exact hbefore c hc
  have hotherwise : block otherwise
      ∈ (statement (.ifElse condition body (some otherwise) span)).children := by simp [children]
  rw [foldl_walk_eq rfl, enter_ifElse, await_add]
  simp only [children, Option.toList_some, List.map_cons, List.map_nil, List.flatMap_cons,
    List.flatMap_nil, List.append_nil, List.foldl_append]
  rw [hwalk _ (by simp [children]) _ (hannounced _ (by simp) _), await_add, add_add,
    hwalk _ (by simp [children]) _ (hannounced _ (by simp) _), await_add, add_add,
    foldl_walk_awaited ((hclear.child hotherwise).add _) (hwalk _ hotherwise),
    add_add, add_add, finding_ifElse]
  simp only [Finding.append_assoc]

/-- The statements with an `else`. -/
theorem eq_ifElse_of_alternative? {otherwise : Block} (h : n.alternative? = some otherwise) :
    ∃ condition body span, n = statement (.ifElse condition body (some otherwise) span) := by
  unfold alternative? at h
  split at h
  · obtain rfl := h
    exact ⟨_, _, _, rfl⟩
  · cases h

/-- **A walk over a part of a program adds what it holds.** -/
theorem foldl_walk (hn : n.isInner = true) (hapart : n.Apart) (hclear : s.Clear n) :
    n.walk.foldl step s = s.add n.finding := by
  induction n using induct generalizing s with
  | h n ih =>
    have hwalk : ∀ c ∈ n.children, ∀ s : OutlineState, s.Clear c →
        c.walk.foldl step s = s.add c.finding := fun c hc s hs =>
      ih c hc (isInner_of_mem_children hn hc) (hapart.child hc) hs
    cases halternative : n.alternative? with
    | none =>
      rw [foldl_walk_eq hn, enter_eq hn halternative hclear,
        foldl_flatMap_walk hwalk fun c hc => (hclear.child hc).add _,
        add_add, finding_eq halternative hn]
    | some otherwise =>
      obtain ⟨condition, body, span, hifElse⟩ := eq_ifElse_of_alternative? halternative
      exact foldl_walk_ifElse hifElse hapart.elseApart hclear hwalk

/-! ### Functions -/

/-- Parameters are added to the function that is being walked over. -/
theorem foldl_walk_parameters (ps : List Parameter) (done : Outline) (f : FunctionOutline)
    (awaited : List Position) :
    ((ps.map parameter).flatMap walk).foldl step ⟨done, some f, awaited⟩
      = ⟨done, some { f with parameters := f.parameters ++ ps.map .ofParameter }, awaited⟩ := by
  induction ps generalizing f with
  | nil => simp
  | cons q ps ih =>
    have hparameter : (parameter q).walk.foldl step ⟨done, some f, awaited⟩
        = ⟨done, some (f.addParameter q), awaited⟩ := by
      rw [walk_eq]
      rfl
    rw [List.map_cons, List.flatMap_cons, List.foldl_append, hparameter, ih]
    simp [FunctionOutline.addParameter]

/-- A walk over a function adds its summary. -/
theorem foldl_walk_function {f : Function} (h : (function f).Apart) (done : Outline) :
    (function f).walk.foldl step ⟨done, none, []⟩
      = ⟨{ done with functions := done.functions ++ [f.summary] }, none, []⟩ := by
  have henter : step ⟨done, none, []⟩ (.enter (function f)) = ⟨done, some (.ofHead f), []⟩ := rfl
  have hbody : block f.body ∈ (function f).children := by simp [children]
  have hwalk (s : OutlineState) (hs : s.awaited = []) :
      (block f.body).walk.foldl step s = s.add (block f.body).finding :=
    foldl_walk rfl (h.child hbody) (.of_awaited hs)
  rw [walk_eq, around, List.cons_append, List.foldl_cons, henter, children, List.flatMap_append,
    List.flatMap_singleton, List.foldl_append, List.foldl_append, foldl_walk_parameters,
    hwalk _ rfl, List.foldl_cons, List.foldl_nil]
  simp only [add, finding, step, finish, FunctionOutline.ofHead, List.nil_append, Bool.false_or,
    ← declared_eq_preorder (n := block f.body) rfl, ← callees_eq_preorder (n := block f.body) rfl]
  rfl

end Node

/-! ### Programs -/

namespace Item

variable {item : Item}

/-- A walk over a part of a program adds its declarations or its summary. -/
theorem foldl_walk (h : item.node.Apart) (done : Outline) :
    item.node.walk.foldl step ⟨done, none, []⟩
      = ⟨⟨done.globals ++ item.declared,
          done.functions ++ (item.function?.map Function.summary).toList⟩, none, []⟩ := by
  have hstatement (st : Statement) (h : (Node.statement st).Apart) :
      (Node.statement st).walk.foldl step ⟨done, none, []⟩
        = ⟨⟨done.globals ++ st.declared, done.functions⟩, none, []⟩ := by
    rw [Node.foldl_walk rfl h (.of_awaited rfl)]
    simp only [add, Node.finding, ← Node.declared_eq_preorder (n := .statement st) rfl]
    rfl
  cases item with
  | global d =>
    refine (hstatement _ h).trans ?_
    simp [declared, function?, Statement.declared]
  | function f =>
    refine (Node.foldl_walk_function h done).trans ?_
    simp [declared, function?]
  | statement st =>
    refine (hstatement _ h).trans ?_
    simp [declared, function?]

/-- A walk over the parts of a program adds the declarations and the summaries, part by part. -/
theorem foldl_flatMap_walk {items : List Item} (h : ∀ item ∈ items, item.node.Apart)
    (done : Outline) :
    (items.flatMap fun item => item.node.walk).foldl step ⟨done, none, []⟩
      = ⟨⟨done.globals ++ items.flatMap declared,
          done.functions ++ (items.filterMap function?).map Function.summary⟩, none, []⟩ := by
  induction items generalizing done with
  | nil => simp
  | cons item items ih =>
    obtain ⟨hitem, hitems⟩ := List.forall_mem_cons.1 h
    rw [List.flatMap_cons, List.foldl_append, foldl_walk hitem, ih hitems]
    cases hfunction : item.function? <;> simp [hfunction]

/-- Outside functions, the variables of a part are those of its nodes in preorder. -/
theorem declared_eq_preorder (h : item.function? = none) :
    item.declared = item.node.preorder.filterMap Node.declared? := by
  cases item with
  | global d => exact Node.declared_eq_preorder (n := .statement (.declare d)) rfl
  | function f => cases h
  | statement st => exact Node.declared_eq_preorder (n := .statement st) rfl

end Item

namespace Program

variable {settings : Settings} {source : String} {p : Program}

/-- A walk over a program ends with its summary, outside functions, and awaits no block, if nothing
in front of the block of an `else` starts where that does. -/
theorem foldl_events_of_apart (h : (Node.program p).Apart) :
    p.events.foldl step .empty = ⟨p.summary, none, []⟩ := by
  have hnodes : ∀ item ∈ p.items, item.node.Apart := fun item hitem =>
    h.child (List.mem_map.2 ⟨item, hitem, rfl⟩)
  have hitems := Item.foldl_flatMap_walk hnodes ⟨[], []⟩
  rw [p.events_eq_walk, Node.walk_eq, Node.around, List.cons_append, List.foldl_cons,
    Node.children, List.flatMap_map, List.foldl_append]
  exact congrArg (fun s => step s (.exit (.program p))) hitems

/-- A walk over a program that was read from a source ends with its summary. -/
theorem foldl_events (h : ofSource settings source = .ok p) :
    p.events.foldl step .empty = ⟨p.summary, none, []⟩ :=
  foldl_events_of_apart (apart_of_ofSource h)

/-- Outside functions, declarations are found in preorder. -/
theorem globals_summary (p : Program) :
    p.summary.globals = (p.items.filter (·.function?.isNone)).flatMap
      fun item => item.node.preorder.filterMap Node.declared? := by
  show p.items.flatMap Item.declared = _
  induction p.items with
  | nil => rfl
  | cons item items ih =>
    rw [List.flatMap_cons, ih]
    cases hfunction : item.function? with
    | none =>
      rw [List.filter_cons_of_pos (by simp [hfunction]), List.flatMap_cons,
        Item.declared_eq_preorder hfunction]
    | some f =>
      obtain rfl : item = .function f := by
        cases item with
        | function g => exact congrArg Item.function (Option.some.inj hfunction)
        | _ => cases hfunction
      rfl

/-- A node that begins with a sign of its own starts where a token of that kind does. -/
theorem exists_opening (h : ofSource settings source = .ok p) :
    ∃ tokens, Token.scan source = .ok tokens ∧ ∀ n ∈ (Node.program p).preorder, ∀ kind,
      n.pieces.head? = some (.fixed kind) →
        ∃ t ∈ tokens, t.kind = kind ∧ t.span.start = n.span.start := by
  obtain ⟨own, place, hscan, -, -, -, hlaid, -⟩ := laid_of_ofSource h
  refine ⟨_, hscan, fun n hn kind hkind => ?_⟩
  have hprogram : n ≠ .program p := by
    rintro rfl
    obtain ⟨piece, -, hpiece⟩ := List.mem_map.1 (List.mem_of_head? hkind)
    cases hpiece
  obtain ⟨m, hm, piece, hpiece, hnode⟩ := Node.exists_piece hn hprogram
  obtain ⟨tokens, hsub, hspans⟩ := exists_tokens_of_mem_preorder hlaid hm hpiece hnode
  rw [← Piece.head?_inner hnode] at hkind
  obtain ⟨t, ht, hsign, hstart⟩ := hspans.exists_first hkind
  refine ⟨t, List.mem_append_left _ (hsub.subset ht), ?_, hstart⟩
  rw [← Token.kind_sign, hsign, Sign.kind_fixed]

end Program

namespace Function

/-- The variables of a function are declared by the nodes of its body, in preorder. -/
theorem locals_summary (f : Function) :
    f.summary.locals = (Node.block f.body).preorder.filterMap Node.declared? :=
  Node.declared_eq_preorder (n := .block f.body) rfl

/-- A function is recursive when a node of its body is a call of it. -/
theorem recursive_summary_iff (f : Function) : f.summary.recursive = true ↔
    ∃ arguments span, .expr (.call f.name arguments span) ∈ (Node.block f.body).preorder := by
  have hcallees : f.body.callees = (Node.block f.body).preorder.filterMap Node.callee? :=
    Node.callees_eq_preorder (n := .block f.body) rfl
  show f.body.callees.contains f.name = true ↔ _
  rw [hcallees, List.contains_iff_mem, List.mem_filterMap]
  constructor
  · rintro ⟨n, hn, hcallee⟩
    unfold Node.callee? at hcallee
    split at hcallee
    · obtain rfl := Option.some.inj hcallee
      exact ⟨_, _, hn⟩
    · cases hcallee
  · rintro ⟨arguments, span, hn⟩
    exact ⟨_, hn, rfl⟩

end Function

namespace Program

variable {settings : Settings} {source : String} {p : Program}

/-- **The outline is the summary of the program.** The walk over a program that was read gives what
recursion on the tree gives, and no block is still awaited at its end. In the summary, globals are
the declarations outside functions in preorder, and those of a body are the locals of its function.
A function is recursive when some node of its body calls it. A node that begins with a word or a
brace starts with a token of that kind, so the lines of the control structures are those of their
words, and of an `else` that of its brace. -/
theorem outline_eq_summary (h : ofSource settings source = .ok p) :
    p.outline = p.summary
    ∧ (p.events.foldl OutlineState.step .empty).awaited = []
    ∧ p.summary.globals = (p.items.filter (·.function?.isNone)).flatMap
      (fun item => item.node.preorder.filterMap Node.declared?)
    ∧ (∀ f ∈ p.functions,
      f.summary.locals = (Node.block f.body).preorder.filterMap Node.declared?
      ∧ (f.summary.recursive = true ↔
        ∃ arguments span, .expr (.call f.name arguments span) ∈ (Node.block f.body).preorder))
    ∧ ∃ tokens, Token.scan source = .ok tokens ∧ ∀ n ∈ (Node.program p).preorder, ∀ kind,
      n.pieces.head? = some (.fixed kind) →
        ∃ t ∈ tokens, t.kind = kind ∧ t.span.start = n.span.start := by
  have hwalk := foldl_events h
  refine ⟨congrArg OutlineState.done hwalk, congrArg OutlineState.awaited hwalk, p.globals_summary,
    fun f _ => ⟨f.locals_summary, f.recursive_summary_iff⟩, exists_opening h⟩

theorem outline_eq_summary_at_branches : ∃ p,
    ofSource ⟨8⟩
        "int x; void f(int n) \x7b if (n) \x7b\x7d\n else \x7b if (n) \x7b f(n); \x7d else \x7b\x7d \x7d \x7d"
      = .ok p
      ∧ p.outline = ⟨[⟨.int, "x", false⟩], [⟨"f", .void, [⟨.int, "n", false⟩], [],
        [⟨.ifThen, some "n", 1⟩, ⟨.otherwise, none, 2⟩, ⟨.ifThen, some "n", 2⟩,
          ⟨.otherwise, none, 2⟩], true⟩]⟩
      ∧ p.outline = p.summary
      ∧ (p.events.foldl OutlineState.step .empty).awaited = [] := by
  have houtline : (ofSource ⟨8⟩
        "int x; void f(int n) \x7b if (n) \x7b\x7d\n else \x7b if (n) \x7b f(n); \x7d else \x7b\x7d \x7d \x7d").map
        outline
      = .ok ⟨[⟨.int, "x", false⟩], [⟨"f", .void, [⟨.int, "n", false⟩], [],
        [⟨.ifThen, some "n", 1⟩, ⟨.otherwise, none, 2⟩, ⟨.ifThen, some "n", 2⟩,
          ⟨.otherwise, none, 2⟩], true⟩]⟩ := by
    decide +kernel
  obtain ⟨p, hp, houtline⟩ := exists_of_map_ofSource houtline
  obtain ⟨hsummary, hawaited, -⟩ := outline_eq_summary hp
  exact ⟨p, hp, houtline, hsummary, hawaited⟩

end Program

end ImpFront
