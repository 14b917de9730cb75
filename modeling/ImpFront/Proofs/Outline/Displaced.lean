import ImpFront.Outline.Unplaced
import ImpFront.Proofs.Outline.Summary
/-!
# ImpFront.Proofs.Outline.Displaced

**Outlines of programs in any places.** Where blocks start at the same place, the block of an `else`
may not be the one taken for it. Still the outline of a program is its summary but for the places of
the entries for `else` (`Program.outline_upToElse`).

What a walk keeps is that the entries recorded and the blocks still awaited are together those found
and those awaited before (`OutlineState.Gains`). And what was announced in a part of a program is no
longer awaited behind it: the block of an `else` finds the place of its own start announced last,
unless a block in front of it has taken it (`Node.awaited_walk_suffix`).
-/

namespace ImpFront

namespace Control

/-- The entry for an `else` whose block starts at a place. -/
def elseAt (start : Position) : Control := ⟨.otherwise, none, start.line⟩

@[simp] theorem openers_append (controls others : List Control) :
    openers (controls ++ others) = openers controls ++ openers others :=
  List.filter_append ..

end Control

namespace OutlineState

variable {s s' s'' : OutlineState} {x y : Finding}

/-- Between two states, what is in `x` was found, with the entries for `else` in any places. Those
of the blocks still awaited are yet to come. -/
def Gains (s : OutlineState) (x : Finding) (s' : OutlineState) : Prop :=
  ∃ controls awaited, s' = { s.add { x with controls } with awaited }
    ∧ Control.openers controls = Control.openers x.controls
    ∧ (controls ++ awaited.map Control.elseAt).Perm
        (x.controls ++ s.awaited.map Control.elseAt)

theorem add_awaited (awaited : List Position) (x : Finding) (s : OutlineState) :
    { s with awaited }.add x = { s.add x with awaited } := by
  obtain ⟨done, current, others⟩ := s
  cases current <;> rfl

theorem gains_add (x : Finding) (s : OutlineState) : s.Gains x (s.add x) := by
  refine ⟨x.controls, s.awaited, ?_, rfl, .refl _⟩
  rw [← awaited_add x s]

theorem gains_none (s : OutlineState) : s.Gains .none s := by
  have h := gains_add .none s
  rwa [add_none] at h

theorem Gains.trans (h : s.Gains x s') (h' : s'.Gains y s'') : s.Gains (x.append y) s'' := by
  obtain ⟨controls, awaited, rfl, hopeners, hperm⟩ := h
  obtain ⟨others, awaited', rfl, hopeners', hperm'⟩ := h'
  refine ⟨controls ++ others, awaited', ?_, ?_, ?_⟩
  · rw [add_awaited, add_add]
    rfl
  · rw [Finding.append, Control.openers_append, Control.openers_append, hopeners, hopeners']
  · calc controls ++ others ++ awaited'.map Control.elseAt
      _ = controls ++ (others ++ awaited'.map Control.elseAt) := List.append_assoc ..
      _ |>.Perm (controls ++ (y.controls ++ awaited.map Control.elseAt)) := hperm'.append_left _
      _ |>.Perm (y.controls ++ (controls ++ awaited.map Control.elseAt)) :=
        List.perm_append_comm_assoc ..
      _ |>.Perm (y.controls ++ (x.controls ++ s.awaited.map Control.elseAt)) := hperm.append_left _
      _ |>.Perm ((x.append y).controls ++ s.awaited.map Control.elseAt) := by
        rw [Finding.append, List.append_assoc]
        exact List.perm_append_comm_assoc ..

/-- What is found does not depend on where the entries for `else` are. -/
theorem Gains.congr (h : s.Gains x s') (hdeclared : x.declared = y.declared)
    (hcallees : x.callees = y.callees)
    (hopeners : Control.openers x.controls = Control.openers y.controls)
    (hperm : x.controls.Perm y.controls) : s.Gains y s' := by
  obtain ⟨controls, awaited, rfl, hopeners', hperm'⟩ := h
  refine ⟨controls, awaited, ?_, hopeners'.trans hopeners, hperm'.trans (hperm.append_right _)⟩
  rw [hdeclared, hcallees]

/-- A block adds nothing, or the entry for the `else` that was announced last. -/
theorem gains_block (start : Position) (s : OutlineState) : s.Gains .none (s.block start) := by
  obtain ⟨done, current, awaited⟩ := s
  cases awaited with
  | nil => exact gains_none _
  | cons place others =>
    rw [block]
    dsimp only
    split
    · next h =>
      subst h
      rw [control_eq_add]
      exact ⟨[.elseAt place], others, add_awaited others _ ⟨done, current, place :: others⟩, rfl,
        .refl _⟩
    · exact gains_none _

/-- Entering a node without an `else` adds what the node is, and an entry that was announced. -/
theorem gains_enter {n : Node} (hn : n.isInner = true) (halternative : n.alternative? = none)
    (s : OutlineState) : s.Gains n.ownFinding (s.enter n) := by
  cases n with
  | block b => exact gains_block b.span.start s
  | _ =>
    rw [enter_eq_add hn halternative rfl]
    exact gains_add _ s

/-- Entering an `if` with an `else` adds the one entry and announces the other. -/
theorem gains_enter_ifElse (condition : Expr) (body otherwise : Block) (span : Span)
    (s : OutlineState) :
    s.Gains ⟨[], [⟨.ifThen, some condition.text, span.start.line⟩,
        .elseAt otherwise.span.start], []⟩
      (s.enter (.statement (.ifElse condition body (some otherwise) span))) := by
  rw [enter_ifElse, await_add, await, awaited_add]
  exact ⟨[⟨.ifThen, some condition.text, span.start.line⟩],
    otherwise.span.start :: s.awaited, rfl, rfl, .refl _⟩

end OutlineState

open OutlineState

namespace Node

variable {s : OutlineState} {n : Node}

/-! ### Walking over a node -/

/-- Nodes that each add what they hold add it together. -/
theorem gains_flatMap_walk {cs : List Node}
    (h : ∀ c ∈ cs, ∀ s : OutlineState, s.Gains c.finding (c.walk.foldl step s)) :
    s.Gains (.concat (cs.map finding)) ((cs.flatMap walk).foldl step s) := by
  induction cs generalizing s with
  | nil => exact gains_none s
  | cons c cs ih =>
    obtain ⟨hc, hcs⟩ := List.forall_mem_cons.1 h
    rw [List.flatMap_cons, List.foldl_append, List.map_cons, Finding.concat_cons]
    exact (hc s).trans (ih hcs)

/-- The two entries of an `if` with an `else`, and then what its parts add, are what it adds. -/
theorem gains_finding_ifElse {s' : OutlineState} {condition : Expr} {body otherwise : Block}
    {span : Span}
    (h : s.Gains (Finding.append ⟨[], [⟨.ifThen, some condition.text, span.start.line⟩,
        .elseAt otherwise.span.start], []⟩
      (.concat ([expr condition, block body, block otherwise].map finding))) s') :
    s.Gains (statement (.ifElse condition body (some otherwise) span)).finding s' := by
  have hmiddle : (Control.elseAt otherwise.span.start :: (body.controls ++ otherwise.controls)).Perm
      (body.controls ++ Control.elseAt otherwise.span.start :: otherwise.controls) :=
    List.perm_middle.symm
  rw [finding_ifElse]
  refine h.congr ?_ ?_ ?_ ?_
  · simp [Finding.append, Finding.concat, Finding.none]
  · simp [Finding.append, Finding.concat, Finding.none]
  · simp [Finding.append, Finding.concat, Finding.none, Control.openers, Control.elseAt]
  · simpa [Finding.append, Finding.concat, Finding.none, finding, controls, Control.elseAt]
      using hmiddle

/-- **A walk over a part of a program adds what it holds**, with the entries for `else` in any
places. -/
theorem gains_walk (hn : n.isInner = true) (s : OutlineState) :
    s.Gains n.finding (n.walk.foldl step s) := by
  induction n using induct generalizing s with
  | h n ih =>
    have hwalk : ∀ c ∈ n.children, ∀ s : OutlineState, s.Gains c.finding (c.walk.foldl step s) :=
      fun c hc s => ih c hc (isInner_of_mem_children hn hc) s
    have hparts := gains_flatMap_walk (s := s.enter n) hwalk
    rw [foldl_walk_eq hn]
    cases halternative : n.alternative? with
    | none =>
      rw [finding_eq halternative hn]
      exact (gains_enter hn halternative s).trans hparts
    | some otherwise =>
      obtain ⟨condition, body, span, rfl⟩ := eq_ifElse_of_alternative? halternative
      exact gains_finding_ifElse ((gains_enter_ifElse condition body otherwise span s).trans hparts)

/-! ### What is awaited -/

/-- Behind nodes that each leave awaited some of what was awaited before, that is so again. -/
theorem awaited_flatMap_walk_suffix {cs : List Node}
    (h : ∀ c ∈ cs, ∀ s : OutlineState, (c.walk.foldl step s).awaited <:+ s.awaited) :
    ((cs.flatMap walk).foldl step s).awaited <:+ s.awaited := by
  induction cs generalizing s with
  | nil => exact List.suffix_rfl
  | cons c cs ih =>
    obtain ⟨hc, hcs⟩ := List.forall_mem_cons.1 h
    rw [List.flatMap_cons, List.foldl_append]
    exact (ih hcs).trans (hc s)

theorem awaited_block (start : Position) (s : OutlineState) :
    (s.block start).awaited
      = if s.awaited.head? = some start then s.awaited.tail else s.awaited := by
  obtain ⟨done, current, awaited⟩ := s
  cases awaited with
  | nil => rfl
  | cons place others =>
    by_cases h : place = start <;> simp [OutlineState.block, h, OutlineState.control, inFunction]

theorem awaited_enter_suffix (hn : n.isInner = true) (halternative : n.alternative? = none)
    (s : OutlineState) : (s.enter n).awaited <:+ s.awaited := by
  cases n with
  | block b =>
    show (s.block b.span.start).awaited <:+ s.awaited
    rw [awaited_block]
    split
    · exact List.tail_suffix _
    · exact List.suffix_rfl
  | _ =>
    have hsame := (congrArg awaited (enter_eq_add hn halternative rfl s)).trans (awaited_add _ s)
    exact hsame ▸ List.suffix_rfl

/-- Behind its start, a block announced last is awaited no more. -/
theorem awaited_block_suffix {start : Position} {awaited : List Position}
    (h : s.awaited <:+ start :: awaited) : (s.block start).awaited <:+ awaited := by
  rw [awaited_block]
  rcases List.suffix_cons_iff.1 h with heq | hsuffix
  · simp only [heq, List.head?_cons, if_true, List.tail_cons, List.suffix_rfl]
  · split
    · exact (List.tail_suffix _).trans hsuffix
    · exact hsuffix

/-- **What is announced in a part of a program is no longer awaited behind it.** A block leaves
awaited some of what is awaited behind its start. -/
theorem awaited_walk_suffix (hn : n.isInner = true) (s : OutlineState) :
    (n.walk.foldl step s).awaited <:+ s.awaited
    ∧ ∀ b, n = block b → (n.walk.foldl step s).awaited <:+ (s.block b.span.start).awaited := by
  induction n using induct generalizing s with
  | h n ih =>
    have hwalk : ∀ c ∈ n.children, ∀ s : OutlineState,
        (c.walk.foldl step s).awaited <:+ s.awaited :=
      fun c hc s => (ih c hc (isInner_of_mem_children hn hc) s).1
    cases halternative : n.alternative? with
    | none =>
      have hparts := awaited_flatMap_walk_suffix (s := s.enter n) hwalk
      rw [foldl_walk_eq hn]
      refine ⟨hparts.trans (awaited_enter_suffix hn halternative s), ?_⟩
      rintro b rfl
      exact hparts
    | some otherwise =>
      obtain ⟨condition, body, span, rfl⟩ := eq_ifElse_of_alternative? halternative
      refine ⟨?_, fun b hb => by cases hb⟩
      -- In front of the second block, at most its own start was announced.
      have hfront (t : OutlineState) :
          (([expr condition, block body].flatMap walk).foldl step t).awaited <:+ t.awaited :=
        awaited_flatMap_walk_suffix fun c hc => hwalk c (List.mem_append_left [block otherwise] hc)
      have hbehind (t : OutlineState) := (ih (block otherwise) (by simp [children]) rfl t).2 _ rfl
      have hannounced := hfront (s.enter (statement (.ifElse condition body (some otherwise) span)))
      rw [enter_ifElse, awaited_add] at hannounced
      have hsplit : (statement (.ifElse condition body (some otherwise) span)).children.flatMap walk
          = [expr condition, block body].flatMap walk ++ (block otherwise).walk := by
        simp [children]
      rw [foldl_walk_eq rfl, enter_ifElse, hsplit, List.foldl_append]
      exact (hbehind _).trans (awaited_block_suffix hannounced)

/-- Where nothing is awaited, a walk over a part of a program records the control structures in it,
and nothing is awaited behind it. -/
theorem exists_walk_eq_add (hn : n.isInner = true) (hs : s.awaited = []) :
    ∃ controls, n.walk.foldl step s = s.add { n.finding with controls }
      ∧ Control.openers controls = Control.openers n.controls ∧ controls.Perm n.controls := by
  obtain ⟨controls, awaited, hwalk, hopeners, hperm⟩ := gains_walk hn s
  have hawaited := (awaited_walk_suffix hn s).1
  rw [hwalk, hs] at hawaited
  obtain rfl : awaited = [] := List.suffix_nil.1 hawaited
  refine ⟨controls, ?_, hopeners, by simpa [hs, finding] using hperm⟩
  rw [hwalk, ← add_awaited, ← hs]

/-! ### Functions -/

/-- A walk over a function adds its summary, with the entries for `else` in any places. -/
theorem exists_walk_function (f : Function) (done : Outline) :
    ∃ g : FunctionOutline, g.UpToElse f.summary ∧ (function f).walk.foldl step ⟨done, none, []⟩
      = ⟨{ done with functions := done.functions ++ [g] }, none, []⟩ := by
  have henter : step ⟨done, none, []⟩ (.enter (function f)) = ⟨done, some (.ofHead f), []⟩ := rfl
  obtain ⟨controls, hbody, hopeners, hperm⟩ := exists_walk_eq_add (n := block f.body) rfl
    (s := ⟨done, some { FunctionOutline.ofHead f with
      parameters := [] ++ f.parameters.map .ofParameter }, []⟩) rfl
  refine ⟨{ f.summary with controls }, ⟨rfl, hopeners, hperm⟩, ?_⟩
  rw [walk_eq, around, List.cons_append, List.foldl_cons, henter, children, List.flatMap_append,
    List.flatMap_singleton, List.foldl_append, List.foldl_append, foldl_walk_parameters]
  refine (congrArg (fun s => [Event.exit (function f)].foldl step s) hbody).trans ?_
  simp only [List.foldl_cons, List.foldl_nil, add, finding, step, finish, FunctionOutline.ofHead,
    List.nil_append, Bool.false_or, ← declared_eq_preorder (n := block f.body) rfl,
    ← callees_eq_preorder (n := block f.body) rfl]
  rfl

end Node

/-! ### Programs -/

namespace Item

/-- A walk over a part of a program adds its declarations or its summary, with the entries for
`else` in any places. -/
theorem exists_walk (item : Item) (done : Outline) :
    ∃ gs, List.Forall₂ FunctionOutline.UpToElse gs (item.function?.map Function.summary).toList
      ∧ item.node.walk.foldl step ⟨done, none, []⟩
        = ⟨⟨done.globals ++ item.declared, done.functions ++ gs⟩, none, []⟩ := by
  have hstatement (st : Statement) : (Node.statement st).walk.foldl step ⟨done, none, []⟩
      = ⟨⟨done.globals ++ st.declared, done.functions ++ []⟩, none, []⟩ := by
    obtain ⟨controls, hwalk, -⟩ := Node.exists_walk_eq_add (n := .statement st) rfl
      (s := ⟨done, none, []⟩) rfl
    rw [hwalk]
    simp only [add, Node.finding, ← Node.declared_eq_preorder (n := .statement st) rfl,
      List.append_nil]
    rfl
  cases item with
  | global d =>
    exact ⟨[], .nil, (hstatement (.declare d)).trans (by simp [declared, Statement.declared])⟩
  | function f =>
    obtain ⟨g, hg, hwalk⟩ := Node.exists_walk_function f done
    exact ⟨[g], .cons hg .nil, hwalk.trans (by simp [declared])⟩
  | statement st => exact ⟨[], .nil, hstatement st⟩

/-- A walk over the parts of a program adds the declarations and the summaries, part by part. -/
theorem exists_flatMap_walk (items : List Item) (done : Outline) :
    ∃ gs, List.Forall₂ FunctionOutline.UpToElse gs
        ((items.filterMap function?).map Function.summary)
      ∧ (items.flatMap fun item => item.node.walk).foldl step ⟨done, none, []⟩
        = ⟨⟨done.globals ++ items.flatMap declared, done.functions ++ gs⟩, none, []⟩ := by
  induction items generalizing done with
  | nil => exact ⟨[], .nil, by simp⟩
  | cons item items ih =>
    obtain ⟨first, hfirst, hwalk⟩ := item.exists_walk done
    obtain ⟨others, hothers, hwalks⟩ :=
      ih ⟨done.globals ++ item.declared, done.functions ++ first⟩
    refine ⟨first ++ others, ?_, ?_⟩
    · have hsplit : ((item :: items).filterMap function?).map Function.summary
          = (item.function?.map Function.summary).toList
            ++ (items.filterMap function?).map Function.summary := by
        cases hfunction : item.function? <;> simp [hfunction]
      rw [hsplit]
      exact List.rel_append hfirst hothers
    · rw [List.flatMap_cons, List.foldl_append, hwalk, hwalks]
      simp

end Item

namespace Program

/-- **The outline of any program is its summary but for the places of the entries for `else`.** -/
theorem outline_upToElse (p : Program) : p.outline.UpToElse p.summary := by
  obtain ⟨gs, hgs, hitems⟩ := Item.exists_flatMap_walk p.items ⟨[], []⟩
  have hwalk : p.events.foldl step .empty = ⟨⟨p.summary.globals, gs⟩, none, []⟩ := by
    rw [p.events_eq_walk, Node.walk_eq, Node.around, List.cons_append, List.foldl_cons,
      Node.children, List.flatMap_map, List.foldl_append]
    exact congrArg (fun s => step s (.exit (.program p))) hitems
  rw [outline, hwalk]
  exact ⟨rfl, hgs⟩

end Program

end ImpFront
