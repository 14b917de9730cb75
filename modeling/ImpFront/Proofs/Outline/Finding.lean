import ImpFront.Outline.Summary
import ImpFront.Proofs.Syntax.Runs
/-!
# ImpFront.Proofs.Outline.Finding

**What a part of a program adds to an outline.** Declarations and calls are those of the nodes in
preorder. So are control structures, but for the `else` of an `if`: no node of its own stands for
it, and it comes between the control structures of the two blocks.

The lists that the summary finds by recursion on the forms are the same
(`Node.declared_eq_preorder`, `Node.callees_eq_preorder`).
-/

namespace ImpFront

/-! ### Findings -/

/-- What is found in some part of a program. -/
structure Finding where
  declared : List Variable
  controls : List Control
  callees : List String

namespace Finding

/-- Nothing found. -/
def none : Finding := ⟨[], [], []⟩

/-- What is found in two parts. -/
def append (x y : Finding) : Finding :=
  ⟨x.declared ++ y.declared, x.controls ++ y.controls, x.callees ++ y.callees⟩

/-- What is found in some parts. -/
def concat (xs : List Finding) : Finding := xs.foldr append none

@[ext] theorem ext {x y : Finding} (declared : x.declared = y.declared)
    (controls : x.controls = y.controls) (callees : x.callees = y.callees) : x = y := by
  cases x
  cases y
  simp_all

theorem append_assoc (x y z : Finding) : (x.append y).append z = x.append (y.append z) := by
  simp [append]

theorem concat_cons (x : Finding) (xs : List Finding) :
    concat (x :: xs) = x.append (concat xs) := rfl

/-- A field of what is found in some parts is that field of each of them, in order. -/
theorem concat_map {α β : Type} (field : Finding → List β) (hnone : field none = [])
    (happend : ∀ x y, field (x.append y) = field x ++ field y) (f : α → Finding) (as : List α) :
    field (concat (as.map f)) = as.flatMap fun a => field (f a) := by
  induction as with
  | nil => exact hnone
  | cons a as ih => rw [List.map_cons, concat_cons, happend, ih, List.flatMap_cons]

end Finding

theorem Statement.controlsList_eq_flatMap (body : List Statement) :
    controlsList body = body.flatMap Statement.controls := by
  induction body with
  | nil => rfl
  | cons s rest ih => rw [controlsList, ih, List.flatMap_cons]

theorem Statement.declaredList_eq_flatMap (body : List Statement) :
    declaredList body = body.flatMap Statement.declared := by
  induction body with
  | nil => rfl
  | cons s rest ih => rw [declaredList, ih, List.flatMap_cons]

theorem Statement.calleesList_eq_flatMap (body : List Statement) :
    calleesList body = body.flatMap Statement.callees := by
  induction body with
  | nil => rfl
  | cons s rest ih => rw [calleesList, ih, List.flatMap_cons]

theorem Expr.calleesList_eq_flatMap (es : List Expr) : calleesList es = es.flatMap callees := by
  induction es with
  | nil => rfl
  | cons e rest ih => rw [calleesList, ih, List.flatMap_cons]

namespace Node

/-! ### Nodes -/

/-- The variable that a node declares. -/
def declared? : Node → Option Variable
  | statement (.declare d) => some (.ofDeclaration d)
  | _ => none

/-- The name of the function that a node calls. -/
def callee? : Node → Option String
  | expr (.call callee _ _) => some callee
  | _ => none

/-- The control structure that a node is; an `else` has no node. -/
def control? : Node → Option Control
  | statement (.ifElse condition _ _ span) =>
    some ⟨.ifThen, some condition.text, span.start.line⟩
  | statement (.forLoop _ condition _ _ span) =>
    some ⟨.forLoop, some condition.text, span.start.line⟩
  | statement (.whileLoop condition _ span) =>
    some ⟨.whileLoop, some condition.text, span.start.line⟩
  | _ => none

/-- The block after `else`. -/
def alternative? : Node → Option Block
  | statement (.ifElse _ _ otherwise _) => otherwise
  | _ => none

/-- Whether the node is a statement, a block or an expression. -/
def isInner : Node → Bool
  | block _ | statement _ | expr _ => true
  | _ => false

/-- The variables that a tree declares, by its form. -/
def declared : Node → List Variable
  | statement s => s.declared
  | block b => b.declared
  | _ => []

/-- The names of the functions that a tree calls, by its form. -/
def callees : Node → List String
  | statement s => s.callees
  | block b => b.callees
  | expr e => e.callees
  | _ => []

/-- The control structures of a tree, by its form. -/
def controls : Node → List Control
  | statement s => s.controls
  | block b => b.controls
  | _ => []

/-- What a node adds before its parts. -/
def ownFinding (n : Node) : Finding :=
  ⟨n.declared?.toList, n.control?.toList, n.callee?.toList⟩

/-- What a tree adds. -/
def finding (n : Node) : Finding :=
  ⟨n.preorder.filterMap declared?, n.controls, n.preorder.filterMap callee?⟩

variable {n c : Node}

theorem isInner_of_mem_children (hn : n.isInner = true) (h : c ∈ n.children) :
    c.isInner = true := by
  cases n with
  | program p | function f | parameter q => cases hn
  | block b =>
    obtain ⟨s, -, rfl⟩ := List.mem_map.1 h
    rfl
  | statement s =>
    rcases shape_of_mem_statement h with ⟨e, rfl⟩ | ⟨b, rfl⟩ | ⟨d, rfl⟩ | ⟨u, rfl⟩ <;> rfl
  | expr e =>
    cases e with
    | symbol _ _ | number _ _ | string _ _ => cases h
    | not _ _ | group _ _ | assign _ _ _ =>
      obtain rfl := List.mem_singleton.1 h
      rfl
    | binary op left right span =>
      rcases List.mem_cons.1 h with rfl | h
      · rfl
      · obtain rfl := List.mem_singleton.1 h
        rfl
    | call callee arguments span =>
      obtain ⟨e, -, rfl⟩ := List.mem_map.1 h
      rfl

/-! ### Findings of nodes -/

/-- What the nodes of a tree give, one by one, its root gives first and then its parts. -/
theorem filterMap_preorder {α : Type} (f : Node → Option α) (n : Node) :
    n.preorder.filterMap f = (f n).toList ++ n.children.flatMap (·.preorder.filterMap f) := by
  rw [preorder_eq, List.filterMap_cons, List.filterMap_flatMap]
  cases f n <;> rfl

/-- Without an `else`, control structures follow the nodes. -/
theorem controls_eq (h : n.alternative? = none) (hn : n.isInner = true) :
    n.controls = n.control?.toList ++ n.children.flatMap controls := by
  cases n with
  | program p | function f | parameter q => cases hn
  | block b =>
    obtain ⟨body, span⟩ := b
    simp [controls, children, control?, Block.controls, Statement.controlsList_eq_flatMap,
      List.flatMap_map]
  | statement s =>
    cases s with
    | declare d =>
      obtain ⟨type, name, value, span⟩ := d
      cases value <;> rfl
    | update u => cases u <;> rfl
    | ifElse condition body otherwise span =>
      obtain rfl : otherwise = none := h
      simp [controls, children, control?, Statement.controls]
    | forLoop init condition step body span =>
      simp [controls, children, control?, Statement.controls]
    | whileLoop condition body span => simp [controls, children, control?, Statement.controls]
    | ret value span => cases value <;> rfl
    | call c span => rfl
  | expr e => cases e <;> simp [controls, children, control?, List.flatMap_map]

/-- Without an `else`, a tree adds what its root adds and then what its parts add. -/
theorem finding_eq (h : n.alternative? = none) (hn : n.isInner = true) :
    n.finding = n.ownFinding.append (.concat (n.children.map finding)) := by
  ext1
  · rw [Finding.append, Finding.concat_map Finding.declared rfl fun _ _ => rfl]
    exact filterMap_preorder declared? n
  · rw [Finding.append, Finding.concat_map Finding.controls rfl fun _ _ => rfl]
    exact controls_eq h hn
  · rw [Finding.append, Finding.concat_map Finding.callees rfl fun _ _ => rfl]
    exact filterMap_preorder callee? n

/-- With an `else`, that stands between what the two blocks add. -/
theorem finding_ifElse (condition : Expr) (body otherwise : Block) (span : Span) :
    (statement (.ifElse condition body (some otherwise) span)).finding
      = Finding.append ⟨[], [⟨.ifThen, some condition.text, span.start.line⟩], []⟩
        ((expr condition).finding.append ((block body).finding.append
          (Finding.append ⟨[], [⟨.otherwise, none, otherwise.span.start.line⟩], []⟩
            (block otherwise).finding))) := by
  ext1
  · refine (filterMap_preorder declared? _).trans ?_
    simp [children, finding, Finding.append, declared?]
  · simp [finding, Finding.append, controls, Statement.controls]
  · refine (filterMap_preorder callee? _).trans ?_
    simp [children, finding, Finding.append, callee?]

/-! ### The forms -/

/-- What is found in a node first and then in its parts is found in preorder. -/
theorem eq_filterMap_preorder {α : Type} {f : Node → Option α} {g : Node → List α}
    (hg : ∀ n : Node, n.isInner = true → g n = (f n).toList ++ n.children.flatMap g)
    (hn : n.isInner = true) : g n = n.preorder.filterMap f := by
  induction n using induct with
  | h n ih =>
    have hchildren : n.children.flatMap g = n.children.flatMap (·.preorder.filterMap f) :=
      List.flatMap_congr fun c hc => ih c hc (isInner_of_mem_children hn hc)
    rw [filterMap_preorder, hg n hn, hchildren]

theorem declared_eq (hn : n.isInner = true) :
    n.declared = n.declared?.toList ++ n.children.flatMap declared := by
  cases n with
  | program p | function f | parameter q => cases hn
  | block b =>
    obtain ⟨body, span⟩ := b
    simp [declared, children, declared?, Block.declared, Statement.declaredList_eq_flatMap,
      List.flatMap_map]
  | statement s =>
    cases s with
    | declare d =>
      obtain ⟨type, name, value, span⟩ := d
      cases value <;> rfl
    | update u => cases u <;> rfl
    | ifElse condition body otherwise span =>
      cases otherwise <;> simp [declared, children, declared?, Statement.declared]
    | forLoop init condition step body span =>
      simp [declared, children, declared?, Statement.declared]
    | whileLoop condition body span => simp [declared, children, declared?, Statement.declared]
    | ret value span => cases value <;> rfl
    | call c span => rfl
  | expr e => cases e <;> simp [declared, children, declared?, List.flatMap_map]

theorem callees_eq (hn : n.isInner = true) :
    n.callees = n.callee?.toList ++ n.children.flatMap callees := by
  cases n with
  | program p | function f | parameter q => cases hn
  | block b =>
    obtain ⟨body, span⟩ := b
    simp [callees, children, callee?, Block.callees, Statement.calleesList_eq_flatMap,
      List.flatMap_map]
  | statement s =>
    cases s with
    | declare d =>
      obtain ⟨type, name, value, span⟩ := d
      cases value <;> simp [callees, children, callee?, Statement.callees, Declaration.callees]
    | update u => cases u <;> simp [callees, children, callee?, Statement.callees, Update.callees]
    | ifElse condition body otherwise span =>
      cases otherwise <;> simp [callees, children, callee?, Statement.callees]
    | forLoop init condition step body span =>
      simp [callees, children, callee?, Statement.callees]
    | whileLoop condition body span => simp [callees, children, callee?, Statement.callees]
    | ret value span => cases value <;> simp [callees, children, callee?, Statement.callees]
    | call c span => simp [callees, children, callee?, Statement.callees]
  | expr e =>
    cases e <;>
      simp [callees, children, callee?, Expr.callees, Expr.calleesList_eq_flatMap,
        List.flatMap_map]

/-- The variables that a tree declares are those of its nodes in preorder. -/
theorem declared_eq_preorder (hn : n.isInner = true) :
    n.declared = n.preorder.filterMap declared? :=
  eq_filterMap_preorder (fun _ => declared_eq) hn

/-- The functions that a tree calls are those of its nodes in preorder. -/
theorem callees_eq_preorder (hn : n.isInner = true) :
    n.callees = n.preorder.filterMap callee? :=
  eq_filterMap_preorder (fun _ => callees_eq) hn

end Node

end ImpFront
