import Mathlib.Data.List.MinMax
import Mathlib.Order.Nat
import ImpFront.Proofs.Syntax.Members
import ImpFront.Proofs.Syntax.Traversal
/-!
# ImpFront.Proofs.Syntax.Runs

**The height of a tree by the levels it needs.** A level of nesting accounts for one
step down, with one exception: the left operand of an operator is a step down that
costs nothing. A *run* is a sequence of such steps, so the height is bounded by the
levels times the longest run (`Node.height_le_bound`), and not by the levels alone.
-/

namespace ImpFront

/-- The operators on the way down the left operands of an expression. -/
def Expr.run : Expr → Nat
  | binary _ left _ _ => 1 + left.run
  | _ => 0

namespace Node

/-- The run of operators that begins at a node. -/
def run : Node → Nat
  | expr e => e.run
  | _ => 0

/-- The length of the longest run of operators in a tree. -/
def longestRun (n : Node) : Nat := (n.preorder.map run).foldr max 0

/-! ### Nodes of a tree -/

theorem self_mem_preorder (n : Node) : n ∈ n.preorder := by
  rw [preorder_eq]
  exact List.mem_cons_self ..

theorem mem_preorder_of_child {c d n : Node} (hc : c ∈ n.children) (hd : d ∈ c.preorder) :
    d ∈ n.preorder := by
  rw [preorder_eq]
  exact List.mem_cons_of_mem _ (List.mem_flatMap.2 ⟨c, hc, hd⟩)

theorem run_le_longestRun {c n : Node} (h : c ∈ n.preorder) : c.run ≤ n.longestRun :=
  List.le_max_of_le (List.mem_map_of_mem h) (Nat.le_refl _)

/-! ### Levels -/

/-- The levels a node needs; those of a call are its arguments', because a call that is a statement
takes none for itself. -/
def levels : Node → Nat
  | program p => p.need
  | function f => f.body.need
  | parameter _ => 0
  | block b => b.need
  | statement s => s.need
  | expr (.call _ arguments _) => Expr.needList arguments
  | expr e => e.need

variable {c n : Node} {longest : Nat}

theorem levels_expr_le (e : Expr) : (expr e).levels ≤ e.need := by
  cases e with
  | call callee arguments span => exact Nat.le_add_left _ _
  | _ => exact Nat.le_refl _

theorem levels_le_of_mem_expr {e : Expr} (h : c ∈ (expr e).children) :
    c.levels ≤ (expr e).levels := by
  -- Below an operator or a parenthesis, a whole expression is an upper bound for the child.
  have hwhole (operand : Expr) (k : Nat) (hk : operand.inner ≤ k) :
      (expr operand).levels ≤ 1 + k :=
    Nat.le_trans (levels_expr_le operand) (Nat.add_le_add_left hk 1)
  cases e with
  | symbol _ _ | number _ _ | string _ _ => cases h
  | not operand span | group operand span | assign target operand span =>
    obtain rfl := List.mem_singleton.1 h
    exact hwhole operand _ (Nat.le_add_left _ _)
  | binary op left right span =>
    rcases List.mem_cons.1 h with rfl | h
    · exact hwhole left _ (Nat.le_max_left _ _)
    · obtain rfl := List.mem_singleton.1 h
      have := Nat.le_max_right left.inner (1 + right.inner)
      exact hwhole right _ (by simp only [Expr.inner]; omega)
  | call callee arguments span =>
    obtain ⟨argument, hmem, rfl⟩ := List.mem_map.1 h
    have hneed := Expr.needList_le_iff.1 (Nat.le_refl (Expr.needList arguments)) argument hmem
    exact Nat.le_trans (levels_expr_le argument) hneed

theorem levels_le_of_mem_statement {s : Statement} (h : c ∈ (statement s).children) :
    c.levels ≤ s.need := by
  cases s with
  | declare d =>
    obtain ⟨type, name, value, span⟩ := d
    cases value with
    | none => cases h
    | some value =>
      obtain rfl := List.mem_singleton.1 h
      exact levels_expr_le value
  | update u =>
    cases u with
    | step name op side span => cases h
    | assign name op value span =>
      obtain rfl := List.mem_singleton.1 h
      exact levels_expr_le value
  | ifElse condition body otherwise span =>
    have hcondition := levels_expr_le condition
    cases otherwise with
    | none =>
      simp only [children, Option.toList_none, List.map_nil, List.mem_cons, List.not_mem_nil,
        or_false] at h
      rcases h with rfl | rfl <;> simp only [levels, Statement.need] at * <;> omega
    | some otherwise =>
      simp only [children, Option.toList_some, List.map_cons, List.map_nil, List.mem_cons,
        List.not_mem_nil, or_false] at h
      rcases h with rfl | rfl | rfl <;> simp only [levels, Statement.need] at * <;> omega
  | forLoop init condition step body span =>
    have hcondition := levels_expr_le condition
    simp only [children, List.mem_cons, List.not_mem_nil, or_false] at h
    rcases h with rfl | rfl | rfl | rfl <;> simp only [levels, Statement.need] at * <;> omega
  | whileLoop condition body span =>
    have hcondition := levels_expr_le condition
    simp only [children, List.mem_cons, List.not_mem_nil, or_false] at h
    rcases h with rfl | rfl <;> simp only [levels, Statement.need] at * <;> omega
  | ret value span =>
    cases value with
    | none => cases h
    | some value =>
      obtain rfl := List.mem_singleton.1 h
      exact levels_expr_le value
  | call c span =>
    obtain rfl := List.mem_singleton.1 h
    exact Nat.le_refl _

/-- No child needs more levels than its node. -/
theorem levels_le_of_mem_children (h : c ∈ n.children) : c.levels ≤ n.levels := by
  cases n with
  | program p =>
    obtain ⟨item, hitem, rfl⟩ := List.mem_map.1 h
    have hneed := Item.needList_le_iff.1 (Nat.le_refl p.need) item hitem
    cases item <;> exact hneed
  | function f =>
    rcases List.mem_append.1 h with hparameter | hbody
    · obtain ⟨q, -, rfl⟩ := List.mem_map.1 hparameter
      exact Nat.zero_le _
    · obtain rfl := List.mem_singleton.1 hbody
      exact Nat.le_refl _
  | parameter p => cases h
  | block b =>
    obtain ⟨body, span⟩ := b
    obtain ⟨s, hs, rfl⟩ := List.mem_map.1 h
    have hneed := Statement.needList_le_iff.1 (Nat.le_refl (Statement.needList body)) s hs
    exact Nat.le_trans hneed (Nat.le_add_left _ _)
  | statement s => exact levels_le_of_mem_statement h
  | expr e => exact levels_le_of_mem_expr h

/-- No node of a tree needs more levels than the tree. -/
theorem levels_le_of_mem_preorder (h : c ∈ n.preorder) : c.levels ≤ n.levels := by
  induction n using induct with
  | h n ih =>
    rw [preorder_eq] at h
    rcases List.mem_cons.1 h with rfl | h
    · exact Nat.le_refl _
    · obtain ⟨d, hd, hc⟩ := List.mem_flatMap.1 h
      exact Nat.le_trans (ih d hd hc) (levels_le_of_mem_children hd)

/-- An operator needs a level for itself and one for its right operand. -/
theorem two_le_levels_of_run_pos (h : 0 < n.run) : 2 ≤ n.levels := by
  cases n with
  | expr e =>
    cases e with
    | binary op left right span =>
      have := Nat.le_max_right left.inner (1 + right.inner)
      simp only [levels, Expr.need, Expr.inner]
      omega
    | _ => cases h
  | _ => cases h

/-- Without two levels there are no operators. -/
theorem longestRun_eq_zero (h : n.levels < 2) : n.longestRun = 0 := by
  have hrun : ∀ k ∈ n.preorder.map run, k ≤ 0 := by
    intro k hk
    obtain ⟨c, hc, rfl⟩ := List.mem_map.1 hk
    refine Nat.le_of_not_lt fun hpos => ?_
    have := two_le_levels_of_run_pos hpos
    have := levels_le_of_mem_preorder hc
    omega
  exact Nat.le_zero.1 (List.max_le_of_forall_le _ _ hrun)

/-! ### Height -/

/-- What the height of a node comes to, by the levels it needs, where no run is longer than
`longest`. -/
def bound (longest : Nat) : Node → Nat
  | program p => 3 + (longest + 2) * p.need
  | function f => 2 + (longest + 2) * f.body.need
  | parameter _ => 1
  | block b => 1 + (longest + 2) * b.need
  | statement (.declare d) => 1 + (longest + 2) * d.need
  | statement (.update u) => 1 + (longest + 2) * u.need
  | statement s => 2 + (longest + 2) * s.need
  | expr e => e.run + 1 + (longest + 1) * e.inner

theorem bound_expr (longest : Nat) (e : Expr) :
    (expr e).bound longest = e.run + 1 + (longest + 1) * e.inner := rfl

theorem bound_pos (longest : Nat) (n : Node) : 0 < n.bound longest := by
  unfold bound
  split <;> omega

theorem bound_statement_le (longest : Nat) (s : Statement) :
    (statement s).bound longest ≤ 2 + (longest + 2) * s.need := by
  unfold bound
  split <;> simp_all [Statement.need]

/-- A whole expression has a level for itself, and so for its run. -/
theorem bound_expr_le {e : Expr} (h : e.run ≤ longest) :
    (expr e).bound longest ≤ (longest + 2) * e.need := by
  have hneed : (longest + 1) * e.need = (longest + 1) + (longest + 1) * e.inner := by
    rw [Expr.need, Nat.mul_add, Nat.mul_one]
  have hmore : (longest + 1) * e.need ≤ (longest + 2) * e.need :=
    Nat.mul_le_mul_right _ (Nat.le_succ _)
  rw [bound_expr]
  omega

/-- Below an expression, each child is lower: by its level, or by the run for a left operand. -/
theorem bound_lt_of_mem_expr {e : Expr} (hc : c ∈ (expr e).children) (hrun : c.run ≤ longest) :
    c.bound longest < (expr e).bound longest := by
  -- An operand that takes a level of its own is lower whatever its run is.
  have hlevel (operand : Expr) (k : Nat) (hoperand : operand.run ≤ longest)
      (hk : 1 + operand.inner ≤ k) :
      (expr operand).bound longest ≤ (longest + 1) * k := by
    have := Nat.mul_le_mul_left (longest + 1) hk
    rw [Nat.mul_add, Nat.mul_one] at this
    rw [bound_expr]
    omega
  cases e with
  | symbol _ _ | number _ _ | string _ _ => cases hc
  | not operand span | group operand span | assign target operand span =>
    obtain rfl := List.mem_singleton.1 hc
    have := hlevel operand _ hrun (Nat.le_refl _)
    simp only [bound_expr, Expr.run, Expr.inner] at this ⊢
    omega
  | binary op left right span =>
    rcases List.mem_cons.1 hc with rfl | hc
    · -- The left operand takes no level, but its run is shorter by this operator.
      have := Nat.mul_le_mul_left (longest + 1) (Nat.le_max_left left.inner (1 + right.inner))
      simp only [bound_expr, Expr.run, Expr.inner]
      omega
    · obtain rfl := List.mem_singleton.1 hc
      have := hlevel right _ hrun (Nat.le_max_right left.inner (1 + right.inner))
      simp only [bound_expr, Expr.run, Expr.inner] at this ⊢
      omega
  | call callee arguments span =>
    obtain ⟨argument, hmem, rfl⟩ := List.mem_map.1 hc
    have hneed := Expr.needList_le_iff.1 (Nat.le_refl (Expr.needList arguments)) argument hmem
    have := hlevel argument _ hrun hneed
    simp only [bound_expr, Expr.run, Expr.inner] at this ⊢
    omega

/-- Below a statement there are expressions and blocks, and the statements of a `for` header. -/
theorem shape_of_mem_statement {s : Statement} (hc : c ∈ (statement s).children) :
    (∃ e, c = expr e) ∨ (∃ b, c = block b) ∨ (∃ d, c = statement (.declare d))
      ∨ ∃ u, c = statement (.update u) := by
  cases s with
  | declare d =>
    obtain ⟨e, -, rfl⟩ := List.mem_map.1 hc
    exact .inl ⟨e, rfl⟩
  | update u =>
    cases u with
    | step name op side span => cases hc
    | assign name op value span => exact .inl ⟨value, List.mem_singleton.1 hc⟩
  | ifElse condition body otherwise span =>
    rcases List.mem_cons.1 hc with rfl | hc
    · exact .inl ⟨condition, rfl⟩
    · rcases List.mem_cons.1 hc with rfl | hc
      · exact .inr (.inl ⟨body, rfl⟩)
      · obtain ⟨b, -, rfl⟩ := List.mem_map.1 hc
        exact .inr (.inl ⟨b, rfl⟩)
  | forLoop init condition step body span =>
    simp only [children, List.mem_cons, List.not_mem_nil, or_false] at hc
    rcases hc with rfl | rfl | rfl | rfl
    · exact .inr (.inr (.inl ⟨init, rfl⟩))
    · exact .inl ⟨condition, rfl⟩
    · exact .inr (.inr (.inr ⟨step, rfl⟩))
    · exact .inr (.inl ⟨body, rfl⟩)
  | whileLoop condition body span =>
    rcases List.mem_cons.1 hc with rfl | hc
    · exact .inl ⟨condition, rfl⟩
    · exact .inr (.inl ⟨body, List.mem_singleton.1 hc⟩)
  | ret value span =>
    obtain ⟨e, -, rfl⟩ := List.mem_map.1 hc
    exact .inl ⟨e, rfl⟩
  | call call span => exact .inl ⟨call.toExpr, List.mem_singleton.1 hc⟩

/-- What a statement is made of is at most one node higher than its levels say. -/
theorem bound_le_of_mem_statement {s : Statement} (hc : c ∈ (statement s).children)
    (hrun : c.run ≤ longest) : c.bound longest ≤ 1 + (longest + 2) * c.levels := by
  rcases shape_of_mem_statement hc with ⟨e, rfl⟩ | ⟨b, rfl⟩ | ⟨d, rfl⟩ | ⟨u, rfl⟩
  · cases e with
    | call callee arguments span =>
      have hmore : (longest + 1) * Expr.needList arguments
          ≤ (longest + 2) * Expr.needList arguments :=
        Nat.mul_le_mul_right _ (Nat.le_succ _)
      simp only [bound_expr, Expr.run, Expr.inner, levels]
      omega
    | _ => exact Nat.le_trans (bound_expr_le hrun) (Nat.le_add_left _ _)
  · exact Nat.le_refl _
  · exact Nat.le_refl _
  · exact Nat.le_refl _

theorem bound_lt_of_mem_statement {s : Statement} (hc : c ∈ (statement s).children)
    (hrun : c.run ≤ longest) : c.bound longest < (statement s).bound longest := by
  have hlevels := Nat.mul_le_mul_left (longest + 2) (levels_le_of_mem_statement hc)
  have hpart := bound_le_of_mem_statement hc hrun
  cases s with
  | declare d =>
    -- The value is a whole expression, which makes up for the node of the declaration.
    obtain ⟨e, he, rfl⟩ := List.mem_map.1 hc
    have hwhole := bound_expr_le hrun
    have hneed : d.need = e.need := by rw [Declaration.need, Option.mem_toList.1 he]
    rw [bound, hneed]
    omega
  | update u =>
    cases u with
    | step name op side span => cases hc
    | assign name op value span =>
      obtain rfl := List.mem_singleton.1 hc
      have hwhole := bound_expr_le hrun
      rw [bound, Update.need]
      omega
  | _ =>
    show c.bound longest < 2 + (longest + 2) * Statement.need _
    omega

/-- A child is lower than its node, by this bound. -/
theorem bound_lt_of_mem_children (hc : c ∈ n.children) (hrun : c.run ≤ longest) :
    c.bound longest < n.bound longest := by
  have hlevels := Nat.mul_le_mul_left (longest + 2) (levels_le_of_mem_children hc)
  cases n with
  | program p =>
    obtain ⟨item, hitem, rfl⟩ := List.mem_map.1 hc
    cases item with
    | global d =>
      simp only [Item.node, bound, levels, Statement.need] at hlevels ⊢
      omega
    | function f =>
      simp only [Item.node, bound, levels] at hlevels ⊢
      omega
    | statement s =>
      have hstatement := bound_statement_le longest s
      simp only [Item.node, bound, levels] at hlevels hstatement ⊢
      omega
  | function f =>
    rcases List.mem_append.1 hc with hparameter | hbody
    · obtain ⟨q, -, rfl⟩ := List.mem_map.1 hparameter
      simp only [bound]
      omega
    · obtain rfl := List.mem_singleton.1 hbody
      simp only [bound]
      omega
  | parameter p => cases hc
  | block b =>
    obtain ⟨body, span⟩ := b
    obtain ⟨s, hs, rfl⟩ := List.mem_map.1 hc
    have hneed := Statement.needList_le_iff.1 (Nat.le_refl (Statement.needList body)) s hs
    have hbody := Nat.mul_le_mul_left (longest + 2) (Nat.add_le_add_left hneed 1)
    have hstatement := bound_statement_le longest s
    rw [Nat.mul_add, Nat.mul_one] at hbody
    rw [bound, Block.need]
    omega
  | statement s => exact bound_lt_of_mem_statement hc hrun
  | expr e => exact bound_lt_of_mem_expr hc hrun

/-- **The height of a tree**, by the levels it needs and the longest of its runs. -/
theorem height_le_bound (n : Node) (hrun : ∀ c ∈ n.preorder, c.run ≤ longest) :
    n.height ≤ n.bound longest := by
  induction n using induct with
  | h n ih =>
    have hchildren : ∀ k ∈ n.children.map height, k ≤ n.bound longest - 1 := by
      intro k hk
      obtain ⟨c, hc, rfl⟩ := List.mem_map.1 hk
      have hheight := ih c hc fun d hd => hrun d (mem_preorder_of_child hc hd)
      have hlt := bound_lt_of_mem_children hc
        (hrun c (mem_preorder_of_child hc (self_mem_preorder c)))
      omega
    have hmax : (n.children.map height).foldr max 0 ≤ n.bound longest - 1 :=
      List.max_le_of_forall_le _ _ hchildren
    have hpos := bound_pos longest n
    rw [height_eq]
    omega

end Node

/-- The length of the longest run of operators in a program. -/
def Program.longestRun (p : Program) : Nat := (Node.program p).longestRun

/-- No more nodes of a program are open at once than its levels and its longest run allow. -/
theorem Program.maxOpen_events_le (p : Program) :
    Event.maxOpen p.events ≤ 3 + (p.longestRun + 2) * p.need := by
  rw [p.maxOpen_events]
  exact Node.height_le_bound _ fun c hc => Node.run_le_longestRun hc

end ImpFront
