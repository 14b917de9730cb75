import ImpFront.Syntax.Erasure
import ImpFront.Syntax.Nesting
import ImpFront.Syntax.Precedence
import ImpFront.Syntax.Sign
/-!
# ImpFront.Proofs.Syntax.Members

**Lists of parts, member by member.** The functions on lists that stand beside the
functions on trees say of a list what the latter say of each member; with commas
in between, a list is its first member and then a comma before each other one.
-/

namespace ImpFront

/-! ### Signs -/

/-- A separated list is its first part and then the separator before each other one. -/
theorem Sign.separate_cons (separator : Sign) (first : List Sign) (others : List (List Sign)) :
    separate separator (first :: others) = first ++ others.flatMap (separator :: ·) := by
  induction others generalizing first with
  | nil => simp [separate]
  | cons next others ih => rw [separate, ih, List.flatMap_cons, List.cons_append]

/-- Arguments are the first one and then a comma before each other one. -/
theorem Expr.signsList_cons (first : Expr) (others : List Expr) :
    signsList (first :: others)
      = first.signs ++ others.flatMap fun e => .fixed .comma :: e.signs := by
  induction others generalizing first with
  | nil => simp [signsList]
  | cons next others ih => rw [signsList, ih, List.flatMap_cons, List.cons_append]

theorem Statement.signsList_eq_flatMap (body : List Statement) :
    signsList body = body.flatMap Statement.signs := by
  induction body with
  | nil => rfl
  | cons s rest ih => rw [signsList, ih, List.flatMap_cons]

/-- Every expression has a first sign. -/
theorem Expr.signs_ne_nil (e : Expr) : e.signs ≠ [] := by
  cases e <;> simp [signs]

theorem Declaration.signs_ne_nil (d : Declaration) : d.signs ≠ [] := by
  unfold signs
  split <;> simp

theorem Statement.signs_ne_nil (s : Statement) : s.signs ≠ [] := by
  cases s with
  | declare d => rw [signs]; exact d.signs_ne_nil
  | ifElse c b o sp => cases o <;> simp [signs]
  | ret v sp => cases v <;> simp [signs]
  | _ => simp [signs]

theorem Item.signs_ne_nil (item : Item) : item.signs ≠ [] := by
  cases item with
  | global d => exact d.signs_ne_nil
  | function f => simp [signs, Function.signs]
  | statement s => exact s.signs_ne_nil

/-! ### Precedence -/

theorem Expr.fitsList_iff {es : List Expr} :
    fitsList es = true ↔ ∀ e ∈ es, e.fits Power.lowest = true := by
  induction es with
  | nil => simp [fitsList]
  | cons e rest ih => simp [fitsList, ih]

theorem Statement.wellFormedList_iff {body : List Statement} :
    wellFormedList body = true ↔ ∀ s ∈ body, s.wellFormed = true := by
  induction body with
  | nil => simp [wellFormedList]
  | cons s rest ih => simp [wellFormedList, ih]

/-! ### Nesting -/

theorem Expr.needList_le_iff {es : List Expr} {n : Nat} :
    needList es ≤ n ↔ ∀ e ∈ es, e.need ≤ n := by
  induction es with
  | nil => simp [needList]
  | cons e rest ih => rw [needList, Nat.max_le, ih, List.forall_mem_cons, need]

theorem Statement.needList_le_iff {body : List Statement} {n : Nat} :
    needList body ≤ n ↔ ∀ s ∈ body, s.need ≤ n := by
  induction body with
  | nil => simp [needList]
  | cons s rest ih => rw [needList, Nat.max_le, ih, List.forall_mem_cons]

theorem Item.needList_le_iff {items : List Item} {n : Nat} :
    needList items ≤ n ↔ ∀ item ∈ items, item.need ≤ n := by
  induction items with
  | nil => simp [needList]
  | cons item rest ih => rw [needList, Nat.max_le, ih, List.forall_mem_cons]

/-! ### Erasure -/

theorem Expr.eraseList_eq_map (es : List Expr) : eraseList es = es.map erase := by
  induction es with
  | nil => rfl
  | cons e rest ih => rw [eraseList, ih, List.map_cons]

theorem Statement.eraseList_eq_map (body : List Statement) : eraseList body = body.map erase := by
  induction body with
  | nil => rfl
  | cons st rest ih => rw [eraseList, ih, List.map_cons]

end ImpFront
