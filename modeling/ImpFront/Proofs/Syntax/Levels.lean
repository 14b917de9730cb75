import ImpFront.Proofs.Syntax.Members
/-!
# ImpFront.Proofs.Syntax.Levels

**A tree never needs more levels of nesting than it has signs**: each level that
reading opens is paid for by a sign of its own. So a limit at least as large as the
number of tokens never refuses anything.
-/

namespace ImpFront

namespace Expr

mutual

/-- Below its own level, an expression needs fewer levels than it has signs. -/
theorem inner_lt_length_signs : (e : Expr) → e.inner < e.signs.length
  | symbol .. | number .. | string .. => by simp [inner, signs]
  | not operand _ => by
    have := operand.inner_lt_length_signs
    simp only [inner, signs, List.length_cons]
    omega
  | group inside _ => by
    have := inside.inner_lt_length_signs
    simp only [inner, signs, List.length_cons, List.length_append]
    omega
  | assign _ value _ => by
    have := value.inner_lt_length_signs
    simp only [inner, signs, List.length_cons]
    omega
  | binary _ left right _ => by
    -- The sign of the operator pays for the level of its right operand.
    have := left.inner_lt_length_signs
    have := right.inner_lt_length_signs
    simp only [inner, signs, List.length_cons, List.length_append]
    omega
  | call _ arguments _ => by
    have := needList_le_length_signsList arguments
    simp only [inner, signs, List.length_cons, List.length_append]
    omega

/-- Expressions need no more levels than they have signs. -/
theorem needList_le_length_signsList : (es : List Expr) → needList es ≤ (signsList es).length
  | [] => Nat.le_refl 0
  | [e] => by
    have := e.inner_lt_length_signs
    simp only [needList, signsList]
    omega
  | e :: f :: rest => by
    have := e.inner_lt_length_signs
    have := needList_le_length_signsList (f :: rest)
    rw [needList]
    simp only [signsList, List.length_cons, List.length_append]
    omega

end

theorem need_le_length_signs (e : Expr) : e.need ≤ e.signs.length := by
  have := e.inner_lt_length_signs
  rw [need]
  omega

end Expr

theorem Declaration.need_le_length_signs (d : Declaration) : d.need ≤ d.signs.length := by
  rw [need, signs]
  cases d.value with
  | none => exact Nat.zero_le _
  | some value =>
    have := value.need_le_length_signs
    simp only [List.length_cons, List.length_append]
    omega

theorem Update.need_le_length_signs (u : Update) : u.need ≤ u.signs.length := by
  cases u with
  | assign name op value span =>
    have := value.need_le_length_signs
    simp only [need, signs, List.length_cons]
    omega
  | step name op side span => exact Nat.zero_le _

mutual

/-- A statement needs no more levels than it has signs. -/
theorem Statement.need_le_length_signs : (st : Statement) → st.need ≤ st.signs.length
  | .declare d => d.need_le_length_signs
  | .update u => by
    have := u.need_le_length_signs
    simp only [Statement.need, Statement.signs, List.length_append]
    omega
  | .ifElse condition body none _ => by
    have := condition.need_le_length_signs
    have := body.need_le_length_signs
    simp only [Statement.need, Statement.signs, List.length_append, List.length_cons]
    omega
  | .ifElse condition body (some otherwise) _ => by
    have := condition.need_le_length_signs
    have := body.need_le_length_signs
    have := otherwise.need_le_length_signs
    simp only [Statement.need, Statement.signs, List.length_append, List.length_cons]
    omega
  | .forLoop init condition step body _ => by
    have := init.need_le_length_signs
    have := condition.need_le_length_signs
    have := step.need_le_length_signs
    have := body.need_le_length_signs
    simp only [Statement.need, Statement.signs, List.length_append, List.length_cons]
    omega
  | .whileLoop condition body _ => by
    have := condition.need_le_length_signs
    have := body.need_le_length_signs
    simp only [Statement.need, Statement.signs, List.length_append, List.length_cons]
    omega
  | .ret none _ => Nat.zero_le _
  | .ret (some value) _ => by
    have := value.need_le_length_signs
    simp only [Statement.need, Statement.signs, List.length_append, List.length_cons]
    omega
  | .call c _ => by
    have := Expr.needList_le_length_signsList c.arguments
    simp only [Statement.need, Statement.signs, Call.signs, Call.toExpr, Expr.signs,
      List.length_append, List.length_cons]
    omega

/-- A block needs no more levels than it has signs. -/
theorem Block.need_le_length_signs : (b : Block) → b.need ≤ b.signs.length
  | ⟨body, _⟩ => by
    have := Statement.needList_le_length_signsList body
    simp only [Block.need, Block.signs, List.length_append, List.length_cons]
    omega

/-- Statements need no more levels than they have signs. -/
theorem Statement.needList_le_length_signsList :
    (body : List Statement) → Statement.needList body ≤ (Statement.signsList body).length
  | [] => Nat.le_refl 0
  | st :: rest => by
    have := st.need_le_length_signs
    have := Statement.needList_le_length_signsList rest
    simp only [Statement.needList, Statement.signsList, List.length_append]
    omega

end

theorem Item.need_le_length_signs (item : Item) : item.need ≤ item.signs.length := by
  cases item with
  | global d => exact d.need_le_length_signs
  | function f =>
    have := f.body.need_le_length_signs
    simp only [need, signs, Function.signs, List.length_append, List.length_cons]
    omega
  | statement st => exact st.need_le_length_signs

/-- A program needs no more levels than it has signs. -/
theorem Program.need_le_length_signs (p : Program) : p.need ≤ p.signs.length := by
  rw [need, signs, Item.needList_le_iff]
  intro item hitem
  have hsub : item.signs.length ≤ (p.items.flatMap Item.signs).length :=
    (List.sublist_flatten_of_mem (List.mem_map_of_mem hitem)).length_le
  exact Nat.le_trans item.need_le_length_signs hsub

end ImpFront
