import ImpFront.Source.Position
import ImpFront.Syntax.Operator
/-!
# ImpFront.Syntax.Expr

**Expressions.** Every expression records the stretch of source it was read from.
Parentheses stay in the tree, so a tree stands for one sequence of tokens; number
literals keep their text.

A call is an expression and, followed by a semicolon, a statement. `Call` is what
both hold.
-/

namespace ImpFront

/-- An expression. -/
inductive Expr where
  | symbol (name : String) (span : Span)
  | number (text : String) (span : Span)
  | string (value : String) (span : Span)
  /-- `!operand` -/
  | not (operand : Expr) (span : Span)
  /-- `(inner)` -/
  | group (inner : Expr) (span : Span)
  /-- `target = value` -/
  | assign (target : String) (value : Expr) (span : Span)
  /-- `left op right` -/
  | binary (op : BinaryOp) (left right : Expr) (span : Span)
  /-- `callee(arguments)` -/
  | call (callee : String) (arguments : List Expr) (span : Span)
  deriving Repr, Inhabited

namespace Expr

/-- The source of an expression. -/
def span : Expr → Span
  | symbol _ span | number _ span | string _ span | not _ span | group _ span
  | assign _ _ span | binary _ _ _ span | call _ _ span => span

/-! ### Equality -/

mutual

/-- Whether two expressions are equal, spans included. -/
def same : Expr → Expr → Bool
  | symbol n s, symbol n' s' => n = n' && s = s'
  | number t s, number t' s' => t = t' && s = s'
  | string v s, string v' s' => v = v' && s = s'
  | not e s, not e' s' => same e e' && s = s'
  | group e s, group e' s' => same e e' && s = s'
  | assign t e s, assign t' e' s' => t = t' && same e e' && s = s'
  | binary op l r s, binary op' l' r' s' => op = op' && same l l' && same r r' && s = s'
  | call c as s, call c' as' s' => c = c' && sameList as as' && s = s'
  | _, _ => false

/-- Whether two lists of expressions are equal. -/
def sameList : List Expr → List Expr → Bool
  | [], [] => true
  | a :: as, b :: bs => same a b && sameList as bs
  | _, _ => false

end

mutual

theorem same_iff : (a b : Expr) → (same a b = true ↔ a = b)
  | symbol n s, b => by cases b <;> simp [same]
  | number t s, b => by cases b <;> simp [same]
  | string v s, b => by cases b <;> simp [same]
  | not e s, b => by cases b <;> simp [same, same_iff e]
  | group e s, b => by cases b <;> simp [same, same_iff e]
  | assign t e s, b => by cases b <;> simp [same, same_iff e, and_assoc]
  | binary op l r s, b => by cases b <;> simp [same, same_iff l, same_iff r, and_assoc]
  | call c as s, b => by cases b <;> simp [same, sameList_iff as, and_assoc]

theorem sameList_iff : (as bs : List Expr) → (sameList as bs = true ↔ as = bs)
  | [], bs => by cases bs <;> simp [sameList]
  | a :: as, bs => by cases bs <;> simp [sameList, same_iff a, sameList_iff as]

end

instance : DecidableEq Expr := fun a b => decidable_of_iff _ (same_iff a b)

end Expr

/-- A function name applied to arguments. -/
structure Call where
  callee : String
  arguments : List Expr
  span : Span
  deriving DecidableEq, Repr, Inhabited

namespace Call

/-- A call as an expression. -/
def toExpr (c : Call) : Expr := .call c.callee c.arguments c.span

@[simp] theorem span_toExpr (c : Call) : c.toExpr.span = c.span := rfl

end Call

end ImpFront
