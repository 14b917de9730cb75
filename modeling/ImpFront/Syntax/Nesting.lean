import ImpFront.Syntax.Program
/-!
# ImpFront.Syntax.Nesting

The **levels of nesting a tree needs** to be read. A whole expression takes one
level, and so does a block. What an expression needs below its own level is
`Expr.inner`: the left operand of an operator is read at the level of the operator
itself, the right operand one level deeper. So this is not the height of the tree.
-/

namespace ImpFront

namespace Expr

mutual

/-- The levels an expression needs below its own. -/
def inner : Expr → Nat
  | symbol .. | number .. | string .. => 0
  | not operand _ => 1 + operand.inner
  | group inside _ => 1 + inside.inner
  | assign _ value _ => 1 + value.inner
  | binary _ left right _ => max left.inner (1 + right.inner)
  | call _ arguments _ => needList arguments

/-- The levels that the largest of some whole expressions needs. -/
def needList : List Expr → Nat
  | [] => 0
  | e :: rest => max (1 + e.inner) (needList rest)

end

/-- The levels a whole expression needs. -/
def need (e : Expr) : Nat := 1 + e.inner

end Expr

/-- The levels a declaration needs. -/
def Declaration.need (d : Declaration) : Nat :=
  match d.value with
  | none => 0
  | some value => value.need

/-- The levels an update needs. -/
def Update.need : Update → Nat
  | assign _ _ value _ => value.need
  | step .. => 0

mutual

/-- The levels a statement needs. -/
def Statement.need : Statement → Nat
  | .declare declaration => declaration.need
  | .update update => update.need
  | .ifElse condition body none _ => max condition.need body.need
  | .ifElse condition body (some otherwise) _ =>
    max condition.need (max body.need otherwise.need)
  | .forLoop init condition step body _ =>
    max init.need (max condition.need (max step.need body.need))
  | .whileLoop condition body _ => max condition.need body.need
  | .ret none _ => 0
  | .ret (some value) _ => value.need
  | .call call _ => Expr.needList call.arguments

/-- The levels a block needs, its own included. -/
def Block.need : Block → Nat
  | ⟨body, _⟩ => 1 + Statement.needList body

/-- The levels that the largest of some statements needs. -/
def Statement.needList : List Statement → Nat
  | [] => 0
  | s :: rest => max s.need (Statement.needList rest)

end

/-- The levels a part of a program needs. -/
def Item.need : Item → Nat
  | global declaration => declaration.need
  | function f => f.body.need
  | statement s => s.need

/-- The levels that the largest of some parts needs. -/
def Item.needList : List Item → Nat
  | [] => 0
  | item :: rest => max item.need (needList rest)

/-- The levels a program needs. -/
def Program.need (p : Program) : Nat := Item.needList p.items

end ImpFront
