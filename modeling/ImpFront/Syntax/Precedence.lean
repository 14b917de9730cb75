import ImpFront.Syntax.Program
/-!
# ImpFront.Syntax.Precedence

**Which trees can be read.** Reading builds one of the many trees that have the
same tokens; the conditions here single it out by the powers of operators alone.

* `Expr.edge` is the power below which an operator behind the expression would be
  drawn into it, at its right end.
* `Expr.fits least` says that reading with the minimum `least` can build the tree:
  each operator is above the minimum it is read at, and its left operand does not
  draw it in.
-/

namespace ImpFront

namespace Expr

/-- The power up to which an operator behind the expression leaves it whole. -/
def edge : Expr → Power
  | symbol .. | number .. | string .. | group .. | call .. => Power.top
  | not operand _ => min Power.notOperand operand.edge
  | assign .. => Power.lowest
  | binary op _ right _ => min (op.power + 1) right.edge

mutual

/-- Whether reading with a minimum of `least` can build the expression. -/
def fits (least : Power) : Expr → Bool
  | symbol .. | number .. | string .. => true
  | not operand _ => fits Power.notOperand operand
  | group inner _ => fits Power.lowest inner
  | assign _ value _ => fits Power.lowest value
  | binary op left right _ =>
    least < op.power && fits least left && op.power ≤ left.edge && fits (op.power + 1) right
  | call _ arguments _ => fitsList arguments

/-- Whether each of some whole expressions can be built. -/
def fitsList : List Expr → Bool
  | [] => true
  | e :: rest => fits Power.lowest e && fitsList rest

end

/-- Whether the expression can be read where a whole expression stands. -/
def wellFormed (e : Expr) : Bool := e.fits Power.lowest

end Expr

/-- Whether the value of a declaration can be read. -/
def Declaration.wellFormed (d : Declaration) : Bool := d.value.all Expr.wellFormed

/-- Whether the value of an update can be read. -/
def Update.wellFormed : Update → Bool
  | assign _ _ value _ => value.wellFormed
  | step .. => true

mutual

/-- Whether all expressions of a statement can be read. -/
def Statement.wellFormed : Statement → Bool
  | .declare declaration => declaration.wellFormed
  | .update update => update.wellFormed
  | .ifElse condition body none _ => condition.wellFormed && body.wellFormed
  | .ifElse condition body (some otherwise) _ =>
    condition.wellFormed && body.wellFormed && otherwise.wellFormed
  | .forLoop init condition step body _ =>
    init.wellFormed && condition.wellFormed && step.wellFormed && body.wellFormed
  | .whileLoop condition body _ => condition.wellFormed && body.wellFormed
  | .ret value _ => value.all Expr.wellFormed
  | .call call _ => Expr.fitsList call.arguments

/-- Whether all statements of a block can be read. -/
def Block.wellFormed : Block → Bool
  | ⟨body, _⟩ => Statement.wellFormedList body

/-- Whether all of some statements can be read. -/
def Statement.wellFormedList : List Statement → Bool
  | [] => true
  | s :: rest => s.wellFormed && Statement.wellFormedList rest

end

/-- Whether all expressions of a part of a program can be read. -/
def Item.wellFormed : Item → Bool
  | global declaration => declaration.wellFormed
  | function f => f.body.wellFormed
  | statement s => s.wellFormed

namespace Item

/-- Whether the part is a global. -/
def isGlobal : Item → Bool
  | global _ => true
  | _ => false

/-- Whether the part is a declaration that would be a global, had it come earlier. -/
def isLateDeclaration : Item → Bool
  | statement (.declare _) => true
  | _ => false

end Item

namespace Program

/-- The parts behind the leading globals. -/
def others (p : Program) : List Item := p.items.dropWhile Item.isGlobal

/-- Whether the program can be read: globals come first and are all that could be, and all
expressions can be read. -/
def wellFormed (p : Program) : Bool :=
  p.others.all (!·.isGlobal) && !p.others.head?.any Item.isLateDeclaration
    && p.items.all Item.wellFormed

end Program

end ImpFront
