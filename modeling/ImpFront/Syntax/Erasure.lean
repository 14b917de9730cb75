import ImpFront.Syntax.Program
/-!
# ImpFront.Syntax.Erasure

**Trees without their places.** Erasing sets every span to one and the same value,
so two trees are equal after erasing exactly when they differ in spans at most.
-/

namespace ImpFront

namespace Expr

mutual

/-- An expression with all spans erased. -/
def erase : Expr → Expr
  | symbol name _ => symbol name default
  | number text _ => number text default
  | string value _ => string value default
  | not operand _ => not operand.erase default
  | group inner _ => group inner.erase default
  | assign target value _ => assign target value.erase default
  | binary op left right _ => binary op left.erase right.erase default
  | call callee arguments _ => call callee (eraseList arguments) default

/-- Expressions with all spans erased. -/
def eraseList : List Expr → List Expr
  | [] => []
  | e :: rest => e.erase :: eraseList rest

end

end Expr

/-- A call with all spans erased. -/
def Call.erase (c : Call) : Call := ⟨c.callee, Expr.eraseList c.arguments, default⟩

/-- A declaration with all spans erased. -/
def Declaration.erase (d : Declaration) : Declaration :=
  ⟨d.type, d.name, d.value.map Expr.erase, default⟩

/-- An update with all spans erased. -/
def Update.erase : Update → Update
  | assign name op value _ => assign name op value.erase default
  | step name op side _ => step name op side default

mutual

/-- A statement with all spans erased. -/
def Statement.erase : Statement → Statement
  | .declare declaration => .declare declaration.erase
  | .update update => .update update.erase
  | .ifElse condition body none _ => .ifElse condition.erase body.erase none default
  | .ifElse condition body (some otherwise) _ =>
    .ifElse condition.erase body.erase (some otherwise.erase) default
  | .forLoop init condition step body _ =>
    .forLoop init.erase condition.erase step.erase body.erase default
  | .whileLoop condition body _ => .whileLoop condition.erase body.erase default
  | .ret value _ => .ret (value.map Expr.erase) default
  | .call call _ => .call call.erase default

/-- A block with all spans erased. -/
def Block.erase : Block → Block
  | ⟨body, _⟩ => ⟨Statement.eraseList body, default⟩

/-- Statements with all spans erased. -/
def Statement.eraseList : List Statement → List Statement
  | [] => []
  | s :: rest => s.erase :: Statement.eraseList rest

end

/-- A parameter with its span erased. -/
def Parameter.erase (p : Parameter) : Parameter := ⟨p.type, p.name, default⟩

/-- A function with all spans erased. -/
def Function.erase (f : Function) : Function :=
  ⟨f.returns, f.name, f.parameters.map Parameter.erase, f.body.erase, default⟩

/-- A part of a program with all spans erased. -/
def Item.erase : Item → Item
  | global declaration => global declaration.erase
  | function f => function f.erase
  | statement s => statement s.erase

/-- A program with all spans erased. -/
def Program.erase (p : Program) : Program := ⟨p.items.map Item.erase, default⟩

end ImpFront
