import ImpFront.Syntax.Erasure
/-!
# ImpFront.Syntax.Renaming

**Trees with other names and literals.** Renaming replaces each name and the text of each
literal and keeps everything else: constructors, operators, types, sides and spans. With the
renaming that forgets all texts, and without places, what remains of a tree is its skeleton.
-/

namespace ImpFront

namespace Expr

mutual

/-- An expression with other names and literals. -/
def rename (f : String → String) : Expr → Expr
  | symbol name span => symbol (f name) span
  | number text span => number (f text) span
  | string value span => string (f value) span
  | not operand span => not (operand.rename f) span
  | group inner span => group (inner.rename f) span
  | assign target value span => assign (f target) (value.rename f) span
  | binary op left right span => binary op (left.rename f) (right.rename f) span
  | call callee arguments span => call (f callee) (renameList f arguments) span

/-- Expressions with other names and literals. -/
def renameList (f : String → String) : List Expr → List Expr
  | [] => []
  | e :: rest => e.rename f :: renameList f rest

end

end Expr

/-- A call with other names and literals. -/
def Call.rename (f : String → String) (c : Call) : Call :=
  ⟨f c.callee, Expr.renameList f c.arguments, c.span⟩

/-- A declaration with other names and literals. -/
def Declaration.rename (f : String → String) (d : Declaration) : Declaration :=
  ⟨d.type, f d.name, d.value.map (Expr.rename f), d.span⟩

/-- An update with other names and literals. -/
def Update.rename (f : String → String) : Update → Update
  | assign name op value span => assign (f name) op (value.rename f) span
  | step name op side span => step (f name) op side span

mutual

/-- A statement with other names and literals. -/
def Statement.rename (f : String → String) : Statement → Statement
  | .declare declaration => .declare (declaration.rename f)
  | .update update => .update (update.rename f)
  | .ifElse condition body none span => .ifElse (condition.rename f) (body.rename f) none span
  | .ifElse condition body (some otherwise) span =>
    .ifElse (condition.rename f) (body.rename f) (some (otherwise.rename f)) span
  | .forLoop init condition step body span =>
    .forLoop (init.rename f) (condition.rename f) (step.rename f) (body.rename f) span
  | .whileLoop condition body span => .whileLoop (condition.rename f) (body.rename f) span
  | .ret value span => .ret (value.map (Expr.rename f)) span
  | .call call span => .call (call.rename f) span

/-- A block with other names and literals. -/
def Block.rename (f : String → String) : Block → Block
  | ⟨body, span⟩ => ⟨Statement.renameList f body, span⟩

/-- Statements with other names and literals. -/
def Statement.renameList (f : String → String) : List Statement → List Statement
  | [] => []
  | s :: rest => s.rename f :: Statement.renameList f rest

end

/-- A parameter with another name. -/
def Parameter.rename (f : String → String) (p : Parameter) : Parameter := ⟨p.type, f p.name, p.span⟩

/-- A function with other names and literals. -/
def Function.rename (f : String → String) (g : Function) : Function :=
  ⟨g.returns, f g.name, g.parameters.map (Parameter.rename f), g.body.rename f, g.span⟩

/-- A part of a program with other names and literals. -/
def Item.rename (f : String → String) : Item → Item
  | global declaration => global (declaration.rename f)
  | function g => function (g.rename f)
  | statement s => statement (s.rename f)

namespace Program

/-- A program with other names and literals. -/
def rename (f : String → String) (p : Program) : Program := ⟨p.items.map (Item.rename f), p.span⟩

/-- What remains of a program without names, texts of literals and places. -/
def skeleton (p : Program) : Program := (p.rename fun _ => "").erase

end Program

end ImpFront
