import ImpFront.Outline.Build
/-!
# ImpFront.Outline.Summary

The **outline by recursion on the tree**: which variables a part of the program
declares, which control structures it holds, and which functions it calls. It says
what the outline of a program read from a source is, without events and without
places other than lines.
-/

namespace ImpFront

/-! ### Calls -/

namespace Expr

mutual

/-- The names of the functions that an expression calls. -/
def callees : Expr → List String
  | symbol .. | number .. | string .. => []
  | not operand _ => operand.callees
  | group inner _ => inner.callees
  | assign _ value _ => value.callees
  | binary _ left right _ => left.callees ++ right.callees
  | call callee arguments _ => callee :: calleesList arguments

/-- The names of the functions that some expressions call. -/
def calleesList : List Expr → List String
  | [] => []
  | e :: rest => e.callees ++ calleesList rest

end

end Expr

/-- The names of the functions that a declaration calls. -/
def Declaration.callees (d : Declaration) : List String := d.value.toList.flatMap Expr.callees

/-- The names of the functions that an update calls. -/
def Update.callees : Update → List String
  | assign _ _ value _ => value.callees
  | step .. => []

mutual

/-- The names of the functions that a statement calls. -/
def Statement.callees : Statement → List String
  | .declare declaration => declaration.callees
  | .update update => update.callees
  | .ifElse condition body none _ => condition.callees ++ body.callees
  | .ifElse condition body (some otherwise) _ =>
    condition.callees ++ body.callees ++ otherwise.callees
  | .forLoop init condition step body _ =>
    init.callees ++ condition.callees ++ step.callees ++ body.callees
  | .whileLoop condition body _ => condition.callees ++ body.callees
  | .ret value _ => value.toList.flatMap Expr.callees
  | .call call _ => call.toExpr.callees

/-- The names of the functions that a block calls. -/
def Block.callees : Block → List String
  | ⟨body, _⟩ => Statement.calleesList body

/-- The names of the functions that some statements call. -/
def Statement.calleesList : List Statement → List String
  | [] => []
  | s :: rest => s.callees ++ Statement.calleesList rest

end

/-! ### Declarations -/

mutual

/-- The variables that a statement declares, those of its blocks included. -/
def Statement.declared : Statement → List Variable
  | .declare declaration => [.ofDeclaration declaration]
  | .ifElse _ body none _ => body.declared
  | .ifElse _ body (some otherwise) _ => body.declared ++ otherwise.declared
  | .forLoop init _ _ body _ => .ofDeclaration init :: body.declared
  | .whileLoop _ body _ => body.declared
  | .update _ | .ret .. | .call .. => []

/-- The variables that a block declares. -/
def Block.declared : Block → List Variable
  | ⟨body, _⟩ => Statement.declaredList body

/-- The variables that some statements declare. -/
def Statement.declaredList : List Statement → List Variable
  | [] => []
  | s :: rest => s.declared ++ Statement.declaredList rest

end

/-! ### Control structures -/

mutual

/-- The control structures of a statement, in source order. An `else` stands between those of
the two blocks, at the line of its brace. -/
def Statement.controls : Statement → List Control
  | .ifElse condition body none span =>
    ⟨.ifThen, some condition.text, span.start.line⟩ :: body.controls
  | .ifElse condition body (some otherwise) span =>
    ⟨.ifThen, some condition.text, span.start.line⟩ :: body.controls
      ++ ⟨.otherwise, none, otherwise.span.start.line⟩ :: otherwise.controls
  | .forLoop _ condition _ body span =>
    ⟨.forLoop, some condition.text, span.start.line⟩ :: body.controls
  | .whileLoop condition body span =>
    ⟨.whileLoop, some condition.text, span.start.line⟩ :: body.controls
  | .declare _ | .update _ | .ret .. | .call .. => []

/-- The control structures of a block. -/
def Block.controls : Block → List Control
  | ⟨body, _⟩ => Statement.controlsList body

/-- The control structures of some statements. -/
def Statement.controlsList : List Statement → List Control
  | [] => []
  | s :: rest => s.controls ++ Statement.controlsList rest

end

/-! ### Programs -/

/-- The summary of a function. -/
def Function.summary (f : Function) : FunctionOutline where
  name := f.name
  returns := f.returns
  parameters := f.parameters.map .ofParameter
  locals := f.body.declared
  controls := f.body.controls
  recursive := f.body.callees.contains f.name

/-- The variables that a part of a program declares outside functions. -/
def Item.declared : Item → List Variable
  | global declaration => [.ofDeclaration declaration]
  | function _ => []
  | statement s => s.declared

/-- The summary of a program. -/
def Program.summary (p : Program) : Outline where
  globals := p.items.flatMap Item.declared
  functions := p.functions.map Function.summary

end ImpFront
