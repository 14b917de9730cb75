import ImpFront.Syntax.Printer
import ImpFront.Text.Quoted
/-!
# ImpFront.Syntax.Node

The **nodes of a tree**, of whatever sort. A node is described by its form and its
own names and operators, without its parts; `Node.children` are the nodes directly
below it, in source order.

Where a part is shared by two forms it is one node: a global is the node of a
declaration, the last clause of a `for` header that of an update, the call of a
statement that of a call expression.
-/

namespace ImpFront

/-- A node of a program. -/
inductive Node where
  | program (program : Program)
  | function (function : Function)
  | parameter (parameter : Parameter)
  | block (block : Block)
  | statement (statement : Statement)
  | expr (expr : Expr)
  deriving DecidableEq, Repr, Inhabited

/-- The node of a part of a program. -/
def Item.node : Item → Node
  | global declaration => .statement (.declare declaration)
  | function f => .function f
  | statement s => .statement s

/-- The side of an operator in descriptions. -/
def Side.describe : Side → String
  | before => "prefix"
  | behind => "postfix"

/-- The form of an expression and its own name, text or operator. -/
def Expr.describe : Expr → String
  | symbol name _ => "Symbol " ++ name
  | number text _ => "Number " ++ text
  | string value _ => "String " ++ Text.quote value
  | not .. => "Not"
  | group .. => "Grouping"
  | assign target _ _ => "AssignmentExpr " ++ target
  | binary op _ _ _ => "Binary " ++ op.symbol
  | call callee _ _ => "Call " ++ callee

/-- The form of a statement and its own name and operator. -/
def Statement.describe : Statement → String
  | declare d => "VarDecl " ++ d.type.keyword ++ " " ++ d.name
  | update (.assign name op _ _) => "Assignment " ++ name ++ " " ++ op.symbol
  | update (.step name op side _) =>
    "IncDec " ++ name ++ " " ++ op.symbol ++ " " ++ side.describe
  | ifElse .. => "If"
  | forLoop .. => "For"
  | whileLoop .. => "While"
  | ret .. => "Return"
  | call .. => "ExpressionStmt"

namespace Node

/-- A node without its parts, in one line. -/
def describe : Node → String
  | program _ => "Program"
  | function f => "Function " ++ f.returns.keyword ++ " " ++ f.name
  | parameter p => "Parameter " ++ p.type.keyword ++ " " ++ p.name
  | block _ => "Block"
  | statement s => s.describe
  | expr e => e.describe

/-- The source of a node. -/
def span : Node → Span
  | program p => p.span
  | function f => f.span
  | parameter p => p.span
  | block b => b.span
  | statement s => s.span
  | expr e => e.span

/-- The nodes directly below a node, in source order. -/
def children : Node → List Node
  | program p => p.items.map Item.node
  | function f => f.parameters.map parameter ++ [block f.body]
  | parameter _ => []
  | block b => b.body.map statement
  | statement s =>
    match s with
    | .declare d => d.value.toList.map expr
    | .update (.assign _ _ value _) => [expr value]
    | .update (.step ..) => []
    | .ifElse condition body otherwise _ =>
      expr condition :: block body :: otherwise.toList.map block
    | .forLoop init condition step body _ =>
      [statement (.declare init), expr condition, statement (.update step), block body]
    | .whileLoop condition body _ => [expr condition, block body]
    | .ret value _ => value.toList.map expr
    | .call call _ => [expr call.toExpr]
  | expr e =>
    match e with
    | .symbol .. | .number .. | .string .. => []
    | .not operand _ => [expr operand]
    | .group inner _ => [expr inner]
    | .assign _ value _ => [expr value]
    | .binary _ left right _ => [expr left, expr right]
    | .call _ arguments _ => arguments.map expr

end Node

end ImpFront
