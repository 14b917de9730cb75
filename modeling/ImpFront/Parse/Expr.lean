import ImpFront.Parse.State
import ImpFront.Syntax.Expr
/-!
# ImpFront.Parse.Expr

**Reading expressions** by precedence: an operand, extended to the right while the
next operator has a power above a minimum. The right operand of an operator is
read with the next larger power as its minimum, so equal operators associate to the
left.

Every production takes the reader for the expressions inside it. `exprAt` ties the
knot by recursion on the levels of nesting that are still free: an expression takes
one level, and with none left it is refused. An operator does not take a level for
its left operand, which has been read already.
-/

namespace ImpFront.Parse

/-- Reads an expression whose operators all have more than the given power. -/
abbrev ExprReader := Power → ParseM Expr

/-! ### Calls -/

/-- A further argument, if a comma announces one. -/
def furtherArgument (expr : ExprReader) : ParseM (Option Expr) := do
  if (← kind) = .comma then
    let _ ← advance
    return some (← expr .lowest)
  else return none

/-- The arguments up to the closing parenthesis, which may follow at once. -/
def arguments (expr : ExprReader) : ParseM (List Expr) := do
  if (← kind) = .closeParen then return []
  else
    let first ← expr .lowest
    let others ← many (furtherArgument expr)
    return first :: others

/-- The end of a list between parentheses. -/
def closeList : ParseM Token := do
  if (← kind) = .closeParen then advance else unexpected [.comma, .closeParen]

/-- `name(arguments)` -/
def call (expr : ExprReader) : ParseM Call := do
  let name ← expect .identifier
  let _ ← expect .openParen
  let arguments ← arguments expr
  let close ← closeList
  return ⟨name.text, arguments, ⟨name.span.start, close.span.stop⟩⟩

/-! ### Operands -/

/-- A number or a string. -/
def literal : ParseM Expr := do
  let t ← expectOneOf [.number, .string]
  if t.kind = .number then return .number t.text t.span
  else return .string t.text t.span

/-- `!operand` -/
def negation (expr : ExprReader) : ParseM Expr := do
  let mark ← expect .not
  let operand ← expr .notOperand
  return .not operand ⟨mark.span.start, operand.span.stop⟩

/-- `(inner)` -/
def group (expr : ExprReader) : ParseM Expr := do
  let opening ← expect .openParen
  let inner ← expr .lowest
  let close ← expect .closeParen
  return .group inner ⟨opening.span.start, close.span.stop⟩

/-- `target = value`. The value is a whole expression, so assignments nest to the right. -/
def assignment (expr : ExprReader) : ParseM Expr := do
  let target ← expect .identifier
  let _ ← expect .assign
  let value ← expr .lowest
  return .assign target.text value ⟨target.span.start, value.span.stop⟩

/-- A variable. -/
def symbol : ParseM Expr := do
  let t ← expect .identifier
  return .symbol t.text t.span

/-- What begins with a name: a call, an assignment or a variable, by the token after it. -/
def nameOperand (expr : ExprReader) : ParseM Expr := do
  match ← peekKind 1 with
  | .openParen => return (← call expr).toExpr
  | .assign => assignment expr
  | _ => symbol

/-- An operand of the given form. -/
def operandOf (expr : ExprReader) : OperandForm → ParseM Expr
  | .negation => negation expr
  | .group => group expr
  | .name => nameOperand expr
  | .literal => literal

/-- Refuses a token that begins no expression. -/
def noExpression (t : Token) : Diagnostic := ⟨.expectedExpression t.text t.kind, t.span.start⟩

/-- An operand, by the kind of its first token. -/
def operand (R : Rules) (expr : ExprReader) : ParseM Expr := do
  match R.operand (← kind) with
  | some form => operandOf expr form
  | none => ParseM.fail (noExpression (← current))

/-! ### Operators -/

/-- The operator at hand and its right operand, behind the left one. -/
def binary (expr : ExprReader) (power : Power) (left : Expr) : ParseM Expr := do
  let t ← advance
  match BinaryOp.ofKind? t.kind with
  | none => ParseM.fail (noExpression t)
  | some op =>
    let right ← expr power.next
    return .binary op left right ⟨left.span.start, right.span.stop⟩

/-- Extends an expression by one operator, if the one at hand has more than the least power. -/
def extend (R : Rules) (expr : ExprReader) (least : Power) (left : Expr) :
    ParseM (Option Expr) := do
  match R.operator (← kind) with
  | some power => if least < power then return some (← binary expr power left) else return none
  | none => return none

/-! ### Expressions -/

/-- An expression, with `n` levels of nesting still free. -/
def exprAt (R : Rules) : Nat → ExprReader
  | 0, _ => tooDeep R
  | n + 1, least => nested do
    let first ← operand R (exprAt R n)
    iterate (extend R (exprAt R n) least) first

/-- An expression, with all levels that are free. -/
def expr (R : Rules) (least : Power) : ParseM Expr := withLevels R fun n => exprAt R n least

end ImpFront.Parse
