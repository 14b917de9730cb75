import ImpFront.Parse.Expr
import ImpFront.Syntax.Statement
/-!
# ImpFront.Parse.Statement

**Reading statements, blocks and functions.** The first token of a statement
selects its form; a name needs one token more. Where nothing fits, the refusal
lists every kind that would have.

Productions take the readers for the expressions and blocks inside them. `blockAt`
ties the knot on the levels of nesting that are free. Unlike an expression, a
block that fails leaves its level open: nothing is read after the failure.
-/

namespace ImpFront.Parse

/-! ### Types and parameters -/

/-- A type keyword. -/
def typeName : ParseM Ty := do
  match Ty.ofKind? (← kind) with
  | some t =>
    let _ ← advance
    return t
  | none => unexpected Ty.keywords

/-- `type name` -/
def parameter : ParseM Parameter := do
  let start ← position
  let type ← typeName
  let name ← expect .identifier
  return ⟨type, name.text, ⟨start, name.span.stop⟩⟩

/-- A further parameter, if a comma announces one. -/
def furtherParameter : ParseM (Option Parameter) := do
  if (← kind) = .comma then
    let _ ← advance
    return some (← parameter)
  else return none

/-- Parameters between parentheses. After a comma there must be another one. -/
def parameterList : ParseM (List Parameter) := do
  let _ ← expect .openParen
  if (← kind) = .closeParen then
    let _ ← advance
    return []
  else
    let first ← parameter
    let others ← many furtherParameter
    let _ ← closeList
    return first :: others

/-! ### Declarations and updates -/

/-- `type name;` or `type name = value;` -/
def declaration (expr : ExprReader) : ParseM Declaration := do
  let start ← position
  let type ← typeName
  let name ← expect .identifier
  if (← kind) = .assign then
    let _ ← advance
    let value ← expr .lowest
    let close ← expect .semicolon
    return ⟨type, name.text, some value, ⟨start, close.span.stop⟩⟩
  else
    let close ← expectOneOf [.assign, .semicolon]
    return ⟨type, name.text, none, ⟨start, close.span.stop⟩⟩

/-- The kinds that make an update of a name before them. -/
def updateKinds : List Kind := AssignOp.all.map AssignOp.kind ++ StepOp.all.map StepOp.kind

/-- The kinds that may follow a name at the start of a statement. -/
def afterName : List Kind := updateKinds ++ [.openParen]

/-- `name op value` -/
def assignUpdate (expr : ExprReader) : ParseM Update := do
  let name ← expect .identifier
  let t ← advance
  match AssignOp.ofKind? t.kind with
  | none => ParseM.fail (refuse t (AssignOp.all.map AssignOp.kind))
  | some op =>
    let value ← expr .lowest
    return .assign name.text op value ⟨name.span.start, value.span.stop⟩

/-- `op name` or `name op`; any token stands for the name when no operator comes first. -/
def stepUpdate : ParseM Update := do
  let first ← advance
  match StepOp.ofKind? first.kind with
  | some op =>
    let name ← expect .identifier
    return .step name.text op .before ⟨first.span.start, name.span.stop⟩
  | none =>
    let t ← expectOneOf (StepOp.all.map StepOp.kind)
    match StepOp.ofKind? t.kind with
    | some op => return .step first.text op .behind ⟨first.span.start, t.span.stop⟩
    | none => ParseM.fail (refuse t (StepOp.all.map StepOp.kind))

/-- An update and its semicolon. -/
def updateStatement (update : ParseM Update) : ParseM Statement := do
  let u ← update
  let close ← expect .semicolon
  return .update (u.upTo close.span.stop)

/-- A call and its semicolon. -/
def callStatement (expr : ExprReader) : ParseM Statement := do
  let c ← call expr
  let close ← expect .semicolon
  return .call c ⟨c.span.start, close.span.stop⟩

/-- Takes a token, then refuses the one after it. -/
def unexpectedAfter {α : Type} (expected : List Kind) : ParseM α := do
  let _ ← advance
  unexpected expected

/-- What begins with a name: an update or a call, by the token after it. -/
def nameStatement (expr : ExprReader) : ParseM Statement := do
  let following ← peekKind 1
  if following.isAssign then updateStatement (assignUpdate expr)
  else if following.isStep then updateStatement stepUpdate
  else if following = .openParen then callStatement expr
  else unexpectedAfter afterName

/-- `op name;` -/
def stepStatement : ParseM Statement := updateStatement stepUpdate

/-! ### Compound statements -/

/-- An expression between parentheses. -/
def condition (expr : ExprReader) : ParseM Expr := do
  let _ ← expect .openParen
  let e ← expr .lowest
  let _ ← expect .closeParen
  return e

/-- `if (condition) body` with or without `else otherwise` -/
def ifStatement (expr : ExprReader) (block : ParseM Block) : ParseM Statement := do
  let word ← expect .ifWord
  let e ← condition expr
  let body ← block
  if (← kind) = .elseWord then
    let _ ← advance
    let otherwise ← block
    return .ifElse e body (some otherwise) ⟨word.span.start, otherwise.span.stop⟩
  else return .ifElse e body none ⟨word.span.start, body.span.stop⟩

/-- The last clause of a `for` header. -/
def loopStep (expr : ExprReader) : ParseM Update := do
  match ← kind with
  | .plusPlus | .minusMinus => stepUpdate
  | .identifier =>
    let following ← peekKind 1
    if following.isAssign then assignUpdate expr
    else if following.isStep then stepUpdate
    else unexpectedAfter updateKinds
  | _ => unexpected [.identifier, .plusPlus, .minusMinus]

/-- `for (init condition; step) body` -/
def forStatement (expr : ExprReader) (block : ParseM Block) : ParseM Statement := do
  let word ← expect .forWord
  let _ ← expect .openParen
  let init ← declaration expr
  let e ← expr .lowest
  let _ ← expect .semicolon
  let step ← loopStep expr
  let _ ← expect .closeParen
  let body ← block
  return .forLoop init e step body ⟨word.span.start, body.span.stop⟩

/-- `while (condition) body` -/
def whileStatement (expr : ExprReader) (block : ParseM Block) : ParseM Statement := do
  let word ← expect .whileWord
  let e ← condition expr
  let body ← block
  return .whileLoop e body ⟨word.span.start, body.span.stop⟩

/-- `return;` or `return value;` -/
def returnStatement (expr : ExprReader) : ParseM Statement := do
  let word ← expect .returnWord
  if (← kind) = .semicolon then
    let close ← advance
    return .ret none ⟨word.span.start, close.span.stop⟩
  else
    let value ← expr .lowest
    let close ← expect .semicolon
    return .ret (some value) ⟨word.span.start, close.span.stop⟩

/-- A statement of the given form. -/
def statementOf (expr : ExprReader) (block : ParseM Block) : StatementForm → ParseM Statement
  | .declaration => return .declare (← declaration expr)
  | .name => nameStatement expr
  | .step => stepStatement
  | .ifElse => ifStatement expr block
  | .forLoop => forStatement expr block
  | .whileLoop => whileStatement expr block
  | .ret => returnStatement expr

/-- A statement, by the kind of its first token. -/
def statementWith (R : Rules) (expr : ExprReader) (block : ParseM Block) : ParseM Statement := do
  let t ← current
  note ⟨.trace, "statement", [("kind", t.kind.name), ("position", t.span.start.text)]⟩
  match R.statement t.kind with
  | some form => statementOf expr block form
  | none => unexpected R.statementStarts

/-! ### Blocks -/

/-- Refuses the end of the input inside a block. -/
def unclosed (t : Token) : Diagnostic := ⟨.unclosedBlock t.text, t.span.start⟩

/-- A further statement of a block, unless the closing brace follows. -/
def blockItem (statement : ParseM Statement) : ParseM (Option Statement) := do
  match ← kind with
  | .closeCurly => return none
  | .eof => ParseM.fail (unclosed (← current))
  | _ => return some (← statement)

/-- Statements between braces, with `n` levels of nesting still free. -/
def blockAt (R : Rules) : Nat → ParseM Block
  | 0 => do
    let _ ← expect .openCurly
    tooDeep R
  | n + 1 => do
    let opening ← expect .openCurly
    deeper
    let body ← many (blockItem (statementWith R (exprAt R n) (blockAt R n)))
    let close ← expect .closeCurly
    shallower
    return ⟨body, ⟨opening.span.start, close.span.stop⟩⟩

/-- A statement, with `n` levels of nesting still free. -/
def statementAt (R : Rules) (n : Nat) : ParseM Statement :=
  statementWith R (exprAt R n) (blockAt R n)

/-- A block, with all levels that are free. -/
def block (R : Rules) : ParseM Block := withLevels R (blockAt R)

/-- A statement, with all levels that are free. -/
def statement (R : Rules) : ParseM Statement := withLevels R (statementAt R)

/-! ### Functions -/

/-- `type name(parameters) body` -/
def functionWith (block : ParseM Block) : ParseM Function := do
  let start ← position
  let returns ← typeName
  let name ← expect .identifier
  let parameters ← parameterList
  let body ← block
  return ⟨returns, name.text, parameters, body, ⟨start, body.span.stop⟩⟩

/-- A function, with all levels that are free. -/
def function (R : Rules) : ParseM Function := functionWith (block R)

end ImpFront.Parse
