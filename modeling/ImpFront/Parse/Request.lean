import ImpFront.Parse.Statement
/-!
# ImpFront.Parse.Request

**Requests to a parser that is kept.** A parse as a whole asks for steps and productions
in an order of its own. The same steps and productions can be asked for one by one, in any
order and at any place, on a parser that goes on from the state it has reached; a request
that fails leaves it in the state of the failure.

Enter and leave are requests too, so the levels that are open need not belong to anything
that is being read.
-/

namespace ImpFront

/-- A production without its value. -/
def ParseM.void {α : Type} (p : ParseM α) : ParseM Unit := p >>= fun _ => pure ()

/-- What can be asked of a parser. -/
inductive Request where
  | advance
  | expectOneOf (kinds : List Kind)
  | peek (places : Nat)
  /-- Opens a level, if one is free. -/
  | enter
  /-- Closes a level, if one is open. -/
  | leave
  | expr (least : Power)
  /-- An expression in the level that is open. -/
  | operators (least : Power)
  | literal | negation | group | nameOperand | call
  /-- An operator behind a left operand that is given, and what it is applied to. -/
  | binary (power : Power) (left : Expr)
  | typeName | parameter | parameterList
  | declaration | assignUpdate | stepUpdate
  | nameStatement | stepStatement
  | condition | loopStep
  | ifStatement | forStatement | whileStatement | returnStatement
  | statement | block | function

namespace Request

/-- Takes the current token if it is of the kind. -/
def expect (kind : Kind) : Request := expectOneOf [kind]

open Parse in
/-- What a parser does on a request, with all levels that are free. -/
def perform (R : Rules) : Request → ParseM Unit
  | advance => Parse.advance.void
  | expectOneOf kinds => (Parse.expectOneOf kinds).void
  | peek places => (peekKind places).void
  | enter => Parse.enter R
  | leave => shallower
  | expr least => (Parse.expr R least).void
  | operators least =>
    withLevels R fun n =>
      (operand R (exprAt R n) >>= iterate (extend R (exprAt R n) least)).void
  | literal => Parse.literal.void
  | negation => withLevels R fun n => (Parse.negation (exprAt R n)).void
  | group => withLevels R fun n => (Parse.group (exprAt R n)).void
  | nameOperand => withLevels R fun n => (Parse.nameOperand (exprAt R n)).void
  | call => withLevels R fun n => (Parse.call (exprAt R n)).void
  | binary power left => withLevels R fun n => (Parse.binary (exprAt R n) power left).void
  | typeName => Parse.typeName.void
  | parameter => Parse.parameter.void
  | parameterList => Parse.parameterList.void
  | declaration => withLevels R fun n => (Parse.declaration (exprAt R n)).void
  | assignUpdate => withLevels R fun n => (Parse.assignUpdate (exprAt R n)).void
  | stepUpdate => Parse.stepUpdate.void
  | nameStatement => withLevels R fun n => (Parse.nameStatement (exprAt R n)).void
  | stepStatement => Parse.stepStatement.void
  | condition => withLevels R fun n => (Parse.condition (exprAt R n)).void
  | loopStep => withLevels R fun n => (Parse.loopStep (exprAt R n)).void
  | ifStatement => withLevels R fun n => (Parse.ifStatement (exprAt R n) (blockAt R n)).void
  | forStatement => withLevels R fun n => (Parse.forStatement (exprAt R n) (blockAt R n)).void
  | whileStatement => withLevels R fun n => (Parse.whileStatement (exprAt R n) (blockAt R n)).void
  | returnStatement => withLevels R fun n => (Parse.returnStatement (exprAt R n)).void
  | statement => (Parse.statement R).void
  | block => (Parse.block R).void
  | function => (Parse.function R).void

/-- The requests that never succeed without a token. -/
def consumes : Request → Bool
  | expr _ | statement | block | function | typeName | parameter | parameterList => true
  | _ => false

end Request

/-- The state of a parser after some requests, whether they succeed or fail. -/
def State.afterAll (R : Rules) (requests : List Request) (s : State) : State :=
  requests.foldl (fun s request => (request.perform R s).state) s

end ImpFront
