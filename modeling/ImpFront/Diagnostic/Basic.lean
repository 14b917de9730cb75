import ImpFront.Token.Basic
/-!
# ImpFront.Diagnostic.Basic

**Why a source is refused**, and where. A cause keeps what a message needs; the
wording is in `Cause.message` (one line, for logs) and `Cause.tip?` (advice, for
readers).

The first four causes are lexical: they come from cutting the source into tokens.
The others are syntactic and name the offending token.
-/

namespace ImpFront

/-- A reason to refuse a source. -/
inductive Cause where
  /-- No lexeme begins with this character. -/
  | unrecognisedToken (text : String)
  /-- A quote without its closing quote on the same line. -/
  | unterminatedString
  /-- A block comment without its end. -/
  | unterminatedComment
  /-- A source whose byte offsets do not fit 32 bits. -/
  | sourceTooLarge (bytes : Nat)
  /-- A token of another kind than those expected. -/
  | unexpectedToken (text : String) (found : Kind) (expected : List Kind)
  /-- A token that begins no expression. -/
  | expectedExpression (text : String) (found : Kind)
  /-- The end of the source inside a block. -/
  | unclosedBlock (text : String)
  /-- More levels of nesting than the limit allows. -/
  | nestingTooDeep (limit : Nat)
  deriving DecidableEq, Repr

namespace Cause

/-- The kinds that can begin an expression. -/
def expressionStart : List Kind := [.identifier, .number, .string, .openParen, .not]

/-- The largest source, in bytes: every offset fits 32 bits. -/
def maxSourceBytes : Nat := 4294967295

/-- The name of a cause. -/
def name : Cause → String
  | .unrecognisedToken _ => "UnrecognisedToken"
  | .unterminatedString => "UnterminatedString"
  | .unterminatedComment => "UnterminatedComment"
  | .sourceTooLarge _ => "SourceTooLarge"
  | .unexpectedToken .. => "UnexpectedToken"
  | .expectedExpression .. => "ExpectedExpression"
  | .unclosedBlock _ => "UnclosedBlock"
  | .nestingTooDeep _ => "NestingTooDeep"

/-- Whether the cause concerns the arrangement of tokens, not a token itself. -/
def isSyntactic : Cause → Bool
  | .unrecognisedToken _ | .unterminatedString | .unterminatedComment | .sourceTooLarge _ => false
  | .unexpectedToken .. | .expectedExpression .. | .unclosedBlock _ | .nestingTooDeep _ => true

/-- The kinds that would have been accepted instead. -/
def expectedKinds : Cause → List Kind
  | .unexpectedToken _ _ expected => expected
  | .expectedExpression .. => expressionStart
  | .unclosedBlock _ => [.closeCurly]
  | _ => []

/-- The kind of the offending token. -/
def found? : Cause → Option Kind
  | .unexpectedToken _ found _ => some found
  | .expectedExpression _ found => some found
  | .unclosedBlock _ => some .eof
  | _ => none

/-- What went wrong, in one line. -/
def message : Cause → String
  | .unrecognisedToken text => "unrecognised token: " ++ Text.quote text
  | .unterminatedString => "unterminated string literal"
  | .unterminatedComment => "unterminated block comment"
  | .sourceTooLarge bytes => "source of " ++ toString bytes ++ " bytes does not fit 32-bit offsets"
  | .unexpectedToken text _ expected =>
    "unexpected token " ++ Text.quote text ++ ", expected " ++ Kind.describeAll expected
  | .expectedExpression text _ =>
    "expected expression (" ++ Kind.describeAll expressionStart ++ "), found " ++ Text.quote text
  | .unclosedBlock text => "unclosed block, found " ++ Text.quote text ++ " before `\x7d`"
  | .nestingTooDeep limit => "nesting exceeds the limit of " ++ toString limit

/-- Advice on mending the source. Where a semicolon would have been accepted and none stands
there, the advice asks after it. -/
def tip? : Cause → Option String
  | .unrecognisedToken _ => none
  | .unterminatedString => some "String literal is missing its closing `\"`"
  | .unterminatedComment => some "Block comment is missing its closing `*/`"
  | .sourceTooLarge _ =>
    some ("Source files are limited to " ++ toString maxSourceBytes ++ " bytes")
  | .unexpectedToken text found expected =>
    let unexpected := "Unexpected token: `" ++ text ++ "`, expected " ++ Kind.describeAll expected
    if .semicolon ∈ expected ∧ found ≠ .semicolon then
      some (unexpected ++ ", did you miss a semicolon?")
    else some unexpected
  | .expectedExpression text _ =>
    some ("Expected an expression starting with " ++ Kind.describeAll expressionStart
      ++ ", found `" ++ text ++ "`")
  | .unclosedBlock _ => some "Block reaches the end of input, is a `\x7d` missing?"
  | .nestingTooDeep limit =>
    some ("Nesting is deeper than the configured limit of " ++ toString limit)

end Cause

/-- A refusal: its cause and its place. -/
structure Diagnostic where
  cause : Cause
  position : Position
  deriving DecidableEq, Repr

namespace Diagnostic

/-- Cause and place in one line. -/
def message (d : Diagnostic) : String := d.cause.message ++ " at " ++ d.position.text

end Diagnostic

end ImpFront
