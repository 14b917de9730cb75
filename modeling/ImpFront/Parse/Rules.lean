import ImpFront.Diagnostic.Basic
import ImpFront.Settings
import ImpFront.Syntax.Operator
/-!
# ImpFront.Parse.Rules

The **rules of a parse**, as tables over the kinds of tokens: which form of
statement a kind begins, which form of operand, and with what power a kind extends
an expression. The nesting limit is one of the rules.

The productions read the tables and decide nothing about kinds themselves, so a
table with another entry gives another language without a new production.
-/

namespace ImpFront

/-- The forms of statements, by how they begin. -/
inductive StatementForm where
  /-- A type: a declaration. -/
  | declaration
  /-- A name: an update or a call. -/
  | name
  /-- A step operator. -/
  | step
  | ifElse | forLoop | whileLoop | ret
  deriving DecidableEq, Repr, Inhabited

/-- The forms of operands, by how they begin. -/
inductive OperandForm where
  | negation
  | group
  /-- A name: a variable, a call or an assignment. -/
  | name
  | literal
  deriving DecidableEq, Repr, Inhabited

/-- What a parse goes by. -/
structure Rules where
  statement : Kind → Option StatementForm
  operand : Kind → Option OperandForm
  operator : Kind → Option Power
  /-- The most levels of nesting that may be open at once. -/
  limit : Nat

namespace Rules

/-- The statements of the language. -/
def statementForm? : Kind → Option StatementForm
  | .intType | .floatType | .doubleType | .stringType | .voidType => some .declaration
  | .identifier => some .name
  | .plusPlus | .minusMinus => some .step
  | .ifWord => some .ifElse
  | .forWord => some .forLoop
  | .whileWord => some .whileLoop
  | .returnWord => some .ret
  | _ => none

/-- The operands of the language. -/
def operandForm? : Kind → Option OperandForm
  | .not => some .negation
  | .openParen => some .group
  | .identifier => some .name
  | .number | .string => some .literal
  | _ => none

/-- The powers of the language's operators. -/
def power? (kind : Kind) : Option Power := (BinaryOp.ofKind? kind).map BinaryOp.power

/-- The rules of the language. -/
def standard (settings : Settings) : Rules where
  statement := statementForm?
  operand := operandForm?
  operator := power?
  limit := settings.maxDepth

/-- The kinds that begin a statement, in the order of listing. -/
def statementStarts (R : Rules) : List Kind := Kind.all.filter fun k => (R.statement k).isSome

/-! ### Changing a table -/

/-- The rules with another form of statement for a kind. -/
def setStatement (R : Rules) (kind : Kind) (form : StatementForm) : Rules :=
  { R with statement := fun k => if k = kind then some form else R.statement k }

/-- The rules with another form of operand for a kind. -/
def setOperand (R : Rules) (kind : Kind) (form : OperandForm) : Rules :=
  { R with operand := fun k => if k = kind then some form else R.operand k }

/-- The rules with another power for a kind. -/
def setOperator (R : Rules) (kind : Kind) (power : Power) : Rules :=
  { R with operator := fun k => if k = kind then some power else R.operator k }

/-! ### Laws -/

/-- The kinds that begin an operand are those that an expression may begin with. -/
theorem operandForm?_isSome_iff (k : Kind) :
    (operandForm? k).isSome = true ↔ k ∈ Cause.expressionStart := by
  cases k <;> decide

theorem mem_statementStarts {R : Rules} {k : Kind} :
    k ∈ R.statementStarts ↔ (R.statement k).isSome = true := by
  simp [statementStarts, Kind.mem_all]

end Rules

end ImpFront
