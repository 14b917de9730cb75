import ImpFront.Token.Kind
/-!
# ImpFront.Syntax.Operator

**Types and operators**, the closed vocabularies of the language. Each of their
values is written as one token, so `kind` gives the kind that writes it and
`ofKind?` reads it back; the two are inverse.

Operators extend an expression while their power is above a minimum. Additive
operators are the strongest: `a + b * c` means `(a + b) * c`.
-/

namespace ImpFront

/-! ### Types -/

/-- The types a declaration can name. -/
inductive Ty where
  | int | float | double | string | void
  deriving DecidableEq, Repr, Inhabited

namespace Ty

/-- Every type once. -/
def all : List Ty := [.int, .float, .double, .string, .void]

/-- The keyword of a type. -/
def kind : Ty → Kind
  | .int => .intType
  | .float => .floatType
  | .double => .doubleType
  | .string => .stringType
  | .void => .voidType

/-- The type that a kind of token names. -/
def ofKind? : Kind → Option Ty
  | .intType => some .int
  | .floatType => some .float
  | .doubleType => some .double
  | .stringType => some .string
  | .voidType => some .void
  | _ => none

/-- How a type is written. -/
def keyword (t : Ty) : String := t.kind.describe

/-- The name of a type in records. -/
def name : Ty → String
  | .int => "Int"
  | .float => "Float"
  | .double => "Double"
  | .string => "String"
  | .void => "Void"

/-- The kinds that name a type. -/
def keywords : List Kind := all.map kind

theorem ofKind?_eq_some_iff {k : Kind} {t : Ty} : ofKind? k = some t ↔ k = t.kind := by
  cases k <;> cases t <;> decide

end Ty

/-! ### Binary operators -/

/-- The weight of an operator. Powers go up to `Power.top`. -/
abbrev Power := Nat

namespace Power

/-- The largest power. -/
def top : Power := 255

/-- The power of a whole expression: every operator extends it. -/
def lowest : Power := 0

/-- The power for the operand of a negation: only conjunction and disjunction end it. -/
def notOperand : Power := 9

/-- The next larger power, if there is one. -/
def next (p : Power) : Power := min (p + 1) top

end Power

/-- The operators between two operands. -/
inductive BinaryOp where
  | add | sub | mul | div | mod
  | less | greater | lessEquals | greaterEquals | equals | notEquals
  | and | or
  deriving DecidableEq, Repr, Inhabited

namespace BinaryOp

/-- Every operator once, the strongest first. -/
def all : List BinaryOp :=
  [.add, .sub, .mul, .div, .mod, .less, .greater, .lessEquals, .greaterEquals, .equals,
   .notEquals, .and, .or]

/-- The kind that writes an operator. -/
def kind : BinaryOp → Kind
  | .add => .plus
  | .sub => .dash
  | .mul => .star
  | .div => .slash
  | .mod => .percent
  | .less => .less
  | .greater => .greater
  | .lessEquals => .lessEquals
  | .greaterEquals => .greaterEquals
  | .equals => .equals
  | .notEquals => .notEquals
  | .and => .and
  | .or => .or

/-- The operator that a kind of token writes. -/
def ofKind? : Kind → Option BinaryOp
  | .plus => some .add
  | .dash => some .sub
  | .star => some .mul
  | .slash => some .div
  | .percent => some .mod
  | .less => some .less
  | .greater => some .greater
  | .lessEquals => some .lessEquals
  | .greaterEquals => some .greaterEquals
  | .equals => some .equals
  | .notEquals => some .notEquals
  | .and => some .and
  | .or => some .or
  | _ => none

/-- The power of an operator. No two operators share one, so none associates with another. -/
def power : BinaryOp → Power
  | .add => 20
  | .sub => 19
  | .mul => 18
  | .div => 17
  | .mod => 16
  | .less => 15
  | .greater => 14
  | .lessEquals => 13
  | .greaterEquals => 12
  | .equals => 11
  | .notEquals => 10
  | .and => 9
  | .or => 8

/-- How an operator is written. -/
def symbol (op : BinaryOp) : String := op.kind.describe

/-- The name of an operator in records. -/
def name : BinaryOp → String
  | .add => "Add"
  | .sub => "Sub"
  | .mul => "Mul"
  | .div => "Div"
  | .mod => "Mod"
  | .less => "Less"
  | .greater => "Greater"
  | .lessEquals => "LessEquals"
  | .greaterEquals => "GreaterEquals"
  | .equals => "Equals"
  | .notEquals => "NotEquals"
  | .and => "And"
  | .or => "Or"

theorem ofKind?_eq_some_iff {k : Kind} {op : BinaryOp} : ofKind? k = some op ↔ k = op.kind := by
  cases k <;> cases op <;> decide

end BinaryOp

/-! ### Operators of updates -/

/-- The operators that store a value in a variable. -/
inductive AssignOp where
  | assign | add | sub | mul | div | mod
  deriving DecidableEq, Repr, Inhabited

namespace AssignOp

/-- Every operator once. -/
def all : List AssignOp := [.assign, .add, .sub, .mul, .div, .mod]

/-- The kind that writes an operator. -/
def kind : AssignOp → Kind
  | .assign => .assign
  | .add => .plusEquals
  | .sub => .minusEquals
  | .mul => .starEquals
  | .div => .slashEquals
  | .mod => .percentEquals

/-- The operator that a kind of token writes. -/
def ofKind? : Kind → Option AssignOp
  | .assign => some .assign
  | .plusEquals => some .add
  | .minusEquals => some .sub
  | .starEquals => some .mul
  | .slashEquals => some .div
  | .percentEquals => some .mod
  | _ => none

/-- How an operator is written. -/
def symbol (op : AssignOp) : String := op.kind.describe

/-- The name of an operator in records. -/
def name : AssignOp → String
  | .assign => "Assign"
  | .add => "AddAssign"
  | .sub => "SubAssign"
  | .mul => "MulAssign"
  | .div => "DivAssign"
  | .mod => "ModAssign"

theorem ofKind?_eq_some_iff {k : Kind} {op : AssignOp} : ofKind? k = some op ↔ k = op.kind := by
  cases k <;> cases op <;> decide

end AssignOp

/-- The operators that step a variable by one. -/
inductive StepOp where
  | increment | decrement
  deriving DecidableEq, Repr, Inhabited

namespace StepOp

/-- Every operator once. -/
def all : List StepOp := [.increment, .decrement]

/-- The kind that writes an operator. -/
def kind : StepOp → Kind
  | .increment => .plusPlus
  | .decrement => .minusMinus

/-- The operator that a kind of token writes. -/
def ofKind? : Kind → Option StepOp
  | .plusPlus => some .increment
  | .minusMinus => some .decrement
  | _ => none

/-- How an operator is written. -/
def symbol (op : StepOp) : String := op.kind.describe

/-- The name of an operator in records. -/
def name : StepOp → String
  | .increment => "Increment"
  | .decrement => "Decrement"

theorem ofKind?_eq_some_iff {k : Kind} {op : StepOp} : ofKind? k = some op ↔ k = op.kind := by
  cases k <;> cases op <;> decide

end StepOp

namespace Kind

/-! ### Classes of kinds -/

/-- Whether the kind names a type. -/
def isType (k : Kind) : Bool := (Ty.ofKind? k).isSome

/-- Whether the kind stores a value in a variable. -/
def isAssign (k : Kind) : Bool := (AssignOp.ofKind? k).isSome

/-- Whether the kind steps a variable. -/
def isStep (k : Kind) : Bool := (StepOp.ofKind? k).isSome

end Kind

end ImpFront
