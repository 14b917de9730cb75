import ImpFront.Syntax.Expr
/-!
# ImpFront.Syntax.Statement

**Statements, blocks and functions.**

An update changes one variable. It is a statement when a semicolon follows, which
its span then covers, and it is the last clause of a `for` header, where none
does. A declaration always brings its semicolon.

There is no `else if`: a chain nests an `if` in the block after `else`.
-/

namespace ImpFront

/-- `type name;` or `type name = value;` -/
structure Declaration where
  type : Ty
  name : String
  value : Option Expr
  span : Span
  deriving DecidableEq, Repr, Inhabited

/-- On which side of the variable a step operator stands. -/
inductive Side where
  | before | behind
  deriving DecidableEq, Repr, Inhabited

/-- A change of one variable. -/
inductive Update where
  /-- `name op value` -/
  | assign (name : String) (op : AssignOp) (value : Expr) (span : Span)
  /-- `op name` or `name op` -/
  | step (name : String) (op : StepOp) (side : Side) (span : Span)
  deriving DecidableEq, Repr, Inhabited

namespace Update

/-- The source of an update. -/
def span : Update → Span
  | assign _ _ _ span | step _ _ _ span => span

/-- The same update with its span drawn out to a place. -/
def upTo (stop : Position) : Update → Update
  | assign name op value span => assign name op value ⟨span.start, stop⟩
  | step name op side span => step name op side ⟨span.start, stop⟩

@[simp] theorem span_upTo (stop : Position) (u : Update) :
    (u.upTo stop).span = ⟨u.span.start, stop⟩ := by
  cases u <;> rfl

end Update

mutual

/-- A statement. -/
inductive Statement where
  | declare (declaration : Declaration)
  | update (update : Update)
  /-- `if (condition) body` or `if (condition) body else otherwise` -/
  | ifElse (condition : Expr) (body : Block) (otherwise : Option Block) (span : Span)
  /-- `for (init condition; step) body` -/
  | forLoop (init : Declaration) (condition : Expr) (step : Update) (body : Block) (span : Span)
  /-- `while (condition) body` -/
  | whileLoop (condition : Expr) (body : Block) (span : Span)
  /-- `return;` or `return value;` -/
  | ret (value : Option Expr) (span : Span)
  /-- `call;` -/
  | call (call : Call) (span : Span)
  deriving Repr

/-- Statements between braces. -/
structure Block where
  body : List Statement
  span : Span
  deriving Repr

end

namespace Statement

/-- The source of a statement. -/
def span : Statement → Span
  | declare d => d.span
  | update u => u.span
  | ifElse _ _ _ span | forLoop _ _ _ _ span | whileLoop _ _ span | ret _ span
  | call _ span => span

instance : Inhabited Statement := ⟨.declare default⟩

/-! ### Equality -/

mutual

/-- Whether two statements are equal, spans included. -/
def same : Statement → Statement → Bool
  | declare d, declare d' => d = d'
  | update u, update u' => u = u'
  | ifElse c t e s, ifElse c' t' e' s' =>
    c = c' && sameBlock t t' && sameOption e e' && s = s'
  | forLoop i c u t s, forLoop i' c' u' t' s' =>
    i = i' && c = c' && u = u' && sameBlock t t' && s = s'
  | whileLoop c t s, whileLoop c' t' s' => c = c' && sameBlock t t' && s = s'
  | ret v s, ret v' s' => v = v' && s = s'
  | call c s, call c' s' => c = c' && s = s'
  | _, _ => false

/-- Whether two blocks, either of which may be missing, are equal. -/
def sameOption : Option Block → Option Block → Bool
  | none, none => true
  | some a, some b => sameBlock a b
  | _, _ => false

/-- Whether two blocks are equal. -/
def sameBlock : Block → Block → Bool
  | ⟨body, s⟩, ⟨body', s'⟩ => sameList body body' && s = s'

/-- Whether two lists of statements are equal. -/
def sameList : List Statement → List Statement → Bool
  | [], [] => true
  | a :: as, b :: bs => same a b && sameList as bs
  | _, _ => false

end

mutual

theorem same_iff : (a b : Statement) → (same a b = true ↔ a = b)
  | declare d, b => by cases b <;> simp [same]
  | update d, b => by cases b <;> simp [same]
  | ifElse c t e s, b => by
    cases b <;> simp [same, sameBlock_iff t, sameOption_iff e, and_assoc]
  | forLoop i c u t s, b => by cases b <;> simp [same, sameBlock_iff t, and_assoc]
  | whileLoop c t s, b => by cases b <;> simp [same, sameBlock_iff t, and_assoc]
  | ret v s, b => by cases b <;> simp [same]
  | call c s, b => by cases b <;> simp [same]

theorem sameOption_iff : (a b : Option Block) → (sameOption a b = true ↔ a = b)
  | none, b => by cases b <;> simp [sameOption]
  | some a, b => by cases b <;> simp [sameOption, sameBlock_iff a]

theorem sameBlock_iff : (a b : Block) → (sameBlock a b = true ↔ a = b)
  | ⟨body, s⟩, ⟨body', s'⟩ => by simp [sameBlock, sameList_iff body]

theorem sameList_iff : (as bs : List Statement) → (sameList as bs = true ↔ as = bs)
  | [], bs => by cases bs <;> simp [sameList]
  | a :: as, bs => by cases bs <;> simp [sameList, same_iff a, sameList_iff as]

end

instance : DecidableEq Statement := fun a b => decidable_of_iff _ (same_iff a b)

end Statement

instance : DecidableEq Block := fun a b => decidable_of_iff _ (Statement.sameBlock_iff a b)

instance : Inhabited Block := ⟨⟨[], default⟩⟩

/-- `type name` in the head of a function. -/
structure Parameter where
  type : Ty
  name : String
  span : Span
  deriving DecidableEq, Repr, Inhabited

/-- `returns name(parameters) body` -/
structure Function where
  returns : Ty
  name : String
  parameters : List Parameter
  body : Block
  span : Span
  deriving DecidableEq, Repr, Inhabited

end ImpFront
