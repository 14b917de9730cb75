import ImpFront.Syntax.Statement
/-!
# ImpFront.Syntax.Program

**Programs.** The declarations that open a program are its globals; after the
first function or other statement, a declaration is an ordinary statement.
-/

namespace ImpFront

/-- A part of a program. -/
inductive Item where
  | global (declaration : Declaration)
  | function (function : Function)
  | statement (statement : Statement)
  deriving DecidableEq, Repr, Inhabited

namespace Item

/-- The declaration of a global. -/
def global? : Item → Option Declaration
  | global d => some d
  | _ => none

/-- The function of an item that is one. -/
def function? : Item → Option Function
  | function f => some f
  | _ => none

/-- The statement of an item that is one. -/
def statement? : Item → Option Statement
  | statement s => some s
  | _ => none

end Item

/-- A whole source. -/
structure Program where
  items : List Item
  span : Span
  deriving DecidableEq, Repr, Inhabited

namespace Program

/-- The globals, in source order. -/
def globals (p : Program) : List Declaration := p.items.filterMap Item.global?

/-- The functions, in source order. -/
def functions (p : Program) : List Function := p.items.filterMap Item.function?

/-- The statements outside functions, in source order. -/
def statements (p : Program) : List Statement := p.items.filterMap Item.statement?

end Program

end ImpFront
