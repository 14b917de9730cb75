import ImpFront.Syntax.Operator
/-!
# ImpFront.Outline.Basic

The **outline of a program**: its globals, and of each function the parameters,
the variables it declares, its control structures and whether it calls itself.

An outline reports what is written. Two functions of one name are two entries, and
a call of an unknown function is not remarked on.
-/

namespace ImpFront

/-- A variable in an outline. -/
structure Variable where
  type : Ty
  name : String
  initialised : Bool
  deriving DecidableEq, Repr, Inhabited

namespace Variable

/-- A variable in words. -/
def text (v : Variable) : String :=
  v.type.keyword ++ " " ++ v.name ++ if v.initialised then " = ..." else ""

end Variable

/-- The sorts of control structures. -/
inductive ControlSort where
  | ifThen | otherwise | forLoop | whileLoop
  deriving DecidableEq, Repr, Inhabited

namespace ControlSort

/-- The word that introduces a control structure. -/
def keyword : ControlSort → String
  | ifThen => "if"
  | otherwise => "else"
  | forLoop => "for"
  | whileLoop => "while"

end ControlSort

/-- A control structure in an outline. -/
structure Control where
  sort : ControlSort
  /-- The condition as source text, where there is one. -/
  condition : Option String
  line : Nat
  deriving DecidableEq, Repr, Inhabited

namespace Control

/-- A control structure in words. -/
def text (c : Control) : String :=
  match c.condition with
  | some condition => c.sort.keyword ++ " (" ++ condition ++ ") line " ++ toString c.line
  | none => c.sort.keyword ++ " line " ++ toString c.line

end Control

/-- A function in an outline. -/
structure FunctionOutline where
  name : String
  returns : Ty
  parameters : List Variable
  locals : List Variable
  controls : List Control
  recursive : Bool
  deriving DecidableEq, Repr, Inhabited

/-- The outline of a program. -/
structure Outline where
  globals : List Variable
  functions : List FunctionOutline
  deriving DecidableEq, Repr, Inhabited

/-! ### Text -/

/-- Entries with commas between them, or a dash when there are none. -/
def Outline.join (entries : List String) : String :=
  if entries = [] then "-" else ", ".intercalate entries

/-- A function in words, over five lines. -/
def FunctionOutline.text (f : FunctionOutline) : String :=
  "function " ++ f.name ++ (if f.recursive then " (recursive)" else " (iterative)")
    ++ "\n  returns: " ++ f.returns.keyword
    ++ "\n  parameters: " ++ Outline.join (f.parameters.map Variable.text)
    ++ "\n  locals: " ++ Outline.join (f.locals.map Variable.text)
    ++ "\n  control structures: " ++ Outline.join (f.controls.map Control.text)

namespace Outline

/-- An outline in words: the globals, then the functions. -/
def text (o : Outline) : String :=
  "globals: " ++ join (o.globals.map Variable.text) ++ "\n"
    ++ String.join (o.functions.map fun f => f.text ++ "\n")

/-- The first function of a name. -/
def find? (o : Outline) (name : String) : Option FunctionOutline :=
  o.functions.find? (·.name = name)

end Outline

end ImpFront
