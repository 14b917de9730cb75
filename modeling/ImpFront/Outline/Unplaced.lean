import ImpFront.Outline.Basic
import Mathlib.Data.List.Forall2
/-!
# ImpFront.Outline.Unplaced

**Outlines compared.** Two outlines can differ in lines only (`Outline.unplaced`), or in where the
entries for `else` stand among the control structures (`Outline.UpToElse`).
-/

namespace ImpFront

/-! ### Lines -/

/-- A control structure on no line. -/
def Control.unplaced (c : Control) : Control := { c with line := 0 }

/-- A function with all lines erased. -/
def FunctionOutline.unplaced (f : FunctionOutline) : FunctionOutline :=
  { f with controls := f.controls.map Control.unplaced }

/-- An outline with all lines erased. -/
def Outline.unplaced (o : Outline) : Outline :=
  { o with functions := o.functions.map FunctionOutline.unplaced }

/-! ### The order of control structures -/

namespace Control

/-- The control structures other than `else`, in order. -/
def openers (controls : List Control) : List Control := controls.filter (·.sort ≠ .otherwise)

end Control

/-- Two outlines of a function agree but for the places of the entries for `else` among the control
structures. -/
structure FunctionOutline.UpToElse (f g : FunctionOutline) : Prop where
  rest : { f with controls := g.controls } = g
  openers : Control.openers f.controls = Control.openers g.controls
  perm : f.controls.Perm g.controls

/-- Two outlines agree but for the places of the entries for `else` among the control structures. -/
structure Outline.UpToElse (o o' : Outline) : Prop where
  globals : o.globals = o'.globals
  functions : List.Forall₂ FunctionOutline.UpToElse o.functions o'.functions

end ImpFront
