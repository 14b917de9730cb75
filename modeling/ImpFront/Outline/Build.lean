import ImpFront.Outline.Basic
import ImpFront.Syntax.Walk
/-!
# ImpFront.Outline.Build

**Building an outline** in one walk over the program.

An event of a block does not tell whose block it is. So an `if` that has an `else`
announces where the second block starts, and the block that starts at the place
announced last is taken for it. In a program read from a source no two blocks
start at the same place.
-/

namespace ImpFront

/-- An outline under construction. -/
structure OutlineState where
  /-- What is complete. -/
  done : Outline
  /-- The function that is being walked over. -/
  current : Option FunctionOutline
  /-- Where the announced blocks start, the one announced last first. -/
  awaited : List Position
  deriving DecidableEq, Repr, Inhabited

/-- A declared variable in an outline. -/
def Variable.ofDeclaration (d : Declaration) : Variable := ⟨d.type, d.name, d.value.isSome⟩

/-- A parameter in an outline. -/
def Variable.ofParameter (p : Parameter) : Variable := ⟨p.type, p.name, false⟩

namespace FunctionOutline

/-- A function before anything in it has been seen. -/
def ofHead (f : Function) : FunctionOutline := ⟨f.name, f.returns, [], [], [], false⟩

/-- Adds a parameter. -/
def addParameter (p : Parameter) (f : FunctionOutline) : FunctionOutline :=
  { f with parameters := f.parameters ++ [.ofParameter p] }

/-- Adds a variable. -/
def addLocal (d : Declaration) (f : FunctionOutline) : FunctionOutline :=
  { f with locals := f.locals ++ [.ofDeclaration d] }

/-- Adds a control structure. -/
def addControl (c : Control) (f : FunctionOutline) : FunctionOutline :=
  { f with controls := f.controls ++ [c] }

/-- Takes note of a call. -/
def addCall (callee : String) (f : FunctionOutline) : FunctionOutline :=
  { f with recursive := f.recursive || callee = f.name }

end FunctionOutline

namespace OutlineState

/-- Nothing seen. -/
def empty : OutlineState := ⟨⟨[], []⟩, none, []⟩

/-- Changes the function that is being walked over; outside functions nothing changes. -/
def inFunction (change : FunctionOutline → FunctionOutline) (s : OutlineState) : OutlineState :=
  { s with current := s.current.map change }

/-- Records a control structure. -/
def control (sort : ControlSort) (condition : Option Expr) (start : Position)
    (s : OutlineState) : OutlineState :=
  s.inFunction (.addControl ⟨sort, condition.map Expr.text, start.line⟩)

/-- Announces the start of a block. -/
def await (start : Position) (s : OutlineState) : OutlineState :=
  { s with awaited := start :: s.awaited }

/-- Records a declaration, as a global outside functions. -/
def declare (d : Declaration) (s : OutlineState) : OutlineState :=
  match s.current with
  | some _ => s.inFunction (.addLocal d)
  | none => { s with done := { s.done with globals := s.done.globals ++ [.ofDeclaration d] } }

/-- Records a block if it is the one awaited. -/
def block (start : Position) (s : OutlineState) : OutlineState :=
  match s.awaited with
  | [] => s
  | awaited :: others =>
    if awaited = start then { s with awaited := others }.control .otherwise none start else s

/-- Completes the function that is being walked over. -/
def finish (s : OutlineState) : OutlineState :=
  match s.current with
  | none => s
  | some f => { s with done := { s.done with functions := s.done.functions ++ [f] }, current := none }

/-- What entering a node adds. -/
def enter (s : OutlineState) : Node → OutlineState
  | .function f => { s with current := some (.ofHead f) }
  | .parameter p => s.inFunction (.addParameter p)
  | .block b => s.block b.span.start
  | .statement (.declare d) => s.declare d
  | .statement (.ifElse condition _ none span) =>
    s.control .ifThen (some condition) span.start
  | .statement (.ifElse condition _ (some otherwise) span) =>
    (s.await otherwise.span.start).control .ifThen (some condition) span.start
  | .statement (.forLoop _ condition _ _ span) => s.control .forLoop (some condition) span.start
  | .statement (.whileLoop condition _ span) => s.control .whileLoop (some condition) span.start
  | .expr (.call callee _ _) => s.inFunction (.addCall callee)
  | _ => s

/-- What an event adds. -/
def step (s : OutlineState) : Event → OutlineState
  | .enter node => s.enter node
  | .exit (.function _) => s.finish
  | .exit _ => s

end OutlineState

/-- The outline of a program. -/
def Program.outline (p : Program) : Outline :=
  (p.events.foldl OutlineState.step .empty).done

end ImpFront
