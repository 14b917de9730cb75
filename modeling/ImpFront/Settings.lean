import ImpFront.Text.Blank
import ImpFront.Text.Decimal
import ImpFront.Text.Quoted
/-!
# ImpFront.Settings

The **settings of a parse**. The grammar puts no bound on nesting, but every
level costs stack; the nesting limit lets a source from an unknown hand fail with
a diagnostic instead.

Settings come from named values, of which the environment is one supplier. A
value may be set between blanks; one that is no positive number is refused and
quoted as it was given.
-/

namespace ImpFront

/-- The settings of a parse. -/
structure Settings where
  /-- The most levels of blocks and expressions that may be open at once. -/
  maxDepth : Nat := 128
  deriving DecidableEq, Repr, Inhabited

namespace Settings

/-- The settings in force when nothing is set. -/
def standard : Settings := {}

/-- The name of the value that sets the nesting limit. -/
def maxDepthName : String := "MINILANG_MAX_DEPTH"

/-- A value that was refused. -/
inductive Error where
  | invalidNumber (name value : String)
  deriving DecidableEq, Repr

/-- What is wrong with the value. -/
def Error.message : Error → String
  | .invalidNumber name value =>
    name ++ " must be a positive integer, found " ++ Text.quote value

/-- The settings that named values give. -/
def ofValues (value? : String → Option String) : Except Error Settings :=
  match value? maxDepthName with
  | none => .ok standard
  | some value =>
    match Text.readWord? (Text.trim value.toList) with
    | some (depth + 1) => .ok { maxDepth := depth + 1 }
    | _ => .error (.invalidNumber maxDepthName value)

/-! ### Laws -/

/-- A limit that was read allows at least one level. -/
theorem ofValues_pos {value? : String → Option String} {s : Settings}
    (h : ofValues value? = .ok s) : 0 < s.maxDepth := by
  unfold ofValues at h
  split at h
  · rw [← Except.ok.inj h]; decide
  · split at h
    · rw [← Except.ok.inj h]; exact Nat.succ_pos _
    · simp at h

end Settings

end ImpFront
