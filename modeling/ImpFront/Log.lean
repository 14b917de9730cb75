import ImpFront.Text.Decimal
/-!
# ImpFront.Log

**Notes on the progress of a run**, and which of them are shown.

A note carries a level. A log shows the notes down to a chosen level; the choice
is a number from one to five or the name of a level in any case, and anything
else chooses warnings.
-/

namespace ImpFront

/-- How much a note matters, the most important first. -/
inductive Level where
  | error | warn | info | debug | trace
  deriving DecidableEq, Repr, Inhabited

namespace Level

/-- Every level, the most important first. -/
def all : List Level := [.error, .warn, .info, .debug, .trace]

/-- The name of a level. -/
def name : Level → String
  | error => "ERROR"
  | warn => "WARN"
  | info => "INFO"
  | debug => "DEBUG"
  | trace => "TRACE"

/-- The place of a level, from one. -/
def number : Level → Nat
  | error => 1
  | warn => 2
  | info => 3
  | debug => 4
  | trace => 5

/-- The level in a column of five characters. -/
def column (level : Level) : String :=
  String.ofList (List.replicate (5 - level.name.length) ' ') ++ level.name

/-- Reads a level by number or name. -/
def read? (text : String) : Option Level :=
  match Text.readWord? text.toList with
  | some n => all.find? (·.number = n)
  | none => all.find? fun level => level.name.toList = text.toList.map Char.toUpper

/-- The level that a log shows down to. -/
def ofSetting (setting : Option String) : Level :=
  (setting.bind read?).getD .warn

/-- Whether a log that shows down to `limit` shows a level. -/
def shownAt (limit level : Level) : Bool := level.number ≤ limit.number

end Level

/-- A remark on the progress of a run, with named details. -/
structure Note where
  level : Level
  message : String
  details : List (String × String) := []
  deriving DecidableEq, Repr, Inhabited

namespace Note

/-- A note as a line of a log, behind the time it was made. -/
def line (note : Note) (time : String) : String :=
  time ++ " " ++ note.level.column ++ " " ++ note.message
    ++ String.join (note.details.map fun (name, value) => " " ++ name ++ "=" ++ value)

end Note

end ImpFront
