import ImpFront.Diagnostic.Basic
import ImpFront.Source.Line
/-!
# ImpFront.Diagnostic.Render

A **refusal shown beside its source**: a headline with the advice, the place, a
bar, the offending line and a caret under the offending character.

```text
Error: ExpectedExpression (Expected an expression …, found `;`)
-> main.ml:20:9
   |
20 | int x = ;
   | --------^
```

The line is shown without its indentation, so the caret moves left by as many
columns; it never leaves the first column.
-/

namespace ImpFront.Diagnostic

/-- Spaces and tabs, the characters that indent a line. -/
def isIndent (c : Char) : Bool := c = ' ' || c = '\t'

/-- The bar that separates the margin from the source, `width` characters wide. -/
def bar (width : Nat) : String := String.ofList (List.replicate (width - 1) ' ') ++ "|"

/-- The caret, at the end of a rule as wide as the column. -/
def caret (column : Nat) : String := String.ofList (List.replicate (column - 1) '-') ++ "^"

/-- What the first row says. -/
def headline (d : Diagnostic) : String :=
  match d.cause.tip? with
  | none => "Error: " ++ d.cause.name
  | some tip => "Error: " ++ d.cause.name ++ " (" ++ tip ++ ")"

/-- The rows of the rendering, from the headline to the caret. -/
def rows (d : Diagnostic) (source file : String) : List String :=
  let line := ((line? source d.position.line).getD "").toList
  let number := toString d.position.line
  let margin := bar (number.length + 2)
  let indent := (line.takeWhile isIndent).length
  [d.headline,
   "-> " ++ file ++ ":" ++ d.position.text,
   margin,
   number ++ " | " ++ String.ofList (Text.trimEnd (line.drop indent)),
   margin ++ " " ++ caret (max 1 (d.position.column - indent))]

/-- The rendering: its rows, one below the other. -/
def render (d : Diagnostic) (source file : String) : String :=
  "\n".intercalate (d.rows source file)

end ImpFront.Diagnostic
