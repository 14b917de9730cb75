import ImpFront.Token.Lexeme
/-!
# ImpFront.Token.Class

The **classes of lexemes** as sets of texts, said without a reader: what a whole
text must look like to be one lexeme. The text between two tokens is a run of
blanks and comments (`IsGap`).
-/

namespace ImpFront.Lexeme

/-- A letter or underscore, then letters, digits and underscores. -/
def IsWord (t : List Char) : Prop :=
  ∃ c rest, t = c :: rest ∧ isWordStart c = true ∧ ∀ d ∈ rest, isWordChar d = true

/-- At least one digit, and nothing else. -/
def IsDigits (t : List Char) : Prop := t ≠ [] ∧ ∀ c ∈ t, c.isDigit = true

/-- Digits, with or without a point and digits behind them. -/
def IsNumber (t : List Char) : Prop :=
  IsDigits t ∨ ∃ whole fraction, IsDigits whole ∧ IsDigits fraction ∧ t = whole ++ '.' :: fraction

/-- At least one blank, and nothing else. -/
def IsBlanks (t : List Char) : Prop := t ≠ [] ∧ ∀ c ∈ t, Text.isBlank c = true

/-- What may stand between the quotes of a string literal: no newline, and a quote or a
backslash only behind a backslash. -/
inductive IsBody : List Char → Prop where
  | nil : IsBody []
  | char {c : Char} {rest : List Char} :
    c ≠ '"' → c ≠ '\\' → c ≠ '\n' → IsBody rest → IsBody (c :: rest)
  | escape {c : Char} {rest : List Char} : c ≠ '\n' → IsBody rest → IsBody ('\\' :: c :: rest)

/-- A body between quotes. -/
def IsString (t : List Char) : Prop := ∃ body, IsBody body ∧ t = '"' :: body ++ ['"']

/-- Two slashes and the rest of a line. -/
def IsLineComment (t : List Char) : Prop := ∃ body, '\n' ∉ body ∧ t = '/' :: '/' :: body

/-- A comment from its opening mark to the first closing mark behind it. -/
def IsBlockComment (t : List Char) : Prop :=
  ∃ body, t = '/' :: '*' :: body ++ ['*', '/'] ∧ ¬ ['*', '/'] <:+: body ++ ['*']

/-- The spelling of a symbol. -/
def IsSymbol (t : List Char) : Prop := ∃ kind ∈ symbolOrder, t = kind.describe.toList

/-- The text of some lexeme. -/
def IsLexeme (t : List Char) : Prop :=
  IsWord t ∨ IsNumber t ∨ IsBlanks t ∨ IsString t ∨ IsLineComment t ∨ IsBlockComment t ∨ IsSymbol t

/-- What may stand between two tokens: blanks and comments. -/
inductive IsGap : List Char → Prop where
  | nil : IsGap []
  | append {t rest : List Char} :
    IsBlanks t ∨ IsLineComment t ∨ IsBlockComment t → IsGap rest → IsGap (t ++ rest)

end ImpFront.Lexeme
