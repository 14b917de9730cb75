import ImpFront.Token.Class
/-!
# ImpFront.Token.Fault

The **faults of a text**: what stands where a text falls into no lexeme. A quote or the opening
mark of a block comment is not closed, or there is a character with which nothing begins. Which of
them it is decides why a source is refused.
-/

namespace ImpFront.Lexeme

/-- How many backslashes stand right before an index. -/
def backslashesBefore (text : List Char) (i : Nat) : Nat :=
  ((text.take i).reverse.takeWhile (· = '\\')).length

/-- An unescaped quote stands at an index: the backslashes before it escape one another. -/
def QuoteAt (text : List Char) (i : Nat) : Prop :=
  text[i]? = some '"' ∧ backslashesBefore text i % 2 = 0

/-- No unescaped quote comes before the next newline. -/
def Unclosed (text : List Char) : Prop := ∀ i, QuoteAt text i → '\n' ∈ text.take i

/-- Why a text is refused that begins like this. -/
inductive IsFault : List Char → Cause → Prop where
  /-- A quote that is not closed on its line. -/
  | string {rest : List Char} : Unclosed rest → IsFault ('"' :: rest) .unterminatedString
  /-- The opening mark of a comment, and no closing mark behind it. -/
  | comment {rest : List Char} :
    ¬ ['*', '/'] <:+: rest → IsFault ('/' :: '*' :: rest) .unterminatedComment
  /-- A character with which no lexeme begins; with a quote one does, closed or not. -/
  | character {c : Char} {rest : List Char} :
    c ≠ '"' → (∀ t, IsLexeme t → ¬ t <+: c :: rest) →
      IsFault (c :: rest) (.unrecognisedToken (.ofList [c]))

end ImpFront.Lexeme
