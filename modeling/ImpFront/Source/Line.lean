import ImpFront.Text.Blank
/-!
# ImpFront.Source.Line

The **lines of a source text**. A newline ends a line; carriage returns at the
end of a line belong to its terminator and are not shown.
-/

namespace ImpFront

/-- The lines of a text, without their newlines; there is always a last one. -/
def splitLines : List Char → List (List Char)
  | [] => [[]]
  | c :: cs =>
    if c = '\n' then [] :: splitLines cs
    else
      match splitLines cs with
      | [] => [[c]]
      | line :: lines => (c :: line) :: lines

/-- The line of the given number, from one; number zero also means the first line. -/
def line? (source : String) (number : Nat) : Option String :=
  (splitLines source.toList)[number - 1]?.map fun line =>
    String.ofList (Text.dropEndWhile (· = '\r') line)

/-! ### Laws -/

theorem splitLines_ne_nil (cs : List Char) : splitLines cs ≠ [] := by
  cases cs with
  | nil => simp [splitLines]
  | cons c cs =>
    unfold splitLines
    split
    · simp
    · split <;> simp

theorem splitLines_newline (cs : List Char) : splitLines ('\n' :: cs) = [] :: splitLines cs := rfl

/-- Any other character comes first on the first line of the text behind it. -/
theorem exists_splitLines_cons {c : Char} (hc : c ≠ '\n') (cs : List Char) :
    ∃ line lines, splitLines cs = line :: lines ∧ splitLines (c :: cs) = (c :: line) :: lines := by
  obtain ⟨line, lines, hlines⟩ := List.exists_cons_of_ne_nil (splitLines_ne_nil cs)
  exact ⟨line, lines, hlines, by rw [splitLines, if_neg hc, hlines]⟩

/-- A text has one line more than it has newlines. -/
theorem length_splitLines (cs : List Char) : (splitLines cs).length = cs.count '\n' + 1 := by
  induction cs with
  | nil => rfl
  | cons c cs ih =>
    by_cases hc : c = '\n'
    · subst hc
      rw [splitLines_newline, List.length_cons, ih, List.count_cons_self]
    · obtain ⟨line, lines, hlines, hcons⟩ := exists_splitLines_cons hc cs
      rw [hlines] at ih
      rw [hcons, List.count_cons_of_ne hc]
      exact ih

end ImpFront
