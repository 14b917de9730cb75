import ImpFront.Source.Line
import ImpFront.Source.Position
import Mathlib.Data.List.TakeWhile
/-!
# ImpFront.Proofs.Source.Lines

**The line that a place is on.** A place is known by the text before it: its line number counts the
newlines there, and its column the characters behind the last of them (`Position.ofPrefix`). The
line of that number is those characters and what follows up to the next newline.
-/

namespace ImpFront

/-! ### Lines of a concatenation -/

/-- A newline ends the last line of the text before it. -/
theorem splitLines_append_newline (a b : List Char) :
    splitLines (a ++ '\n' :: b) = splitLines a ++ splitLines b := by
  induction a with
  | nil => rfl
  | cons c a ih =>
    rw [List.cons_append]
    by_cases hc : c = '\n'
    · subst hc
      rw [splitLines_newline, splitLines_newline, ih, List.cons_append]
    · obtain ⟨line, lines, hlines, hcons⟩ := exists_splitLines_cons hc a
      obtain ⟨line', lines', hlines', hcons'⟩ := exists_splitLines_cons hc (a ++ '\n' :: b)
      rw [ih, hlines, List.cons_append] at hlines'
      obtain ⟨rfl, rfl⟩ := List.cons.inj hlines'
      rw [hcons, hcons', List.cons_append]

/-- The first line goes up to the first newline. -/
theorem head?_splitLines (cs : List Char) :
    (splitLines cs).head? = some (cs.takeWhile (· ≠ '\n')) := by
  induction cs with
  | nil => rfl
  | cons c cs ih =>
    by_cases hc : c = '\n'
    · subst hc
      rfl
    · obtain ⟨line, lines, hlines, hcons⟩ := exists_splitLines_cons hc cs
      rw [hlines] at ih
      obtain rfl := Option.some.inj ih
      rw [hcons]
      simp [hc]

/-- A text without a newline is its only line. -/
theorem splitLines_of_newline_free {cs : List Char} (h : '\n' ∉ cs) : splitLines cs = [cs] := by
  have hlength : (splitLines cs).length = 1 := by
    rw [length_splitLines, List.count_eq_zero.2 h]
  obtain ⟨line, hline⟩ := List.length_eq_one_iff.1 hlength
  have hhead := head?_splitLines cs
  rw [hline] at hhead
  obtain rfl := Option.some.inj hhead
  rw [hline, List.takeWhile_eq_self_iff.2]
  intro c hc
  rw [decide_eq_true_eq]
  rintro rfl
  exact h hc

/-- No line holds a newline. -/
theorem newline_not_mem_of_mem_splitLines {cs line : List Char} (h : line ∈ splitLines cs) :
    '\n' ∉ line := by
  induction cs generalizing line with
  | nil =>
    obtain rfl := List.mem_singleton.1 h
    exact List.not_mem_nil
  | cons c cs ih =>
    by_cases hc : c = '\n'
    · subst hc
      rw [splitLines_newline] at h
      rcases List.mem_cons.1 h with rfl | h
      · exact List.not_mem_nil
      · exact ih h
    · obtain ⟨first, lines, hlines, hcons⟩ := exists_splitLines_cons hc cs
      rw [hcons] at h
      rw [hlines] at ih
      rcases List.mem_cons.1 h with rfl | h
      · exact List.not_mem_cons_of_ne_of_not_mem (Ne.symm hc) (ih (List.mem_cons_self ..))
      · exact ih (List.mem_cons_of_mem _ h)

/-- Rows one below the other have the lines of each of them. -/
theorem splitLines_intercalate {rows : List (List Char)} (h : rows ≠ []) :
    splitLines (['\n'].intercalate rows) = rows.flatMap splitLines := by
  induction rows with
  | nil => exact absurd rfl h
  | cons row rows ih =>
    cases rows with
    | nil => simp
    | cons next rows =>
      rw [List.intercalate_cons_cons, List.append_assoc, List.singleton_append,
        splitLines_append_newline, ih (List.cons_ne_nil _ _)]
      rfl

/-- Rows one below the other, with newlines between them: the last two are the last two lines. -/
theorem exists_splitLines_of_rows {T C : List Char} (hT : '\n' ∉ T) (hC : '\n' ∉ C)
    (front : List Char) :
    ∃ above, splitLines (front ++ '\n' :: (T ++ '\n' :: C)) = above ++ [T, C] := by
  refine ⟨splitLines front, ?_⟩
  rw [splitLines_append_newline, splitLines_append_newline, splitLines_of_newline_free hT,
    splitLines_of_newline_free hC]
  rfl

/-! ### The line of a place -/

namespace Position

theorem newline_not_mem_lastLine (text : List Char) : '\n' ∉ lastLine text := by
  intro h
  rw [lastLine, List.mem_reverse] at h
  simpa using List.mem_takeWhile_imp h

/-- A text is its last line, or ends in its last line and the newline before it. -/
theorem eq_lastLine_or (text : List Char) :
    text = lastLine text ∨ ∃ front, text = front ++ '\n' :: lastLine text := by
  have hsplit := List.takeWhile_append_dropWhile (p := (· ≠ '\n')) (l := text.reverse)
  have htext : text = (text.reverse.dropWhile (· ≠ '\n')).reverse ++ lastLine text := by
    rw [lastLine, ← List.reverse_append, hsplit, List.reverse_reverse]
  cases hrest : text.reverse.dropWhile (· ≠ '\n') with
  | nil =>
    rw [hrest] at htext
    exact .inl htext
  | cons c rest =>
    have hc : c = '\n' := by
      have hhead := List.head?_dropWhile_not (· ≠ '\n') text.reverse
      rw [hrest] at hhead
      simpa using hhead
    rw [hrest, hc, List.reverse_cons, List.append_assoc] at htext
    exact .inr ⟨rest.reverse, htext⟩

end Position

open Position

/-- The line on which a place is: what is before the place, and then what is behind it. -/
theorem getElem?_splitLines (before behind : List Char) :
    (splitLines (before ++ behind))[before.count '\n']?
      = some (lastLine before ++ behind.takeWhile (· ≠ '\n')) := by
  have hfree : ∀ c ∈ lastLine before, decide (c ≠ '\n') = true := by
    intro c hc
    rw [decide_eq_true_eq]
    rintro rfl
    exact newline_not_mem_lastLine before hc
  have hhead : (splitLines (lastLine before ++ behind))[0]?
      = some (lastLine before ++ behind.takeWhile (· ≠ '\n')) := by
    rw [← List.head?_eq_getElem?, head?_splitLines, List.takeWhile_append_of_pos hfree]
  have hcount := List.count_eq_zero.2 (newline_not_mem_lastLine before)
  rcases eq_lastLine_or before with hbefore | ⟨front, hbefore⟩
  · have hsame : splitLines (before ++ behind) = splitLines (lastLine before ++ behind) := by
      rw [← hbefore]
    rw [← hbefore] at hcount
    rw [hcount, hsame, hhead]
  · have hnumber : before.count '\n' = (splitLines front).length := by
      rw [length_splitLines, hbefore, List.count_append, List.count_cons_self, hcount]
    have hlines : splitLines (before ++ behind)
        = splitLines front ++ splitLines (lastLine before ++ behind) := by
      rw [← splitLines_append_newline, ← List.cons_append, ← List.append_assoc, ← hbefore]
    rw [hlines, hnumber, List.getElem?_append_right (Nat.le_refl _), Nat.sub_self, hhead]

end ImpFront
