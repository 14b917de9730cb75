/-!
# ImpFront.Text.Blank

The **blank characters** and trimming.

A blank is a character with the White_Space property. Only these 25 characters
separate tokens and are trimmed; the information separators (`U+001C` to
`U+001F`), the zero-width space and the byte order mark are ordinary characters.
-/

namespace ImpFront.Text

/-- The White_Space property. -/
def isBlank (c : Char) : Bool :=
  let n := c.toNat
  (9 ≤ n && n ≤ 13) || n == 0x20 || n == 0x85 || n == 0xa0 || n == 0x1680
    || (0x2000 ≤ n && n ≤ 0x200a) || n == 0x2028 || n == 0x2029 || n == 0x202f
    || n == 0x205f || n == 0x3000

/-- The characters without the longest run at the end that satisfies `p`. -/
def dropEndWhile (p : Char → Bool) (cs : List Char) : List Char :=
  (cs.reverse.dropWhile p).reverse

/-- The characters without the blanks at the end. -/
def trimEnd (cs : List Char) : List Char := dropEndWhile isBlank cs

/-- The characters without the blanks at either end. -/
def trim (cs : List Char) : List Char := trimEnd (cs.dropWhile isBlank)

/-! ### Laws -/

/-- Every blank of the ASCII range that the core library knows is a blank here. -/
theorem isBlank_of_isWhitespace {c : Char} (h : c.isWhitespace = true) : isBlank c = true := by
  simp only [Char.isWhitespace, Bool.or_eq_true, decide_eq_true_eq] at h
  rcases h with ((rfl | rfl) | rfl) | rfl <;> decide

@[simp] theorem isBlank_newline : isBlank '\n' = true := by decide

@[simp] theorem dropEndWhile_nil (p : Char → Bool) : dropEndWhile p [] = [] := rfl

/-- Dropping at the end works on the last character first. -/
theorem dropEndWhile_concat (p : Char → Bool) (cs : List Char) (c : Char) :
    dropEndWhile p (cs ++ [c]) = if p c then dropEndWhile p cs else cs ++ [c] := by
  by_cases h : p c <;> simp [dropEndWhile, h]

/-- Nothing is dropped up to the last character that does not satisfy the test. -/
theorem dropEndWhile_append_cons {p : Char → Bool} {c : Char} (hc : p c = false)
    (cs rest : List Char) :
    dropEndWhile p (cs ++ c :: rest) = cs ++ c :: dropEndWhile p rest := by
  have hreverse : (cs ++ c :: rest).reverse = rest.reverse ++ c :: cs.reverse := by simp
  have hkept : (c :: cs.reverse).dropWhile p = c :: cs.reverse :=
    List.dropWhile_cons_of_neg (Bool.eq_false_iff.1 hc)
  have hdrop : (rest.reverse ++ c :: cs.reverse).dropWhile p
      = rest.reverse.dropWhile p ++ c :: cs.reverse := by
    rw [List.dropWhile_append, hkept]
    split
    · next hempty => rw [List.isEmpty_iff.1 hempty, List.nil_append]
    · rfl
  rw [dropEndWhile, hreverse, hdrop]
  simp [dropEndWhile]

/-- Dropping at the end leaves the front of the text. -/
theorem dropEndWhile_isPrefix (p : Char → Bool) (cs : List Char) : dropEndWhile p cs <+: cs := by
  have hsuffix := List.reverse_prefix.2 (List.dropWhile_suffix (l := cs.reverse) p)
  rwa [List.reverse_reverse] at hsuffix

end ImpFront.Text
