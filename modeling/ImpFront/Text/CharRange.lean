/-!
# ImpFront.Text.CharRange

**Sets of characters as sorted ranges** of code points. Searching stops at the
first range that starts above the code point, so a low character is found to be
absent at once.
-/

namespace ImpFront.Text

/-- A set of characters: ranges of code points, both ends included, in increasing order. -/
abbrev CharRanges := List (Nat × Nat)

namespace CharRanges

/-- Whether a code point lies in one of the ranges. -/
def has : CharRanges → Nat → Bool
  | [], _ => false
  | (lo, hi) :: rest, n => if n < lo then false else n ≤ hi || has rest n

@[simp] theorem has_nil (n : Nat) : has [] n = false := rfl

/-- Below the first range nothing is found. -/
theorem has_cons_of_lt {lo hi n : Nat} (rest : CharRanges) (h : n < lo) :
    has ((lo, hi) :: rest) n = false := by
  simp [has, h]

end CharRanges

end ImpFront.Text
