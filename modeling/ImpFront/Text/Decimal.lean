/-!
# ImpFront.Text.Decimal

**Unsigned decimal numbers** that fit a machine word of 64 bits: an optional
plus sign and at least one ASCII digit. Leading zeros are allowed, blanks and
separators are not.
-/

namespace ImpFront.Text

/-- One more than the largest number that fits a word of 64 bits. -/
def wordBound : Nat := 18446744073709551616

/-- The number that decimal digits write. -/
def decimalNumber (digits : List Char) : Nat :=
  digits.foldl (fun value c => 10 * value + (c.toNat - '0'.toNat)) 0

/-- Digits alone, as a number that fits a word. -/
def digitsNumber? (digits : List Char) : Option Nat :=
  if digits ≠ [] ∧ digits.all Char.isDigit ∧ decimalNumber digits < wordBound then
    some (decimalNumber digits)
  else none

/-- Reads a number, with or without a plus sign in front. -/
def readWord? : List Char → Option Nat
  | '+' :: digits => digitsNumber? digits
  | digits => digitsNumber? digits

/-! ### Laws -/

/-- What is read fits a word. -/
theorem readWord?_lt {cs : List Char} {n : Nat} (h : readWord? cs = some n) : n < wordBound := by
  have fits : ∀ digits, digitsNumber? digits = some n → n < wordBound := by
    intro digits hd
    unfold digitsNumber? at hd
    split at hd
    · next hok => exact Option.some.inj hd ▸ hok.2.2
    · simp at hd
  unfold readWord? at h
  split at h <;> exact fits _ h

end ImpFront.Text
