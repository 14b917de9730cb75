import ImpFront.Token.Class
/-!
# ImpFront.Proofs.Text.Escape

**Writing a literal and reading it back.** The form of each character is read back as
that character whatever follows it, because an escape of two hexadecimal digits takes
no third one. Nothing in the form of a character ends the literal.
-/

namespace ImpFront.Text

/-- The two hexadecimal digits of a control character. -/
theorem hexDigits_of_lt {n : Nat} (h : n < 128) :
    isHexDigit (Nat.digitChar (n / 16)) = true ∧ isHexDigit (Nat.digitChar (n % 16)) = true ∧
      hexNumber [Nat.digitChar (n / 16), Nat.digitChar (n % 16)] = n := by
  have hall : ∀ n : Fin 128, isHexDigit (Nat.digitChar (n.val / 16)) = true ∧
      isHexDigit (Nat.digitChar (n.val % 16)) = true ∧
      hexNumber [Nat.digitChar (n.val / 16), Nat.digitChar (n.val % 16)] = n.val := by
    decide +kernel
  exact hall ⟨n, h⟩

/-- Two hexadecimal digits behind `x` are read as the character they number. -/
theorem decodeEscape_hex {d e : Char} (hd : isHexDigit d = true) (he : isHexDigit e = true)
    (rest : List Char) :
    decodeEscape ('x' :: d :: e :: rest) = ([Char.ofNat (hexNumber [d, e])], rest) := by
  have hdigits : ((d :: e :: rest).take 2).takeWhile isHexDigit = [d, e] := by simp [hd, he]
  have hletter : escapeLetter? 'x' = none := by decide
  unfold decodeEscape
  simp only [hletter, hdigits]
  rfl

/-- The forms of characters: an escape letter, two hexadecimal digits, or the character itself. -/
theorem encodeChar_cases (c : Char) :
    (∃ letter, encodeChar c = ['\\', letter] ∧ escapeLetter? letter = some c ∧ letter ≠ '\n') ∨
    (c.toNat < 128 ∧ encodeChar c
      = ['\\', 'x', Nat.digitChar (c.toNat / 16), Nat.digitChar (c.toNat % 16)]) ∨
    (c ≠ '"' ∧ c ≠ '\\' ∧ c ≠ '\n' ∧ encodeChar c = [c]) := by
  unfold encodeChar
  -- One case for each branch, in its order: six letters, the control characters, the others.
  by_cases hnewline : c = '\n'
  · exact .inl ⟨'n', by rw [if_pos hnewline], by rw [hnewline]; rfl, by decide⟩
  by_cases htab : c = '\t'
  · exact .inl ⟨'t', by rw [if_neg hnewline, if_pos htab], by rw [htab]; rfl, by decide⟩
  by_cases hreturn : c = '\r'
  · exact .inl ⟨'r', by rw [if_neg hnewline, if_neg htab, if_pos hreturn], by rw [hreturn]; rfl,
      by decide⟩
  by_cases hbackslash : c = '\\'
  · exact .inl ⟨'\\', by simp [hbackslash], by rw [hbackslash]; rfl, by decide⟩
  by_cases hquote : c = '"'
  · exact .inl ⟨'"', by simp [hquote], by rw [hquote]; rfl, by decide⟩
  by_cases hnull : c = '\x00'
  · exact .inl ⟨'0', by simp [hnull], by rw [hnull]; rfl, by decide⟩
  rw [if_neg hnewline, if_neg htab, if_neg hreturn, if_neg hbackslash, if_neg hquote,
    if_neg hnull]
  by_cases hcontrol : (c.toNat < 0x20 || c.toNat = 0x7f) = true
  · refine .inr (.inl ⟨?_, if_pos hcontrol⟩)
    simp only [Bool.or_eq_true, decide_eq_true_eq] at hcontrol
    omega
  · exact .inr (.inr ⟨hquote, hbackslash, hnewline, if_neg hcontrol⟩)

/-- Reading goes on behind the form of a character. -/
theorem decodeBody_encodeChar_append (c : Char) (rest : List Char) :
    decodeBody (encodeChar c ++ rest) = c :: decodeBody rest := by
  rcases encodeChar_cases c with ⟨letter, hform, hletter, -⟩ | ⟨hlt, hform⟩ | ⟨-, hc, -, hform⟩
  · rw [hform, List.cons_append, decodeBody_backslash, List.cons_append, decodeEscape, hletter]
    rfl
  · obtain ⟨hd, he, hvalue⟩ := hexDigits_of_lt hlt
    rw [hform, List.cons_append, decodeBody_backslash, List.cons_append, List.cons_append,
      List.cons_append, List.nil_append, decodeEscape_hex hd he, hvalue, Char.ofNat_toNat]
    rfl
  · rw [hform]
    exact decodeBody_cons_of_ne hc rest

/-- What a literal was written for is what it stands for. -/
theorem decodeBody_encodeBody (text : List Char) : decodeBody (encodeBody text) = text := by
  induction text with
  | nil => exact decodeBody_nil
  | cons c text ih => rw [encodeBody_cons, decodeBody_encodeChar_append, ih]

open Lexeme (IsBody)

theorem isBody_of_isHexDigit {d : Char} (hd : isHexDigit d = true) {rest : List Char}
    (h : IsBody rest) : IsBody (d :: rest) := by
  refine IsBody.char ?_ ?_ ?_ h <;> rintro rfl <;> exact absurd hd (by decide)

/-- The form of a character does not end the literal. -/
theorem isBody_encodeChar_append (c : Char) {rest : List Char} (h : IsBody rest) :
    IsBody (encodeChar c ++ rest) := by
  rcases encodeChar_cases c with ⟨letter, hform, -, hletter⟩ | ⟨hlt, hform⟩ |
    ⟨hquote, hbackslash, hnewline, hform⟩
  · rw [hform]
    exact IsBody.escape hletter h
  · obtain ⟨hd, he, -⟩ := hexDigits_of_lt hlt
    rw [hform]
    exact IsBody.escape (by decide) (isBody_of_isHexDigit hd (isBody_of_isHexDigit he h))
  · rw [hform]
    exact IsBody.char hquote hbackslash hnewline h

/-- A written literal is one literal. -/
theorem isBody_encodeBody (text : List Char) : IsBody (encodeBody text) := by
  induction text with
  | nil => exact IsBody.nil
  | cons c text ih => exact isBody_encodeChar_append c ih

end ImpFront.Text
