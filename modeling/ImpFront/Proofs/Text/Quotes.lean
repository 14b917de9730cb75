import ImpFront.Text.Literal
import ImpFront.Text.Quoted
/-!
# ImpFront.Proofs.Text.Quotes

**A quoted text shows every character.** Nothing in the quoted form of a character can be taken
for a part of the next one, so two texts that are quoted alike are the same.
-/

namespace ImpFront.Text

/-- Two texts that are the same up to a mark that neither front holds are the same in both parts. -/
theorem eq_of_append_mark {mark : Char} {a b x y : List Char} (ha : mark ∉ a) (hb : mark ∉ b)
    (h : a ++ mark :: x = b ++ mark :: y) : a = b ∧ x = y := by
  induction a generalizing b with
  | nil =>
    cases b with
    | nil => exact ⟨rfl, (List.cons.inj h).2⟩
    | cons c b => exact absurd (List.cons.inj h).1 (List.ne_of_not_mem_cons hb)
  | cons c a ih =>
    cases b with
    | nil => exact absurd (List.cons.inj h).1.symm (List.ne_of_not_mem_cons ha)
    | cons d b =>
      obtain ⟨rfl, htail⟩ := List.cons.inj h
      obtain ⟨rfl, hxy⟩ :=
        ih (List.not_mem_of_not_mem_cons ha) (List.not_mem_of_not_mem_cons hb) htail
      exact ⟨rfl, hxy⟩

/-! ### Code points -/

theorem hexDigit_digitChar {n : Nat} (h : n < 16) :
    isHexDigit (Nat.digitChar n) = true ∧ hexValue (Nat.digitChar n) = n := by
  have hall : ∀ n : Fin 16, isHexDigit (Nat.digitChar n.val) = true
      ∧ hexValue (Nat.digitChar n.val) = n.val := by
    decide +kernel
  exact hall ⟨n, h⟩

/-- A number is written in hexadecimal digits that are read as the number. -/
theorem hexNumber_toDigits (n : Nat) :
    (∀ c ∈ Nat.toDigits 16 n, isHexDigit c = true) ∧ hexNumber (Nat.toDigits 16 n) = n := by
  induction n using Nat.strongRecOn with
  | ind n ih =>
    rw [Nat.toDigits_eq_if (by decide)]
    split
    · next hlt =>
      obtain ⟨hdigit, hvalue⟩ := hexDigit_digitChar hlt
      exact ⟨List.forall_mem_singleton.2 hdigit, by simp [hexNumber, hvalue]⟩
    · next hge =>
      obtain ⟨hdigits, hnumber⟩ := ih (n / 16) (by omega)
      obtain ⟨hdigit, hvalue⟩ := hexDigit_digitChar (Nat.mod_lt n (by decide : 0 < 16))
      refine ⟨List.forall_mem_append.2 ⟨hdigits, List.forall_mem_singleton.2 hdigit⟩, ?_⟩
      unfold hexNumber at hnumber ⊢
      rw [List.foldl_append, hnumber, List.foldl_cons, List.foldl_nil, hvalue]
      omega

/-- The braces end a code point, whatever follows. -/
theorem eq_of_codePoint_append {c d : Char} {x y : List Char}
    (h : codePoint c ++ x = codePoint d ++ y) : c = d ∧ x = y := by
  have hbrace (c : Char) : '}' ∉ Nat.toDigits 16 c.toNat := by
    intro hmem
    have hdigit := (hexNumber_toDigits c.toNat).1 _ hmem
    exact absurd hdigit (by decide)
  simp only [codePoint, List.append_assoc, List.cons_append, List.nil_append, List.cons.injEq,
    true_and] at h
  obtain ⟨hdigits, hrest⟩ := eq_of_append_mark (hbrace c) (hbrace d) h
  have hnumber := congrArg hexNumber hdigits
  rw [(hexNumber_toDigits _).2, (hexNumber_toDigits _).2] at hnumber
  exact ⟨Char.toNat_inj.1 hnumber, hrest⟩

/-! ### Quotes -/

/-- The quoted forms: a backslash and a letter, a code point, or the character itself. -/
theorem quoteChar_cases (c : Char) :
    (∃ letter, quoteChar c = ['\\', letter] ∧ escapeLetter? letter = some c)
      ∨ quoteChar c = codePoint c ∨ (c ≠ '"' ∧ c ≠ '\\' ∧ quoteChar c = [c]) := by
  unfold quoteChar
  by_cases hnull : c = '\x00'
  · exact .inl ⟨'0', by rw [if_pos hnull], by rw [hnull]; rfl⟩
  by_cases htab : c = '\t'
  · exact .inl ⟨'t', by rw [if_neg hnull, if_pos htab], by rw [htab]; rfl⟩
  by_cases hnewline : c = '\n'
  · exact .inl ⟨'n', by rw [if_neg hnull, if_neg htab, if_pos hnewline], by rw [hnewline]; rfl⟩
  by_cases hreturn : c = '\r'
  · exact .inl ⟨'r', by simp [hreturn], by rw [hreturn]; rfl⟩
  by_cases hquote : c = '"'
  · exact .inl ⟨'"', by simp [hquote], by rw [hquote]; rfl⟩
  by_cases hbackslash : c = '\\'
  · exact .inl ⟨'\\', by simp [hbackslash], by rw [hbackslash]; rfl⟩
  rw [if_neg hnull, if_neg htab, if_neg hnewline, if_neg hreturn, if_neg hquote, if_neg hbackslash]
  split
  · exact .inr (.inl rfl)
  · exact .inr (.inr ⟨hquote, hbackslash, rfl⟩)

/-- The quoted form of a character is known from any text that begins with it. -/
theorem eq_of_quoteChar_append {c d : Char} {x y : List Char}
    (h : quoteChar c ++ x = quoteChar d ++ y) : c = d ∧ x = y := by
  rcases quoteChar_cases c with ⟨l, hc, hl⟩ | hc | ⟨-, hc', hc⟩ <;>
  rcases quoteChar_cases d with ⟨m, hd, hm⟩ | hd | ⟨-, hd', hd⟩ <;>
  rw [hc, hd] at h
  · obtain ⟨-, hletter⟩ := List.cons.inj h
    obtain ⟨rfl, hrest⟩ := List.cons.inj hletter
    rw [hl] at hm
    exact ⟨Option.some.inj hm, hrest⟩
  · obtain ⟨-, hletter⟩ := List.cons.inj h
    obtain ⟨rfl, -⟩ := List.cons.inj hletter
    cases hl
  · exact absurd (List.cons.inj h).1.symm hd'
  · obtain ⟨-, hletter⟩ := List.cons.inj h
    obtain ⟨rfl, -⟩ := List.cons.inj hletter
    cases hm
  · exact eq_of_codePoint_append h
  · exact absurd (List.cons.inj h).1.symm hd'
  · exact absurd (List.cons.inj h).1 hc'
  · exact absurd (List.cons.inj h).1 hc'
  · exact List.cons.inj h

theorem head?_quoteChar_ne (c : Char) (x : List Char) : (quoteChar c ++ x).head? ≠ some '"' := by
  rcases quoteChar_cases c with ⟨l, hc, -⟩ | hc | ⟨hquote, -, hc⟩
  · simp [hc]
  · simp [hc, codePoint]
  · rw [hc]
    intro h
    exact hquote (Option.some.inj h)

/-- **Texts that are quoted alike are the same.** -/
theorem quote_injective : Function.Injective quote := by
  have hbody (a b : List Char)
      (h : a.flatMap quoteChar ++ ['"'] = b.flatMap quoteChar ++ ['"']) : a = b := by
    induction a generalizing b with
    | nil =>
      cases b with
      | nil => rfl
      | cons d b =>
        rw [List.flatMap_cons, List.append_assoc] at h
        exact absurd (congrArg List.head? h).symm (head?_quoteChar_ne d _)
    | cons c a ih =>
      cases b with
      | nil =>
        rw [List.flatMap_cons, List.append_assoc] at h
        exact absurd (congrArg List.head? h) (head?_quoteChar_ne c _)
      | cons d b =>
        rw [List.flatMap_cons, List.flatMap_cons, List.append_assoc, List.append_assoc] at h
        obtain ⟨rfl, hrest⟩ := eq_of_quoteChar_append h
        rw [ih b hrest]
  intro a b h
  have htext := congrArg String.toList h
  rw [toList_quote, toList_quote, List.cons_append, List.cons_append] at htext
  exact String.toList_inj.1 (hbody _ _ (List.cons.inj htext).2)

end ImpFront.Text
