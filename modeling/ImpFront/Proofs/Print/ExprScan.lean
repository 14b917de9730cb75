import ImpFront.Proofs.Token.Scans
/-!
# ImpFront.Proofs.Print.ExprScan

**Expressions read back as they were written.** A printed expression says its signs in
front of every text apart from it. Spaces keep the binary operators away from their
operands; only the `!` of a negation stands right before a lexeme that could continue
it, and no expression begins with an equals sign.
-/

namespace ImpFront

open Lexeme

/-! ### First characters -/

theorem isContinuation_of_isWordStart {c : Char} (h : isWordStart c = true) :
    isContinuation c = false := by
  rw [isWordStart_iff] at h
  simp [isContinuation, Char.ext_iff, ← UInt32.toNat_inj]
  omega

theorem isContinuation_of_isDigit {c : Char} (h : c.isDigit = true) :
    isContinuation c = false := by
  rw [isDigit_iff] at h
  simp [isContinuation, Char.ext_iff, ← UInt32.toNat_inj]
  omega

theorem isContinuation_head_name {name : String} (h : (Sign.name name).IsLexical)
    (rest : List Char) : ∀ c ∈ (name.toList ++ rest).head?, isContinuation c = false := by
  obtain ⟨c, tail, htext, hc, -⟩ := (h.word rfl).1
  have htext' : name.toList = c :: tail := htext
  rw [htext']
  rintro d ⟨⟩
  exact isContinuation_of_isWordStart hc

theorem isContinuation_head_number {digits : List Char} (h : IsNumber digits)
    (rest : List Char) : ∀ c ∈ (digits ++ rest).head?, isContinuation c = false := by
  obtain ⟨c, tail, rfl, hc⟩ := h.exists_digit
  rintro d ⟨⟩
  exact isContinuation_of_isDigit hc

namespace Expr

/-- No expression begins with a character that continues a symbol. -/
theorem isContinuation_head_text : (e : Expr) → (∀ s ∈ e.signs, s.IsLexical) →
    ∀ rest, ∀ c ∈ (e.text.toList ++ rest).head?, isContinuation c = false
  | symbol name _, h, rest => isContinuation_head_name (h _ (List.mem_singleton_self _)) rest
  | number digits _, h, rest =>
    isContinuation_head_number ((h _ (List.mem_singleton_self _)).number rfl) rest
  | string value _, _, rest => by
    rw [text, Text.toList_encode]
    rintro c ⟨⟩
    decide
  | not operand _, _, rest => by
    rw [text, String.toList_append, List.append_assoc]
    rintro c ⟨⟩
    decide
  | group inner _, _, rest => by
    rw [text, String.toList_append, String.toList_append, List.append_assoc, List.append_assoc]
    rintro c ⟨⟩
    decide
  | assign target value _, h, rest => by
    simp only [text, String.toList_append, List.append_assoc]
    exact isContinuation_head_name (h _ (List.mem_cons_self ..)) _
  | binary op left right _, h, rest => by
    rw [signs, List.forall_mem_append] at h
    simp only [text, String.toList_append, List.append_assoc]
    exact left.isContinuation_head_text h.1 _
  | call callee arguments _, h, rest => by
    simp only [text, String.toList_append, List.append_assoc]
    exact isContinuation_head_name (h _ (List.mem_cons_self ..)) _

/-! ### Whole expressions -/

mutual

/-- A printed expression says its signs. -/
theorem says_text : (e : Expr) → Says e.text e.signs
  | symbol name _ => fun h _ _ hrest => .name (h _ (List.mem_singleton_self _)) hrest
  | number digits _ => fun h _ _ hrest =>
    .number ((h _ (List.mem_singleton_self _)).number rfl) hrest
  | string value _ => fun _ _ _ hrest => hrest.scans.string value
  | not operand _ => by
    intro h rest tail hrest
    rw [signs, List.forall_mem_cons] at h
    rw [text, String.toList_append, List.append_assoc]
    -- There is no space behind the mark: `!` and `=` would be one symbol.
    have hhead := operand.isContinuation_head_text h.2 rest
    exact .symbol .not (by decide) hhead (operand.says_text h.2 hrest)
  | group inner _ => by
    intro h rest tail hrest
    simp only [text, signs, String.toList_append, List.append_assoc, List.cons_append,
      List.forall_mem_append, List.forall_mem_cons] at h ⊢
    refine .closed .openParen (by decide) (inner.says_text h.2.1 ?_)
    exact .closed .closeParen (by decide) hrest.scans
  | assign target value _ => by
    intro h rest tail hrest
    simp only [text, signs, String.toList_append, List.append_assoc, List.cons_append,
      List.forall_mem_cons] at h ⊢
    obtain ⟨htarget, -, hvalue⟩ := h
    refine .name htarget (.spaced .assign (by decide) ?_)
    exact value.says_text hvalue hrest
  | binary op left right _ => by
    intro h rest tail hrest
    simp only [text, signs, String.toList_append, List.append_assoc, List.cons_append,
      List.forall_mem_append, List.forall_mem_cons] at h ⊢
    obtain ⟨hleft, -, hright⟩ := h
    refine left.says_text hleft (.spaced op.kind (by cases op <;> decide) ?_)
    exact right.says_text hright hrest
  | call callee arguments _ => by
    intro h rest tail hrest
    simp only [text, signs, String.toList_append, List.append_assoc, List.cons_append,
      List.forall_mem_append, List.forall_mem_cons] at h ⊢
    obtain ⟨hcallee, -, harguments, -⟩ := h
    refine .name hcallee (.closed .openParen (by decide) ?_)
    refine says_textList arguments harguments ?_
    exact .closed .closeParen (by decide) hrest.scans

/-- Printed expressions with commas between them say their signs. -/
theorem says_textList : (es : List Expr) → Says (textList es) (signsList es)
  | [] => fun _ _ _ hrest => hrest.scans
  | [e] => e.says_text
  | e :: f :: others => by
    intro h rest tail hrest
    simp only [textList, signsList, String.toList_append, List.append_assoc, List.cons_append,
      List.forall_mem_append, List.forall_mem_cons] at h ⊢
    obtain ⟨he, -, hothers⟩ := h
    refine e.says_text he (.closed .comma (by decide) (.space ?_))
    exact says_textList (f :: others) hothers hrest

end

end Expr

end ImpFront
