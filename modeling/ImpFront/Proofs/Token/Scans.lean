import ImpFront.Proofs.Text.Escape
import ImpFront.Proofs.Token.Acceptance
import ImpFront.Proofs.Token.Tiling
import ImpFront.Syntax.Printer
/-!
# ImpFront.Proofs.Token.Scans

**Texts that say given signs.** `Scans text signs` is a scan without its places: the
text falls into lexemes, and those that become tokens say the signs. It has one rule
for each sort of lexeme, by which a written text is taken apart from the front.
-/

namespace ImpFront

open Lexeme

/-- Whether the text falls into lexemes that say the signs. -/
def Scans (text : List Char) (signs : List Sign) : Prop :=
  ∃ ls, Tiles text ls ∧ ls.filterMap sign? = signs

/-- Whether a sign says what a token can: names are words that are not reserved, and numbers are
numbers. -/
structure Sign.IsLexical (sign : Sign) : Prop where
  word : sign.kind = .identifier → IsWord sign.text.toList ∧ Kind.ofWord sign.text = .identifier
  number : sign.kind = .number → IsNumber sign.text.toList

/-- What a lexeme says is lexical. -/
theorem Lexeme.isLexical_of_sign? {l : Lexeme} (hl : l.IsProper) {sign : Sign}
    (h : l.sign? = some sign) : sign.IsLexical := by
  have hcases := sign?_cases hl h
  refine ⟨fun hword => ?_, fun hnumber => ?_⟩
  · rw [hword] at hcases
    rcases hcases with ⟨-, hname⟩ | ⟨hkind, -⟩ | hkind | hkind | hkind
    · exact hname
    all_goals exact absurd hkind (by decide)
  · rw [hnumber] at hcases
    rcases hcases with ⟨hkind, -⟩ | ⟨-, hdigits⟩ | hkind | hkind | hkind
    · exact absurd hkind (by decide)
    · exact hdigits
    all_goals exact absurd hkind (by decide)

/-! ### Lexemes in front of a text -/

/-- Whether the text says the signs, and neither a word nor a number goes on into it. -/
structure Follows (rest : List Char) (signs : List Sign) : Prop where
  apart : ∀ c ∈ rest.head?, isWordChar c = false ∧ c ≠ '.'
  scans : Scans rest signs

variable {rest : List Char} {signs : List Sign}

namespace Scans

theorem nil : Scans [] [] := ⟨[], .nil, rfl⟩

/-- A lexeme in front of a text says its sign. -/
theorem cons {l : Lexeme} {sign : Sign} (hsign : l.sign? = some sign) (hne : l.text ≠ [])
    (hfirst : first (l.text ++ rest) = .ok l) (h : Scans rest signs) :
    Scans (l.text ++ rest) (sign :: signs) := by
  obtain ⟨ls, htiles, rfl⟩ := h
  refine ⟨l :: ls, .cons (by simp [hne]) hfirst (by rwa [List.drop_left]), ?_⟩
  rw [List.filterMap_cons, hsign]

/-- A blank joins the blanks behind it. -/
theorem blank {c : Char} (hc : Text.isBlank c = true) (h : Scans rest signs) :
    Scans (c :: rest) signs := by
  obtain ⟨ls, htiles, hsigns⟩ := h
  have hfirst := first_blank hc rest
  cases rest with
  | nil =>
    cases htiles
    · exact ⟨[_], .cons (by simp) hfirst .nil, hsigns⟩
    · contradiction
  | cons d rest =>
    by_cases hd : Text.isBlank d = true
    · -- The blanks behind were one lexeme, which is now longer.
      cases htiles with
      | cons hne hnext htail =>
        rw [first_blank hd] at hnext
        cases hnext
        refine ⟨_ :: _, .cons (by simp) hfirst ?_, hsigns⟩
        simpa [Lexeme.text, hd] using htail
    · refine ⟨_ :: ls, .cons (by simp) hfirst ?_, hsigns⟩
      simpa [Lexeme.text, hd] using htiles

theorem space (h : Scans rest signs) : Scans (' ' :: rest) signs := h.blank (by decide)

theorem newline (h : Scans rest signs) : Scans ('\n' :: rest) signs := h.blank (by decide)

/-- Blanks before a line. -/
theorem indentation (level : Nat) (h : Scans rest signs) :
    Scans ((ImpFront.indentation level).toList ++ rest) signs := by
  have hblanks (n : Nat) : Scans (List.replicate n ' ' ++ rest) signs := by
    induction n with
    | zero => exact h
    | succ n ih => exact ih.space
  rw [ImpFront.indentation, String.toList_ofList]
  exact hblanks _

theorem name {name : String} (hname : (Sign.name name).IsLexical) (h : Follows rest signs) :
    Scans (name.toList ++ rest) (.name name :: signs) := by
  obtain ⟨hword, hkind⟩ := hname.word rfl
  have hsign : (Lexeme.word name.toList).sign? = some (.name name) := by
    have hkind' : Kind.ofWord name = .identifier := hkind
    rw [sign?, token?, String.ofList_toList, hkind']
    rfl
  have hne : name.toList ≠ [] := by
    obtain ⟨c, tail, htext, -, -⟩ := hword
    have htext' : name.toList = c :: tail := htext
    rw [htext']
    exact List.cons_ne_nil c tail
  exact cons hsign hne (first_word hword fun c hc => (h.apart c hc).1) h.scans

theorem isWord_of_reserved {kind : Kind} (h : kind ∈ Kind.reserved) :
    IsWord kind.describe.toList ∧ Kind.ofWord kind.describe = kind := by
  have htable : ∀ kind ∈ Kind.reserved, kind.describe.toList.head?.any isWordStart = true ∧
      kind.describe.toList.tail.all isWordChar = true ∧ Kind.ofWord kind.describe = kind := by
    decide +kernel
  obtain ⟨hhead, htail, hkind⟩ := htable kind h
  obtain ⟨c, tail, htext⟩ := List.exists_cons_of_ne_nil (describe_ne_nil kind)
  rw [htext] at hhead htail
  exact ⟨⟨c, tail, htext, by simpa using hhead, List.all_eq_true.1 htail⟩, hkind⟩

theorem reserved (kind : Kind) (hkind : kind ∈ Kind.reserved) (h : Follows rest signs) :
    Scans (kind.describe.toList ++ rest) (.fixed kind :: signs) := by
  obtain ⟨hword, hof⟩ := isWord_of_reserved hkind
  have hsign : (Lexeme.word kind.describe.toList).sign? = some (.fixed kind) := by
    rw [sign?, token?, String.ofList_toList, hof]
    rfl
  have hfirst := first_word hword fun c hc => (h.apart c hc).1
  exact cons hsign (describe_ne_nil kind) hfirst h.scans

theorem number {digits : String} (hdigits : IsNumber digits.toList) (h : Follows rest signs) :
    Scans (digits.toList ++ rest) (⟨.number, digits⟩ :: signs) := by
  have hsign : (Lexeme.number digits.toList).sign? = some ⟨.number, digits⟩ := by
    rw [sign?, token?, String.ofList_toList]
    rfl
  have hne : digits.toList ≠ [] := by
    obtain ⟨c, tail, htext, -⟩ := hdigits.exists_digit
    rw [htext]
    exact List.cons_ne_nil c tail
  have hrest : ∀ c ∈ rest.head?, c.isDigit = false ∧ c ≠ '.' := by
    intro c hc
    obtain ⟨hword, hpoint⟩ := h.apart c hc
    exact ⟨(Bool.or_eq_false_iff.1 hword).2, hpoint⟩
  exact cons hsign hne (first_number hdigits hrest) h.scans

/-- A written literal is read as one lexeme in front of anything. -/
theorem first_encode (value : String) (rest : List Char) :
    first ((Text.encode value).toList ++ rest)
      = .ok (.string (Text.encodeBody value.toList)) := by
  have hread := first_string (Text.isBody_encodeBody value.toList) rest
  rw [Text.toList_encode]
  simpa using hread

/-- A written literal stands for what it was written for, whatever follows. -/
theorem string (value : String) (h : Scans rest signs) :
    Scans ((Text.encode value).toList ++ rest) (⟨.string, value⟩ :: signs) := by
  have hsign : (Lexeme.string (Text.encodeBody value.toList)).sign? = some ⟨.string, value⟩ := by
    rw [sign?, token?, Text.decodeBody_encodeBody, String.ofList_toList]
    rfl
  have htext : (Text.encode value).toList
      = (Lexeme.string (Text.encodeBody value.toList)).text := by
    rw [Text.toList_encode]
    rfl
  have hfirst := first_encode value rest
  rw [htext] at hfirst ⊢
  exact cons hsign (by simp [Lexeme.text]) hfirst h

/-- A symbol ends where no continuation follows. -/
theorem symbol (kind : Kind) (hkind : kind ∈ symbolOrder)
    (hrest : ∀ c ∈ rest.head?, isContinuation c = false) (h : Scans rest signs) :
    Scans (kind.describe.toList ++ rest) (.fixed kind :: signs) :=
  cons (l := .symbol kind) rfl (describe_ne_nil kind) (first_symbol hkind hrest) h

/-- A closed symbol stands in front of anything. -/
theorem closed (kind : Kind) (hkind : kind ∈ closedSymbols) (h : Scans rest signs) :
    Scans (kind.describe.toList ++ rest) (.fixed kind :: signs) :=
  cons (l := .symbol kind) rfl (describe_ne_nil kind) (first_closed hkind rest) h

end Scans

/-! ### Texts that follow a word -/

namespace Follows

theorem cons {c : Char} (hword : isWordChar c = false) (hpoint : c ≠ '.')
    (h : Scans (c :: rest) signs) : Follows (c :: rest) signs := by
  refine ⟨?_, h⟩
  rintro d ⟨⟩
  exact ⟨hword, hpoint⟩

theorem space (h : Scans rest signs) : Follows (' ' :: rest) signs :=
  .cons (by decide) (by decide) h.space

theorem newline (h : Scans rest signs) : Follows ('\n' :: rest) signs :=
  .cons (by decide) (by decide) h.newline

theorem indentation (level : Nat) (h : Follows rest signs) :
    Follows ((ImpFront.indentation level).toList ++ rest) signs := by
  refine ⟨?_, h.scans.indentation level⟩
  rw [ImpFront.indentation, String.toList_ofList]
  cases 4 * level with
  | zero => exact h.apart
  | succ n =>
    rintro c ⟨⟩
    decide

theorem closed (kind : Kind) (hkind : kind ∈ closedSymbols) (h : Scans rest signs) :
    Follows (kind.describe.toList ++ rest) (.fixed kind :: signs) := by
  have htable : ∀ kind ∈ closedSymbols, kind.describe.toList.head?.all (fun c =>
      !isWordChar c && c ≠ '.') = true := by
    decide +kernel
  obtain ⟨c, tail, htext⟩ := List.exists_cons_of_ne_nil (describe_ne_nil kind)
  have hhead := htable kind hkind
  have hscan := h.closed kind hkind
  rw [htext] at hhead hscan ⊢
  simp only [List.head?_cons, Option.all_some, Bool.and_eq_true, Bool.not_eq_true',
    decide_eq_true_eq] at hhead
  exact .cons hhead.1 hhead.2 hscan

/-- Between spaces, every symbol stands for itself. -/
theorem spaced (kind : Kind) (hkind : kind ∈ symbolOrder) (h : Scans rest signs) :
    Follows (' ' :: (kind.describe.toList ++ ' ' :: rest)) (.fixed kind :: signs) := by
  refine .space (.symbol kind hkind ?_ h.space)
  rintro c ⟨⟩
  decide

end Follows

/-- Whether a text says signs wherever a word could end, if the signs are lexical. -/
def Says (text : String) (signs : List Sign) : Prop :=
  (∀ s ∈ signs, s.IsLexical) → ∀ {rest : List Char} {tail : List Sign},
    Follows rest tail → Scans (text.toList ++ rest) (signs ++ tail)

end ImpFront
