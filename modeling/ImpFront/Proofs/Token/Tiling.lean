import ImpFront.Proofs.Syntax.Signs
import ImpFront.Proofs.Token.Reading
import ImpFront.Token.Scan
/-!
# ImpFront.Proofs.Token.Tiling

**A text as a row of lexemes.** `Lexeme.Tiles` cuts a text into lexemes without regard
to places; a scan succeeds exactly where that is possible, and then its tokens are the
lexemes laid out one behind the other.
-/

namespace ImpFront

namespace Lexeme

/-- The lexemes that a text falls into. -/
inductive Tiles : List Char → List Lexeme → Prop where
  | nil : Tiles [] []
  | cons {cs : List Char} {l : Lexeme} {ls : List Lexeme} :
    cs ≠ [] → first cs = .ok l → Tiles (cs.drop l.text.length) ls → Tiles cs (l :: ls)

/-- What a lexeme says, if it becomes a token. -/
def sign? (l : Lexeme) : Option Sign := l.token?.map fun (kind, text) => ⟨kind, text⟩

theorem Tiles.isProper {cs : List Char} {ls : List Lexeme} (h : Tiles cs ls) :
    ∀ l ∈ ls, l.IsProper := by
  induction h with
  | nil => exact fun l hl => by cases hl
  | cons _ hfirst _ ih => exact List.forall_mem_cons.2 ⟨isProper_of_first hfirst, ih⟩

/-- The kind of a reserved word has the word for its spelling. -/
theorem describe_ofWord {word : String} (h : Kind.ofWord word ≠ .identifier) :
    Kind.ofWord word ∈ Kind.reserved ∧ (Kind.ofWord word).describe = word := by
  unfold Kind.ofWord at h ⊢
  cases hfind : Kind.reserved.find? (·.describe = word) with
  | none =>
    rw [hfind] at h
    exact absurd rfl h
  | some kind => exact ⟨List.mem_of_find?_eq_some hfind, by simpa using List.find?_some hfind⟩

/-- What a lexeme can say: a name, a number, a string, a reserved word or a symbol. -/
theorem sign?_cases {l : Lexeme} (hl : l.IsProper) {sign : Sign} (h : l.sign? = some sign) :
    (sign.kind = .identifier ∧ IsWord sign.text.toList ∧ Kind.ofWord sign.text = .identifier)
      ∨ (sign.kind = .number ∧ IsNumber sign.text.toList) ∨ sign.kind = .string
      ∨ sign.kind ∈ Kind.reserved ∨ sign.kind ∈ symbolOrder := by
  cases l with
  | word t =>
    obtain rfl := Option.some.inj h
    by_cases hword : Kind.ofWord (.ofList t) = .identifier
    · refine .inl ⟨hword, ?_, hword⟩
      show IsWord (String.ofList t).toList
      rw [String.toList_ofList]
      exact hl
    · exact .inr (.inr (.inr (.inl (describe_ofWord hword).1)))
  | number t =>
    obtain rfl := Option.some.inj h
    refine .inr (.inl ⟨rfl, ?_⟩)
    show IsNumber (String.ofList t).toList
    rw [String.toList_ofList]
    exact hl
  | string body =>
    obtain rfl := Option.some.inj h
    exact .inr (.inr (.inl rfl))
  | symbol kind =>
    obtain rfl := Option.some.inj h
    exact .inr (.inr (.inr (.inr hl)))
  | blank t => cases h
  | comment t => cases h

/-- No lexeme becomes the end of the input. -/
theorem kind_ne_eof_of_sign? {l : Lexeme} (hl : l.IsProper) {sign : Sign}
    (h : l.sign? = some sign) : sign.kind ≠ .eof := by
  intro heof
  have hcases := sign?_cases hl h
  rw [heof] at hcases
  rcases hcases with ⟨hkind, -⟩ | ⟨hkind, -⟩ | hkind | hkind | hkind <;>
    exact absurd hkind (by decide)

theorem spelling?_of_reserved : ∀ kind ∈ Kind.reserved, kind.spelling? = some kind.describe := by
  decide

end Lexeme

open Lexeme

namespace Token

/-! ### Tokens of lexemes -/

/-- The sign of a token is the sign of its lexeme. -/
theorem sign_ofLexeme? (l : Lexeme) (span : Span) :
    (ofLexeme? l span).map Token.sign = l.sign? := by
  cases l with
  | word t =>
    have hsign : Token.sign ⟨.ofWord (.ofList t), .ofList t, span⟩
        = ⟨.ofWord (.ofList t), .ofList t⟩ := by
      by_cases hword : Kind.ofWord (.ofList t) = .identifier
      · rw [sign_of_unspelled hword rfl, hword]
      · obtain ⟨hreserved, htext⟩ := describe_ofWord hword
        rw [sign_of_spelled rfl (spelling?_of_reserved _ hreserved), Sign.fixed, htext]
    exact congrArg some hsign
  | number t => rfl
  | blank t => rfl
  | string body => rfl
  | comment t => rfl
  | symbol kind => cases kind <;> rfl

/-- The tokens of lexemes that stand one behind the other from a place on, and the end. -/
def layout (p : Position) : List Lexeme → List Token
  | [] => [endAt p]
  | l :: ls => (ofLexeme? l ⟨p, p.after l.text⟩).toList ++ layout (p.after l.text) ls

/-- A scan is the layout of the lexemes that the text falls into. -/
theorem scanFrom_eq_ok_iff {p : Position} {cs : List Char} {ts : List Token} :
    scanFrom [] p cs = .ok ts ↔ ∃ ls, Tiles cs ls ∧ layout p ls = ts := by
  constructor
  · intro h
    -- Scanning shortens the text by a lexeme, not by a character.
    induction hn : cs.length using Nat.strongRecOn generalizing p cs ts with
    | ind n ih =>
      subst hn
      cases cs with
      | nil =>
        rw [scanFrom_nil] at h
        exact ⟨[], .nil, Except.ok.inj h⟩
      | cons c rest =>
        have hne : c :: rest ≠ [] := List.cons_ne_nil c rest
        cases hfirst : Lexeme.first (c :: rest) with
        | error cause =>
          rw [scanFrom_of_error hne hfirst] at h
          cases h
        | ok l =>
          rw [scanFrom_of_first hne hfirst] at h
          cases hrest : scanFrom [] (p.after l.text) ((c :: rest).drop l.text.length) with
          | error d =>
            rw [hrest] at h
            cases h
          | ok ts' =>
            rw [hrest] at h
            obtain ⟨ls, htiles, rfl⟩ := ih _ (length_drop_of_first hfirst) hrest rfl
            exact ⟨l :: ls, .cons hne hfirst htiles, Except.ok.inj h⟩
  · rintro ⟨ls, htiles, rfl⟩
    induction htiles generalizing p with
    | nil => exact scanFrom_nil [] p
    | cons hne hfirst _ ih =>
      rw [scanFrom_of_first hne hfirst, ih]
      rfl

/-- A source is scanned if it is short enough and falls into lexemes. -/
theorem scan_eq_ok_iff {source : String} {ts : List Token} :
    scan source = .ok ts ↔ source.utf8ByteSize ≤ Cause.maxSourceBytes
      ∧ ∃ ls, Tiles source.toList ls ∧ layout .start ls = ts := by
  rw [← scanFrom_eq_ok_iff, scan, checkSize]
  split
  · next h => exact ⟨fun hscan => ⟨h, hscan⟩, fun hscan => hscan.2⟩
  · next h => exact ⟨fun hscan => (by cases hscan), fun hscan => absurd hscan.1 h⟩

/-- The kinds and texts of a layout are those of the lexemes, and then the end. -/
theorem map_kind_text_layout (p : Position) (ls : List Lexeme) :
    (layout p ls).map (fun t => (t.kind, t.text)) = ls.filterMap token? ++ [(.eof, "EOF")] := by
  induction ls generalizing p with
  | nil => rfl
  | cons l ls ih =>
    rw [layout, List.map_append, ih, List.filterMap_cons, ofLexeme?]
    cases l.token? <;> rfl

/-- The signs of a layout are those of the lexemes, and then the end. -/
theorem map_sign_layout (p : Position) (ls : List Lexeme) :
    (layout p ls).map Token.sign = ls.filterMap sign? ++ [⟨.eof, "EOF"⟩] := by
  induction ls generalizing p with
  | nil => rfl
  | cons l ls ih =>
    have hsign := sign_ofLexeme? l ⟨p, p.after l.text⟩
    rw [layout, List.map_append, ih, ← Option.toList_map, hsign, List.filterMap_cons]
    cases l.sign? <;> rfl

/-- Up to the end of the input, a layout has the signs of the lexemes. -/
theorem signs_ofTokens_layout {p : Position} {ls : List Lexeme} (h : ∀ l ∈ ls, l.IsProper) :
    ((layout p ls).takeWhile (·.kind ≠ .eof)).map Token.sign = ls.filterMap sign? := by
  have hopen : ∀ sign ∈ ls.filterMap sign?, decide (sign.kind ≠ .eof) = true := by
    intro sign hsign
    obtain ⟨l, hl, hls⟩ := List.mem_filterMap.1 hsign
    exact decide_eq_true (kind_ne_eof_of_sign? (h l hl) hls)
  -- The sign of a token has its kind, so the end is found among the signs as well.
  have hcomm : ((layout p ls).map Token.sign).takeWhile (·.kind ≠ .eof)
      = ((layout p ls).takeWhile (·.kind ≠ .eof)).map Token.sign := by
    rw [List.takeWhile_map]
    simp [Function.comp_def]
  rw [← hcomm, map_sign_layout, List.takeWhile_append_of_pos hopen]
  simp

end Token

end ImpFront
