import ImpFront.Proofs.Parse.Grammar
import ImpFront.Proofs.Print.StatementScan
import ImpFront.Proofs.Syntax.Erased
/-!
# ImpFront.Proofs.Print.RoundTrip

**Printing and reading again.** What a program was read from and what it is printed as
have the same tokens, because both say the signs of the tree. So the printed text is
read as the same program, up to spans, and printing that one changes nothing more.
-/

namespace ImpFront

open Lexeme

/-- Kinds and texts are what signs are made of. -/
theorem map_token?_eq {ls : List Lexeme} :
    (ls.filterMap token?).map (fun (kind, text) => Sign.mk kind text) = ls.filterMap sign? := by
  rw [List.map_filterMap]
  rfl

/-- Lexemes that say the same become the same tokens, spans aside. -/
theorem filterMap_token?_eq {ls ls' : List Lexeme} (h : ls'.filterMap sign? = ls.filterMap sign?) :
    ls'.filterMap token? = ls.filterMap token? := by
  rw [← map_token?_eq, ← map_token?_eq] at h
  refine (List.map_inj_right ?_).1 h
  rintro ⟨kind, text⟩ ⟨kind', text'⟩ heq
  cases heq
  rfl

/-- When something of a result is known, there is a result. -/
theorem exists_of_map_eq_ok {α β : Type} {read : Except Diagnostic α} {f : α → β} {x : β}
    (h : read.map f = .ok x) : ∃ a, read = .ok a ∧ f a = x := by
  cases read with
  | error d => cases h
  | ok a => exact ⟨a, rfl, Except.ok.inj h⟩

namespace Program

variable {settings : Settings} {source : String} {p : Program}

theorem ofSource_eq_ok_iff : ofSource settings source = .ok p ↔
    ∃ tokens, Token.scan source = .ok tokens ∧ ofTokens settings tokens = .ok p := by
  unfold ofSource
  cases Token.scan source with
  | ok tokens => exact ⟨fun h => ⟨tokens, rfl, h⟩, fun ⟨_, htokens, h⟩ => by cases htokens; exact h⟩
  | error d => exact ⟨fun h => (by cases h), fun ⟨_, htokens, _⟩ => (by cases htokens)⟩

/-- When something of the program that was read is known, there is a program that was read. -/
theorem exists_of_map_ofSource {α : Type} {f : Program → α} {x : α}
    (h : (ofSource settings source).map f = .ok x) :
    ∃ p, ofSource settings source = .ok p ∧ f p = x := exists_of_map_eq_ok h

/-- A program has the signs of the lexemes that it was read from. -/
theorem signs_of_layout {ls : List Lexeme} (hproper : ∀ l ∈ ls, l.IsProper) {s : State}
    (h : parseTokens settings (Token.layout .start ls) = .ok p s) :
    p.signs = ls.filterMap sign? := by
  rw [(of_parseTokens h).1, State.signs_ofTokens]
  exact Token.signs_ofTokens_layout hproper

/-- **Round trip.** A program that was read from a source is printed with the tokens of the source,
spans aside; the printed text, if it is not too large to be read at all, is read as a program of the
same structure, and that one is printed as the same text. -/
theorem ofSource_text (h : ofSource settings source = .ok p)
    (hsize : p.text.utf8ByteSize ≤ Cause.maxSourceBytes) :
    ∃ tokens tokens', Token.scan source = .ok tokens ∧ Token.scan p.text = .ok tokens' ∧
      tokens'.map (fun t => (t.kind, t.text)) = tokens.map (fun t => (t.kind, t.text)) ∧
      ∃ q, ofSource settings p.text = .ok q ∧ q.trace = p.trace ∧ q.text = p.text := by
  obtain ⟨tokens, hscan, hparse⟩ := ofSource_eq_ok_iff.1 h
  obtain ⟨s, hs⟩ := ofTokens_eq_ok_iff.1 hparse
  obtain ⟨-, ls, htiles, rfl⟩ := Token.scan_eq_ok_iff.1 hscan
  have hsigns := signs_of_layout htiles.isProper hs
  have hlexical : ∀ sign ∈ p.signs, sign.IsLexical := by
    intro sign hsign
    rw [hsigns] at hsign
    obtain ⟨l, hl, hsaid⟩ := List.mem_filterMap.1 hsign
    exact isLexical_of_sign? (htiles.isProper l hl) hsaid
  -- The printed text falls into lexemes of its own, which say what those of the source say.
  obtain ⟨ls', htiles', hsaid⟩ := p.scans_text hlexical
  have hscan' : Token.scan p.text = .ok (Token.layout .start ls') :=
    Token.scan_eq_ok_iff.2 ⟨hsize, ls', htiles', rfl⟩
  have htokens : ls'.filterMap token? = ls.filterMap token? :=
    filterMap_token?_eq (hsaid.trans hsigns)
  refine ⟨_, _, hscan, hscan', ?_, ?_⟩
  · rw [Token.map_kind_text_layout, Token.map_kind_text_layout, htokens]
  · -- The tree that was read shows that the printed text can be read, with the same limit.
    obtain ⟨-, hfits, hneed⟩ := of_parseTokens hs
    have hahead : (State.ofTokens (Token.layout .start ls')).signs = p.signs := by
      rw [State.signs_ofTokens, Token.signs_ofTokens_layout htiles'.isProper, hsaid]
    obtain ⟨q, s', hq, herase⟩ := exists_parseTokens settings hahead hfits hneed
    refine ⟨q, ofSource_eq_ok_iff.2 ⟨_, hscan', ofTokens_eq_ok_iff.2 ⟨s', hq⟩⟩, ?_, ?_⟩
    · exact trace_eq_of_erase_eq herase
    · exact text_eq_of_erase_eq herase

theorem ofSource_text_at_call : ∃ p,
    ofSource ⟨8⟩ "print ( ! a/1.50 , // why\n \"\\x41\\t\" ) ;" = .ok p ∧
      p.text = "print(!a / 1.50, \"A\\t\");\n" ∧
      ∃ tokens tokens',
        Token.scan "print ( ! a/1.50 , // why\n \"\\x41\\t\" ) ;" = .ok tokens ∧
        Token.scan p.text = .ok tokens' ∧
        tokens'.map (fun t => (t.kind, t.text)) = tokens.map (fun t => (t.kind, t.text)) ∧
        ∃ q, ofSource ⟨8⟩ p.text = .ok q ∧ q.trace = p.trace ∧ q.text = p.text := by
  have hprinted : (ofSource ⟨8⟩ "print ( ! a/1.50 , // why\n \"\\x41\\t\" ) ;").map text
      = .ok "print(!a / 1.50, \"A\\t\");\n" := by
    decide +kernel
  cases hp : ofSource ⟨8⟩ "print ( ! a/1.50 , // why\n \"\\x41\\t\" ) ;" with
  | error d =>
    rw [hp] at hprinted
    cases hprinted
  | ok p =>
    rw [hp] at hprinted
    have htext := Except.ok.inj hprinted
    exact ⟨p, rfl, htext, ofSource_text hp (by rw [htext]; decide +kernel)⟩

end Program

end ImpFront
