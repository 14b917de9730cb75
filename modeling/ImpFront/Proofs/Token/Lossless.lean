import ImpFront.Proofs.Token.Places
/-!
# ImpFront.Proofs.Token.Lossless

**Tokens and what lies between them make up the source.** A token covers the text it has,
or for a string the literal that its text was decoded from; blanks and comments cover the
rest. The end token is the exception: it has a text and covers nothing.
-/

namespace ImpFront

namespace Lexeme

theorem IsGap.append_gap {a b : List Char} (ha : IsGap a) (hb : IsGap b) : IsGap (a ++ b) := by
  induction ha with
  | nil => exact hb
  | append hpiece _ ih =>
    rw [List.append_assoc]
    exact .append hpiece ih

/-- A lexeme that becomes no token may stand between tokens. -/
theorem isGap_of_token?_eq_none {l : Lexeme} (hl : l.IsProper) (h : l.token? = none) :
    IsGap l.text := by
  cases l with
  | blank t => exact List.append_nil t ▸ .append (.inl hl) .nil
  | comment t => exact List.append_nil t ▸ .append (.inr hl) .nil
  | word t => cases h
  | number t => cases h
  | string body => cases h
  | symbol kind => cases h

end Lexeme

open Lexeme Position

namespace Token

/-! ### What a token covers -/

/-- The token covers the text it has, or the literal of that text. -/
structure Covers (text : List Char) (t : Token) : Prop where
  ne_eof : t.kind ≠ .eof
  lt : t.span.start.offset < t.span.stop.offset
  slice : t.kind ≠ .string → Slice text t.span.start.offset t.span.stop.offset t.text.toList
  string : t.kind = .string → ∃ body, IsBody body ∧ t.text = Text.decode (.ofList body)
    ∧ Slice text t.span.start.offset t.span.stop.offset ('"' :: body ++ ['"'])

/-- From a byte on, blanks and comments alone stand before, between and behind the tokens. -/
def GapsFrom (text : List Char) (start : Nat) : List Token → Prop
  | [] => ∃ gap, IsGap gap ∧ Slice text start (byteLength text) gap
  | t :: ts => (∃ gap, IsGap gap ∧ Slice text start t.span.start.offset gap)
    ∧ GapsFrom text t.span.stop.offset ts

/-- The tokens tile the source: they cover it in order, with blanks and comments between them. -/
structure Tile (source : String) (ts : List Token) : Prop where
  /-- The end token is the last one and the only one, and it covers nothing at the end. -/
  closed : ∃ others p, ts = others ++ [.endAt p] ∧ p.offset = source.utf8ByteSize
    ∧ ∀ t ∈ others, t.Covers source.toList
  /-- No token starts before the one in front of it stops. -/
  ordered : ts.IsChain fun t u => t.span.stop.offset ≤ u.span.start.offset
  gaps : GapsFrom source.toList 0 ts

variable {text before cs : List Char} {p : Position}

theorem covers_of_ofLexeme? {l : Lexeme} (hl : l.IsProper) (hne : l.text ≠ []) {span : Span}
    (hslice : Slice text span.start.offset span.stop.offset l.text) {t : Token}
    (ht : ofLexeme? l span = some t) : t.Covers text := by
  have hlt := hslice.lt_of_ne_nil hne
  cases l with
  | word w =>
    cases ht
    have hkind : Kind.ofWord (.ofList w) ≠ .eof ∧ Kind.ofWord (.ofList w) ≠ .string := by
      by_cases hword : Kind.ofWord (.ofList w) = .identifier
      · rw [hword]
        decide
      · have hreserved := (describe_ofWord hword).1
        constructor <;>
        · intro h
          rw [h] at hreserved
          exact absurd hreserved (by decide)
    exact ⟨hkind.1, hlt, fun _ => (String.toList_ofList (l := w)).symm ▸ hslice,
      fun h => absurd h hkind.2⟩
  | number w =>
    cases ht
    exact ⟨nofun, hlt, fun _ => (String.toList_ofList (l := w)).symm ▸ hslice, nofun⟩
  | string body =>
    cases ht
    refine ⟨nofun, hlt, fun h => absurd rfl h, fun _ => ⟨body, hl, ?_, hslice⟩⟩
    rw [Text.decode, String.toList_ofList]
  | symbol kind =>
    cases ht
    have hkind : kind ≠ .eof ∧ kind ≠ .string := by
      constructor <;>
      · rintro rfl
        have hmem : _ ∈ symbolOrder := hl
        exact absurd hmem (by decide)
    exact ⟨hkind.1, hlt, fun _ => hslice, fun h => absurd h hkind.2⟩
  | blank w => cases ht
  | comment w => cases ht

/-! ### Layouts -/

/-- Behind a lexeme, its text belongs to what stands before. -/
theorem behind_first {l : Lexeme} (htext : text = before ++ cs)
    (hp : p.offset = byteLength before) (h : first cs = .ok l) :
    text = (before ++ l.text) ++ cs.drop l.text.length
      ∧ (p.after l.text).offset = byteLength (before ++ l.text) := by
  constructor
  · rw [List.append_assoc, append_drop_of_first h, htext]
  · rw [after_offset, hp, byteLength_append]

/-- The text of a lexeme is what stands between its ends. -/
theorem slice_of_first {l : Lexeme} (htext : text = before ++ cs)
    (hp : p.offset = byteLength before) (h : first cs = .ok l) :
    Slice text p.offset (p.after l.text).offset l.text := by
  obtain ⟨htext', hp'⟩ := behind_first htext hp h
  exact ⟨before, cs.drop l.text.length, htext', hp.symm, hp'.symm⟩

theorem covers_layout {ls : List Lexeme} (htiles : Tiles cs ls) (htext : text = before ++ cs)
    (hp : p.offset = byteLength before) :
    ∃ others q, layout p ls = others ++ [.endAt q] ∧ q.offset = byteLength text
      ∧ ∀ t ∈ others, t.Covers text := by
  induction htiles generalizing before p with
  | nil => exact ⟨[], p, rfl, by rw [hp, htext, List.append_nil], fun t ht => by cases ht⟩
  | @cons cs l ls hne hfirst _ ih =>
    obtain ⟨htext', hp'⟩ := behind_first htext hp hfirst
    obtain ⟨others, q, hlayout, hq, hcovers⟩ := ih htext' hp'
    refine ⟨(ofLexeme? l ⟨p, p.after l.text⟩).toList ++ others, q, ?_, hq, ?_⟩
    · rw [layout, hlayout, List.append_assoc]
    · refine List.forall_mem_append.2 ⟨fun t ht => ?_, hcovers⟩
      exact covers_of_ofLexeme? (isProper_of_first hfirst) (begins_of_first hfirst).1
        (slice_of_first htext hp hfirst) (Option.mem_toList.1 ht)

/-- A gap that a layout begins behind grows with each lexeme that becomes no token. -/
theorem gaps_layout {ls : List Lexeme} (htiles : Tiles cs ls) (htext : text = before ++ cs)
    (hp : p.offset = byteLength before) {start : Nat} {gap : List Char} (hgap : IsGap gap)
    (hslice : Slice text start p.offset gap) : GapsFrom text start (layout p ls) := by
  induction htiles generalizing before p start gap with
  | nil =>
    rw [List.append_nil] at htext
    subst htext
    exact ⟨⟨gap, hgap, hslice⟩, [], .nil, text, [], by simp, hp.symm, by simp⟩
  | @cons cs l ls hne hfirst _ ih =>
    obtain ⟨htext', hp'⟩ := behind_first htext hp hfirst
    have hlexeme := slice_of_first htext hp hfirst
    rw [layout, ofLexeme?]
    cases htoken : l.token? with
    | none =>
      have hsilent := isGap_of_token?_eq_none (isProper_of_first hfirst) htoken
      exact ih htext' hp' (hgap.append_gap hsilent) (hslice.append hlexeme)
    | some sign =>
      refine ⟨⟨gap, hgap, hslice⟩, ih htext' hp' .nil ?_⟩
      exact ⟨before ++ l.text, cs.drop l.text.length, by rw [List.append_nil, htext'],
        hp'.symm, by rw [List.append_nil, hp']⟩

theorem isChain_of_gaps {ts : List Token} {start : Nat} (h : GapsFrom text start ts) :
    ts.IsChain fun t u => t.span.stop.offset ≤ u.span.start.offset := by
  induction ts generalizing start with
  | nil => exact .nil
  | cons t ts ih =>
    have hrest := ih h.2
    cases ts with
    | nil => exact .singleton t
    | cons u ts =>
      obtain ⟨⟨gap, -, hslice⟩, -⟩ := h.2
      exact .cons_cons hslice.le hrest

/-- **Scanning loses nothing.** The tokens of a source tile it: the end token is the last and only
one and covers nothing at the end of the source; every other token covers the text it has or, if it
is a string, the literal of that text; and what lies before, between and behind them is blanks and
comments. -/
theorem tile_of_scan {source : String} {ts : List Token} (h : scan source = .ok ts) :
    Tile source ts := by
  obtain ⟨-, ls, htiles, rfl⟩ := scan_eq_ok_iff.1 h
  have htext : source.toList = [] ++ source.toList := (List.nil_append _).symm
  have hgaps := gaps_layout (p := .start) htiles htext rfl .nil
    (⟨[], source.toList, rfl, rfl, rfl⟩ : Slice source.toList 0 0 [])
  obtain ⟨others, p, hlayout, hp, hcovers⟩ := covers_layout (p := .start) htiles htext rfl
  exact ⟨⟨others, p, hlayout, by rw [hp, byteLength_toList], hcovers⟩, isChain_of_gaps hgaps,
    hgaps⟩

theorem tile_of_scan_at_comment : ∃ ts, scan "x /* é */ = \"\\t\"; // end" = .ok ts
    ∧ Tile "x /* é */ = \"\\t\"; // end" ts := by
  have hkinds : (scan "x /* é */ = \"\\t\"; // end").map (List.map Token.kind)
      = .ok [.identifier, .assign, .string, .semicolon, .eof] := by
    decide +kernel
  cases h : scan "x /* é */ = \"\\t\"; // end" with
  | error e =>
    rw [h] at hkinds
    cases hkinds
  | ok ts => exact ⟨ts, rfl, tile_of_scan h⟩

/-- The end token is no string, but it does not cover the text it has. -/
theorem not_slice_endAt :
    "".utf8ByteSize < Cause.maxSourceBytes ∧ scan "" = .ok [.endAt .start]
      ∧ (Token.endAt .start).kind ≠ .string
      ∧ ¬ Slice "".toList (Token.endAt .start).span.start.offset
        (Token.endAt .start).span.stop.offset (Token.endAt .start).text.toList := by
  refine ⟨by decide, by decide +kernel, by decide, fun h => ?_⟩
  have hempty : Slice "".toList 0 0 [] := ⟨[], [], rfl, rfl, rfl⟩
  exact absurd (h.eq_of_slice hempty) (by decide)

end Token

end ImpFront
