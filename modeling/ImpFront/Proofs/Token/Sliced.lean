import ImpFront.Proofs.Token.Joined
import ImpFront.Syntax.Layout
/-!
# ImpFront.Proofs.Token.Sliced

**A stretch of a source is scanned as it is inside the source.** A lexeme that is read is still the
longest one when less text follows it (`Lexeme.first_of_append`). So lexemes that stand one behind
the other in a source are those of their own text, and from the start of a token to the end of a
later one, a source has the tokens between them.
-/

namespace ImpFront

namespace Lexeme

variable {cs behind : List Char} {l : Lexeme} {ls ls' : List Lexeme}

/-! ### Less text -/

/-- What is never closed in front of some text is read beyond its end, if it is read at all. -/
theorem not_isOpen_of_append (h : first (cs ++ behind) = .ok l) (hle : l.text <+: cs) :
    ¬ IsOpen cs := by
  rintro (⟨rest, rfl, hnone⟩ | ⟨rest, rfl, hnone⟩)
  · have h' : first ('"' :: (rest ++ behind)) = .ok l := h
    cases hbody : stringBody? (rest ++ behind) with
    | none => exact not_isOpen_of_first h' (.inl (opensString_iff.2 hbody))
    | some body =>
      rw [first_quote (by rw [stringPattern, hbody])] at h'
      obtain rfl := Except.ok.inj h'
      exact hnone _ ⟨body, isBody_of_stringBody? hbody, rfl⟩ hle
  · have h' : first ('/' :: '*' :: (rest ++ behind)) = .ok l := h
    cases htext : untilCommentEnd? (rest ++ behind) with
    | none => exact not_isOpen_of_first h' (.inr (opensComment_iff.2 htext))
    | some text =>
      rw [first_blockComment htext] at h'
      obtain rfl := Except.ok.inj h'
      obtain ⟨body, rfl, -⟩ := exists_of_untilCommentEnd? htext
      have hbegins : body ++ ['*', '/'] <+: rest :=
        (List.prefix_append_right_inj ['/', '*']).1 hle
      exact hnone ((List.suffix_append body _).isInfix.trans hbegins.isInfix)

/-- A lexeme is read as well when less text follows it. -/
theorem first_of_append (h : first (cs ++ behind) = .ok l) (hle : l.text <+: cs) :
    first cs = .ok l := by
  have hopen := not_isOpen_of_append h hle
  have hproper := isProper_of_first h
  obtain ⟨rest, rfl⟩ := hle
  obtain ⟨l', hl', hlonger⟩ := exists_first_of_isLexeme (isLexeme_text hproper) hopen
  -- What is read instead begins the longer text too, where nothing longer is read.
  have hproper' := isProper_of_first hl'
  have hbegins' : l'.text <+: l.text ++ rest ++ behind :=
    (begins_of_first hl').2.trans (List.prefix_append _ behind)
  have hshort := (isLongest_of_first h).longest _ (isLexeme_text hproper') hbegins'
  rw [hl', eq_of_text_eq hproper hproper' (hlonger.eq_of_length_le hshort)]

/-! ### Rows of lexemes -/

/-- The text of lexemes that stand one behind the other. -/
def texts (ls : List Lexeme) : List Char := ls.flatMap text

theorem Tiles.texts_eq (h : Tiles cs ls) : texts ls = cs := by
  induction h with
  | nil => rfl
  | cons _ hfirst _ ih =>
    rw [texts, List.flatMap_cons]
    exact (congrArg _ ih).trans (Token.append_drop_of_first hfirst)

/-- The lexemes behind some lexemes tile the text behind theirs. -/
theorem Tiles.append_right (h : Tiles cs (ls ++ ls')) : Tiles (texts ls') ls' := by
  induction ls generalizing cs with
  | nil => exact h.texts_eq.symm ▸ h
  | cons l ls ih =>
    cases h with
    | cons _ _ hrest => exact ih hrest

/-- The lexemes in front of some lexemes tile their own text. -/
theorem Tiles.append_left (h : Tiles cs (ls ++ ls')) : Tiles (texts ls) ls := by
  induction ls generalizing cs with
  | nil => exact .nil
  | cons l ls ih =>
    have htext : texts (l :: ls) ++ texts ls' = cs := by
      rw [← h.texts_eq]
      simp [texts]
    cases h with
    | cons hne hfirst hrest =>
      have hlexeme : first (texts (l :: ls)) = .ok l := by
        rw [← htext] at hfirst
        exact first_of_append hfirst (List.prefix_append l.text _)
      refine .cons ?_ hlexeme ?_
      · exact List.append_ne_nil_of_left_ne_nil (begins_of_first hfirst).1 _
      · rw [texts, List.flatMap_cons, List.drop_left]
        exact ih hrest

end Lexeme

open Lexeme Position

namespace Token

variable {p : Position} {ls : List Lexeme} {before behind : List Token} {t : Token}

/-- Some lexeme becomes a token: those in front of it say these signs, and it is laid out with those
behind it as the token and these tokens. -/
def IsOf (t : Token) (p : Position) (ls : List Lexeme) (said : List Sign) (behind : List Token) :
    Prop :=
  ∃ front l rest, ls = front ++ l :: rest ∧ front.filterMap sign? = said
    ∧ ofLexeme? l ⟨p.after (texts front), (p.after (texts front)).after l.text⟩ = some t
    ∧ layout (p.after (texts front)) (l :: rest) = t :: behind

theorem IsOf.cons {l : Lexeme} {said : List Sign} (h : t.IsOf (p.after l.text) ls said behind) :
    t.IsOf p (l :: ls) (l.sign?.toList ++ said) behind := by
  obtain ⟨front, l', rest, rfl, hfront, hl', hlayout⟩ := h
  have hplace : p.after (texts (l :: front)) = (p.after l.text).after (texts front) := by
    rw [texts, List.flatMap_cons, after_append]
    rfl
  refine ⟨l :: front, l', rest, rfl, ?_, hplace ▸ hl', hplace ▸ hlayout⟩
  rw [← hfront, List.filterMap_cons]
  cases l.sign? <;> rfl

/-- Where a token stands among others, its lexeme stands among theirs. -/
theorem isOf_of_layout_eq (h : layout p ls = before ++ t :: behind) (ht : t.kind ≠ .eof) :
    t.IsOf p ls (before.map Token.sign) behind := by
  induction ls generalizing p before with
  | nil =>
    -- The end is the only token of a layout of nothing.
    obtain ⟨rfl, hend⟩ : before = [] ∧ endAt p = t := by
      cases before with
      | nil => exact ⟨rfl, (List.cons.inj h).1⟩
      | cons u us => cases us <;> cases (List.cons.inj h).2
    exact absurd (hend ▸ endAt_kind p) ht
  | cons l ls ih =>
    have hsign := sign_ofLexeme? l ⟨p, p.after l.text⟩
    rw [layout] at h
    cases htoken : ofLexeme? l ⟨p, p.after l.text⟩ with
    | none =>
      rw [htoken] at h hsign
      have hrest := (ih h).cons
      rw [← hsign] at hrest
      exact hrest
    | some u =>
      rw [htoken] at h hsign
      cases before with
      | nil =>
        obtain ⟨rfl, hrest⟩ := List.cons.inj h
        refine ⟨[], l, ls, rfl, rfl, htoken, ?_⟩
        rw [← hrest, layout]
        exact congrArg (·.toList ++ _) htoken
      | cons v vs =>
        obtain ⟨rfl, hrest⟩ := List.cons.inj h
        have hrest := (ih hrest).cons
        rw [← hsign] at hrest
        exact hrest

/-- A token that a lexeme becomes covers its text. -/
theorem span_of_ofLexeme? {l : Lexeme} {span : Span} (h : ofLexeme? l span = some t) :
    t.span = span := by
  obtain ⟨said, -, rfl⟩ := Option.map_eq_some_iff.1 h
  rfl

/-- A row of tokens is that of a row of lexemes, and the stretch around it is their text. -/
theorem exists_row_of_layout_eq {tokens : List Token} {place : Position}
    (h : layout .start ls = before ++ tokens ++ behind ++ [.endAt place]) (hne : tokens ≠ [])
    (htokens : ∀ t ∈ tokens, t.kind ≠ .eof) :
    ∃ front row rest, ls = front ++ row ++ rest
      ∧ row.filterMap sign? = tokens.map Token.sign
      ∧ (Span.around tokens).start = Position.start.after (texts front)
      ∧ (Span.around tokens).stop = Position.start.after (texts front ++ texts row) := by
  obtain ⟨t, ts, rfl⟩ := List.exists_cons_of_ne_nil hne
  obtain ⟨us, u, hlast⟩ := (List.eq_nil_or_concat' (t :: ts)).resolve_left hne
  have ht : t.kind ≠ .eof := htokens t (by simp)
  have hu : u.kind ≠ .eof := htokens u (by rw [hlast]; simp)
  -- The lexemes fall apart in front of the first token and behind the last one.
  have hfirst : layout .start ls = before ++ t :: (ts ++ behind ++ [endAt place]) := by
    simpa using h
  obtain ⟨front, l, rest, rfl, -, hl, hinner⟩ := isOf_of_layout_eq hfirst ht
  have hfinal : layout (Position.start.after (texts front)) (l :: rest)
      = us ++ u :: (behind ++ [endAt place]) := by
    rw [hinner, ← List.cons_append, ← List.cons_append, hlast]
    simp
  obtain ⟨middle, l', rest', hsplit, hmiddle, hl', -⟩ := isOf_of_layout_eq hfinal hu
  refine ⟨front, middle ++ [l'], rest', by rw [hsplit]; simp, ?_, ?_, ?_⟩
  · have hsaid : l'.sign? = some u.sign := by
      rw [← sign_ofLexeme? l' _, hl']
      rfl
    rw [hlast, List.filterMap_append, hmiddle, List.map_append, List.filterMap_cons, hsaid]
    rfl
  · exact congrArg Span.start (span_of_ofLexeme? hl)
  · have hend : (Span.around (us ++ [u])).stop = u.span.stop := by simp [Span.around]
    rw [hlast, hend, span_of_ofLexeme? hl']
    simp [texts, after_append]

/-- The text of lexemes that stand one behind the other in a source is scanned as those. -/
theorem scan_texts {source : String} {front row rest : List Lexeme}
    (hsize : source.utf8ByteSize ≤ Cause.maxSourceBytes)
    (h : Tiles source.toList (front ++ row ++ rest)) :
    scan (.ofList (texts row)) = .ok (layout .start row) := by
  have htiles : Tiles (String.ofList (texts row)).toList row := by
    rw [String.toList_ofList]
    rw [List.append_assoc] at h
    exact h.append_right.append_left
  refine scan_eq_ok_iff.2 ⟨?_, row, htiles, rfl⟩
  have hlength := congrArg byteLength h.texts_eq
  rw [← byteLength_toList] at hsize ⊢
  simp only [texts, List.flatMap_append, byteLength_append, String.toList_ofList] at hlength ⊢
  omega

/-- **Scanning a stretch.** From the start of a token of a source to the end of a later one, the
text is scanned, and its tokens say what those of the source say between these places. -/
theorem scan_slice {source : String} {own tokens : List Token} {place : Position}
    (h : scan source = .ok (own ++ [.endAt place])) (hown : ∀ t ∈ own, t.kind ≠ .eof)
    (hsub : tokens <:+: own) (hne : tokens ≠ []) :
    ∃ piece inner place', Slice source.toList (Span.around tokens).start.offset
        (Span.around tokens).stop.offset piece
      ∧ scan (.ofList piece) = .ok (inner ++ [.endAt place'])
      ∧ (∀ t ∈ inner, t.kind ≠ .eof) ∧ inner.map Token.sign = tokens.map Token.sign := by
  obtain ⟨hsize, ls, htiles, hlayout⟩ := scan_eq_ok_iff.1 h
  have hopen : ∀ t ∈ tokens, t.kind ≠ .eof := fun t ht => hown t (hsub.subset ht)
  obtain ⟨before, behind, rfl⟩ := hsub
  obtain ⟨front, row, rest, rfl, hrow, hstart, hstop⟩ :=
    exists_row_of_layout_eq hlayout hne hopen
  have hscan := scan_texts hsize htiles
  obtain ⟨inner, place', hinner, hinside⟩ := exists_others_of_scan hscan
  refine ⟨texts row, inner, place', ?_, hinner ▸ hscan, hinside, ?_⟩
  · refine ⟨texts front, texts rest, ?_, ?_, ?_⟩
    · rw [← htiles.texts_eq]
      simp [texts]
    · rw [hstart, after_offset]
      exact (Nat.zero_add _).symm
    · rw [hstop, after_offset]
      exact (Nat.zero_add _).symm
  · have hsigns := map_sign_layout .start row
    rw [hinner, hrow, List.map_append] at hsigns
    exact (List.append_inj' hsigns rfl).1

end Token

end ImpFront
