import ImpFront.Proofs.Source.Moves
import ImpFront.Proofs.Token.Acceptance
import ImpFront.Proofs.Token.Tiling
/-!
# ImpFront.Proofs.Token.Places

**The places that a scan reports are exact**: where a token starts and stops, and where a
lexeme cannot be read. A scan moves along the texts of its lexemes, and each of them is the
front of what is left. Blanks are a lexeme of their own, so no token starts at one, and no scan
is refused at one.
-/

namespace ImpFront

open Lexeme Position

namespace Token

variable {source : String} {before cs : List Char}

/-- The text behind a lexeme that was read. -/
theorem append_drop_of_first {l : Lexeme} (h : first cs = .ok l) :
    l.text ++ cs.drop l.text.length = cs := by
  obtain ⟨-, rest, hrest⟩ := begins_of_first h
  rw [← hrest, List.drop_left]

/-- Where a blank stands, blanks are read. -/
theorem not_blank_of_first {r : Except Cause Lexeme} (h : first cs = r)
    (hr : ∀ text, r ≠ .ok (.blank text)) : ∀ c ∈ cs.head?, Text.isBlank c = false := by
  intro c hc
  obtain ⟨rest, rfl⟩ := List.head?_eq_some_iff.1 hc
  by_contra hblank
  rw [first_blank (Bool.of_not_eq_false hblank)] at h
  exact hr _ h.symm

/-- Lexemes that are laid out from a place of the source on start and stop at such places, and a
token starts where no blank is. -/
theorem points_layout {ls : List Lexeme} (htiles : Tiles cs ls)
    (hsource : source.toList = before ++ cs) :
    ∀ t ∈ layout (ofPrefix before) ls,
      t.span.start.Points source ∧ t.span.stop.Marks source := by
  induction htiles generalizing before with
  | nil =>
    have hpoints : (ofPrefix before).Points source := ⟨before, [], hsource, rfl, by simp⟩
    exact List.forall_mem_singleton.2 ⟨hpoints, hpoints.marks⟩
  | @cons cs l ls hne hfirst _ ih =>
    have hafter := after_ofPrefix before l.text
    have hcs : source.toList = (before ++ l.text) ++ cs.drop l.text.length := by
      rw [List.append_assoc, append_drop_of_first hfirst, hsource]
    rw [layout, hafter]
    refine List.forall_mem_append.2 ⟨fun t ht => ?_, ih hcs⟩
    obtain ⟨⟨kind, text⟩, hsays, rfl⟩ := Option.map_eq_some_iff.1 (Option.mem_toList.1 ht)
    have hhead := not_blank_of_first hfirst fun text hblank => by
      rw [Except.ok.inj hblank] at hsays
      cases hsays
    exact ⟨⟨before, cs, hsource, rfl, hhead⟩, ⟨before ++ l.text, _, hcs, rfl⟩⟩

/-- A scan that fails does so at a place of the source where no blank is. -/
theorem points_of_scanFrom_error {e : Diagnostic} (hsource : source.toList = before ++ cs)
    (h : scanFrom [] (ofPrefix before) cs = .error e) : e.position.Points source := by
  induction hn : cs.length using Nat.strongRecOn generalizing before cs with
  | ind n ih =>
    subst hn
    cases cs with
    | nil =>
      rw [scanFrom_nil] at h
      cases h
    | cons c rest =>
      have hne : c :: rest ≠ [] := List.cons_ne_nil c rest
      cases hfirst : Lexeme.first (c :: rest) with
      | error cause =>
        rw [scanFrom_of_error hne hfirst] at h
        cases h
        exact ⟨before, c :: rest, hsource, rfl, not_blank_of_first hfirst fun _ h => by cases h⟩
      | ok l =>
        rw [scanFrom_of_first hne hfirst, after_ofPrefix] at h
        have hbehind : source.toList
            = (before ++ l.text) ++ (c :: rest).drop l.text.length := by
          rw [List.append_assoc, append_drop_of_first hfirst, hsource]
        cases hrest : scanFrom [] (ofPrefix (before ++ l.text))
            ((c :: rest).drop l.text.length) with
        | ok ts =>
          rw [hrest] at h
          cases h
        | error e' =>
          rw [hrest] at h
          obtain rfl := Except.error.inj h
          exact ih _ (length_drop_of_first hfirst) hbehind hrest rfl

/-- Tokens start at places of the source where no blank is, and stop at places of the source. -/
theorem points_of_scan {ts : List Token} (h : scan source = .ok ts) :
    ∀ t ∈ ts, t.span.start.Points source ∧ t.span.stop.Marks source := by
  obtain ⟨-, ls, htiles, rfl⟩ := scan_eq_ok_iff.1 h
  exact points_layout htiles (List.nil_append _).symm

/-- A scan of a source that is not too large is refused at a place where no blank is. -/
theorem points_of_scan_error {e : Diagnostic} (hsize : source.utf8ByteSize ≤ Cause.maxSourceBytes)
    (h : scan source = .error e) : e.position.Points source := by
  unfold scan checkSize at h
  rw [if_pos hsize] at h
  exact points_of_scanFrom_error (List.nil_append _).symm h

theorem marks_of_scan {ts : List Token} (h : scan source = .ok ts) :
    ∀ t ∈ ts, t.span.start.Marks source ∧ t.span.stop.Marks source :=
  fun t ht => (points_of_scan h t ht).imp_left Points.marks

/-- A scan is refused at a place of the source. -/
theorem marks_of_scan_error {e : Diagnostic} (h : scan source = .error e) :
    e.position.Marks source := by
  by_cases hsize : source.utf8ByteSize ≤ Cause.maxSourceBytes
  · exact (points_of_scan_error hsize h).marks
  · unfold scan checkSize at h
    rw [if_neg hsize] at h
    cases h
    exact ⟨[], source.toList, rfl, rfl⟩

/-- **Places are exact.** Each place that a scan of a source reports is the closed form of its
offset, which is the boundary of a character: the ends of every token, and the place of a refusal.
So is the place of a cursor after any moves. A move goes the bytes asked for, or to the end of the
source, and is possible unless it ends inside a character; moves that reach the same offset reach
the same cursor. No offset, line or column of a source below the limit needs more than 32 bits. -/
theorem places_exact (hsize : source.utf8ByteSize < Cause.maxSourceBytes) :
    (∀ ts, scan source = .ok ts →
      ∀ t ∈ ts, t.span.start.Marks source ∧ t.span.stop.Marks source)
    ∧ (∀ e, scan source = .error e → e.position.Marks source)
    ∧ (∀ steps c, (Cursor.ofSource source).advanceAll? steps = some c →
        c.position.Marks source
        ∧ (∀ n d, c.advance? n = some d →
            d.position.offset = min (c.position.offset + n) source.utf8ByteSize)
        ∧ (∀ n, c.position.offset + n < Text.wordBound →
            (∃ p : Position, p.Marks source
              ∧ p.offset = min (c.position.offset + n) source.utf8ByteSize) →
            (c.advance? n).isSome = true)
        ∧ ∀ steps' c', (Cursor.ofSource source).advanceAll? steps' = some c' →
            c'.position.offset = c.position.offset → c' = c)
    ∧ ∀ p : Position, p.Marks source →
        p.offset ≤ Cause.maxSourceBytes ∧ p.line ≤ Cause.maxSourceBytes
          ∧ p.column ≤ Cause.maxSourceBytes := by
  refine ⟨fun ts => marks_of_scan, fun e => marks_of_scan_error, fun steps c hc => ?_,
    fun p hp => ?_⟩
  · have hreads := (Cursor.reads_ofSource source).advanceAll hc
    refine ⟨hreads.marks, fun n d hd => (hreads.advance hd).2, fun n hbound hp => ?_,
      fun steps' c' hc' hoffset => ?_⟩
    · obtain ⟨p, hp, hoffset⟩ := hp
      exact hreads.isSome_advance hp hoffset hbound
    · exact ((Cursor.reads_ofSource source).advanceAll hc').eq_of_offset hreads hoffset
  · have hoffset := hp.offset_le
    obtain ⟨hline, hcolumn⟩ := hp.line_column_le
    omega

theorem places_exact_at_open_string :
    scan "\"é\"\n\"x" = .error ⟨.unterminatedString, ⟨5, 2, 1⟩⟩
      ∧ (⟨5, 2, 1⟩ : Position).Marks "\"é\"\n\"x"
      ∧ ∃ c, (Cursor.ofSource "\"é\"\n\"x").advanceAll? [4, 1] = some c
        ∧ ∀ c', (Cursor.ofSource "\"é\"\n\"x").advanceAll? [5] = some c' →
          c'.position.offset = c.position.offset → c' = c := by
  have hscan : scan "\"é\"\n\"x" = .error ⟨.unterminatedString, ⟨5, 2, 1⟩⟩ := by decide +kernel
  have hsize : "\"é\"\n\"x".utf8ByteSize < Cause.maxSourceBytes := by decide
  obtain ⟨-, hrefused, hmoves, -⟩ := places_exact hsize
  have hsteps : (Cursor.ofSource "\"é\"\n\"x").advanceAll? [4, 1]
      = some ⟨⟨5, 2, 1⟩, ['"', 'x']⟩ := by
    decide +kernel
  exact ⟨hscan, hrefused _ hscan, _, hsteps, (hmoves _ _ hsteps).2.2.2 [5]⟩

end Token

end ImpFront
