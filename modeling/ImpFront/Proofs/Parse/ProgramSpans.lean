import ImpFront.Proofs.Parse.StatementSpans
import ImpFront.Proofs.Print.RoundTrip
import ImpFront.Proofs.Syntax.Nested
import ImpFront.Proofs.Token.Lossless
/-!
# ImpFront.Proofs.Parse.ProgramSpans

**Spans are tight, nested and in source order.** The tokens of a source are laid out as the program
that was read from it, up to the end token, where the program stops. They stand one behind the
other, and so do the spans around them.
-/

namespace ImpFront

namespace Parse

variable {s s' : State}

/-! ### Programs -/

theorem placed_of_globalItem {expr : ExprReader} (hexpr : PlacesExprs expr) {r : Option Item}
    (h : globalItem expr s = .ok r s') :
    match r with
    | some item => ∃ x, Placed s.stream x [.part item.node] s'.stream
    | none => s' = s := by
  rw [globalItem_apply] at h
  split at h
  · obtain ⟨d, s₁, hd, h⟩ := ParseM.bind_eq_ok_iff.1 h
    obtain ⟨rfl, rfl⟩ := ParseM.pure_eq_ok_iff.1 h
    have hplaced := Placed.part (n := .statement (.declare d)) (placed_of_declaration hexpr hd)
    exact ⟨_, hplaced⟩
  · cases h
    rfl

theorem placed_of_laterItem {settings : Settings} {n : Nat} {r : Option Item}
    (h : laterItem (.standard settings) n s = .ok r s') :
    match r with
    | some item => ∃ x, Placed s.stream x [.part item.node] s'.stream
    | none => s' = s := by
  rw [laterItem_apply] at h
  split at h
  · cases h
    rfl
  · split at h
    · obtain ⟨f, s₁, hf, h⟩ := ParseM.bind_eq_ok_iff.1 h
      obtain ⟨rfl, rfl⟩ := ParseM.pure_eq_ok_iff.1 h
      have hplaced := Placed.part (n := .function f)
        (placed_of_functionWith (placesBlocks_blockAt settings n) hf)
      exact ⟨_, hplaced⟩
    · obtain ⟨st, s₁, hst, h⟩ := ParseM.bind_eq_ok_iff.1 h
      obtain ⟨rfl, rfl⟩ := ParseM.pure_eq_ok_iff.1 h
      exact ⟨_, Placed.part (n := .statement st) (placed_of_statementAt hst)⟩

/-- A program goes over all tokens, from the start of the first to the start of the end token. -/
theorem filled_of_programAt {settings : Settings} {n : Nat} {p : Program}
    (h : programAt (.standard settings) n s = .ok p s') :
    Filled s.stream p.pieces s'.stream ∧ s'.stream.ahead = []
      ∧ p.span = ⟨s.position, s.stream.stop.span.start⟩ := by
  obtain ⟨-, hend⟩ := took_of_programAt h
  have hahead : s'.stream.ahead = [] := List.map_eq_nil_iff.1 hend
  unfold programAt at h
  rw [position_bind] at h
  obtain ⟨globals, s₁, hglobals, h⟩ := ParseM.bind_eq_ok_iff.1 h
  obtain ⟨others, s₂, hothers, h⟩ := ParseM.bind_eq_ok_iff.1 h
  rw [note_bind, position_bind] at h
  obtain ⟨rfl, rfl⟩ := ParseM.pure_eq_ok_iff.1 h
  have hglobals := filled_of_many (fun item : Item => [.part item.node])
    (fun s item s' hitem => placed_of_globalItem (placesExprs_exprAt settings n) hitem)
    (fun s s' hnone => by rw [placed_of_globalItem (placesExprs_exprAt settings n) hnone]) hglobals
  have hothers := filled_of_many (fun item : Item => [.part item.node])
    (fun s item s' hitem => placed_of_laterItem hitem)
    (fun s s' hnone => by rw [placed_of_laterItem hnone]) hothers
  have hfilled := hglobals.append hothers
  rw [← List.flatMap_append, ← List.map_eq_flatMap] at hfilled
  -- Behind the last item, the parse stands in front of the end token.
  have hposition : s₂.position = s.stream.stop.span.start := by
    have hempty : s₂.stream.ahead = [] := hahead
    rw [State.position, State.current, Stream.current, hempty, ← hfilled.stop_eq]
    rfl
  exact ⟨hfilled, hahead, congrArg (Span.mk s.position) hposition⟩

end Parse

/-! ### Tokens of a source -/

/-- Tokens in front of the end token are what a parse has ahead. -/
theorem Stream.ofTokens_append_end {own : List Token} (hown : ∀ t ∈ own, t.kind ≠ .eof)
    {stop : Token} (hstop : stop.kind = .eof) :
    (ofTokens (own ++ [stop])).ahead = own ∧ (ofTokens (own ++ [stop])).stop = stop := by
  have hclosed : missingEnd (own ++ [stop]) = [] := by
    simp [missingEnd, closed, hstop]
  have hopen : ∀ t ∈ own, decide (t.kind ≠ .eof) = true := fun t ht => decide_eq_true (hown t ht)
  constructor
  · show (own ++ [stop] ++ missingEnd (own ++ [stop])).takeWhile (·.kind ≠ .eof) = own
    rw [hclosed, List.append_nil, List.takeWhile_append_of_pos hopen]
    simp [hstop]
  · show ((own ++ [stop] ++ missingEnd (own ++ [stop])).find? (·.kind = .eof)).getD _ = stop
    have hnone : own.find? (·.kind = .eof) = none := by simpa using hown
    rw [hclosed, List.append_nil, List.find?_append, hnone]
    simp [hstop]

/-- Where each token stops before the next one starts, it stops before all later ones start. -/
theorem Token.pairwise_before {ts : List Token}
    (hproper : ∀ t ∈ ts, t.span.start.offset ≤ t.span.stop.offset)
    (h : ts.IsChain fun t u => t.span.stop.offset ≤ u.span.start.offset) :
    ts.Pairwise fun t u => t.span.Before u.span := by
  induction ts with
  | nil => exact .nil
  | cons t ts ih =>
    obtain ⟨-, hrest⟩ := List.forall_mem_cons.1 hproper
    cases ts with
    | nil => exact List.pairwise_singleton _ t
    | cons u us =>
      obtain ⟨hnext, hchain⟩ := List.isChain_cons_cons.1 h
      have hpairwise := ih hrest hchain
      refine List.pairwise_cons.2 ⟨List.forall_mem_cons.2 ⟨hnext, fun v hv => ?_⟩, hpairwise⟩
      have hbefore : u.span.stop.offset ≤ v.span.start.offset :=
        List.rel_of_pairwise_cons hpairwise hv
      exact Nat.le_trans hnext (Nat.le_trans (hrest u (List.mem_cons_self ..)) hbefore)

/-- The tokens of a source in front of the end token stand one behind the other and stop before
it. -/
theorem Token.inOrder_of_scan {source : String} {tokens : List Token}
    (h : scan source = .ok tokens) : ∃ own place, tokens = own ++ [.endAt place]
      ∧ (∀ t ∈ own, t.kind ≠ .eof) ∧ InOrder own
      ∧ ∀ t ∈ own, t.span.stop.offset ≤ place.offset := by
  obtain ⟨⟨own, place, rfl, -, hcovers⟩, hchain, -⟩ := tile_of_scan h
  have hle : ∀ t ∈ own ++ [endAt place], t.span.start.offset ≤ t.span.stop.offset := by
    refine List.forall_mem_append.2 ⟨fun t ht => Nat.le_of_lt (hcovers t ht).lt, ?_⟩
    exact List.forall_mem_singleton.2 (Nat.le_refl _)
  obtain ⟨hapart, -, hend⟩ := List.pairwise_append.1 (pairwise_before hle hchain)
  exact ⟨own, place, rfl, fun t ht => (hcovers t ht).ne_eof,
    ⟨fun t ht => (hcovers t ht).lt, hapart⟩,
    fun t ht => hend t ht _ (List.mem_singleton.2 rfl)⟩

namespace Program

variable {settings : Settings} {source : String} {p : Program}

/-- The tokens of a source are laid out as the program that is read from it. -/
theorem laid_of_ofSource (h : ofSource settings source = .ok p) :
    ∃ own place, Token.scan source = .ok (own ++ [.endAt place]) ∧ Token.InOrder own
      ∧ (∀ t ∈ own, t.kind ≠ .eof) ∧ (∀ t ∈ own, t.span.stop.offset ≤ place.offset)
      ∧ Laid own p.pieces ∧ p.span = ⟨(own.head?.getD (.endAt place)).span.start, place⟩ := by
  obtain ⟨tokens, hscan, hparse⟩ := ofSource_eq_ok_iff.1 h
  obtain ⟨s, hs⟩ := ofTokens_eq_ok_iff.1 hparse
  obtain ⟨own, place, rfl, hown, horder, hplace⟩ := Token.inOrder_of_scan hscan
  rw [parseTokens_eq] at hs
  obtain ⟨hfilled, hempty, hspan⟩ := Parse.filled_of_programAt hs
  obtain ⟨ts, hts, hlaid⟩ := hfilled.exists_tokens
  obtain ⟨hahead, hstop⟩ := Stream.ofTokens_append_end hown (Token.endAt_kind place)
  have hown' : own = ts := by
    rw [hempty, List.append_nil] at hts
    exact hahead.symm.trans hts
  subst hown'
  refine ⟨own, place, hscan, horder, hown, hplace, hlaid, ?_⟩
  rw [hspan]
  show Span.mk ((Stream.ofTokens _).ahead.head?.getD (Stream.ofTokens _).stop).span.start
    (Stream.ofTokens _).stop.span.start = _
  rw [hahead, hstop]
  rfl

/-- Every node below a program has tokens of its own. -/
theorem exists_tokens_of_mem_preorder {own : List Token} (h : Laid own p.pieces) {m n : Node}
    (hm : m ∈ (Node.program p).preorder) {piece : Piece} (hpiece : piece ∈ m.pieces)
    (hn : piece.node? = some n) : ∃ tokens, tokens <:+: own ∧ Spans n.span piece.inner tokens := by
  rw [Node.preorder_eq] at hm
  rcases List.mem_cons.1 hm with rfl | hm
  · exact h.exists_of_mem hpiece hn
  · obtain ⟨c, hc, hm⟩ := List.mem_flatMap.1 hm
    rw [Node.children_eq_pieces] at hc
    exact h.exists_of_mem_preorder hc hm hpiece hn

end Program

end ImpFront
