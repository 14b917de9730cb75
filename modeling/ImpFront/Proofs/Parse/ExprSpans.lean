import ImpFront.Proofs.Parse.ExprReading
import ImpFront.Proofs.Syntax.Laid
/-!
# ImpFront.Proofs.Parse.ExprSpans

**The span of an expression goes around the tokens it was read from.** `Placed` says so between two
places of the input. Rows of tokens that follow each other are one row (`Placed.trans`), so the
span that a production puts together from a token and a part comes out as the one around
everything that it has read.
-/

namespace ImpFront

namespace Parse

/-- The tokens between two places are laid out as these pieces; there may be none. -/
structure Filled (a : Stream) (ps : List Piece) (b : Stream) : Prop where
  stop_eq : b.stop = a.stop
  exists_tokens : ∃ ts, a.ahead = ts ++ b.ahead ∧ Laid ts ps

/-- The tokens between two places are laid out as these pieces, and the span goes around them. -/
structure Placed (a : Stream) (span : Span) (ps : List Piece) (b : Stream) : Prop where
  stop_eq : b.stop = a.stop
  exists_tokens : ∃ ts, a.ahead = ts ++ b.ahead ∧ Spans span ps ts

/-! ### Rows of tokens -/

variable {a b c d : Stream} {ps qs rs : List Piece} {x y : Span}

theorem Filled.nil (a : Stream) : Filled a [] a := ⟨rfl, [], rfl, .nil⟩

theorem Filled.append (h : Filled a ps b) (h' : Filled b qs c) : Filled a (ps ++ qs) c := by
  obtain ⟨ts, hts, hlaid⟩ := h.exists_tokens
  obtain ⟨us, hus, hlaid'⟩ := h'.exists_tokens
  refine ⟨h'.stop_eq.trans h.stop_eq, ts ++ us, ?_, hlaid.append hlaid'⟩
  rw [hts, hus, List.append_assoc]

namespace Placed

theorem filled (h : Placed a x ps b) : Filled a ps b := by
  obtain ⟨ts, hts, hspans⟩ := h.exists_tokens
  exact ⟨h.stop_eq, ts, hts, hspans.laid⟩

/-- Two rows are one, from the start of the first to the end of the second. -/
theorem trans (h : Placed a x ps b) (h' : Placed b y qs c) :
    Placed a ⟨x.start, y.stop⟩ (ps ++ qs) c := by
  obtain ⟨ts, hts, hne, rfl, hlaid⟩ := h.exists_tokens
  obtain ⟨us, hus, hne', rfl, hlaid'⟩ := h'.exists_tokens
  refine ⟨h'.stop_eq.trans h.stop_eq, ts ++ us, ?_, ?_, ?_, hlaid.append hlaid'⟩
  · rw [hts, hus, List.append_assoc]
  · exact List.append_ne_nil_of_left_ne_nil hne us
  · exact (Span.around_append hne hne').symm

/-- What lies between two rows makes no difference to where the whole starts and stops. -/
theorem around (h : Placed a x ps b) (hmiddle : Filled b qs c) (h' : Placed c y rs d) :
    Placed a ⟨x.start, y.stop⟩ (ps ++ (qs ++ rs)) d := by
  obtain ⟨ts, hts, hlaid⟩ := hmiddle.exists_tokens
  obtain ⟨us, hus, hne, rfl, hlaid'⟩ := h'.exists_tokens
  have hrest : Placed b (.around (ts ++ us)) (qs ++ rs) d := by
    refine ⟨h'.stop_eq.trans hmiddle.stop_eq, ts ++ us, ?_, ?_, rfl, hlaid.append hlaid'⟩
    · rw [hts, hus, List.append_assoc]
    · exact List.append_ne_nil_of_right_ne_nil ts hne
  have hstop : (Span.around (ts ++ us)).stop = (Span.around us).stop := by
    cases ts with
    | nil => rfl
    | cons t ts => rw [Span.around_append (List.cons_ne_nil t ts) hne]
  rw [← hstop]
  exact h.trans hrest

/-- A node that was placed is a part. -/
theorem part {n : Node} (h : Placed a n.span n.pieces b) : Placed a n.span [.part n] b := by
  obtain ⟨ts, hts, hspans⟩ := h.exists_tokens
  refine ⟨h.stop_eq, ts, hts, hspans.ne_nil, hspans.span_eq, ?_⟩
  simpa using Laid.part hspans .nil

/-- An update that was placed is a clause. -/
theorem clause {u : Update} (h : Placed a u.span u.pieces b) : Placed a u.span [.clause u] b := by
  obtain ⟨ts, hts, hspans⟩ := h.exists_tokens
  refine ⟨h.stop_eq, ts, hts, hspans.ne_nil, hspans.span_eq, ?_⟩
  simpa using Laid.clause hspans .nil

/-- Something was taken from the input. -/
theorem left_lt (h : Placed a x ps b) : b.left < a.left := by
  obtain ⟨ts, hts, hspans⟩ := h.exists_tokens
  have hpos := List.length_pos_iff.2 hspans.ne_nil
  rw [b.left_eq, a.left_eq, hts, List.length_append]
  omega

end Placed

/-! ### Elementary steps -/

variable {s s' : State} {t : Token}

/-- One token that says what a mark says. -/
theorem placed_of_sign {sign : Sign} (hne : s.current.kind ≠ .eof) (h : s.current.sign = sign) :
    Placed s.stream s.current.span [.mark sign] s.next.stream := by
  refine ⟨s.stream.stop_next, [s.current], ?_, List.cons_ne_nil _ _, rfl, .mark h .nil⟩
  have hahead : s.stream.ahead ≠ [] := fun hnil => hne (s.stream.current_kind_eq_eof_iff.2 hnil)
  obtain ⟨u, rest, hcons⟩ := List.exists_cons_of_ne_nil hahead
  rw [State.next, Stream.ahead_next, State.current, Stream.current, hcons]
  rfl

theorem placed_of_kind {k : Kind} (h : s.current.kind = k)
    (hk : k.spelling? = some k.describe) :
    Placed s.stream s.current.span [.fixed k] s.next.stream := by
  have hne : s.current.kind ≠ .eof := by
    intro heof
    rw [← h, heof] at hk
    cases hk
  exact placed_of_sign hne (Token.sign_of_spelled h hk)

theorem placed_of_expect {k : Kind} (h : expect k s = .ok t s')
    (hk : k.spelling? = some k.describe) : Placed s.stream t.span [.fixed k] s'.stream := by
  obtain ⟨hkind, rfl, rfl⟩ := expectOneOf_eq_ok_iff.1 h
  exact placed_of_kind (List.mem_singleton.1 hkind) hk

theorem placed_of_expect_name (h : expect .identifier s = .ok t s') :
    Placed s.stream t.span [.name t.text] s'.stream := by
  obtain ⟨hkind, rfl, rfl⟩ := expectOneOf_eq_ok_iff.1 h
  have hname := List.mem_singleton.1 hkind
  refine placed_of_sign ?_ (Token.sign_of_unspelled hname rfl)
  rw [hname]
  decide

/-- The items of a repetition one after the other. -/
theorem filled_of_many {α : Type} {item : ParseM (Option α)} (pieces : α → List Piece)
    (hsome : ∀ s a s', item s = .ok (some a) s' → ∃ x, Placed s.stream x (pieces a) s'.stream)
    (hnone : ∀ s s', item s = .ok none s' → s'.stream = s.stream)
    {as : List α} {s s' : State} (h : many item s = .ok as s') :
    Filled s.stream (as.flatMap pieces) s'.stream := by
  -- An item takes a token, so the induction is on what is left of the input.
  induction hn : s.stream.left using Nat.strongRecOn generalizing as s with
  | ind n ih =>
    subst hn
    rw [many_eq] at h
    split at h
    · cases h
    · next s₁ hitem =>
      cases h
      rw [hnone s s' hitem]
      exact .nil s.stream
    · next a s₁ hitem =>
      obtain ⟨x, hplaced⟩ := hsome s a s₁ hitem
      rw [if_pos hplaced.left_lt] at h
      split at h
      · next as' s₂ hmany =>
        cases h
        rw [List.flatMap_cons]
        exact hplaced.filled.append (ih _ hplaced.left_lt hmany rfl)
      · cases h

/-! ### Expressions -/

/-- A reader of which every success is an expression with the span around its tokens. -/
def PlacesExprs (expr : ExprReader) : Prop :=
  ∀ least s e s', expr least s = .ok e s' → Placed s.stream e.span e.pieces s'.stream

section Operands

variable {expr : ExprReader} {e : Expr}

/-- An expression that was read is a part of what it stands in. -/
theorem PlacesExprs.part (hexpr : PlacesExprs expr) {least : Power}
    (h : expr least s = .ok e s') : Placed s.stream e.span [.part (.expr e)] s'.stream :=
  Placed.part (n := .expr e) (hexpr _ _ _ _ h)

theorem placed_of_furtherArgument (hexpr : PlacesExprs expr) {r : Option Expr}
    (h : furtherArgument expr s = .ok r s') :
    match r with
    | some e => ∃ x, Placed s.stream x [.fixed .comma, .part (.expr e)] s'.stream
    | none => s' = s := by
  unfold furtherArgument at h
  rw [kind_bind] at h
  split at h
  · next hcomma =>
    rw [advance_bind] at h
    obtain ⟨e, s₁, he, h⟩ := ParseM.bind_eq_ok_iff.1 h
    obtain ⟨rfl, rfl⟩ := ParseM.pure_eq_ok_iff.1 h
    exact ⟨_, (placed_of_kind hcomma rfl).trans (hexpr.part he)⟩
  · obtain ⟨rfl, rfl⟩ := ParseM.pure_eq_ok_iff.1 h
    rfl

theorem filled_of_arguments (hexpr : PlacesExprs expr) {as : List Expr}
    (h : arguments expr s = .ok as s') :
    Filled s.stream (Piece.separate (as.map .expr)) s'.stream := by
  unfold arguments at h
  rw [kind_bind] at h
  split at h
  · obtain ⟨rfl, rfl⟩ := ParseM.pure_eq_ok_iff.1 h
    exact .nil s.stream
  · obtain ⟨first, s₁, hfirst, h⟩ := ParseM.bind_eq_ok_iff.1 h
    obtain ⟨others, s₂, hothers, h⟩ := ParseM.bind_eq_ok_iff.1 h
    obtain ⟨rfl, rfl⟩ := ParseM.pure_eq_ok_iff.1 h
    have hfilled := filled_of_many (fun e => [.fixed .comma, .part (.expr e)])
      (fun s e s' he => placed_of_furtherArgument hexpr he)
      (fun s s' hnone => by rw [placed_of_furtherArgument hexpr hnone]) hothers
    rw [List.map_cons, Piece.separate, List.flatMap_map]
    exact (hexpr.part hfirst).filled.append hfilled

theorem placed_of_closeList (h : closeList s = .ok t s') :
    Placed s.stream t.span [.fixed .closeParen] s'.stream := by
  unfold closeList at h
  rw [kind_bind] at h
  split at h
  · next hclose =>
    cases h
    exact placed_of_kind hclose rfl
  · cases h

theorem placed_of_call (hexpr : PlacesExprs expr) {c : Call} (h : call expr s = .ok c s') :
    Placed s.stream c.span c.toExpr.pieces s'.stream := by
  unfold call at h
  obtain ⟨name, s₁, hname, h⟩ := ParseM.bind_eq_ok_iff.1 h
  obtain ⟨opening, s₂, hopening, h⟩ := ParseM.bind_eq_ok_iff.1 h
  obtain ⟨as, s₃, has, h⟩ := ParseM.bind_eq_ok_iff.1 h
  obtain ⟨close, s₄, hclose, h⟩ := ParseM.bind_eq_ok_iff.1 h
  obtain ⟨rfl, rfl⟩ := ParseM.pure_eq_ok_iff.1 h
  have hhead := (placed_of_expect_name hname).trans (placed_of_expect hopening rfl)
  exact hhead.around (filled_of_arguments hexpr has) (placed_of_closeList hclose)

theorem placed_of_literal (h : literal s = .ok e s') :
    Placed s.stream e.span e.pieces s'.stream := by
  unfold literal at h
  obtain ⟨t, s₁, ht, h⟩ := ParseM.bind_eq_ok_iff.1 h
  obtain ⟨hkind, rfl, rfl⟩ := expectOneOf_eq_ok_iff.1 ht
  have hne : s.current.kind ≠ .eof := by
    intro heof
    rw [heof] at hkind
    exact absurd hkind (by decide)
  split at h
  · next hnumber =>
    obtain ⟨rfl, rfl⟩ := ParseM.pure_eq_ok_iff.1 h
    exact placed_of_sign hne (Token.sign_of_unspelled hnumber rfl)
  · next hnumber =>
    obtain ⟨rfl, rfl⟩ := ParseM.pure_eq_ok_iff.1 h
    have hstring : s.current.kind = .string := by simpa [hnumber] using hkind
    exact placed_of_sign hne (Token.sign_of_unspelled hstring rfl)

theorem placed_of_negation (hexpr : PlacesExprs expr) (h : negation expr s = .ok e s') :
    Placed s.stream e.span e.pieces s'.stream := by
  unfold negation at h
  obtain ⟨mark, s₁, hmark, h⟩ := ParseM.bind_eq_ok_iff.1 h
  obtain ⟨operand, s₂, hoperand, h⟩ := ParseM.bind_eq_ok_iff.1 h
  obtain ⟨rfl, rfl⟩ := ParseM.pure_eq_ok_iff.1 h
  exact (placed_of_expect hmark rfl).trans (hexpr.part hoperand)

theorem placed_of_group (hexpr : PlacesExprs expr) (h : group expr s = .ok e s') :
    Placed s.stream e.span e.pieces s'.stream := by
  unfold group at h
  obtain ⟨opening, s₁, hopening, h⟩ := ParseM.bind_eq_ok_iff.1 h
  obtain ⟨inner, s₂, hinner, h⟩ := ParseM.bind_eq_ok_iff.1 h
  obtain ⟨close, s₃, hclose, h⟩ := ParseM.bind_eq_ok_iff.1 h
  obtain ⟨rfl, rfl⟩ := ParseM.pure_eq_ok_iff.1 h
  have hopened := (placed_of_expect hopening rfl).trans (hexpr.part hinner)
  exact hopened.trans (placed_of_expect hclose rfl)

theorem placed_of_assignment (hexpr : PlacesExprs expr) (h : assignment expr s = .ok e s') :
    Placed s.stream e.span e.pieces s'.stream := by
  unfold assignment at h
  obtain ⟨target, s₁, htarget, h⟩ := ParseM.bind_eq_ok_iff.1 h
  obtain ⟨mark, s₂, hmark, h⟩ := ParseM.bind_eq_ok_iff.1 h
  obtain ⟨value, s₃, hvalue, h⟩ := ParseM.bind_eq_ok_iff.1 h
  obtain ⟨rfl, rfl⟩ := ParseM.pure_eq_ok_iff.1 h
  have hhead := (placed_of_expect_name htarget).trans (placed_of_expect hmark rfl)
  exact hhead.trans (hexpr.part hvalue)

theorem placed_of_symbol (h : symbol s = .ok e s') :
    Placed s.stream e.span e.pieces s'.stream := by
  unfold symbol at h
  obtain ⟨t, s₁, ht, h⟩ := ParseM.bind_eq_ok_iff.1 h
  obtain ⟨rfl, rfl⟩ := ParseM.pure_eq_ok_iff.1 h
  exact placed_of_expect_name ht

theorem placed_of_nameOperand (hexpr : PlacesExprs expr) (h : nameOperand expr s = .ok e s') :
    Placed s.stream e.span e.pieces s'.stream := by
  rw [nameOperand_apply] at h
  split at h
  · obtain ⟨c, s₁, hc, h⟩ := ParseM.bind_eq_ok_iff.1 h
    obtain ⟨rfl, rfl⟩ := ParseM.pure_eq_ok_iff.1 h
    exact placed_of_call hexpr hc
  · split at h
    · exact placed_of_assignment hexpr h
    · exact placed_of_symbol h

theorem placed_of_operand {settings : Settings} (hexpr : PlacesExprs expr)
    (h : operand (.standard settings) expr s = .ok e s') :
    Placed s.stream e.span e.pieces s'.stream := by
  rw [operand_apply] at h
  split at h
  · next form hform =>
    cases form with
    | negation => exact placed_of_negation hexpr h
    | group => exact placed_of_group hexpr h
    | name => exact placed_of_nameOperand hexpr h
    | literal => exact placed_of_literal h
  · cases h

/-- An operator behind a left operand makes a node that starts where the operand does. -/
theorem placed_of_extend {settings : Settings} (hexpr : PlacesExprs expr) {least : Power}
    {left : Expr} (hleft : Placed a left.span left.pieces s.stream) {r : Option Expr}
    (h : extend (.standard settings) expr least left s = .ok r s') :
    match r with
    | some e => Placed a e.span e.pieces s'.stream ∧ s'.stream.left < s.stream.left
    | none => s' = s := by
  rw [extend_apply] at h
  split at h
  · next power hpower =>
    obtain ⟨op, hkind, rfl⟩ := Rules.power?_eq_some_iff.1 hpower
    split at h
    · obtain ⟨e, s₁, he, h⟩ := ParseM.bind_eq_ok_iff.1 h
      obtain ⟨rfl, rfl⟩ := ParseM.pure_eq_ok_iff.1 h
      rw [binary_apply, hkind, BinaryOp.ofKind?_eq_some_iff.2 rfl] at he
      obtain ⟨right, s₂, hright, he⟩ := ParseM.bind_eq_ok_iff.1 he
      obtain ⟨rfl, rfl⟩ := ParseM.pure_eq_ok_iff.1 he
      have hrest := (placed_of_kind hkind op.spelling?_kind).trans (hexpr.part hright)
      have hwhole := (Placed.part (n := .expr left) hleft).trans hrest
      exact ⟨hwhole, hrest.left_lt⟩
    · obtain ⟨rfl, rfl⟩ := ParseM.pure_eq_ok_iff.1 h
      rfl
  · obtain ⟨rfl, rfl⟩ := ParseM.pure_eq_ok_iff.1 h
    rfl

end Operands

/-- **The span of an expression goes around its tokens**, and so below it. -/
theorem placesExprs_exprAt (settings : Settings) (n : Nat) :
    PlacesExprs (exprAt (.standard settings) n) := by
  induction n with
  | zero =>
    intro least s e s' h
    cases h
  | succ n ih =>
    intro least s e s' h
    rw [exprAt] at h
    obtain ⟨s₁, hinside, rfl⟩ := nested_eq_ok_iff.1 h
    obtain ⟨first, s₂, hfirst, hloop⟩ := ParseM.bind_eq_ok_iff.1 hinside
    -- The place before the first operand stays; each round moves the place behind.
    obtain ⟨s₃, hplaced, hend⟩ := exists_of_iterate_eq_ok
      (I := fun e s' => Placed s.deeper.stream e.span e.pieces s'.stream)
      (fun _ _ _ _ hplaced hround => placed_of_extend ih hplaced hround)
      (placed_of_operand ih hfirst) hloop
    have hsame : s₁ = s₃ := placed_of_extend ih hplaced hend
    subst hsame
    exact hplaced

end Parse

end ImpFront
