import ImpFront.Proofs.Parse.ExprReading
import ImpFront.Proofs.Parse.Yields
import ImpFront.Syntax.Erasure
/-!
# ImpFront.Proofs.Parse.ExprAcceptance

**Every expression that the powers allow is read from its own signs**, with as many
levels as it needs, and comes out as it went in but for its spans.

The left operand of an operator is read before anyone knows that it is one: the
reader finishes an operand and then a loop puts one node after the other on top.
So what is proved by induction on the expression is not that reading *returns* it
but that reading *arrives at the loop* with it (`Builds`); from there it may go on
or stop.
-/

namespace ImpFront

namespace Expr

/-- Whether the expression ends in a bare name, which a parenthesis or an assignment behind it would
turn into something else. -/
def endsInName : Expr → Bool
  | symbol .. => true
  | not operand _ => operand.endsInName
  | assign _ value _ => value.endsInName
  | binary _ _ right _ => right.endsInName
  | number .. | string .. | group .. | call .. => false

/-- The first sign of an expression begins an operand. -/
theorem operandForm?_headKind_signs : (e : Expr) →
    (Rules.operandForm? (Sign.headKind e.signs)).isSome = true
  | symbol .. | number .. | string .. | not .. | group .. | assign .. | call .. => rfl
  | binary op left right span => by
    rw [signs, Sign.headKind_append left.signs_ne_nil]
    exact operandForm?_headKind_signs left

/-- No expression begins with a kind that begins no operand. -/
theorem headKind_signs_ne {k : Kind} (hk : Rules.operandForm? k = none) (e : Expr) :
    Sign.headKind e.signs ≠ k := by
  rintro rfl
  have hform := e.operandForm?_headKind_signs
  rw [hk] at hform
  cases hform

end Expr

namespace Parse

/-- An expression stays as it is in front of these signs: no operator at their front takes a part of
it, and nothing makes more of a name at its end. -/
structure Ends (e : Expr) (rest : List Sign) : Prop where
  weaker : Weaker e.edge rest
  name : e.endsInName = true → Sign.headKind rest ≠ .openParen ∧ Sign.headKind rest ≠ .assign

/-- The kinds that follow a whole expression in the language. -/
def closers : List Kind := [.comma, .closeParen, .semicolon]

theorem weaker_of_mem_closers {rest : List Sign} (hrest : Sign.headKind rest ∈ closers)
    (bound : Power) : Weaker bound rest := by
  intro p hp
  simp only [closers, List.mem_cons, List.not_mem_nil, or_false] at hrest
  rcases hrest with h | h | h <;> rw [h] at hp <;> cases hp

/-- None of those kinds makes more of the expression. -/
theorem ends_of_mem_closers {rest : List Sign} (hrest : Sign.headKind rest ∈ closers) (e : Expr) :
    Ends e rest := by
  refine ⟨weaker_of_mem_closers hrest e.edge, fun _ => ?_⟩
  simp only [closers, List.mem_cons, List.not_mem_nil, or_false] at hrest
  rcases hrest with h | h | h <;> rw [h] <;> decide

/-- A left operand stays as it is in front of its operator. -/
theorem ends_of_operator {e : Expr} {op : BinaryOp} (hedge : op.power ≤ e.edge)
    (rest : List Sign) : Ends e (.fixed op.kind :: rest) := by
  refine ⟨fun p hp => ?_, fun _ => ?_⟩
  · obtain rfl : op.power = p := by simpa using hp
    exact hedge
  · rw [Sign.headKind_cons, Sign.kind_fixed]
    cases op <;> decide

variable {settings : Settings} {n : Nat} {least : Power} {rest : List Sign}

/-- Reading an operand with the operators behind it comes to the loop with `e` read so far. -/
def Builds (settings : Settings) (n : Nat) (least : Power) (e : Expr) (rest : List Sign) : Prop :=
  ∀ s : State, s.signs = e.signs ++ rest →
    ∃ e' s', e'.erase = e.erase ∧ s'.signs = rest ∧
      (operand (.standard settings) (exprAt (.standard settings) n) >>=
          iterate (extend (.standard settings) (exprAt (.standard settings) n) least)) s
        = iterate (extend (.standard settings) (exprAt (.standard settings) n) least) e' s'

/-! ### The loop over operators -/

theorem builds_of_operand {e : Expr}
    (h : Yields (operand (.standard settings) (exprAt (.standard settings) n)) e.signs rest
      (·.erase = e.erase)) : Builds settings n least e rest := by
  intro s hs
  obtain ⟨e', s', hok, herase, hs'⟩ := h s hs
  exact ⟨e', s', herase, hs', ParseM.bind_of_ok hok _⟩

/-- One round of the loop puts an operator on top. -/
theorem builds_binary {op : BinaryOp} {left right : Expr} {span : Span}
    (hleast : least < op.power)
    (hleft : Builds settings n least left (.fixed op.kind :: right.signs ++ rest))
    (hright : Yields (exprAt (.standard settings) n (op.power + 1)) right.signs rest
      (·.erase = right.erase)) :
    Builds settings n least (.binary op left right span) rest := by
  intro s hs
  rw [Expr.signs, List.append_assoc] at hs
  obtain ⟨left', s₁, herase, hs₁, hloop⟩ := hleft s hs
  have hkind : s₁.current.kind = op.kind := by rw [State.kind_current, hs₁]; rfl
  have hnext : s₁.next.signs = right.signs ++ rest := by rw [State.signs_next, hs₁]; rfl
  obtain ⟨right', s₂, hok, herase', hs₂⟩ := hright s₁.next hnext
  -- The left operand has arrived at the loop, so the operator is seen in the next round.
  have hround : extend (.standard settings) (exprAt (.standard settings) n) least left' s₁
      = .ok (some (.binary op left' right' ⟨left'.span.start, right'.span.stop⟩)) s₂ := by
    rw [extend_apply, Rules.operator_standard, hkind, Rules.power?_kind]
    dsimp only
    rw [if_pos hleast]
    apply ParseM.bind_eq_ok_iff.2
    refine ⟨_, s₂, ?_, rfl⟩
    rw [binary_apply, hkind, BinaryOp.ofKind?_eq_some_iff.2 rfl]
    dsimp only
    rw [BinaryOp.next_power]
    exact ParseM.bind_eq_ok_iff.2 ⟨right', s₂, hok, rfl⟩
  have hlt : s₂.stream.left < s₁.stream.left :=
    State.left_lt_of_signs (u := .fixed op.kind :: right.signs) (by simp) (by rw [hs₁, hs₂])
  refine ⟨.binary op left' right' ⟨left'.span.start, right'.span.stop⟩, s₂, ?_, hs₂, ?_⟩
  · rw [Expr.erase, Expr.erase, herase, herase']
  · rw [hloop, iterate_eq, hround]
    dsimp only
    rw [if_pos hlt]

/-- Where the next operator is too weak, the loop stops and the expression is returned. -/
theorem yields_of_builds {e : Expr} (hbuilds : Builds settings n least e rest)
    (hweaker : Weaker least rest) :
    Yields (exprAt (.standard settings) (n + 1) least) e.signs rest (·.erase = e.erase) := by
  intro s hs
  obtain ⟨e', s', herase, hs', hloop⟩ := hbuilds s.deeper hs
  have hround : extend (.standard settings) (exprAt (.standard settings) n) least e' s'
      = .ok none s' := by
    rw [extend_apply]
    split
    · next p hp =>
      have hle : p ≤ least := hweaker p (by rw [← hs', ← State.kind_current]; exact hp)
      rw [if_neg (Nat.not_lt.2 hle)]
    · rfl
  refine ⟨e', s'.shallower, ?_, herase, hs'⟩
  rw [exprAt, nested_eq_ok_iff]
  exact ⟨s', by rw [hloop, iterate_eq, hround], rfl⟩

/-- An expression that is built with the levels below its own is read with the levels it needs. -/
theorem yields_exprAt_of_builds {e : Expr} (hneed : e.need ≤ n) (hweaker : Weaker least rest)
    (hbuilds : ∀ m, e.inner ≤ m → Builds settings m least e rest) :
    Yields (exprAt (.standard settings) n least) e.signs rest (·.erase = e.erase) := by
  cases n with
  | zero =>
    rw [Expr.need] at hneed
    omega
  | succ m =>
    rw [Expr.need] at hneed
    exact yields_of_builds (hbuilds m (by omega)) hweaker

/-! ### Operands -/

variable {expr : ExprReader}

/-- The table finds the form of an operand by its first sign. -/
theorem yields_operand {u : List Sign} {P : Expr → Prop} (form : OperandForm)
    (hform : Rules.operandForm? (Sign.headKind (u ++ rest)) = some form)
    (h : Yields (operandOf expr form) u rest P) :
    Yields (operand (.standard settings) expr) u rest P := by
  intro s hs
  rw [← hs, ← State.kind_current] at hform
  rw [operand_apply, Rules.operand_standard, hform]
  exact h s hs

theorem yields_number (text : String) (span : Span) :
    Yields literal (Expr.number text span).signs rest
      (·.erase = (Expr.number text span).erase) := by
  refine Yields.expectOneOf_bind (by simp) (by simp) fun t ht => ?_
  have hkind : t.kind = .number := by rw [← Token.kind_sign, ht]
  rw [Token.sign_of_unspelled hkind rfl] at ht
  rw [if_pos hkind]
  obtain ⟨-, htext⟩ := Sign.mk.inj ht
  refine yields_pure ?_
  rw [Expr.erase, Expr.erase, htext]

theorem yields_string (value : String) (span : Span) :
    Yields literal (Expr.string value span).signs rest
      (·.erase = (Expr.string value span).erase) := by
  refine Yields.expectOneOf_bind (by simp) (by simp) fun t ht => ?_
  have hkind : t.kind = .string := by rw [← Token.kind_sign, ht]
  rw [Token.sign_of_unspelled hkind rfl] at ht
  rw [if_neg (by rw [hkind]; decide)]
  obtain ⟨-, htext⟩ := Sign.mk.inj ht
  refine yields_pure ?_
  rw [Expr.erase, Expr.erase, htext]

theorem yields_negation {operand : Expr} (span : Span)
    (h : Yields (expr .notOperand) operand.signs rest (·.erase = operand.erase)) :
    Yields (negation expr) (Expr.not operand span).signs rest
      (·.erase = (Expr.not operand span).erase) := by
  refine Yields.expect_bind (by decide) fun mark => h.map fun e he => ?_
  rw [Expr.erase, Expr.erase, he]

theorem yields_group {inner : Expr} (span : Span)
    (h : Yields (expr .lowest) inner.signs (.fixed .closeParen :: rest) (·.erase = inner.erase)) :
    Yields (group expr) (Expr.group inner span).signs rest
      (·.erase = (Expr.group inner span).erase) := by
  rw [Expr.signs, List.cons_append]
  refine Yields.expect_bind (by decide) fun opening => h.bind fun e he => ?_
  refine Yields.expect_bind (by decide) fun close => yields_pure ?_
  rw [Expr.erase, Expr.erase, he]

theorem yields_assignment {target : String} {value : Expr} (span : Span)
    (h : Yields (expr .lowest) value.signs rest (·.erase = value.erase)) :
    Yields (assignment expr) (Expr.assign target value span).signs rest
      (·.erase = (Expr.assign target value span).erase) := by
  refine Yields.name_bind fun t ht => Yields.expect_bind (by decide) fun mark => ?_
  refine h.map fun e he => ?_
  rw [Expr.erase, Expr.erase, he, ht]

theorem yields_symbol (name : String) (span : Span) :
    Yields symbol (Expr.symbol name span).signs rest
      (·.erase = (Expr.symbol name span).erase) := by
  refine Yields.name_bind fun t ht => yields_pure ?_
  rw [Expr.erase, Expr.erase, ht]

/-- The reader reads the expression wherever a whole expression stands. -/
def YieldsWhole (expr : ExprReader) (e : Expr) : Prop :=
  ∀ rest, Sign.headKind rest ∈ closers →
    Yields (expr .lowest) e.signs rest (·.erase = e.erase)

/-- Behind an argument stand a comma or the closing parenthesis. -/
theorem mem_closers_behind_argument (behind : List Expr) :
    Sign.headKind ((behind.flatMap fun e => Sign.fixed .comma :: e.signs)
      ++ .fixed .closeParen :: rest) ∈ closers := by
  cases behind with
  | nil => simp [closers]
  | cons _ _ => simp [closers]

/-- Further arguments are read up to the closing parenthesis. -/
theorem yields_furtherArguments {as : List Expr} (h : ∀ e ∈ as, YieldsWhole expr e) :
    Yields (many (furtherArgument expr)) (as.flatMap fun e => .fixed .comma :: e.signs)
      (.fixed .closeParen :: rest) (·.map Expr.erase = as.map Expr.erase) := by
  refine yields_many (fun e => .fixed .comma :: e.signs) Expr.erase (by simp) ?_ ?_
  · intro e he behind
    refine Yields.kind_bind (k := .comma) rfl ?_
    rw [if_pos rfl]
    exact Yields.advance_bind (by decide) fun t ht =>
      (h e he _ (mem_closers_behind_argument behind)).map fun e' he' => ⟨e', rfl, he'⟩
  · refine Yields.kind_bind (k := .closeParen) rfl ?_
    rw [if_neg (by decide)]
    exact yields_pure rfl

/-- The arguments of a call are read up to the closing parenthesis. -/
theorem yields_arguments {as : List Expr} (h : ∀ e ∈ as, YieldsWhole expr e) :
    Yields (arguments expr) (Expr.signsList as) (.fixed .closeParen :: rest)
      (fun es => Expr.eraseList es = Expr.eraseList as) := by
  refine Yields.kind_bind rfl ?_
  cases as with
  | nil => exact yields_pure rfl
  | cons first others =>
    obtain ⟨hfirst, hothers⟩ := List.forall_mem_cons.1 h
    have hkind : Sign.headKind (Expr.signsList (first :: others) ++ .fixed .closeParen :: rest)
        ≠ .closeParen := by
      rw [Expr.signsList_cons, List.append_assoc, Sign.headKind_append first.signs_ne_nil]
      exact Expr.headKind_signs_ne rfl first
    rw [if_neg hkind, Expr.signsList_cons]
    refine (hfirst _ (mem_closers_behind_argument others)).bind fun e he => ?_
    refine (yields_furtherArguments hothers).map fun es hes => ?_
    rw [Expr.eraseList_eq_map, Expr.eraseList_eq_map, List.map_cons, List.map_cons, he, hes]

theorem yields_closeList : Yields closeList [.fixed .closeParen] rest (fun _ => True) := by
  refine Yields.kind_bind (k := .closeParen) rfl ?_
  rw [if_pos rfl]
  intro s hs
  refine ⟨s.current, s.next, rfl, trivial, ?_⟩
  rw [State.signs_next, hs]
  rfl

theorem yields_call {c : Call} (h : ∀ e ∈ c.arguments, YieldsWhole expr e) :
    Yields (call expr) c.signs rest (·.erase = c.erase) := by
  rw [Call.signs, Call.toExpr, Expr.signs, List.cons_append, List.cons_append]
  refine Yields.name_bind fun name hname => Yields.expect_bind (by decide) fun opening => ?_
  refine (yields_arguments h).bind fun es hes => yields_closeList.map fun close _ => ?_
  rw [Call.erase, Call.erase, hes, hname]

/-! ### Expressions -/

mutual

/-- Reading comes to the loop with every expression that the powers allow. -/
theorem builds (settings : Settings) : (e : Expr) → {n : Nat} → {least : Power} →
    {rest : List Sign} → e.fits least = true → e.inner ≤ n → Ends e rest →
    Builds settings n least e rest
  | .symbol name span, n, least, rest, _, _, hends => by
    refine builds_of_operand (yields_operand .name rfl fun s hs => ?_)
    -- Behind a bare name stands nothing that would make a call or an assignment of it.
    obtain ⟨hparen, hassign⟩ := hends.name rfl
    have hnext : (s.stream.peek 1).kind = Sign.headKind rest :=
      State.kind_peek_one (.name name) hs
    rw [← hnext] at hparen hassign
    show ∃ e' s', nameOperand _ s = _ ∧ _
    rw [nameOperand_apply, if_neg hparen, if_neg hassign]
    exact yields_symbol name span s hs
  | .number text span, n, least, rest, _, _, _ =>
    builds_of_operand (yields_operand .literal rfl (yields_number text span))
  | .string value span, n, least, rest, _, _, _ =>
    builds_of_operand (yields_operand .literal rfl (yields_string value span))
  | .not operand span, n, least, rest, hfits, hinner, hends => by
    refine builds_of_operand (yields_operand .negation rfl ?_)
    refine yields_negation span (yields_exprAt_of_builds hinner ?_ fun m hm => ?_)
    · exact hends.weaker.mono (Nat.min_le_left _ _)
    · exact builds settings operand hfits hm
        ⟨hends.weaker.mono (Nat.min_le_right _ _), hends.name⟩
  | .group inner span, n, least, rest, hfits, hinner, _ => by
    refine builds_of_operand (yields_operand .group rfl ?_)
    have hnext : Sign.headKind (.fixed .closeParen :: rest) ∈ closers := by simp [closers]
    refine yields_group span (yields_exprAt_of_builds hinner ?_ fun m hm => ?_)
    · exact weaker_of_mem_closers hnext _
    · exact builds settings inner hfits hm (ends_of_mem_closers hnext inner)
  | .assign target value span, n, least, rest, hfits, hinner, hends => by
    refine builds_of_operand (yields_operand .name rfl fun s hs => ?_)
    have hnext : (s.stream.peek 1).kind = .assign :=
      State.kind_peek_one (.name target) hs
    show ∃ e' s', nameOperand _ s = _ ∧ _
    rw [nameOperand_apply, if_neg (by rw [hnext]; decide), if_pos hnext]
    refine yields_assignment span (yields_exprAt_of_builds hinner hends.weaker fun m hm => ?_) s hs
    exact builds settings value hfits hm ⟨hends.weaker.mono (Nat.zero_le _), hends.name⟩
  | .binary op left right span, n, least, rest, hfits, hinner, hends => by
    simp only [Expr.fits, Bool.and_eq_true, decide_eq_true_eq] at hfits
    obtain ⟨⟨⟨hleast, hleft⟩, hedge⟩, hright⟩ := hfits
    obtain ⟨hinner₁, hinner₂⟩ := Nat.max_le.1 hinner
    -- Only the right operand takes a level; the left one is built in the same loop.
    refine builds_binary hleast (builds settings left hleft hinner₁ (ends_of_operator hedge _)) ?_
    refine yields_exprAt_of_builds hinner₂ ?_ fun m hm => ?_
    · exact hends.weaker.mono (Nat.min_le_left _ _)
    · exact builds settings right hright hm
        ⟨hends.weaker.mono (Nat.min_le_right _ _), hends.name⟩
  | .call callee as span, n, least, rest, hfits, hinner, _ => by
    refine builds_of_operand (yields_operand .name rfl fun s hs => ?_)
    have hnext : (s.stream.peek 1).kind = .openParen :=
      State.kind_peek_one (.name callee) hs
    show ∃ e' s', nameOperand _ s = _ ∧ _
    rw [nameOperand_apply, if_pos hnext]
    refine (yields_call (c := ⟨callee, as, span⟩) ?_).map (fun c hc => ?_) s hs
    · exact yieldsWhole_of_mem settings as hfits hinner
    · rw [Call.erase, Call.erase] at hc
      obtain ⟨hcallee, has, -⟩ := Call.mk.inj hc
      rw [Call.toExpr, Expr.erase, Expr.erase, hcallee, has]

/-- Each of some expressions that the powers allow is read where a whole one stands. -/
theorem yieldsWhole_of_mem (settings : Settings) : (as : List Expr) → {n : Nat} →
    Expr.fitsList as = true → Expr.needList as ≤ n →
    ∀ e ∈ as, YieldsWhole (exprAt (.standard settings) n) e
  | [], n, _, _ => by
    intro e he
    cases he
  | first :: others, n, hfits, hneed => by
    simp only [Expr.fitsList, Bool.and_eq_true] at hfits
    obtain ⟨hneed₁, hneed₂⟩ := Nat.max_le.1 hneed
    intro e he rest hrest
    rcases List.mem_cons.1 he with heq | he
    · rw [heq]
      exact yields_exprAt_of_builds hneed₁ (weaker_of_mem_closers hrest _) fun m hm =>
        builds settings first hfits.1 hm (ends_of_mem_closers hrest first)
    · exact yieldsWhole_of_mem settings others hfits.2 hneed₂ e he rest hrest

end

/-- An expression that the powers allow is read where a whole one stands. -/
theorem yieldsWhole_exprAt {e : Expr} (hfits : e.wellFormed = true) (hneed : e.need ≤ n) :
    YieldsWhole (exprAt (.standard settings) n) e :=
  fun _ hrest => yields_exprAt_of_builds hneed (weaker_of_mem_closers hrest _) fun _ hm =>
    builds settings e hfits hm (ends_of_mem_closers hrest e)

end Parse

end ImpFront
