import ImpFront.Proofs.Parse.ExprReading
import ImpFront.Proofs.Parse.ProductionsKeep
/-!
# ImpFront.Proofs.Parse.LowerMinimum

**Reading with a lower minimum goes on where reading with a higher one stops.** Two loops over
operators that differ in the minimum alone take the same rounds while the operator is above both,
because what a round reads behind its operator does not depend on the minimum. So the loop with
the lower minimum is the loop with the higher one and then itself again
(`iterate_extend_of_le`). What the second part adds is put around the expression that the first
part has read, which stays where it is: at the end of the left operands.
-/

namespace ImpFront

/-- The whole goes down, over its left operands, to the part; these are the operators passed, the
outermost first. -/
inductive Expr.Extends (part : Expr) : List BinaryOp → Expr → Prop where
  | refl : Extends part [] part
  | binary {ops : List BinaryOp} {left : Expr} (op : BinaryOp) (right : Expr) (span : Span) :
    Extends part ops left → Extends part (op :: ops) (.binary op left right span)

/-- The level that was closed is opened again. -/
theorem State.deeper_shallower {s : State} (h : 0 < s.depth) : s.shallower.deeper = s := by
  cases s with
  | mk stream depth notes =>
    have hdepth : depth - 1 + 1 = depth := Nat.sub_add_cancel h
    simp only [State.shallower, State.deeper, hdepth]

theorem Outcome.exists_of_result {α : Type} {o : Outcome α} {a : α}
    (h : o.result.toOption = some a) : ∃ s, o = .ok a s := by
  cases o with
  | ok b s => exact ⟨s, by rw [Option.some.inj h]⟩
  | error d s => cases h

namespace Parse

/-! ### Loops that stop later -/

/-- Let a round of the second loop decline or be a round of the first that takes a token. Then the
first loop is the second one and then itself. -/
theorem iterate_eq_iterate_bind {α : Type} {longer shorter : α → ParseM (Option α)}
    (hround : ∀ a s, shorter a s = .ok none s ∨ longer a s = shorter a s ∧
      ∀ r s', shorter a s = .ok r s' → ∃ b, r = some b ∧ s'.stream.left < s.stream.left)
    (a : α) (s : State) :
    iterate longer a s = (iterate shorter a >>= iterate longer) s := by
  -- A common round takes a token, so the induction is on the tokens ahead.
  induction hn : s.stream.left using Nat.strongRecOn generalizing a s with
  | ind left ih =>
    subst hn
    rw [ParseM.bind_apply, iterate_eq shorter]
    rcases hround a s with hdeclines | ⟨hsame, htakes⟩
    · rw [hdeclines]
    · rw [iterate_eq longer, hsame]
      cases hr : shorter a s with
      | error d s₁ => rfl
      | ok r s₁ =>
        obtain ⟨b, rfl, hlt⟩ := htakes r s₁ hr
        dsimp only
        rw [if_pos hlt, if_pos hlt, ih _ hlt b s₁ rfl, ParseM.bind_apply]

section Rounds

variable {settings : Settings} {expr : ExprReader} {n : Nat} {low high least : Power}
  {left e : Expr} {s s' : State}

/-! ### Rounds -/

/-- A round declines unless the operator at hand is above the minimum. -/
theorem extend_of_weaker (h : ∀ op : BinaryOp, s.current.kind = op.kind → op.power ≤ least) :
    extend (.standard settings) expr least left s = .ok none s := by
  rw [extend_apply]
  split
  · next power hpower =>
    obtain ⟨op, hkind, rfl⟩ := Rules.power?_eq_some_iff.1 hpower
    rw [if_neg (Nat.not_lt.2 (h op hkind))]
  · rfl

/-- A round on an operator above the minimum reads that operator, whatever the minimum is. -/
theorem extend_of_stronger {op : BinaryOp} (hkind : s.current.kind = op.kind)
    (h : least < op.power) :
    extend (.standard settings) expr least left s
      = (binary expr op.power left >>= fun e => pure (some e)) s := by
  have hpower : (Rules.standard settings).operator s.current.kind = some op.power := by
    rw [hkind]
    exact Rules.power?_kind op
  rw [extend_apply, hpower]
  exact if_pos h

/-- A round declines in front of an operator that is not above the minimum, or it takes the operator
at hand and puts it around what came before. -/
theorem of_extend_eq_ok (hexpr : ReadsExprs n expr) {r : Option Expr}
    (h : extend (.standard settings) expr least left s = .ok r s') :
    match r with
    | some e => ∃ op right span, e = .binary op left right span ∧ s.current.kind = op.kind
        ∧ least < op.power ∧ s'.stream.left < s.stream.left
    | none => s' = s ∧ ∀ op : BinaryOp, s.current.kind = op.kind → op.power ≤ least := by
  by_cases hop : ∃ op : BinaryOp, s.current.kind = op.kind ∧ least < op.power
  · obtain ⟨op, hkind, hleast⟩ := hop
    rw [extend_of_stronger hkind hleast] at h
    obtain ⟨e, s₁, he, h⟩ := ParseM.bind_eq_ok_iff.1 h
    obtain ⟨rfl, rfl⟩ := ParseM.pure_eq_ok_iff.1 h
    rw [binary_apply, hkind, BinaryOp.ofKind?_eq_some_iff.2 rfl] at he
    obtain ⟨right, s₂, hright, he⟩ := ParseM.bind_eq_ok_iff.1 he
    obtain ⟨rfl, rfl⟩ := ParseM.pure_eq_ok_iff.1 he
    have hsigns : s.signs = .fixed op.kind :: right.signs ++ s₂.signs := by
      rw [signs_of_kind hkind op.spelling?_kind, (hexpr _ _ _ _ hright).signs_eq]
      rfl
    exact ⟨op, right, _, rfl, hkind, hleast, State.left_lt_of_signs (by simp) hsigns⟩
  · have hweaker : ∀ op : BinaryOp, s.current.kind = op.kind → op.power ≤ least :=
      fun op hkind => Nat.not_lt.1 fun hlt => hop ⟨op, hkind, hlt⟩
    rw [extend_of_weaker hweaker] at h
    cases h
    exact ⟨rfl, hweaker⟩

/-! ### The loop over operators -/

/-- With a lower minimum, the loop goes on where it would have stopped. -/
theorem iterate_extend_of_le (hexpr : ReadsExprs n expr) (h : low ≤ high) (left : Expr)
    (s : State) :
    iterate (extend (.standard settings) expr low) left s
      = (iterate (extend (.standard settings) expr high) left
          >>= iterate (extend (.standard settings) expr low)) s := by
  refine iterate_eq_iterate_bind (fun left s => ?_) left s
  by_cases hop : ∃ op : BinaryOp, s.current.kind = op.kind ∧ high < op.power
  · obtain ⟨op, hkind, hhigh⟩ := hop
    have hlow : low < op.power := Nat.lt_of_le_of_lt h hhigh
    refine .inr ⟨(extend_of_stronger hkind hlow).trans (extend_of_stronger hkind hhigh).symm,
      fun r s' hr => ?_⟩
    cases r with
    | none => exact absurd ((of_extend_eq_ok hexpr hr).2 op hkind) (Nat.not_le.2 hhigh)
    | some e =>
      obtain ⟨op', right, span, -, -, -, hlt⟩ := of_extend_eq_ok hexpr hr
      exact ⟨e, rfl, hlt⟩
  · exact .inl (extend_of_weaker fun op hkind => Nat.not_lt.1 fun hlt => hop ⟨op, hkind, hlt⟩)

/-- What the rounds of a loop have put around the expression that it started with: operators above
the minimum, of which the innermost is the one that the loop found first. -/
structure Grown (least : Power) (left : Expr) (s : State) (ops : List BinaryOp) (e : Expr)
    (s₁ : State) : Prop where
  down : left.Extends ops e
  above : ∀ op ∈ ops, least < op.power
  innermost : ∀ op ∈ ops.getLast?, s.current.kind = op.kind
  untouched : ops = [] → s₁ = s

theorem Grown.start (least : Power) (left : Expr) (s : State) : Grown least left s [] left s where
  down := .refl
  above _ h := by cases h
  innermost _ h := by cases h
  untouched _ := rfl

/-- One more round puts one more operator around the others. -/
theorem Grown.round (hexpr : ReadsExprs n expr) {ops : List BinaryOp} {e' : Expr} {s₁ s₂ : State}
    (h : Grown least left s ops e s₁)
    (hround : extend (.standard settings) expr least e s₁ = .ok (some e') s₂) :
    (∃ op, Grown least left s (op :: ops) e' s₂) ∧ s₂.stream.left < s₁.stream.left := by
  obtain ⟨op, right, span, rfl, hkind, hleast, hlt⟩ := of_extend_eq_ok hexpr hround
  refine ⟨⟨op, h.down.binary op right span, List.forall_mem_cons.2 ⟨hleast, h.above⟩, ?_,
    fun hnil => by cases hnil⟩, hlt⟩
  cases ops with
  | nil =>
    -- This is the first round, so its operator is at hand where the loop started.
    intro inner hinner
    obtain rfl := Option.mem_some.1 hinner
    rw [← h.untouched rfl]
    exact hkind
  | cons outer ops =>
    rw [List.getLast?_cons_cons]
    exact h.innermost

/-- A loop grows what it started with, and stops in front of an operator that is not above the
minimum. -/
theorem grown_of_iterate_eq_ok (hexpr : ReadsExprs n expr)
    (h : iterate (extend (.standard settings) expr least) left s = .ok e s') :
    (∃ ops, Grown least left s ops e s')
      ∧ ∀ op : BinaryOp, s'.current.kind = op.kind → op.power ≤ least := by
  obtain ⟨s₁, hgrown, hend⟩ := exists_of_iterate_eq_ok
    (I := fun e s₁ => ∃ ops, Grown least left s ops e s₁)
    (fun e s₁ e' s₂ hI hround => by
      obtain ⟨ops, hgrown⟩ := hI
      obtain ⟨⟨op, hmore⟩, hlt⟩ := hgrown.round hexpr hround
      exact ⟨⟨op :: ops, hmore⟩, hlt⟩) ⟨[], .start least left s⟩ h
  obtain ⟨rfl, hweaker⟩ := of_extend_eq_ok hexpr hend
  exact ⟨hgrown, hweaker⟩

/-- An operand with the operators behind it, read with a lower minimum. -/
theorem extended_of_le (hexpr : ReadsExprs n expr) (h : low ≤ high) (s : State) :
    (operand (.standard settings) expr >>= iterate (extend (.standard settings) expr low)) s
      = ((operand (.standard settings) expr
            >>= iterate (extend (.standard settings) expr high))
          >>= iterate (extend (.standard settings) expr low)) s := by
  simp only [ParseM.bind_apply]
  cases operand (.standard settings) expr s with
  | error d s₁ => rfl
  | ok first s₁ =>
    dsimp only
    rw [iterate_extend_of_le hexpr h, ParseM.bind_apply]

end Rounds

/-! ### Expressions -/

variable {low high : Power}

/-- An expression read with a lower minimum is the one read with the higher, and then extended in a
level of its own. -/
theorem exprAt_of_le (settings : Settings) (h : low ≤ high) (n : Nat) (s : State) :
    exprAt (.standard settings) (n + 1) low s
      = (exprAt (.standard settings) (n + 1) high >>= fun e => nested
          (iterate (extend (.standard settings) (exprAt (.standard settings) n) low) e)) s := by
  have hkept := keeps_extended (R := .standard settings)
    (keepsExprs_exprAt (.standard settings) (s.deeper.depth + n) n) high s.deeper (Nat.le_refl _)
  rw [ParseM.bind_apply, exprAt, exprAt, nested, nested,
    extended_of_le (readsExprs_exprAt settings n) h, ParseM.bind_apply]
  cases hhigh : (operand (.standard settings) (exprAt (.standard settings) n) >>=
      iterate (extend (.standard settings) (exprAt (.standard settings) n) high)) s.deeper with
  | error d s₁ => rfl
  | ok e s₁ =>
    -- The level that is given back behind the expression is the one that is opened again.
    have hdepth : s₁.depth = s.depth + 1 := (hhigh ▸ hkept).depth_eq e s₁ rfl
    have hlevel : s₁.shallower.deeper = s₁ := State.deeper_shallower (by omega)
    dsimp only
    rw [nested, hlevel]

/-- **Lowering the minimum only extends an expression to the right**, from any state. If reading
with the higher minimum fails, reading with the lower one fails in the same way. If it returns an
expression, reading with the lower minimum goes on behind it. What that returns, if anything, goes
down over left operands to the first expression itself, spans included; all operators passed are
above the lower minimum, and the innermost one is not above the higher. And unless an operator above
the lower minimum comes next, the first expression is all that is read with the lower minimum as
well. -/
theorem expr_of_le (settings : Settings) (h : low ≤ high) (s : State) :
    (∀ d s', expr (.standard settings) high s = .error d s' →
      expr (.standard settings) low s = .error d s')
    ∧ ∀ e s', expr (.standard settings) high s = .ok e s' →
      (∀ e₁ s₁, expr (.standard settings) low s = .ok e₁ s₁ →
        (∃ read, s'.stream.Taken read s₁.stream)
        ∧ ∃ ops, e.Extends ops e₁ ∧ (∀ op ∈ ops, low < op.power)
          ∧ ∀ op ∈ ops.getLast?, op.power ≤ high)
      ∧ ((∀ op : BinaryOp, s'.current.kind = op.kind → op.power ≤ low) →
        expr (.standard settings) low s = .ok e s') := by
  have hexpr (least : Power) : expr (.standard settings) least s
      = exprAt (.standard settings) (settings.maxDepth - s.depth) least s := rfl
  simp only [hexpr]
  cases settings.maxDepth - s.depth with
  | zero => exact ⟨fun d s' hd => hd, fun e s' he => by cases he⟩
  | succ n =>
    have hreads := readsExprs_exprAt settings n
    rw [exprAt_of_le settings h n s]
    refine ⟨fun d s' hd => ParseM.bind_of_error hd _, fun e s' he => ?_⟩
    rw [ParseM.bind_of_ok he]
    -- The reading with the higher minimum has stopped in front of an operator that is not above it.
    have hstop : ∀ op : BinaryOp, s'.current.kind = op.kind → op.power ≤ high := by
      obtain ⟨t, hinside, rfl⟩ := nested_eq_ok_iff.1 he
      obtain ⟨first, s₂, -, hloop⟩ := ParseM.bind_eq_ok_iff.1 hinside
      exact (grown_of_iterate_eq_ok hreads hloop).2
    refine ⟨fun e₁ s₁ h₁ => ?_, fun hweaker => ?_⟩
    · obtain ⟨t₁, hloop, rfl⟩ := nested_eq_ok_iff.1 h₁
      obtain ⟨⟨ops, hgrown⟩, -⟩ := grown_of_iterate_eq_ok hreads hloop
      have hkept := Keeps.iterate (fun left => keeps_extend (R := .standard settings)
        (keepsExprs_exprAt (.standard settings) (s'.deeper.depth + n) n) low left) e s'.deeper
        (Nat.le_refl _)
      rw [hloop] at hkept
      exact ⟨hkept.exists_taken, ops, hgrown.down, hgrown.above,
        fun op hop => hstop op (hgrown.innermost op hop)⟩
    · refine nested_eq_ok_iff.2 ⟨s'.deeper, ?_, rfl⟩
      rw [iterate_eq, extend_of_weaker (s := s'.deeper) hweaker]

/-- Where an operand of a negation stops in front of the conjunction, a whole expression goes on. -/
theorem expr_of_le_at_conjunction :
    Power.lowest ≤ Power.notOperand ∧ ∃ s' s₁,
      expr (.standard ⟨2⟩) .notOperand (.ofTokens [⟨.identifier, "a", default⟩,
          ⟨.plus, "+", default⟩, ⟨.identifier, "b", default⟩, ⟨.and, "&&", default⟩,
          ⟨.identifier, "c", default⟩])
        = .ok (.binary .add (.symbol "a" default) (.symbol "b" default) default) s'
      ∧ expr (.standard ⟨2⟩) .lowest (.ofTokens [⟨.identifier, "a", default⟩,
          ⟨.plus, "+", default⟩, ⟨.identifier, "b", default⟩, ⟨.and, "&&", default⟩,
          ⟨.identifier, "c", default⟩])
        = .ok (.binary .and (.binary .add (.symbol "a" default) (.symbol "b" default) default)
            (.symbol "c" default) default) s₁
      ∧ (∃ read, s'.stream.Taken read s₁.stream)
      ∧ ∃ ops, Expr.Extends (.binary .add (.symbol "a" default) (.symbol "b" default) default) ops
          (.binary .and (.binary .add (.symbol "a" default) (.symbol "b" default) default)
            (.symbol "c" default) default)
        ∧ (∀ op ∈ ops, Power.lowest < op.power)
        ∧ ∀ op ∈ ops.getLast?, op.power ≤ Power.notOperand := by
  have hle : Power.lowest ≤ Power.notOperand := by decide
  have hhigh : (expr (.standard ⟨2⟩) .notOperand (.ofTokens [⟨.identifier, "a", default⟩,
      ⟨.plus, "+", default⟩, ⟨.identifier, "b", default⟩, ⟨.and, "&&", default⟩,
      ⟨.identifier, "c", default⟩])).result.toOption
      = some (.binary .add (.symbol "a" default) (.symbol "b" default) default) := by
    decide +kernel
  have hlow : (expr (.standard ⟨2⟩) .lowest (.ofTokens [⟨.identifier, "a", default⟩,
      ⟨.plus, "+", default⟩, ⟨.identifier, "b", default⟩, ⟨.and, "&&", default⟩,
      ⟨.identifier, "c", default⟩])).result.toOption
      = some (.binary .and (.binary .add (.symbol "a" default) (.symbol "b" default) default)
          (.symbol "c" default) default) := by
    decide +kernel
  obtain ⟨s', hs'⟩ := Outcome.exists_of_result hhigh
  obtain ⟨s₁, hs₁⟩ := Outcome.exists_of_result hlow
  obtain ⟨hread, hops⟩ := ((expr_of_le ⟨2⟩ hle _).2 _ s' hs').1 _ s₁ hs₁
  exact ⟨hle, s', s₁, hs', hs₁, hread, hops⟩

end Parse

end ImpFront
