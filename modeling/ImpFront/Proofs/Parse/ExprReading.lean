import ImpFront.Proofs.Parse.Dispatch
import ImpFront.Proofs.Syntax.Members
/-!
# ImpFront.Proofs.Parse.ExprReading

**What a successful reading of an expression has read**: the signs of the
expression and no others, by an expression that the powers allow, with no more
levels than were free, and up to a token that does not extend it.

The last point is what makes the induction go through. An operand may be followed
by an operator, and the operator becomes a node above it; that node *fits* because
the operand's right end (`Expr.edge`) has left the operator alone. So the loop over
operators carries one invariant, `Standing`: whatever operator comes next, it leaves
the expression read so far whole.
-/

namespace ImpFront

namespace Rules

/-- The tables know no power but those of the operators. -/
theorem power?_eq_some_iff {k : Kind} {p : Power} :
    power? k = some p ↔ ∃ op : BinaryOp, k = op.kind ∧ p = op.power := by
  rw [power?, Option.map_eq_some_iff]
  constructor
  · rintro ⟨op, hop, rfl⟩
    exact ⟨op, BinaryOp.ofKind?_eq_some_iff.1 hop, rfl⟩
  · rintro ⟨op, rfl, rfl⟩
    exact ⟨op, BinaryOp.ofKind?_eq_some_iff.2 rfl, rfl⟩

@[simp] theorem power?_kind (op : BinaryOp) : power? op.kind = some op.power :=
  power?_eq_some_iff.2 ⟨op, rfl, rfl⟩

end Rules

namespace BinaryOp

theorem power_lt_top (op : BinaryOp) : op.power < Power.top := by
  cases op <;> decide

/-- No operator is so strong that the next larger power would be cut off. -/
@[simp] theorem next_power (op : BinaryOp) : op.power.next = op.power + 1 :=
  Nat.min_eq_left op.power_lt_top

end BinaryOp

namespace Parse

/-- No operator of more than the power comes first. -/
def Weaker (bound : Power) (rest : List Sign) : Prop :=
  ∀ p, Rules.power? (Sign.headKind rest) = some p → p ≤ bound

theorem Weaker.mono {a b : Power} {rest : List Sign} (h : Weaker a rest) (hab : a ≤ b) :
    Weaker b rest :=
  fun p hp => Nat.le_trans (h p hp) hab

theorem weaker_top (rest : List Sign) : Weaker Power.top rest := by
  intro p hp
  obtain ⟨op, -, rfl⟩ := Rules.power?_eq_some_iff.1 hp
  exact Nat.le_of_lt op.power_lt_top

/-- The expression stands between two states as a left operand does: it was read with `n` levels
below its own and with operators above the minimum, and an operator that follows leaves it whole. -/
structure Standing (n : Nat) (least : Power) (s : State) (e : Expr) (s' : State) : Prop where
  signs_eq : s.signs = e.signs ++ s'.signs
  fits : e.fits least = true
  inner_le : e.inner ≤ n
  weaker : Weaker e.edge s'.signs

/-- The expression was read as a whole, with `n` levels free: no operator behind it extends it. -/
structure ExprRead (n : Nat) (least : Power) (s : State) (e : Expr) (s' : State) : Prop where
  signs_eq : s.signs = e.signs ++ s'.signs
  fits : e.fits least = true
  need_le : e.need ≤ n
  weaker : Weaker (min least e.edge) s'.signs

/-- A reader of which every success is a reading with `n` levels free. -/
def ReadsExprs (n : Nat) (expr : ExprReader) : Prop :=
  ∀ least s e s', expr least s = .ok e s' → ExprRead n least s e s'

section Operands

variable {n : Nat} {expr : ExprReader} {s s' : State} {e : Expr}

/-! ### Calls -/

theorem signs_of_furtherArgument (hexpr : ReadsExprs n expr) {r : Option Expr}
    (h : furtherArgument expr s = .ok r s') :
    match r with
    | some e => s.signs = .fixed .comma :: e.signs ++ s'.signs ∧ e.fits .lowest ∧ e.need ≤ n
    | none => s' = s := by
  unfold furtherArgument at h
  rw [kind_bind] at h
  split at h
  · next hcomma =>
    rw [advance_bind] at h
    obtain ⟨e, s₁, he, h⟩ := ParseM.bind_eq_ok_iff.1 h
    obtain ⟨rfl, rfl⟩ := ParseM.pure_eq_ok_iff.1 h
    have hread := hexpr _ _ _ _ he
    refine ⟨?_, hread.fits, hread.need_le⟩
    rw [signs_of_kind hcomma rfl, hread.signs_eq]
    rfl
  · obtain ⟨rfl, rfl⟩ := ParseM.pure_eq_ok_iff.1 h
    rfl

theorem signs_of_arguments (hexpr : ReadsExprs n expr) {as : List Expr}
    (h : arguments expr s = .ok as s') :
    s.signs = Expr.signsList as ++ s'.signs ∧ Expr.fitsList as = true ∧ Expr.needList as ≤ n := by
  unfold arguments at h
  rw [kind_bind] at h
  split at h
  · obtain ⟨rfl, rfl⟩ := ParseM.pure_eq_ok_iff.1 h
    exact ⟨rfl, rfl, Nat.zero_le n⟩
  · obtain ⟨first, s₁, hfirst, h⟩ := ParseM.bind_eq_ok_iff.1 h
    obtain ⟨others, s₂, hothers, h⟩ := ParseM.bind_eq_ok_iff.1 h
    obtain ⟨rfl, rfl⟩ := ParseM.pure_eq_ok_iff.1 h
    have hread := hexpr _ _ _ _ hfirst
    obtain ⟨hsigns, hall, -⟩ := signs_of_many
      (fun e => .fixed .comma :: e.signs) (P := fun e => e.fits .lowest ∧ e.need ≤ n)
      (E := fun _ => True)
      (fun s e s' he => by
        obtain ⟨hs, hP⟩ := signs_of_furtherArgument hexpr he
        exact ⟨hs, by simp, hP⟩)
      (fun s s' hnone => by
        rw [signs_of_furtherArgument hexpr hnone]
        exact ⟨rfl, trivial⟩)
      hothers
    refine ⟨?_, ?_, ?_⟩
    · rw [hread.signs_eq, hsigns, Expr.signsList_cons, List.append_assoc]
    · rw [Expr.fitsList_iff, List.forall_mem_cons]
      exact ⟨hread.fits, fun e he => (hall e he).1⟩
    · rw [Expr.needList_le_iff, List.forall_mem_cons]
      exact ⟨hread.need_le, fun e he => (hall e he).2⟩

theorem signs_of_closeList {t : Token} (h : closeList s = .ok t s') :
    s.signs = .fixed .closeParen :: s'.signs := by
  unfold closeList at h
  rw [kind_bind] at h
  split at h
  · next hclose =>
    cases h
    exact signs_of_kind hclose rfl
  · cases h

theorem signs_of_call (hexpr : ReadsExprs n expr) {c : Call} (h : call expr s = .ok c s') :
    s.signs = c.signs ++ s'.signs ∧ Expr.fitsList c.arguments = true
      ∧ Expr.needList c.arguments ≤ n := by
  unfold call at h
  obtain ⟨name, s₁, hname, h⟩ := ParseM.bind_eq_ok_iff.1 h
  obtain ⟨opening, s₂, hopening, h⟩ := ParseM.bind_eq_ok_iff.1 h
  obtain ⟨as, s₃, has, h⟩ := ParseM.bind_eq_ok_iff.1 h
  obtain ⟨close, s₄, hclose, h⟩ := ParseM.bind_eq_ok_iff.1 h
  obtain ⟨rfl, rfl⟩ := ParseM.pure_eq_ok_iff.1 h
  obtain ⟨hsigns, hfits, hneed⟩ := signs_of_arguments hexpr has
  refine ⟨?_, hfits, hneed⟩
  rw [signs_of_expect_name hname, signs_of_expect hopening rfl, hsigns, signs_of_closeList hclose]
  simp [Call.signs, Call.toExpr, Expr.signs]

/-! ### Operands -/

theorem standing_of_literal (least : Power) (h : literal s = .ok e s') :
    Standing n least s e s' := by
  unfold literal at h
  obtain ⟨t, s₁, ht, h⟩ := ParseM.bind_eq_ok_iff.1 h
  obtain ⟨hkind, hsigns⟩ := signs_of_expectOneOf ht (by decide)
  split at h
  · next hnumber =>
    obtain ⟨rfl, rfl⟩ := ParseM.pure_eq_ok_iff.1 h
    rw [Token.sign_of_unspelled hnumber rfl] at hsigns
    exact ⟨hsigns, rfl, Nat.zero_le n, weaker_top _⟩
  · next hnumber =>
    obtain ⟨rfl, rfl⟩ := ParseM.pure_eq_ok_iff.1 h
    have hstring : t.kind = .string := by simpa [hnumber] using hkind
    rw [Token.sign_of_unspelled hstring rfl] at hsigns
    exact ⟨hsigns, rfl, Nat.zero_le n, weaker_top _⟩

theorem standing_of_negation (hexpr : ReadsExprs n expr) (least : Power)
    (h : negation expr s = .ok e s') : Standing n least s e s' := by
  unfold negation at h
  obtain ⟨mark, s₁, hmark, h⟩ := ParseM.bind_eq_ok_iff.1 h
  obtain ⟨operand, s₂, hoperand, h⟩ := ParseM.bind_eq_ok_iff.1 h
  obtain ⟨rfl, rfl⟩ := ParseM.pure_eq_ok_iff.1 h
  have hread := hexpr _ _ _ _ hoperand
  refine ⟨?_, hread.fits, hread.need_le, hread.weaker⟩
  rw [signs_of_expect hmark rfl, hread.signs_eq]
  rfl

theorem standing_of_group (hexpr : ReadsExprs n expr) (least : Power)
    (h : group expr s = .ok e s') : Standing n least s e s' := by
  unfold group at h
  obtain ⟨opening, s₁, hopening, h⟩ := ParseM.bind_eq_ok_iff.1 h
  obtain ⟨inner, s₂, hinner, h⟩ := ParseM.bind_eq_ok_iff.1 h
  obtain ⟨close, s₃, hclose, h⟩ := ParseM.bind_eq_ok_iff.1 h
  obtain ⟨rfl, rfl⟩ := ParseM.pure_eq_ok_iff.1 h
  have hread := hexpr _ _ _ _ hinner
  refine ⟨?_, hread.fits, hread.need_le, weaker_top _⟩
  rw [signs_of_expect hopening rfl, hread.signs_eq, signs_of_expect hclose rfl]
  simp [Expr.signs]

theorem standing_of_assignment (hexpr : ReadsExprs n expr) (least : Power)
    (h : assignment expr s = .ok e s') : Standing n least s e s' := by
  unfold assignment at h
  obtain ⟨target, s₁, htarget, h⟩ := ParseM.bind_eq_ok_iff.1 h
  obtain ⟨mark, s₂, hmark, h⟩ := ParseM.bind_eq_ok_iff.1 h
  obtain ⟨value, s₃, hvalue, h⟩ := ParseM.bind_eq_ok_iff.1 h
  obtain ⟨rfl, rfl⟩ := ParseM.pure_eq_ok_iff.1 h
  have hread := hexpr _ _ _ _ hvalue
  refine ⟨?_, hread.fits, hread.need_le, hread.weaker.mono (Nat.min_le_left _ _)⟩
  rw [signs_of_expect_name htarget, signs_of_expect hmark rfl, hread.signs_eq]
  rfl

theorem standing_of_symbol (least : Power) (h : symbol s = .ok e s') :
    Standing n least s e s' := by
  unfold symbol at h
  obtain ⟨t, s₁, ht, h⟩ := ParseM.bind_eq_ok_iff.1 h
  obtain ⟨rfl, rfl⟩ := ParseM.pure_eq_ok_iff.1 h
  exact ⟨signs_of_expect_name ht, rfl, Nat.zero_le n, weaker_top _⟩

theorem standing_of_nameOperand (hexpr : ReadsExprs n expr) (least : Power)
    (h : nameOperand expr s = .ok e s') : Standing n least s e s' := by
  rw [nameOperand_apply] at h
  split at h
  · obtain ⟨c, s₁, hc, h⟩ := ParseM.bind_eq_ok_iff.1 h
    obtain ⟨rfl, rfl⟩ := ParseM.pure_eq_ok_iff.1 h
    obtain ⟨hsigns, hfits, hneed⟩ := signs_of_call hexpr hc
    exact ⟨hsigns, hfits, hneed, weaker_top _⟩
  · split at h
    · exact standing_of_assignment hexpr least h
    · exact standing_of_symbol least h

theorem standing_of_operand {settings : Settings} (hexpr : ReadsExprs n expr) (least : Power)
    (h : operand (.standard settings) expr s = .ok e s') : Standing n least s e s' := by
  rw [operand_apply] at h
  split at h
  · next form hform =>
    cases form with
    | negation => exact standing_of_negation hexpr least h
    | group => exact standing_of_group hexpr least h
    | name => exact standing_of_nameOperand hexpr least h
    | literal => exact standing_of_literal least h
  · cases h

/-! ### Operators -/

/-- A further operator keeps what was read standing: the operator is above the minimum, and the
expression before it has left it alone. -/
theorem standing_of_extend {settings : Settings} (hexpr : ReadsExprs n expr) {least : Power}
    {s₀ : State} {left : Expr} (hleft : Standing n least s₀ left s) {r : Option Expr}
    (h : extend (.standard settings) expr least left s = .ok r s') :
    match r with
    | some e => Standing n least s₀ e s' ∧ s'.stream.left < s.stream.left
    | none => s' = s ∧ Weaker least s.signs := by
  rw [extend_apply] at h
  split at h
  · next power hpower =>
    obtain ⟨op, hkind, rfl⟩ := Rules.power?_eq_some_iff.1 hpower
    split at h
    · next hleast =>
      obtain ⟨e, s₁, he, h⟩ := ParseM.bind_eq_ok_iff.1 h
      obtain ⟨rfl, rfl⟩ := ParseM.pure_eq_ok_iff.1 h
      rw [binary_apply, hkind, BinaryOp.ofKind?_eq_some_iff.2 rfl] at he
      obtain ⟨right, s₂, hright, he⟩ := ParseM.bind_eq_ok_iff.1 he
      obtain ⟨rfl, rfl⟩ := ParseM.pure_eq_ok_iff.1 he
      have hread := hexpr _ _ _ _ hright
      rw [BinaryOp.next_power] at hread
      have hsigns : s.signs = .fixed op.kind :: right.signs ++ s₂.signs := by
        rw [signs_of_kind hkind op.spelling?_kind, hread.signs_eq]
        rfl
      -- The operator comes right behind `left`, which is standing and so leaves it alone.
      have hedge : op.power ≤ left.edge :=
        hleft.weaker _ (by rw [← State.kind_current, hkind]; simp)
      refine ⟨⟨?_, ?_, ?_, hread.weaker⟩, State.left_lt_of_signs (by simp) hsigns⟩
      · rw [hleft.signs_eq, hsigns, Expr.signs, List.append_assoc]
      · simp [Expr.fits, hleast, hleft.fits, hedge, hread.fits]
      · rw [Expr.inner]
        exact Nat.max_le.2 ⟨hleft.inner_le, hread.need_le⟩
    · next hleast =>
      obtain ⟨rfl, rfl⟩ := ParseM.pure_eq_ok_iff.1 h
      refine ⟨rfl, fun p hp => ?_⟩
      obtain rfl : op.power = p := by
        rw [← State.kind_current, hkind] at hp
        simpa using hp
      exact Nat.not_lt.1 hleast
  · next hpower =>
    obtain ⟨rfl, rfl⟩ := ParseM.pure_eq_ok_iff.1 h
    refine ⟨rfl, fun p hp => ?_⟩
    rw [← State.kind_current] at hp
    cases hpower.symm.trans hp

end Operands

/-! ### Expressions -/

/-- An expression is read with the levels that are free. -/
theorem readsExprs_exprAt (settings : Settings) (n : Nat) :
    ReadsExprs n (exprAt (.standard settings) n) := by
  induction n with
  | zero =>
    intro least s e s' h
    cases h
  | succ n ih =>
    intro least s e s' h
    rw [exprAt] at h
    obtain ⟨s₁, hinside, rfl⟩ := nested_eq_ok_iff.1 h
    obtain ⟨first, s₂, hfirst, hloop⟩ := ParseM.bind_eq_ok_iff.1 hinside
    -- Every round keeps the expression standing; the last one shows that no operator follows.
    obtain ⟨s₃, hstanding, hend⟩ := exists_of_iterate_eq_ok
      (I := fun e s' => Standing n least s.deeper e s')
      (fun _ _ _ _ hstanding hround => standing_of_extend ih hstanding hround)
      (standing_of_operand ih least hfirst) hloop
    obtain ⟨rfl, hweaker⟩ := standing_of_extend ih hstanding hend
    refine ⟨hstanding.signs_eq, hstanding.fits, ?_, fun p hp => ?_⟩
    · rw [Expr.need]
      have := hstanding.inner_le
      omega
    · exact Nat.le_min.2 ⟨hweaker p hp, hstanding.weaker p hp⟩

end Parse

end ImpFront
