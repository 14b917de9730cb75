import ImpFront.Proofs.Parse.ExprReading
import ImpFront.Proofs.Parse.Obeys
/-!
# ImpFront.Proofs.Parse.ExprAgenda

**Expressions work off the demand for an expression.** A name at the start of an operand
is the one place where more than the current token is looked at. The productions for a
call and for an assignment take the name and then find the token that was looked at; the
agenda takes the name and decides on the token behind it.
-/

namespace ImpFront

namespace Rules

theorem operandForm?_eq_negation_iff {k : Kind} : operandForm? k = some .negation ↔ k = .not := by
  cases k <;> decide

theorem operandForm?_eq_group_iff {k : Kind} : operandForm? k = some .group ↔ k = .openParen := by
  cases k <;> decide

theorem operandForm?_eq_name_iff {k : Kind} : operandForm? k = some .name ↔ k = .identifier := by
  cases k <;> decide

theorem operandForm?_eq_literal_iff {k : Kind} :
    operandForm? k = some .literal ↔ k ∈ [Kind.number, .string] := by
  cases k <;> decide

end Rules

namespace Parse

variable {settings : Settings} {n : Nat} {expr : ExprReader} {s : State}

/-- A reader that works off the demand for an expression, for each power. -/
def ObeysExprs (settings : Settings) (n : Nat) (expr : ExprReader) : Prop :=
  ∀ least s, Obeys settings (expr least s) s.tokens [.expr n least] []

/-! ### Lists between parentheses -/

theorem obeys_closeList {more : Demand} {inner : List Demand}
    (htake : ∀ k, more.take? k = Demand.listRest? inner more k)
    (hother : ∀ k, more.otherwise settings k = .refuse (.kind [.comma, .closeParen]))
    (hcomma : s.current.kind ≠ .comma) :
    Obeys settings (closeList s) s.tokens [more] [] := by
  unfold closeList
  rw [kind_bind]
  split
  · next hclose =>
    refine obeys_of_take [] ?_ (obeys_ok _ _ _)
    rw [htake, Demand.listRest?, if_neg hcomma, if_pos hclose]
  · next hclose =>
    refine obeys_of_refuse (r := .kind [.comma, .closeParen]) ?_ (hother _)
    rw [htake, Demand.listRest?, if_neg hcomma, if_neg hclose]

/-- The further items of a list and the parenthesis that ends it. -/
theorem obeys_listEnd {α β : Type} {item : ParseM (Option α)} {p : ParseM α} {more : Demand}
    {inner : List Demand}
    (htake : ∀ k, more.take? k = Demand.listRest? inner more k)
    (hother : ∀ k, more.otherwise settings k = .refuse (.kind [.comma, .closeParen]))
    (hitem : ∀ s, item s =
      if s.current.kind = .comma then (p >>= fun a => pure (some a)) s.next else .ok none s)
    (hp : ∀ s, Obeys settings (p s) s.tokens inner [])
    (hprogress : ∀ s a s₁, item s = .ok (some a) s₁ → s₁.stream.left < s.stream.left)
    (f : List α → Token → β) (s : State) :
    Obeys settings ((many item >>= fun as => closeList >>= fun t => pure (f as t)) s) s.tokens
      [more] [] := by
  have hround (s : State) : Obeys settings (item s) s.tokens [more] [more] := by
    rw [hitem]
    split
    · next hcomma =>
      refine obeys_of_take (inner ++ [more]) ?_ ?_
      · rw [htake, Demand.listRest?, if_pos hcomma]
      · rw [List.append_nil]
        exact ((hp s.next).append [more]).map some
    · exact obeys_ok _ _ _
  refine (obeys_many hprogress hround s).bind fun as s₁ has => ?_
  obtain ⟨s₀, hnone⟩ := declines_of_many hprogress has
  refine (obeys_closeList htake hother ?_).map (f as)
  rw [hitem] at hnone
  split at hnone
  · obtain ⟨a, s₂, -, h⟩ := ParseM.bind_eq_ok_iff.1 hnone
    cases h
  · next hcomma =>
    cases hnone
    exact hcomma

theorem furtherArgument_apply (expr : ExprReader) (s : State) :
    furtherArgument expr s =
      if s.current.kind = .comma then (expr .lowest >>= fun e => pure (some e)) s.next
      else .ok none s := by
  unfold furtherArgument
  rw [kind_bind]
  split <;> rfl

theorem arguments_apply (expr : ExprReader) (s : State) :
    arguments expr s =
      if s.current.kind = .closeParen then .ok [] s
      else (expr .lowest >>= fun first =>
        many (furtherArgument expr) >>= fun others => pure (first :: others)) s := by
  unfold arguments
  rw [kind_bind]
  split <;> rfl

/-- Arguments and the parenthesis that ends them. -/
theorem obeys_arguments {β : Type} (hexpr : ObeysExprs settings n expr)
    (hreads : ReadsExprs n expr) (f : List Expr → Token → β) (s : State) :
    Obeys settings ((arguments expr >>= fun as => closeList >>= fun t => pure (f as t)) s)
      s.tokens [.arguments n] [] := by
  have happly := arguments_apply expr s
  by_cases hclose : s.current.kind = .closeParen
  · rw [if_pos hclose] at happly
    refine obeys_of_take [] (if_pos hclose) ?_
    rw [ParseM.bind_of_ok happly]
    unfold closeList
    rw [bind_assoc_apply, kind_bind, if_pos hclose]
    exact obeys_ok _ _ _
  · rw [if_neg hclose] at happly
    obtain ⟨r, hr⟩ := Demand.exists_exprFallback_eq settings n
    refine Obeys.of_like (.expr n .lowest) _ (if_neg hclose) hr hr ?_
    rw [ParseM.bind_apply, happly, ← ParseM.bind_apply, bind_assoc_apply]
    refine (hexpr .lowest s).bind_cons fun first s₁ _ => ?_
    rw [bind_assoc_apply]
    refine obeys_listEnd (p := expr .lowest) (fun _ => rfl) (fun _ => rfl)
      (furtherArgument_apply expr) (hexpr .lowest) (fun s a s' h => ?_)
      (fun others => f (first :: others)) s₁
    exact State.left_lt_of_signs (by simp) (signs_of_furtherArgument hreads h).1

/-- A call, behind its name and its opening parenthesis. -/
theorem obeys_call (hexpr : ObeysExprs settings n expr) (hreads : ReadsExprs n expr)
    (hname : s.current.kind = .identifier)
    (hopen : s.next.current.kind = .openParen) :
    Obeys settings (call expr s) s.next.next.tokens [.arguments n] [] := by
  unfold call
  rw [ParseM.bind_of_ok (expect_of_kind hname), ParseM.bind_of_ok (expect_of_kind hopen)]
  exact obeys_arguments hexpr hreads _ s.next.next

/-- What begins with a name, behind the name. -/
theorem obeys_nameOperand (hexpr : ObeysExprs settings n expr) (hreads : ReadsExprs n expr)
    (hname : s.current.kind = .identifier) :
    Obeys settings (nameOperand expr s) s.next.tokens [.nameTail n] [] := by
  have hnext : (s.stream.peek 1).kind = s.next.current.kind :=
    (State.kind_current_next (by rw [hname]; decide)).symm
  rw [nameOperand_apply, hnext]
  split
  · next hopen =>
    refine obeys_of_take [.arguments n] (if_pos hopen) ?_
    exact (obeys_call hexpr hreads hname hopen).map Call.toExpr
  · next hopen =>
    split
    · next hassign =>
      refine obeys_of_take [.expr n .lowest] ?_ ?_
      · rw [Demand.take?, if_neg hopen, if_pos hassign]
      · unfold assignment
        rw [ParseM.bind_of_ok (expect_of_kind hname), ParseM.bind_of_ok (expect_of_kind hassign)]
        exact (hexpr .lowest _).map _
    · next hassign =>
      refine obeys_of_pass ?_ rfl ?_
      · rw [Demand.take?, if_neg hopen, if_neg hassign]
      · unfold symbol
        rw [ParseM.bind_of_ok (expect_of_kind hname)]
        exact obeys_ok _ _ _

/-- An operand, behind its first token. -/
theorem obeys_operandOf (hexpr : ObeysExprs settings n expr) (hreads : ReadsExprs n expr)
    {form : OperandForm}
    (hform : Rules.operandForm? s.current.kind = some form) :
    Obeys settings (operandOf expr form s) s.next.tokens (Demand.operandRest n form) [] := by
  cases form with
  | negation =>
    rw [operandOf, negation]
    rw [ParseM.bind_of_ok (expect_of_kind (Rules.operandForm?_eq_negation_iff.1 hform))]
    exact (hexpr .notOperand _).map _
  | group =>
    rw [operandOf, group]
    rw [ParseM.bind_of_ok (expect_of_kind (Rules.operandForm?_eq_group_iff.1 hform))]
    refine (hexpr .lowest _).bind_cons fun inner s₁ _ => ?_
    exact obeys_expect_bind _ (obeys_ok _ _ _)
  | name => exact obeys_nameOperand hexpr hreads (Rules.operandForm?_eq_name_iff.1 hform)
  | literal =>
    have hmem := Rules.operandForm?_eq_literal_iff.1 hform
    rw [operandOf, literal]
    rw [ParseM.bind_of_ok (expectOneOf_eq_ok_iff.2 ⟨hmem, rfl, rfl⟩)]
    split <;> exact obeys_ok _ _ _

/-! ### Operators -/

/-- One more operator and its operand, where the demand for operators takes the operator. -/
theorem obeys_extend (hexpr : ObeysExprs settings n expr) (least : Power) (left : Expr) (s : State) :
    Obeys settings (extend (.standard settings) expr least left s) s.tokens
      [.operators n least] [.operators n least] := by
  rw [extend_apply]
  split
  · next power hpower =>
    split
    · next hleast =>
      refine obeys_of_take [.expr n power.next, .operators n least] ?_ ?_
      · rw [Demand.take?, show Rules.power? s.current.kind = some power from hpower]
        exact if_pos hleast
      · obtain ⟨op, hkind, -⟩ := Rules.power?_eq_some_iff.1 hpower
        rw [ParseM.bind_apply, binary_apply, hkind, BinaryOp.ofKind?_eq_some_iff.2 rfl]
        dsimp only
        rw [← ParseM.bind_apply, bind_assoc_apply]
        exact (hexpr power.next s.next).bind_cons fun right s₁ _ => obeys_ok _ _ _
    · exact obeys_ok _ _ _
  · exact obeys_ok _ _ _

/-- The demand for operators passes on what extends no expression. -/
theorem obeys_of_extend_eq_none {least : Power} {left e : Expr} {s' : State}
    (h : extend (.standard settings) expr least left s = .ok none s') :
    Obeys settings (.ok e s') s.tokens [.operators n least] [] := by
  rw [extend_apply] at h
  split at h
  · next power hpower =>
    split at h
    · obtain ⟨right, s₁, -, h⟩ := ParseM.bind_eq_ok_iff.1 h
      cases h
    · next hleast =>
      cases h
      refine obeys_of_pass ?_ rfl (obeys_ok _ _ _)
      rw [Demand.take?, show Rules.power? s.current.kind = some power from hpower]
      exact if_neg hleast
  · next hpower =>
    cases h
    refine obeys_of_pass ?_ rfl (obeys_ok _ _ _)
    rw [Demand.take?, show Rules.power? s.current.kind = none from hpower]
    rfl

theorem left_lt_of_extend (hreads : ReadsExprs n expr) {least : Power} {left e : Expr}
    {s' : State} (h : extend (.standard settings) expr least left s = .ok (some e) s') :
    s'.stream.left < s.stream.left := by
  rw [extend_apply] at h
  split at h
  · next power hpower =>
    obtain ⟨op, hkind, rfl⟩ := Rules.power?_eq_some_iff.1 hpower
    split at h
    · obtain ⟨e, s₁, he, h⟩ := ParseM.bind_eq_ok_iff.1 h
      cases h
      rw [binary_apply, hkind, BinaryOp.ofKind?_eq_some_iff.2 rfl] at he
      obtain ⟨right, s₂, hright, he⟩ := ParseM.bind_eq_ok_iff.1 he
      cases he
      refine State.left_lt_of_signs (u := .fixed op.kind :: right.signs) (by simp) ?_
      rw [signs_of_kind hkind op.spelling?_kind, (hreads _ _ _ _ hright).signs_eq]
      rfl
    · cases h
  · cases h

/-- All operators that extend an expression. -/
theorem obeys_operators (hexpr : ObeysExprs settings n expr) (hreads : ReadsExprs n expr)
    (least : Power) (left : Expr) (s : State) :
    Obeys settings (iterate (extend (.standard settings) expr least) left s) s.tokens
      [.operators n least] [] := by
  -- A round takes its operator, so the induction is on the tokens ahead.
  induction hn : s.stream.left using Nat.strongRecOn generalizing left s with
  | ind m ih =>
    subst hn
    have hround := obeys_extend hexpr least left s
    rw [iterate_eq]
    cases h : extend (.standard settings) expr least left s with
    | error e s₁ =>
      intro agenda
      rw [hround agenda, h]
    | ok r s₁ =>
      cases r with
      | none => exact obeys_of_extend_eq_none h
      | some e =>
        have hlt := left_lt_of_extend hreads h
        intro agenda
        dsimp only
        rw [hround agenda, h, if_pos hlt]
        exact ih _ hlt e s₁ rfl agenda

/-- An operand and the operators that extend it. -/
theorem obeys_extended (hexpr : ObeysExprs settings n expr) (hreads : ReadsExprs n expr)
    (least : Power) (s : State) :
    Obeys settings
      ((operand (.standard settings) expr >>= iterate (extend (.standard settings) expr least)) s)
      s.tokens [.expr (n + 1) least] [] := by
  have happly := operand_apply (.standard settings) expr s
  rw [Rules.operand_standard] at happly
  cases hform : Rules.operandForm? s.current.kind with
  | none =>
    rw [hform] at happly
    rw [ParseM.bind_of_error happly]
    refine obeys_of_refuse (r := .noExpression) ?_ rfl
    rw [Demand.take?, Demand.exprRest?, hform]
    rfl
  | some form =>
    rw [hform] at happly
    rw [ParseM.bind_apply, happly, ← ParseM.bind_apply]
    refine obeys_of_take (Demand.operandRest n form ++ [.operators n least]) ?_ ?_
    · rw [Demand.take?, Demand.exprRest?, hform]
      rfl
    · rw [List.append_nil]
      refine ((obeys_operandOf hexpr hreads hform).append _).bind fun first s₁ _ => ?_
      exact obeys_operators hexpr hreads least first s₁

/-! ### Expressions -/

/-- **An expression works off the demand for it**, with the levels that are free. -/
theorem obeysExprs_exprAt (settings : Settings) (n : Nat) :
    ObeysExprs settings n (exprAt (.standard settings) n) := by
  induction n with
  | zero =>
    intro least s
    exact obeys_of_refuse (r := .tooDeep settings.maxDepth) rfl rfl
  | succ n ih =>
    intro least s
    rw [exprAt]
    exact (obeys_extended ih (readsExprs_exprAt settings n) least s.deeper).nested

end Parse

end ImpFront
