import ImpFront.Proofs.Parse.ExprAgenda
import ImpFront.Proofs.Parse.StatementReading
/-!
# ImpFront.Proofs.Parse.StatementAgenda

**Statements and blocks work off the demands for them.** What begins with a name is
decided by the token behind it, in a statement and in the last clause of a loop header;
the agenda has taken the name by then. A statement that is refused there is refused at
that token, so looking ahead moves no refusal.
-/

namespace ImpFront

namespace Rules

theorem statementForm?_eq_declaration_iff {k : Kind} :
    statementForm? k = some .declaration ↔ k.isType = true := by
  cases k <;> decide

theorem statementForm?_eq_ifElse_iff {k : Kind} :
    statementForm? k = some .ifElse ↔ k = .ifWord := by
  cases k <;> decide

theorem statementForm?_eq_forLoop_iff {k : Kind} :
    statementForm? k = some .forLoop ↔ k = .forWord := by
  cases k <;> decide

theorem statementForm?_eq_whileLoop_iff {k : Kind} :
    statementForm? k = some .whileLoop ↔ k = .whileWord := by
  cases k <;> decide

theorem statementForm?_eq_ret_iff {k : Kind} :
    statementForm? k = some .ret ↔ k = .returnWord := by
  cases k <;> decide

end Rules

namespace Parse

variable {settings : Settings} {n : Nat} {expr : ExprReader} {block : ParseM Block} {s : State}

/-- A reader that works off the demands for a block. -/
def ObeysBlocks (settings : Settings) (n : Nat) (block : ParseM Block) : Prop :=
  ∀ s, Obeys settings (block s) s.tokens (Demand.block n) []

/-! ### Types and parameters -/

theorem obeys_typeName (s : State) : Obeys settings (typeName s) s.tokens [.typeName] [] := by
  rw [typeName_apply]
  cases h : Ty.ofKind? s.current.kind with
  | none =>
    refine obeys_of_refuse (r := .kind Ty.keywords) ?_ rfl
    rw [Demand.take?, Kind.isType, h]
    rfl
  | some t =>
    refine obeys_of_take [] ?_ (obeys_ok _ _ _)
    rw [Demand.take?, Kind.isType, h]
    rfl

theorem obeys_parameter (s : State) :
    Obeys settings (parameter s) s.tokens [.typeName, .token .identifier] [] := by
  unfold parameter
  rw [position_bind]
  exact (obeys_typeName s).bind_cons fun type s₁ _ => obeys_expect_bind _ (obeys_ok _ _ _)

theorem furtherParameter_apply (s : State) :
    furtherParameter s =
      if s.current.kind = .comma then (parameter >>= fun p => pure (some p)) s.next
      else .ok none s := by
  unfold furtherParameter
  rw [kind_bind]
  split <;> rfl

/-- Parameters, behind the opening parenthesis. -/
theorem obeys_parameterList (hopen : s.current.kind = .openParen) :
    Obeys settings (parameterList s) s.next.tokens [.parameters] [] := by
  unfold parameterList
  rw [ParseM.bind_of_ok (expect_of_kind hopen), kind_bind]
  split
  · next hclose => exact obeys_of_take [] (if_pos hclose) (obeys_ok _ _ _)
  · next hclose =>
    refine Obeys.of_like .typeName [.token .identifier, .moreParameters]
      (r := .kind Ty.keywords) ?_ rfl rfl ?_
    · simp only [Demand.take?, if_neg hclose]
      split <;> rfl
    · refine ((obeys_parameter s.next).append [.moreParameters]).bind fun first s₁ _ => ?_
      refine obeys_listEnd (p := parameter) (fun _ => rfl) (fun _ => rfl) furtherParameter_apply
        obeys_parameter (fun s p s' h => ?_) (fun others _ => first :: others) s₁
      exact State.left_lt_of_signs (by simp) (signs_of_furtherParameter h)

/-! ### Declarations and updates -/

theorem obeys_declaration (hexpr : ObeysExprs settings n expr) (s : State) :
    Obeys settings (declaration expr s) s.tokens [.typeName, .token .identifier, .value n] [] := by
  unfold declaration
  rw [position_bind]
  refine (obeys_typeName s).bind_cons fun type s₁ _ => obeys_expect_bind _ ?_
  rw [kind_bind]
  split
  · next hassign =>
    refine obeys_of_take [.expr n .lowest, .token .semicolon] (if_pos hassign) ?_
    rw [advance_bind]
    exact (hexpr .lowest _).bind_cons fun value s₂ _ => obeys_expect_bind _ (obeys_ok _ _ _)
  · next hassign =>
    by_cases hsemicolon : s₁.next.current.kind = .semicolon
    · have htake : expectOneOf [.assign, .semicolon] s₁.next
          = .ok s₁.next.current s₁.next.next := if_pos (by simp [hsemicolon])
      rw [ParseM.bind_of_ok htake]
      refine obeys_of_take [] ?_ (obeys_ok _ _ _)
      rw [Demand.take?, Demand.valueRest?, if_neg hassign, if_pos hsemicolon]
    · have hrefuse : expectOneOf [.assign, .semicolon] s₁.next
          = .error (refuse s₁.next.current [.assign, .semicolon]) s₁.next :=
        if_neg (by simp [hassign, hsemicolon])
      rw [ParseM.bind_of_error hrefuse]
      refine obeys_of_refuse (r := .kind [.assign, .semicolon]) ?_ rfl
      rw [Demand.take?, Demand.valueRest?, if_neg hassign, if_neg hsemicolon]

/-- An assignment, behind its name and its operator. -/
theorem obeys_assignUpdate (hexpr : ObeysExprs settings n expr)
    (hname : s.current.kind = .identifier) (hassign : s.next.current.kind.isAssign = true) :
    Obeys settings (assignUpdate expr s) s.next.next.tokens [.expr n .lowest] [] := by
  obtain ⟨op, hop⟩ := Option.isSome_iff_exists.1 hassign
  rw [assignUpdate_apply, ParseM.bind_of_ok (expect_of_kind hname), hop]
  exact (hexpr .lowest _).map _

/-- A step with its operator in front, behind the operator. -/
theorem obeys_stepUpdate_before (hstep : s.current.kind.isStep = true) :
    Obeys settings (stepUpdate s) s.next.tokens [.token .identifier] [] := by
  obtain ⟨op, hop⟩ := Option.isSome_iff_exists.1 hstep
  rw [stepUpdate_apply, hop]
  exact obeys_expect_bind _ (obeys_ok _ _ _)

/-- A step with its operator behind, all of it. -/
theorem obeys_stepUpdate_behind (hname : s.current.kind = .identifier)
    (hstep : s.next.current.kind.isStep = true) :
    Obeys settings (stepUpdate s) s.next.next.tokens [] [] := by
  obtain ⟨op, hop⟩ := Option.isSome_iff_exists.1 hstep
  have htake : expectOneOf (StepOp.all.map StepOp.kind) s.next
      = .ok s.next.current s.next.next := by
    refine if_pos ?_
    rw [StepOp.ofKind?_eq_some_iff.1 hop]
    cases op <;> decide
  rw [stepUpdate_apply, hname, show StepOp.ofKind? .identifier = none from rfl]
  dsimp only
  rw [ParseM.bind_of_ok htake, hop]
  exact obeys_ok _ _ _

theorem obeys_updateStatement {update : ParseM Update} {tokens : List Token} {ds : List Demand}
    (h : Obeys settings (update s) tokens ds []) :
    Obeys settings (updateStatement update s) tokens (ds ++ [.token .semicolon]) [] :=
  (h.append [.token .semicolon]).bind fun u s₁ _ => obeys_expect_bind _ (obeys_ok _ _ _)

/-- What begins with a name, behind the name. -/
theorem obeys_nameStatement (hexpr : ObeysExprs settings n expr) (hreads : ReadsExprs n expr)
    (hname : s.current.kind = .identifier) :
    Obeys settings (nameStatement expr s) s.next.tokens [.update n] [] := by
  have hnext : (s.stream.peek 1).kind = s.next.current.kind :=
    (State.kind_current_next (by rw [hname]; decide)).symm
  unfold nameStatement
  rw [peekKind_bind, hnext]
  split
  · next hassign =>
    refine obeys_of_take [.expr n .lowest, .token .semicolon] (if_pos hassign) ?_
    exact obeys_updateStatement (obeys_assignUpdate hexpr hname hassign)
  · next hassign =>
    split
    · next hstep =>
      refine obeys_of_take [.token .semicolon] ?_ ?_
      · rw [Demand.take?, if_neg hassign, if_pos hstep]
      · exact obeys_updateStatement (obeys_stepUpdate_behind hname hstep)
    · next hstep =>
      split
      · next hopen =>
        refine obeys_of_take [.arguments n, .token .semicolon] ?_ ?_
        · rw [Demand.take?, if_neg hassign, if_neg hstep, if_pos hopen]
        · refine (obeys_call hexpr hreads hname hopen).bind_cons fun c s₁ _ => ?_
          exact obeys_expect_bind _ (obeys_ok _ _ _)
      · next hopen =>
        refine obeys_of_refuse (r := .kind afterName) ?_ rfl
        rw [Demand.take?, if_neg hassign, if_neg hstep, if_neg hopen]

/-! ### Compound statements -/

theorem obeys_condition (hexpr : ObeysExprs settings n expr) (s : State) :
    Obeys settings (condition expr s) s.tokens
      [.token .openParen, .expr n .lowest, .token .closeParen] [] := by
  refine obeys_expect_bind _ ?_
  exact (hexpr .lowest _).bind_cons fun e s₁ _ => obeys_expect_bind _ (obeys_ok _ _ _)

theorem obeys_loopStep (hexpr : ObeysExprs settings n expr) (s : State) :
    Obeys settings (loopStep expr s) s.tokens [.loopStep n] [] := by
  rw [loopStep_apply]
  split
  · next hstep =>
    exact obeys_of_take [.token .identifier] (if_pos hstep)
      (obeys_stepUpdate_before hstep)
  · next hstep =>
    split
    · next hname =>
      have hnext : (s.stream.peek 1).kind = s.next.current.kind :=
        (State.kind_current_next (by rw [hname]; decide)).symm
      refine obeys_of_take [.loopUpdate n] ?_ ?_
      · rw [Demand.take?, if_neg hstep, if_pos hname]
      · rw [hnext]
        split
        · next hassign =>
          exact obeys_of_take [.expr n .lowest] (if_pos hassign)
            (obeys_assignUpdate hexpr hname hassign)
        · next hassign =>
          split
          · next hstep' =>
            refine obeys_of_take [] ?_ (obeys_stepUpdate_behind hname hstep')
            rw [Demand.take?, if_neg hassign, if_pos hstep']
          · next hstep' =>
            refine obeys_of_refuse (r := .kind updateKinds) ?_ rfl
            rw [Demand.take?, if_neg hassign, if_neg hstep']
    · next hname =>
      refine obeys_of_refuse (r := .kind [.identifier, .plusPlus, .minusMinus]) ?_ rfl
      rw [Demand.take?, if_neg hstep, if_neg hname]

/-- A block in front of further demands. -/
theorem ObeysBlocks.bind {β : Type} (hblock : ObeysBlocks settings n block) {ds : List Demand}
    {f : Block → ParseM β} (hf : ∀ b s₁, Obeys settings (f b s₁) s₁.tokens ds []) :
    Obeys settings ((block >>= f) s) s.tokens (Demand.block n ++ ds) [] :=
  ((hblock s).append ds).bind fun b s₁ _ => hf b s₁

theorem obeys_ifStatement (hexpr : ObeysExprs settings n expr)
    (hblock : ObeysBlocks settings n block) (hword : s.current.kind = .ifWord) :
    Obeys settings (ifStatement expr block s) s.next.tokens
      (Demand.guarded n ++ [.alternative n]) [] := by
  unfold ifStatement
  rw [ParseM.bind_of_ok (expect_of_kind hword)]
  refine ((obeys_condition hexpr _).append _).bind fun e s₁ _ => ?_
  refine hblock.bind fun body s₂ => ?_
  rw [kind_bind]
  split
  · next helse =>
    refine obeys_of_take (Demand.block n) (if_pos helse) ?_
    rw [advance_bind]
    exact hblock.bind fun otherwise s₃ => obeys_ok _ _ _
  · next helse => exact obeys_of_pass (if_neg helse) rfl (obeys_ok _ _ _)

theorem obeys_forStatement (hexpr : ObeysExprs settings n expr)
    (hblock : ObeysBlocks settings n block) (hword : s.current.kind = .forWord) :
    Obeys settings (forStatement expr block s) s.next.tokens
      (Demand.statementRest n .forLoop) [] := by
  unfold forStatement
  rw [ParseM.bind_of_ok (expect_of_kind hword)]
  refine obeys_expect_bind _ ?_
  refine ((obeys_declaration hexpr _).append _).bind fun init s₁ _ => ?_
  refine (hexpr .lowest s₁).bind_cons fun e s₂ _ => obeys_expect_bind _ ?_
  refine (obeys_loopStep hexpr _).bind_cons fun step s₃ _ => obeys_expect_bind _ ?_
  rw [← List.append_nil (Demand.block n)]
  exact hblock.bind fun body s₄ => obeys_ok _ _ _

theorem obeys_whileStatement (hexpr : ObeysExprs settings n expr)
    (hblock : ObeysBlocks settings n block) (hword : s.current.kind = .whileWord) :
    Obeys settings (whileStatement expr block s) s.next.tokens (Demand.guarded n) [] := by
  unfold whileStatement
  rw [ParseM.bind_of_ok (expect_of_kind hword)]
  refine ((obeys_condition hexpr _).append (Demand.block n)).bind fun e s₁ _ => ?_
  rw [List.nil_append, ← List.append_nil (Demand.block n)]
  exact hblock.bind fun body s₂ => obeys_ok _ _ _

theorem obeys_returnStatement (hexpr : ObeysExprs settings n expr)
    (hword : s.current.kind = .returnWord) :
    Obeys settings (returnStatement expr s) s.next.tokens [.returned n] [] := by
  unfold returnStatement
  rw [ParseM.bind_of_ok (expect_of_kind hword), kind_bind]
  split
  · next hsemicolon => exact obeys_of_take [] (if_pos hsemicolon) (obeys_ok _ _ _)
  · next hsemicolon =>
    obtain ⟨r, hr⟩ := Demand.exists_exprFallback_eq settings n
    refine Obeys.of_like (.expr n .lowest) _ (if_neg hsemicolon) hr hr ?_
    exact (hexpr .lowest _).bind_cons fun value s₁ _ => obeys_expect_bind _ (obeys_ok _ _ _)

/-- A statement, behind its first token. -/
theorem obeys_statementOf (hexpr : ObeysExprs settings n expr) (hreads : ReadsExprs n expr)
    (hblock : ObeysBlocks settings n block) {form : StatementForm}
    (hform : Rules.statementForm? s.current.kind = some form) :
    Obeys settings (statementOf expr block form s) s.next.tokens
      (Demand.statementRest n form) [] := by
  cases form with
  | declaration =>
    have htype := Rules.statementForm?_eq_declaration_iff.1 hform
    refine Obeys.map ?_ Statement.declare
    exact (obeys_declaration hexpr s).behind [] (if_pos htype)
  | name => exact obeys_nameStatement hexpr hreads (Rules.statementForm?_eq_name_iff.1 hform)
  | step =>
    have hstep := Rules.statementForm?_eq_step_iff.1 hform
    exact obeys_updateStatement (obeys_stepUpdate_before hstep)
  | ifElse => exact obeys_ifStatement hexpr hblock (Rules.statementForm?_eq_ifElse_iff.1 hform)
  | forLoop => exact obeys_forStatement hexpr hblock (Rules.statementForm?_eq_forLoop_iff.1 hform)
  | whileLoop =>
    exact obeys_whileStatement hexpr hblock (Rules.statementForm?_eq_whileLoop_iff.1 hform)
  | ret => exact obeys_returnStatement hexpr (Rules.statementForm?_eq_ret_iff.1 hform)

theorem obeys_statementWith (hexpr : ObeysExprs settings n expr) (hreads : ReadsExprs n expr)
    (hblock : ObeysBlocks settings n block) (s : State) :
    Obeys settings (statementWith (.standard settings) expr block s) s.tokens
      [.statement n] [] := by
  have happly := statementWith_apply (.standard settings) expr block s
  rw [Rules.statement_standard] at happly
  rw [happly]
  cases hform : Rules.statementForm? s.current.kind with
  | none =>
    refine obeys_of_refuse (s := announced s)
      (r := .kind (Rules.standard settings).statementStarts) ?_ rfl
    rw [Demand.take?, show (announced s).current = s.current from rfl, hform]
    rfl
  | some form =>
    refine obeys_of_take (s := announced s) (Demand.statementRest n form) ?_ ?_
    · rw [Demand.take?, show (announced s).current = s.current from rfl, hform]
      rfl
    · rw [List.append_nil]
      exact obeys_statementOf (s := announced s) hexpr hreads hblock hform

/-! ### Blocks -/

/-- A further statement of a block leaves the demand for the rest of the block. -/
theorem obeys_blockItem {statement : ParseM Statement}
    (hstatement : ∀ s, Obeys settings (statement s) s.tokens [.statement n] []) (s : State) :
    Obeys settings (blockItem statement s) s.tokens [.body (n + 1)] [.body (n + 1)] := by
  rw [blockItem_apply]
  split
  · exact obeys_ok _ _ _
  · next hclose =>
    split
    · next heof =>
      refine obeys_of_refuse (r := .unclosed) ?_ ?_
      · rw [heof]
        rfl
      · rw [heof]
        rfl
    · next heof =>
      refine Obeys.of_like (.statement n) [.body (n + 1)]
        (r := .kind (Rules.standard settings).statementStarts) ?_ (if_neg heof) rfl ?_
      · simp only [Demand.take?, if_neg hclose, Option.map_map]
        rfl
      · exact ((hstatement s).append [.body (n + 1)]).map some

/-- Behind the statements of a block is its closing brace. -/
theorem kind_of_blockItem_eq_none {statement : ParseM Statement} {s s' : State}
    (h : blockItem statement s = .ok none s') : s'.current.kind = .closeCurly := by
  rw [blockItem_apply] at h
  split at h
  · next hclose =>
    cases h
    exact hclose
  · split at h
    · cases h
    · obtain ⟨st, s₁, -, h⟩ := ParseM.bind_eq_ok_iff.1 h
      cases h

/-- **A block works off the demands for it**, with the levels that are free. -/
theorem obeysBlocks_blockAt (settings : Settings) (n : Nat) :
    ObeysBlocks settings n (blockAt (.standard settings) n) := by
  induction n with
  | zero =>
    intro s
    refine obeys_expect_bind _ ?_
    exact obeys_of_refuse (r := .tooDeep settings.maxDepth) rfl rfl
  | succ n ih =>
    intro s
    have hexpr := obeysExprs_exprAt settings n
    have hreads := readsExprs_exprAt settings n
    rw [blockAt]
    refine obeys_expect_bind _ ?_
    rw [deeper_bind]
    have hprogress (s : State) (st : Statement) (s' : State)
        (h : blockItem (statementAt (.standard settings) n) s = .ok (some st) s') :
        s'.stream.left < s.stream.left := by
      have htook := took_of_blockItem (fun _ _ _ hst => took_of_statementAt hst) h
      exact State.left_lt_of_signs st.signs_ne_nil htook.signs_eq
    refine (obeys_many hprogress
      (obeys_blockItem (obeys_statementWith hexpr hreads ih)) s.next.deeper).bind
      fun body s₁ hbody => ?_
    obtain ⟨s₀, hnone⟩ := declines_of_many hprogress hbody
    have hclose := kind_of_blockItem_eq_none hnone
    rw [ParseM.bind_of_ok (expect_of_kind hclose)]
    exact obeys_of_take [] (if_pos hclose) (obeys_ok _ _ _)

theorem obeys_statementAt (settings : Settings) (n : Nat) (s : State) :
    Obeys settings (statementAt (.standard settings) n s) s.tokens [.statement n] [] :=
  obeys_statementWith (obeysExprs_exprAt settings n) (readsExprs_exprAt settings n)
    (obeysBlocks_blockAt settings n) s

end Parse

end ImpFront
