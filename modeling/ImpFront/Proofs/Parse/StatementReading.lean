import ImpFront.Proofs.Parse.ExprReading
/-!
# ImpFront.Proofs.Parse.StatementReading

**What a successful reading of a statement, a block, a function or a program has
read**: its signs and no others, by a tree whose expressions the powers allow, with
no more levels than were free (`Took`).

For a program there is one thing more. Its globals end where no global comes next,
so the part behind them is no declaration (`Program.wellFormed`).
-/

namespace ImpFront

namespace Rules

/-- Only a name begins the statements that begin with a name. -/
theorem statementForm?_eq_name_iff {k : Kind} :
    statementForm? k = some .name ↔ k = .identifier := by
  cases k <;> decide

/-- Only step operators begin the statements that begin with one. -/
theorem statementForm?_eq_step_iff {k : Kind} :
    statementForm? k = some .step ↔ k.isStep = true := by
  cases k <;> decide

end Rules

namespace Parse

/-- Something was read between two states with `n` levels free: these signs, well formed, and with
no need for more levels. -/
structure Took (n : Nat) (s s' : State) (signs : List Sign) (wellFormed : Bool) (need : Nat) :
    Prop where
  signs_eq : s.signs = signs ++ s'.signs
  wellFormed : wellFormed = true
  need_le : need ≤ n

/-- A reader of which every success is a reading of a block with `n` levels free. -/
def ReadsBlocks (n : Nat) (block : ParseM Block) : Prop :=
  ∀ s b s', block s = .ok b s' → Took n s s' b.signs b.wellFormed b.need

variable {n : Nat} {expr : ExprReader} {block : ParseM Block} {s s' : State}

/-! ### Types and parameters -/

theorem signs_of_typeName {t : Ty} (h : typeName s = .ok t s') :
    s.signs = .fixed t.kind :: s'.signs := by
  rw [typeName_apply] at h
  split at h
  · next t' ht =>
    cases h
    exact signs_of_kind (Ty.ofKind?_eq_some_iff.1 ht) t.spelling?_kind
  · cases h

theorem signs_of_parameter {p : Parameter} (h : parameter s = .ok p s') :
    s.signs = p.signs ++ s'.signs := by
  unfold parameter at h
  rw [position_bind] at h
  obtain ⟨type, s₁, htype, h⟩ := ParseM.bind_eq_ok_iff.1 h
  obtain ⟨name, s₂, hname, h⟩ := ParseM.bind_eq_ok_iff.1 h
  obtain ⟨rfl, rfl⟩ := ParseM.pure_eq_ok_iff.1 h
  rw [signs_of_typeName htype, signs_of_expect_name hname]
  rfl

theorem signs_of_furtherParameter {r : Option Parameter} (h : furtherParameter s = .ok r s') :
    match r with
    | some p => s.signs = .fixed .comma :: p.signs ++ s'.signs
    | none => s' = s := by
  unfold furtherParameter at h
  rw [kind_bind] at h
  split at h
  · next hcomma =>
    rw [advance_bind] at h
    obtain ⟨p, s₁, hp, h⟩ := ParseM.bind_eq_ok_iff.1 h
    obtain ⟨rfl, rfl⟩ := ParseM.pure_eq_ok_iff.1 h
    rw [signs_of_kind hcomma rfl, signs_of_parameter hp]
    rfl
  · obtain ⟨rfl, rfl⟩ := ParseM.pure_eq_ok_iff.1 h
    rfl

theorem signs_of_parameterList {ps : List Parameter} (h : parameterList s = .ok ps s') :
    s.signs = .fixed .openParen
      :: Sign.separate (.fixed .comma) (ps.map Parameter.signs)
      ++ .fixed .closeParen :: s'.signs := by
  unfold parameterList at h
  obtain ⟨opening, s₁, hopening, h⟩ := ParseM.bind_eq_ok_iff.1 h
  rw [kind_bind] at h
  rw [signs_of_expect hopening rfl]
  split at h
  · next hclose =>
    rw [advance_bind] at h
    obtain ⟨rfl, rfl⟩ := ParseM.pure_eq_ok_iff.1 h
    rw [signs_of_kind hclose rfl]
    rfl
  · obtain ⟨first, s₂, hfirst, h⟩ := ParseM.bind_eq_ok_iff.1 h
    obtain ⟨others, s₃, hothers, h⟩ := ParseM.bind_eq_ok_iff.1 h
    obtain ⟨close, s₄, hclose, h⟩ := ParseM.bind_eq_ok_iff.1 h
    obtain ⟨rfl, rfl⟩ := ParseM.pure_eq_ok_iff.1 h
    obtain ⟨hsigns, -, -⟩ := signs_of_many
      (fun p => .fixed .comma :: p.signs) (P := fun _ => True) (E := fun _ => True)
      (fun s p s' hp => ⟨signs_of_furtherParameter hp, by simp, trivial⟩)
      (fun s s' hnone => by
        rw [signs_of_furtherParameter hnone]
        exact ⟨rfl, trivial⟩)
      hothers
    rw [signs_of_parameter hfirst, hsigns, signs_of_closeList hclose, List.map_cons,
      Sign.separate_cons, List.flatMap_map]
    simp

/-! ### Declarations and updates -/

theorem took_of_declaration (hexpr : ReadsExprs n expr) {d : Declaration}
    (h : declaration expr s = .ok d s') : Took n s s' d.signs d.wellFormed d.need := by
  unfold declaration at h
  rw [position_bind] at h
  obtain ⟨type, s₁, htype, h⟩ := ParseM.bind_eq_ok_iff.1 h
  obtain ⟨name, s₂, hname, h⟩ := ParseM.bind_eq_ok_iff.1 h
  rw [kind_bind] at h
  split at h
  · next hassign =>
    rw [advance_bind] at h
    obtain ⟨value, s₃, hvalue, h⟩ := ParseM.bind_eq_ok_iff.1 h
    obtain ⟨close, s₄, hclose, h⟩ := ParseM.bind_eq_ok_iff.1 h
    obtain ⟨rfl, rfl⟩ := ParseM.pure_eq_ok_iff.1 h
    have hread := hexpr _ _ _ _ hvalue
    refine ⟨?_, hread.fits, hread.need_le⟩
    rw [signs_of_typeName htype, signs_of_expect_name hname, signs_of_kind hassign rfl,
      hread.signs_eq, signs_of_expect hclose rfl]
    simp [Declaration.signs]
  · next hassign =>
    obtain ⟨close, s₃, hclose, h⟩ := ParseM.bind_eq_ok_iff.1 h
    obtain ⟨rfl, rfl⟩ := ParseM.pure_eq_ok_iff.1 h
    obtain ⟨hmem, -, -⟩ := expectOneOf_eq_ok_iff.1 hclose
    have hsemicolon : s₂.current.kind = .semicolon := by simpa [hassign] using hmem
    obtain ⟨-, hnext, rfl⟩ := expectOneOf_eq_ok_iff.1 hclose
    refine ⟨?_, rfl, Nat.zero_le n⟩
    rw [signs_of_typeName htype, signs_of_expect_name hname, signs_of_kind hsemicolon rfl]
    rfl

theorem took_of_assignUpdate (hexpr : ReadsExprs n expr) {u : Update}
    (h : assignUpdate expr s = .ok u s') : Took n s s' u.signs u.wellFormed u.need := by
  rw [assignUpdate_apply] at h
  obtain ⟨name, s₁, hname, h⟩ := ParseM.bind_eq_ok_iff.1 h
  split at h
  · cases h
  · next op hop =>
    obtain ⟨value, s₂, hvalue, h⟩ := ParseM.bind_eq_ok_iff.1 h
    obtain ⟨rfl, rfl⟩ := ParseM.pure_eq_ok_iff.1 h
    have hread := hexpr _ _ _ _ hvalue
    refine ⟨?_, hread.fits, hread.need_le⟩
    rw [signs_of_expect_name hname,
      signs_of_kind (AssignOp.ofKind?_eq_some_iff.1 hop) op.spelling?_kind, hread.signs_eq]
    rfl

/-- A step is read from its operator or from the variable; any other first token is excluded where
steps are read. -/
theorem took_of_stepUpdate {u : Update}
    (hkind : s.current.kind.isStep = true ∨ s.current.kind = .identifier)
    (h : stepUpdate s = .ok u s') : Took n s s' u.signs u.wellFormed u.need := by
  rw [stepUpdate_apply] at h
  split at h
  · next op hop =>
    obtain ⟨name, s₁, hname, h⟩ := ParseM.bind_eq_ok_iff.1 h
    obtain ⟨rfl, rfl⟩ := ParseM.pure_eq_ok_iff.1 h
    refine ⟨?_, rfl, Nat.zero_le n⟩
    rw [signs_of_kind (StepOp.ofKind?_eq_some_iff.1 hop) op.spelling?_kind,
      signs_of_expect_name hname]
    rfl
  · next hnone =>
    have hname : s.current.kind = .identifier := by simpa [Kind.isStep, hnone] using hkind
    obtain ⟨t, s₁, ht, h⟩ := ParseM.bind_eq_ok_iff.1 h
    split at h
    · next op hop =>
      cases h
      obtain ⟨-, hsigns⟩ := signs_of_expectOneOf ht (by decide)
      refine ⟨?_, rfl, Nat.zero_le n⟩
      rw [State.signs_eq_cons (by rw [hname]; decide), hsigns,
        Token.sign_of_unspelled hname rfl,
        Token.sign_of_spelled (StepOp.ofKind?_eq_some_iff.1 hop) op.spelling?_kind]
      rfl
    · cases h

theorem signs_upTo (stop : Position) (u : Update) : (u.upTo stop).signs = u.signs := by
  cases u with
  | assign name op value span => rfl
  | step name op side span => cases side <;> rfl

theorem took_of_updateStatement {update : ParseM Update} {st : Statement}
    (hupdate : ∀ {u s₁}, update s = .ok u s₁ → Took n s s₁ u.signs u.wellFormed u.need)
    (h : updateStatement update s = .ok st s') : Took n s s' st.signs st.wellFormed st.need := by
  unfold updateStatement at h
  obtain ⟨u, s₁, hu, h⟩ := ParseM.bind_eq_ok_iff.1 h
  obtain ⟨close, s₂, hclose, h⟩ := ParseM.bind_eq_ok_iff.1 h
  obtain ⟨rfl, rfl⟩ := ParseM.pure_eq_ok_iff.1 h
  have htook := hupdate hu
  refine ⟨?_, ?_, ?_⟩
  · rw [htook.signs_eq, signs_of_expect hclose rfl, Statement.signs, signs_upTo]
    simp
  · cases u <;> exact htook.wellFormed
  · cases u <;> exact htook.need_le

theorem took_of_callStatement (hexpr : ReadsExprs n expr) {st : Statement}
    (h : callStatement expr s = .ok st s') : Took n s s' st.signs st.wellFormed st.need := by
  unfold callStatement at h
  obtain ⟨c, s₁, hc, h⟩ := ParseM.bind_eq_ok_iff.1 h
  obtain ⟨close, s₂, hclose, h⟩ := ParseM.bind_eq_ok_iff.1 h
  obtain ⟨rfl, rfl⟩ := ParseM.pure_eq_ok_iff.1 h
  obtain ⟨hsigns, hfits, hneed⟩ := signs_of_call hexpr hc
  refine ⟨?_, hfits, hneed⟩
  rw [hsigns, signs_of_expect hclose rfl]
  simp [Statement.signs]

theorem took_of_nameStatement (hexpr : ReadsExprs n expr) {st : Statement}
    (hkind : s.current.kind = .identifier) (h : nameStatement expr s = .ok st s') :
    Took n s s' st.signs st.wellFormed st.need := by
  unfold nameStatement at h
  rw [peekKind_bind] at h
  split at h
  · exact took_of_updateStatement (fun hu => took_of_assignUpdate hexpr hu) h
  · split at h
    · exact took_of_updateStatement (fun hu => took_of_stepUpdate (.inr hkind) hu) h
    · split at h
      · exact took_of_callStatement hexpr h
      · cases h

/-! ### Compound statements -/

theorem signs_of_condition (hexpr : ReadsExprs n expr) {e : Expr}
    (h : condition expr s = .ok e s') :
    s.signs = .fixed .openParen :: e.signs ++ .fixed .closeParen :: s'.signs
      ∧ e.wellFormed = true ∧ e.need ≤ n := by
  unfold condition at h
  obtain ⟨opening, s₁, hopening, h⟩ := ParseM.bind_eq_ok_iff.1 h
  obtain ⟨e', s₂, he, h⟩ := ParseM.bind_eq_ok_iff.1 h
  obtain ⟨close, s₃, hclose, h⟩ := ParseM.bind_eq_ok_iff.1 h
  obtain ⟨rfl, rfl⟩ := ParseM.pure_eq_ok_iff.1 h
  have hread := hexpr _ _ _ _ he
  refine ⟨?_, hread.fits, hread.need_le⟩
  rw [signs_of_expect hopening rfl, hread.signs_eq, signs_of_expect hclose rfl]
  rfl

theorem took_of_ifStatement (hexpr : ReadsExprs n expr) (hblock : ReadsBlocks n block)
    {st : Statement} (h : ifStatement expr block s = .ok st s') :
    Took n s s' st.signs st.wellFormed st.need := by
  unfold ifStatement at h
  obtain ⟨word, s₁, hword, h⟩ := ParseM.bind_eq_ok_iff.1 h
  obtain ⟨e, s₂, he, h⟩ := ParseM.bind_eq_ok_iff.1 h
  obtain ⟨body, s₃, hbody, h⟩ := ParseM.bind_eq_ok_iff.1 h
  obtain ⟨hsigns, hfits, hneed⟩ := signs_of_condition hexpr he
  have hbody := hblock _ _ _ hbody
  rw [kind_bind] at h
  split at h
  · next helse =>
    rw [advance_bind] at h
    obtain ⟨otherwise, s₄, hotherwise, h⟩ := ParseM.bind_eq_ok_iff.1 h
    obtain ⟨rfl, rfl⟩ := ParseM.pure_eq_ok_iff.1 h
    have hotherwise := hblock _ _ _ hotherwise
    refine ⟨?_, ?_, ?_⟩
    · rw [signs_of_expect hword rfl, hsigns, hbody.signs_eq, signs_of_kind helse rfl,
        hotherwise.signs_eq]
      simp [Statement.signs]
    · simp [Statement.wellFormed, hfits, hbody.wellFormed, hotherwise.wellFormed]
    · exact Nat.max_le.2 ⟨hneed, Nat.max_le.2 ⟨hbody.need_le, hotherwise.need_le⟩⟩
  · obtain ⟨rfl, rfl⟩ := ParseM.pure_eq_ok_iff.1 h
    refine ⟨?_, ?_, ?_⟩
    · rw [signs_of_expect hword rfl, hsigns, hbody.signs_eq]
      simp [Statement.signs]
    · simp [Statement.wellFormed, hfits, hbody.wellFormed]
    · exact Nat.max_le.2 ⟨hneed, hbody.need_le⟩

theorem took_of_loopStep (hexpr : ReadsExprs n expr) {u : Update}
    (h : loopStep expr s = .ok u s') : Took n s s' u.signs u.wellFormed u.need := by
  rw [loopStep_apply] at h
  split at h
  · next hstep => exact took_of_stepUpdate (.inl hstep) h
  · split at h
    · next hname =>
      split at h
      · exact took_of_assignUpdate hexpr h
      · split at h
        · exact took_of_stepUpdate (.inr hname) h
        · cases h
    · cases h

theorem took_of_forStatement (hexpr : ReadsExprs n expr) (hblock : ReadsBlocks n block)
    {st : Statement} (h : forStatement expr block s = .ok st s') :
    Took n s s' st.signs st.wellFormed st.need := by
  unfold forStatement at h
  obtain ⟨word, s₁, hword, h⟩ := ParseM.bind_eq_ok_iff.1 h
  obtain ⟨opening, s₂, hopening, h⟩ := ParseM.bind_eq_ok_iff.1 h
  obtain ⟨init, s₃, hinit, h⟩ := ParseM.bind_eq_ok_iff.1 h
  obtain ⟨e, s₄, he, h⟩ := ParseM.bind_eq_ok_iff.1 h
  obtain ⟨semicolon, s₅, hsemicolon, h⟩ := ParseM.bind_eq_ok_iff.1 h
  obtain ⟨step, s₆, hstep, h⟩ := ParseM.bind_eq_ok_iff.1 h
  obtain ⟨close, s₇, hclose, h⟩ := ParseM.bind_eq_ok_iff.1 h
  obtain ⟨body, s₈, hbody, h⟩ := ParseM.bind_eq_ok_iff.1 h
  obtain ⟨rfl, rfl⟩ := ParseM.pure_eq_ok_iff.1 h
  have hinit := took_of_declaration hexpr hinit
  have he := hexpr _ _ _ _ he
  have hstep := took_of_loopStep hexpr hstep
  have hbody := hblock _ _ _ hbody
  refine ⟨?_, ?_, ?_⟩
  · rw [signs_of_expect hword rfl, signs_of_expect hopening rfl, hinit.signs_eq, he.signs_eq,
      signs_of_expect hsemicolon rfl, hstep.signs_eq, signs_of_expect hclose rfl, hbody.signs_eq]
    simp [Statement.signs]
  · simp [Statement.wellFormed, hinit.wellFormed, hstep.wellFormed, hbody.wellFormed,
      Expr.wellFormed, he.fits]
  · exact Nat.max_le.2 ⟨hinit.need_le, Nat.max_le.2 ⟨he.need_le,
      Nat.max_le.2 ⟨hstep.need_le, hbody.need_le⟩⟩⟩

theorem took_of_whileStatement (hexpr : ReadsExprs n expr) (hblock : ReadsBlocks n block)
    {st : Statement} (h : whileStatement expr block s = .ok st s') :
    Took n s s' st.signs st.wellFormed st.need := by
  unfold whileStatement at h
  obtain ⟨word, s₁, hword, h⟩ := ParseM.bind_eq_ok_iff.1 h
  obtain ⟨e, s₂, he, h⟩ := ParseM.bind_eq_ok_iff.1 h
  obtain ⟨body, s₃, hbody, h⟩ := ParseM.bind_eq_ok_iff.1 h
  obtain ⟨rfl, rfl⟩ := ParseM.pure_eq_ok_iff.1 h
  obtain ⟨hsigns, hfits, hneed⟩ := signs_of_condition hexpr he
  have hbody := hblock _ _ _ hbody
  refine ⟨?_, ?_, ?_⟩
  · rw [signs_of_expect hword rfl, hsigns, hbody.signs_eq]
    simp [Statement.signs]
  · simp [Statement.wellFormed, hfits, hbody.wellFormed]
  · exact Nat.max_le.2 ⟨hneed, hbody.need_le⟩

theorem took_of_returnStatement (hexpr : ReadsExprs n expr) {st : Statement}
    (h : returnStatement expr s = .ok st s') : Took n s s' st.signs st.wellFormed st.need := by
  unfold returnStatement at h
  obtain ⟨word, s₁, hword, h⟩ := ParseM.bind_eq_ok_iff.1 h
  rw [kind_bind] at h
  split at h
  · next hsemicolon =>
    rw [advance_bind] at h
    obtain ⟨rfl, rfl⟩ := ParseM.pure_eq_ok_iff.1 h
    refine ⟨?_, rfl, Nat.zero_le n⟩
    rw [signs_of_expect hword rfl, signs_of_kind hsemicolon rfl]
    rfl
  · obtain ⟨value, s₂, hvalue, h⟩ := ParseM.bind_eq_ok_iff.1 h
    obtain ⟨close, s₃, hclose, h⟩ := ParseM.bind_eq_ok_iff.1 h
    obtain ⟨rfl, rfl⟩ := ParseM.pure_eq_ok_iff.1 h
    have hread := hexpr _ _ _ _ hvalue
    refine ⟨?_, hread.fits, hread.need_le⟩
    rw [signs_of_expect hword rfl, hread.signs_eq, signs_of_expect hclose rfl]
    simp [Statement.signs]

/-- A statement is read by the production for its first token. -/
theorem took_of_statementWith {settings : Settings} (hexpr : ReadsExprs n expr)
    (hblock : ReadsBlocks n block) {st : Statement}
    (h : statementWith (.standard settings) expr block s = .ok st s') :
    Took n s s' st.signs st.wellFormed st.need := by
  rw [statementWith_apply] at h
  split at h
  · next form hform =>
    -- The remark that announces a statement changes no token.
    suffices htook : Took n (announced s) s' st.signs st.wellFormed st.need from
      ⟨htook.signs_eq, htook.wellFormed, htook.need_le⟩
    cases form with
    | declaration =>
      obtain ⟨d, s₁, hd, h⟩ := ParseM.bind_eq_ok_iff.1 h
      obtain ⟨rfl, rfl⟩ := ParseM.pure_eq_ok_iff.1 h
      exact took_of_declaration hexpr hd
    | name => exact took_of_nameStatement hexpr (Rules.statementForm?_eq_name_iff.1 hform) h
    | step =>
      have hstep := Rules.statementForm?_eq_step_iff.1 hform
      exact took_of_updateStatement (fun hu => took_of_stepUpdate (.inl hstep) hu) h
    | ifElse => exact took_of_ifStatement hexpr hblock h
    | forLoop => exact took_of_forStatement hexpr hblock h
    | whileLoop => exact took_of_whileStatement hexpr hblock h
    | ret => exact took_of_returnStatement hexpr h
  · cases h

/-! ### Blocks -/

/-- A further statement of a block is read unless the block ends. -/
theorem took_of_blockItem {statement : ParseM Statement}
    (hstatement : ∀ s st s', statement s = .ok st s' →
      Took n s s' st.signs st.wellFormed st.need)
    {r : Option Statement} (h : blockItem statement s = .ok r s') :
    match r with
    | some st => Took n s s' st.signs st.wellFormed st.need
    | none => s' = s := by
  rw [blockItem_apply] at h
  split at h
  · cases h
    rfl
  · split at h
    · cases h
    · obtain ⟨st, s₁, hst, h⟩ := ParseM.bind_eq_ok_iff.1 h
      obtain ⟨rfl, rfl⟩ := ParseM.pure_eq_ok_iff.1 h
      exact hstatement _ _ _ hst

/-- A block is read with the levels that are free; the statements in it have one less. -/
theorem readsBlocks_blockAt (settings : Settings) (n : Nat) :
    ReadsBlocks n (blockAt (.standard settings) n) := by
  induction n with
  | zero =>
    intro s b s' h
    obtain ⟨opening, s₁, -, h⟩ := ParseM.bind_eq_ok_iff.1 h
    cases h
  | succ n ih =>
    intro s b s' h
    rw [blockAt] at h
    obtain ⟨opening, s₁, hopening, h⟩ := ParseM.bind_eq_ok_iff.1 h
    rw [deeper_bind] at h
    obtain ⟨body, s₂, hbody, h⟩ := ParseM.bind_eq_ok_iff.1 h
    obtain ⟨close, s₃, hclose, h⟩ := ParseM.bind_eq_ok_iff.1 h
    rw [shallower_bind] at h
    obtain ⟨rfl, rfl⟩ := ParseM.pure_eq_ok_iff.1 h
    -- The levels of the block are those of its statements and one for itself.
    have hstatement : ∀ s st s', statementAt (.standard settings) n s = .ok st s' →
        Took n s s' st.signs st.wellFormed st.need :=
      fun s st s' hst => took_of_statementWith (readsExprs_exprAt settings n) ih hst
    obtain ⟨hsigns, hall, -⟩ := signs_of_many
      Statement.signs (P := fun st => st.wellFormed ∧ st.need ≤ n)
      (E := fun _ => True)
      (fun s st s' hst => by
        have htook := took_of_blockItem hstatement hst
        exact ⟨htook.signs_eq, st.signs_ne_nil, htook.wellFormed, htook.need_le⟩)
      (fun s s' hnone => by
        rw [took_of_blockItem hstatement hnone]
        exact ⟨rfl, trivial⟩)
      hbody
    rw [State.signs_deeper] at hsigns
    refine ⟨?_, ?_, ?_⟩
    · rw [signs_of_expect hopening rfl, hsigns, signs_of_expect hclose rfl, Block.signs,
        Statement.signsList_eq_flatMap]
      simp
    · exact Statement.wellFormedList_iff.2 fun st hst => (hall st hst).1
    · have hneed := Statement.needList_le_iff.2 fun st hst => (hall st hst).2
      rw [Block.need]
      omega

theorem took_of_statementAt {settings : Settings} {st : Statement}
    (h : statementAt (.standard settings) n s = .ok st s') :
    Took n s s' st.signs st.wellFormed st.need :=
  took_of_statementWith (readsExprs_exprAt settings n) (readsBlocks_blockAt settings n) h

theorem took_of_functionWith (hblock : ReadsBlocks n block) {f : Function}
    (h : functionWith block s = .ok f s') :
    Took n s s' f.signs f.body.wellFormed f.body.need := by
  unfold functionWith at h
  rw [position_bind] at h
  obtain ⟨returns, s₁, hreturns, h⟩ := ParseM.bind_eq_ok_iff.1 h
  obtain ⟨name, s₂, hname, h⟩ := ParseM.bind_eq_ok_iff.1 h
  obtain ⟨parameters, s₃, hparameters, h⟩ := ParseM.bind_eq_ok_iff.1 h
  obtain ⟨body, s₄, hbody, h⟩ := ParseM.bind_eq_ok_iff.1 h
  obtain ⟨rfl, rfl⟩ := ParseM.pure_eq_ok_iff.1 h
  have hbody := hblock _ _ _ hbody
  refine ⟨?_, hbody.wellFormed, hbody.need_le⟩
  rw [signs_of_typeName hreturns, signs_of_expect_name hname, signs_of_parameterList hparameters,
    hbody.signs_eq]
  simp [Function.signs]

end Parse

end ImpFront
