import ImpFront.Proofs.Parse.ExprSpans
import ImpFront.Proofs.Parse.StatementReading
/-!
# ImpFront.Proofs.Parse.StatementSpans

**The spans of statements, blocks and functions go around their tokens.** The productions differ in
what they take for the start: a token they have taken, the place they began at, or the start of
their first part. Each of these is the start of the first token.

An update gets its span twice. The production for the update ends it with the update; where a
statement is read, the semicolon moves the end (`Update.upTo`).
-/

namespace ImpFront

namespace Parse

/-- A reader of which every success is a block with the span around its tokens. -/
def PlacesBlocks (block : ParseM Block) : Prop :=
  ∀ s b s', block s = .ok b s' → Placed s.stream b.span b.pieces s'.stream

variable {expr : ExprReader} {block : ParseM Block} {s s' : State}

theorem PlacesBlocks.part (hblock : PlacesBlocks block) {b : Block} (h : block s = .ok b s') :
    Placed s.stream b.span [.part (.block b)] s'.stream :=
  Placed.part (n := .block b) (hblock _ _ _ h)

/-! ### Types and parameters -/

theorem placed_of_typeName {t : Ty} (h : typeName s = .ok t s') :
    Placed s.stream s.current.span [.fixed t.kind] s'.stream := by
  rw [typeName_apply] at h
  split at h
  · next t' ht =>
    cases h
    exact placed_of_kind (Ty.ofKind?_eq_some_iff.1 ht) t.spelling?_kind
  · cases h

theorem placed_of_parameter {p : Parameter} (h : parameter s = .ok p s') :
    Placed s.stream p.span p.pieces s'.stream := by
  unfold parameter at h
  rw [position_bind] at h
  obtain ⟨type, s₁, htype, h⟩ := ParseM.bind_eq_ok_iff.1 h
  obtain ⟨name, s₂, hname, h⟩ := ParseM.bind_eq_ok_iff.1 h
  obtain ⟨rfl, rfl⟩ := ParseM.pure_eq_ok_iff.1 h
  exact (placed_of_typeName htype).trans (placed_of_expect_name hname)

theorem placed_of_furtherParameter {r : Option Parameter} (h : furtherParameter s = .ok r s') :
    match r with
    | some p => ∃ x, Placed s.stream x [.fixed .comma, .part (.parameter p)] s'.stream
    | none => s' = s := by
  unfold furtherParameter at h
  rw [kind_bind] at h
  split at h
  · next hcomma =>
    rw [advance_bind] at h
    obtain ⟨p, s₁, hp, h⟩ := ParseM.bind_eq_ok_iff.1 h
    obtain ⟨rfl, rfl⟩ := ParseM.pure_eq_ok_iff.1 h
    have hpart := Placed.part (n := .parameter p) (placed_of_parameter hp)
    exact ⟨_, (placed_of_kind hcomma rfl).trans hpart⟩
  · obtain ⟨rfl, rfl⟩ := ParseM.pure_eq_ok_iff.1 h
    rfl

/-- A list of parameters with its parentheses. -/
theorem filled_of_parameterList {ps : List Parameter} (h : parameterList s = .ok ps s') :
    Filled s.stream
      (.fixed .openParen :: (Piece.separate (ps.map .parameter) ++ [.fixed .closeParen]))
      s'.stream := by
  unfold parameterList at h
  obtain ⟨opening, s₁, hopening, h⟩ := ParseM.bind_eq_ok_iff.1 h
  have hopening := (placed_of_expect hopening rfl).filled
  rw [kind_bind] at h
  split at h
  · next hclose =>
    rw [advance_bind] at h
    obtain ⟨rfl, rfl⟩ := ParseM.pure_eq_ok_iff.1 h
    exact hopening.append (placed_of_kind hclose rfl).filled
  · obtain ⟨first, s₂, hfirst, h⟩ := ParseM.bind_eq_ok_iff.1 h
    obtain ⟨others, s₃, hothers, h⟩ := ParseM.bind_eq_ok_iff.1 h
    obtain ⟨close, s₄, hclose, h⟩ := ParseM.bind_eq_ok_iff.1 h
    obtain ⟨rfl, rfl⟩ := ParseM.pure_eq_ok_iff.1 h
    have hfirst := (Placed.part (n := .parameter first) (placed_of_parameter hfirst)).filled
    have hothers := filled_of_many (fun p => [.fixed .comma, .part (.parameter p)])
      (fun s p s' hp => placed_of_furtherParameter hp)
      (fun s s' hnone => by rw [placed_of_furtherParameter hnone]) hothers
    have hlist :
        Filled s₁.stream (Piece.separate ((first :: others).map .parameter)) s₃.stream := by
      rw [List.map_cons, Piece.separate, List.flatMap_map]
      exact hfirst.append hothers
    exact hopening.append (hlist.append (placed_of_closeList hclose).filled)

/-! ### Declarations and updates -/

theorem placed_of_declaration (hexpr : PlacesExprs expr) {d : Declaration}
    (h : declaration expr s = .ok d s') : Placed s.stream d.span d.pieces s'.stream := by
  unfold declaration at h
  rw [position_bind] at h
  obtain ⟨type, s₁, htype, h⟩ := ParseM.bind_eq_ok_iff.1 h
  obtain ⟨name, s₂, hname, h⟩ := ParseM.bind_eq_ok_iff.1 h
  have hhead := (placed_of_typeName htype).trans (placed_of_expect_name hname)
  rw [kind_bind] at h
  split at h
  · next hassign =>
    rw [advance_bind] at h
    obtain ⟨value, s₃, hvalue, h⟩ := ParseM.bind_eq_ok_iff.1 h
    obtain ⟨close, s₄, hclose, h⟩ := ParseM.bind_eq_ok_iff.1 h
    obtain ⟨rfl, rfl⟩ := ParseM.pure_eq_ok_iff.1 h
    have hvalue := (placed_of_kind hassign rfl).trans (hexpr.part hvalue)
    have hplaced := hhead.trans (hvalue.trans (placed_of_expect hclose rfl))
    exact hplaced
  · next hassign =>
    obtain ⟨close, s₃, hclose, h⟩ := ParseM.bind_eq_ok_iff.1 h
    obtain ⟨rfl, rfl⟩ := ParseM.pure_eq_ok_iff.1 h
    obtain ⟨hmem, rfl, rfl⟩ := expectOneOf_eq_ok_iff.1 hclose
    have hsemicolon : s₂.current.kind = .semicolon := by simpa [hassign] using hmem
    exact hhead.trans (placed_of_kind hsemicolon rfl)

theorem placed_of_assignUpdate (hexpr : PlacesExprs expr) {u : Update}
    (h : assignUpdate expr s = .ok u s') : Placed s.stream u.span u.pieces s'.stream := by
  rw [assignUpdate_apply] at h
  obtain ⟨name, s₁, hname, h⟩ := ParseM.bind_eq_ok_iff.1 h
  split at h
  · cases h
  · next op hop =>
    obtain ⟨value, s₂, hvalue, h⟩ := ParseM.bind_eq_ok_iff.1 h
    obtain ⟨rfl, rfl⟩ := ParseM.pure_eq_ok_iff.1 h
    have hmark := placed_of_kind (AssignOp.ofKind?_eq_some_iff.1 hop) op.spelling?_kind
    have hplaced := (placed_of_expect_name hname).trans (hmark.trans (hexpr.part hvalue))
    exact hplaced

theorem placed_of_stepUpdate {u : Update}
    (hkind : s.current.kind.isStep = true ∨ s.current.kind = .identifier)
    (h : stepUpdate s = .ok u s') : Placed s.stream u.span u.pieces s'.stream := by
  rw [stepUpdate_apply] at h
  split at h
  · next op hop =>
    obtain ⟨name, s₁, hname, h⟩ := ParseM.bind_eq_ok_iff.1 h
    obtain ⟨rfl, rfl⟩ := ParseM.pure_eq_ok_iff.1 h
    have hmark := placed_of_kind (StepOp.ofKind?_eq_some_iff.1 hop) op.spelling?_kind
    exact hmark.trans (placed_of_expect_name hname)
  · next hnone =>
    have hname : s.current.kind = .identifier := by simpa [Kind.isStep, hnone] using hkind
    have hvariable := placed_of_sign (by rw [hname]; decide) (Token.sign_of_unspelled hname rfl)
    obtain ⟨t, s₁, ht, h⟩ := ParseM.bind_eq_ok_iff.1 h
    obtain ⟨-, rfl, rfl⟩ := expectOneOf_eq_ok_iff.1 ht
    split at h
    · next op hop =>
      cases h
      exact hvariable.trans
        (placed_of_kind (StepOp.ofKind?_eq_some_iff.1 hop) op.spelling?_kind)
    · cases h

theorem pieces_upTo (stop : Position) (u : Update) : (u.upTo stop).pieces = u.pieces := by
  cases u with
  | assign name op value span => rfl
  | step name op side span => cases side <;> rfl

theorem placed_of_updateStatement {update : ParseM Update} {st : Statement}
    (hupdate : ∀ {u s₁}, update s = .ok u s₁ → Placed s.stream u.span u.pieces s₁.stream)
    (h : updateStatement update s = .ok st s') : Placed s.stream st.span st.pieces s'.stream := by
  unfold updateStatement at h
  obtain ⟨u, s₁, hu, h⟩ := ParseM.bind_eq_ok_iff.1 h
  obtain ⟨close, s₂, hclose, h⟩ := ParseM.bind_eq_ok_iff.1 h
  obtain ⟨rfl, rfl⟩ := ParseM.pure_eq_ok_iff.1 h
  have hplaced := (hupdate hu).trans (placed_of_expect hclose rfl)
  show Placed s.stream (u.upTo close.span.stop).span
    ((u.upTo close.span.stop).pieces ++ [.fixed .semicolon]) s₂.stream
  rw [Update.span_upTo, pieces_upTo]
  exact hplaced

theorem placed_of_callStatement (hexpr : PlacesExprs expr) {st : Statement}
    (h : callStatement expr s = .ok st s') : Placed s.stream st.span st.pieces s'.stream := by
  unfold callStatement at h
  obtain ⟨c, s₁, hc, h⟩ := ParseM.bind_eq_ok_iff.1 h
  obtain ⟨close, s₂, hclose, h⟩ := ParseM.bind_eq_ok_iff.1 h
  obtain ⟨rfl, rfl⟩ := ParseM.pure_eq_ok_iff.1 h
  have hcall := Placed.part (n := .expr c.toExpr) (placed_of_call hexpr hc)
  exact hcall.trans (placed_of_expect hclose rfl)

theorem placed_of_nameStatement (hexpr : PlacesExprs expr) {st : Statement}
    (hkind : s.current.kind = .identifier) (h : nameStatement expr s = .ok st s') :
    Placed s.stream st.span st.pieces s'.stream := by
  unfold nameStatement at h
  rw [peekKind_bind] at h
  split at h
  · exact placed_of_updateStatement (fun hu => placed_of_assignUpdate hexpr hu) h
  · split at h
    · exact placed_of_updateStatement (fun hu => placed_of_stepUpdate (.inr hkind) hu) h
    · split at h
      · exact placed_of_callStatement hexpr h
      · cases h

/-! ### Compound statements -/

/-- A condition with its parentheses. -/
theorem placed_of_condition (hexpr : PlacesExprs expr) {e : Expr}
    (h : condition expr s = .ok e s') :
    ∃ x, Placed s.stream x [.fixed .openParen, .part (.expr e), .fixed .closeParen] s'.stream := by
  unfold condition at h
  obtain ⟨opening, s₁, hopening, h⟩ := ParseM.bind_eq_ok_iff.1 h
  obtain ⟨e', s₂, he, h⟩ := ParseM.bind_eq_ok_iff.1 h
  obtain ⟨close, s₃, hclose, h⟩ := ParseM.bind_eq_ok_iff.1 h
  obtain ⟨rfl, rfl⟩ := ParseM.pure_eq_ok_iff.1 h
  have hopened := (placed_of_expect hopening rfl).trans (hexpr.part he)
  exact ⟨_, hopened.trans (placed_of_expect hclose rfl)⟩

theorem placed_of_ifStatement (hexpr : PlacesExprs expr) (hblock : PlacesBlocks block)
    {st : Statement} (h : ifStatement expr block s = .ok st s') :
    Placed s.stream st.span st.pieces s'.stream := by
  unfold ifStatement at h
  obtain ⟨word, s₁, hword, h⟩ := ParseM.bind_eq_ok_iff.1 h
  obtain ⟨e, s₂, he, h⟩ := ParseM.bind_eq_ok_iff.1 h
  obtain ⟨body, s₃, hbody, h⟩ := ParseM.bind_eq_ok_iff.1 h
  obtain ⟨x, hcondition⟩ := placed_of_condition hexpr he
  have hhead := (placed_of_expect hword rfl).trans (hcondition.trans (hblock.part hbody))
  rw [kind_bind] at h
  split at h
  · next helse =>
    rw [advance_bind] at h
    obtain ⟨otherwise, s₄, hotherwise, h⟩ := ParseM.bind_eq_ok_iff.1 h
    obtain ⟨rfl, rfl⟩ := ParseM.pure_eq_ok_iff.1 h
    have hplaced := hhead.trans ((placed_of_kind helse rfl).trans (hblock.part hotherwise))
    exact hplaced
  · obtain ⟨rfl, rfl⟩ := ParseM.pure_eq_ok_iff.1 h
    exact hhead

theorem placed_of_loopStep (hexpr : PlacesExprs expr) {u : Update}
    (h : loopStep expr s = .ok u s') : Placed s.stream u.span u.pieces s'.stream := by
  rw [loopStep_apply] at h
  split at h
  · next hstep => exact placed_of_stepUpdate (.inl hstep) h
  · split at h
    · next hname =>
      split at h
      · exact placed_of_assignUpdate hexpr h
      · split at h
        · exact placed_of_stepUpdate (.inr hname) h
        · cases h
    · cases h

theorem placed_of_forStatement (hexpr : PlacesExprs expr) (hblock : PlacesBlocks block)
    {st : Statement} (h : forStatement expr block s = .ok st s') :
    Placed s.stream st.span st.pieces s'.stream := by
  unfold forStatement at h
  obtain ⟨word, s₁, hword, h⟩ := ParseM.bind_eq_ok_iff.1 h
  obtain ⟨opening, s₂, hopening, h⟩ := ParseM.bind_eq_ok_iff.1 h
  obtain ⟨init, s₃, hinit, h⟩ := ParseM.bind_eq_ok_iff.1 h
  obtain ⟨e, s₄, he, h⟩ := ParseM.bind_eq_ok_iff.1 h
  obtain ⟨semicolon, s₅, hsemicolon, h⟩ := ParseM.bind_eq_ok_iff.1 h
  obtain ⟨step, s₆, hstep, h⟩ := ParseM.bind_eq_ok_iff.1 h
  obtain ⟨close, s₇, hclose, h⟩ := ParseM.bind_eq_ok_iff.1 h
  obtain ⟨body, s₈, hbody, h⟩ := ParseM.bind_eq_ok_iff.1 h
  obtain ⟨rfl, rfl⟩ := ParseM.pure_eq_ok_iff.1 h
  have hinit := Placed.part (n := .statement (.declare init)) (placed_of_declaration hexpr hinit)
  have hhead := (placed_of_expect hword rfl).trans ((placed_of_expect hopening rfl).trans hinit)
  have hcondition := (hexpr.part he).trans (placed_of_expect hsemicolon rfl)
  have hstep := (placed_of_loopStep hexpr hstep).clause.trans (placed_of_expect hclose rfl)
  have hplaced := hhead.trans (hcondition.trans (hstep.trans (hblock.part hbody)))
  exact hplaced

theorem placed_of_whileStatement (hexpr : PlacesExprs expr) (hblock : PlacesBlocks block)
    {st : Statement} (h : whileStatement expr block s = .ok st s') :
    Placed s.stream st.span st.pieces s'.stream := by
  unfold whileStatement at h
  obtain ⟨word, s₁, hword, h⟩ := ParseM.bind_eq_ok_iff.1 h
  obtain ⟨e, s₂, he, h⟩ := ParseM.bind_eq_ok_iff.1 h
  obtain ⟨body, s₃, hbody, h⟩ := ParseM.bind_eq_ok_iff.1 h
  obtain ⟨rfl, rfl⟩ := ParseM.pure_eq_ok_iff.1 h
  obtain ⟨x, hcondition⟩ := placed_of_condition hexpr he
  have hplaced := (placed_of_expect hword rfl).trans (hcondition.trans (hblock.part hbody))
  exact hplaced

theorem placed_of_returnStatement (hexpr : PlacesExprs expr) {st : Statement}
    (h : returnStatement expr s = .ok st s') : Placed s.stream st.span st.pieces s'.stream := by
  unfold returnStatement at h
  obtain ⟨word, s₁, hword, h⟩ := ParseM.bind_eq_ok_iff.1 h
  rw [kind_bind] at h
  split at h
  · next hsemicolon =>
    rw [advance_bind] at h
    obtain ⟨rfl, rfl⟩ := ParseM.pure_eq_ok_iff.1 h
    exact (placed_of_expect hword rfl).trans (placed_of_kind hsemicolon rfl)
  · obtain ⟨value, s₂, hvalue, h⟩ := ParseM.bind_eq_ok_iff.1 h
    obtain ⟨close, s₃, hclose, h⟩ := ParseM.bind_eq_ok_iff.1 h
    obtain ⟨rfl, rfl⟩ := ParseM.pure_eq_ok_iff.1 h
    have hvalue := (hexpr.part hvalue).trans (placed_of_expect hclose rfl)
    have hplaced := (placed_of_expect hword rfl).trans hvalue
    exact hplaced

theorem placed_of_statementWith {settings : Settings} (hexpr : PlacesExprs expr)
    (hblock : PlacesBlocks block) {st : Statement}
    (h : statementWith (.standard settings) expr block s = .ok st s') :
    Placed s.stream st.span st.pieces s'.stream := by
  rw [statementWith_apply] at h
  split at h
  · next form hform =>
    -- The remark that announces a statement changes no token.
    show Placed (announced s).stream st.span st.pieces s'.stream
    cases form with
    | declaration =>
      obtain ⟨d, s₁, hd, h⟩ := ParseM.bind_eq_ok_iff.1 h
      obtain ⟨rfl, rfl⟩ := ParseM.pure_eq_ok_iff.1 h
      exact placed_of_declaration hexpr hd
    | name => exact placed_of_nameStatement hexpr (Rules.statementForm?_eq_name_iff.1 hform) h
    | step =>
      have hstep := Rules.statementForm?_eq_step_iff.1 hform
      exact placed_of_updateStatement (fun hu => placed_of_stepUpdate (.inl hstep) hu) h
    | ifElse => exact placed_of_ifStatement hexpr hblock h
    | forLoop => exact placed_of_forStatement hexpr hblock h
    | whileLoop => exact placed_of_whileStatement hexpr hblock h
    | ret => exact placed_of_returnStatement hexpr h
  · cases h

/-! ### Blocks and functions -/

theorem placed_of_blockItem {statement : ParseM Statement}
    (hstatement : ∀ s st s', statement s = .ok st s' →
      Placed s.stream st.span st.pieces s'.stream)
    {r : Option Statement} (h : blockItem statement s = .ok r s') :
    match r with
    | some st => ∃ x, Placed s.stream x [.part (.statement st)] s'.stream
    | none => s' = s := by
  rw [blockItem_apply] at h
  split at h
  · cases h
    rfl
  · split at h
    · cases h
    · obtain ⟨st, s₁, hst, h⟩ := ParseM.bind_eq_ok_iff.1 h
      obtain ⟨rfl, rfl⟩ := ParseM.pure_eq_ok_iff.1 h
      exact ⟨_, Placed.part (n := .statement st) (hstatement _ _ _ hst)⟩

theorem placesBlocks_blockAt (settings : Settings) (n : Nat) :
    PlacesBlocks (blockAt (.standard settings) n) := by
  induction n with
  | zero =>
    intro s b s' h
    obtain ⟨opening, s₁, -, h⟩ := ParseM.bind_eq_ok_iff.1 h
    cases h
  | succ n ih =>
    intro s b s' h
    rw [blockAt] at h
    obtain ⟨opening, s₁, hopening, h⟩ := ParseM.bind_eq_ok_iff.1 h
    rw [deeper_bind] at h
    obtain ⟨body, s₂, hbody, h⟩ := ParseM.bind_eq_ok_iff.1 h
    obtain ⟨close, s₃, hclose, h⟩ := ParseM.bind_eq_ok_iff.1 h
    rw [shallower_bind] at h
    obtain ⟨rfl, rfl⟩ := ParseM.pure_eq_ok_iff.1 h
    have hstatement : ∀ s st s', statementAt (.standard settings) n s = .ok st s' →
        Placed s.stream st.span st.pieces s'.stream :=
      fun s st s' hst => placed_of_statementWith (placesExprs_exprAt settings n) ih hst
    have hfilled := filled_of_many (fun st => [.part (.statement st)])
      (fun s st s' hst => placed_of_blockItem hstatement hst)
      (fun s s' hnone => by rw [placed_of_blockItem hstatement hnone]) hbody
    rw [← List.map_eq_flatMap] at hfilled
    -- Opening a level changes no token, and neither does closing one.
    have hplaced := (placed_of_expect hopening rfl).around hfilled (placed_of_expect hclose rfl)
    exact hplaced

theorem placed_of_statementAt {settings : Settings} {n : Nat} {st : Statement}
    (h : statementAt (.standard settings) n s = .ok st s') :
    Placed s.stream st.span st.pieces s'.stream :=
  placed_of_statementWith (placesExprs_exprAt settings n) (placesBlocks_blockAt settings n) h

theorem placed_of_functionWith (hblock : PlacesBlocks block) {f : Function}
    (h : functionWith block s = .ok f s') : Placed s.stream f.span f.pieces s'.stream := by
  unfold functionWith at h
  rw [position_bind] at h
  obtain ⟨returns, s₁, hreturns, h⟩ := ParseM.bind_eq_ok_iff.1 h
  obtain ⟨name, s₂, hname, h⟩ := ParseM.bind_eq_ok_iff.1 h
  obtain ⟨parameters, s₃, hparameters, h⟩ := ParseM.bind_eq_ok_iff.1 h
  obtain ⟨body, s₄, hbody, h⟩ := ParseM.bind_eq_ok_iff.1 h
  obtain ⟨rfl, rfl⟩ := ParseM.pure_eq_ok_iff.1 h
  have hhead := (placed_of_typeName hreturns).trans (placed_of_expect_name hname)
  have hplaced := hhead.around (filled_of_parameterList hparameters) (hblock.part hbody)
  simpa [Function.pieces, Piece.fixed, Piece.name, State.position] using hplaced

end Parse

end ImpFront
