import ImpFront.Proofs.Parse.ExprAcceptance
import ImpFront.Proofs.Parse.StatementReading
/-!
# ImpFront.Proofs.Parse.StatementAcceptance

**Every statement and block that the powers allow is read from its own signs**,
with as many levels as it needs. A statement that ends in a block without an
alternative must not stand in front of an `else`, which would be taken for its own;
nothing else that follows matters.
-/

namespace ImpFront

namespace Ty

theorem statementForm?_kind (t : Ty) : Rules.statementForm? t.kind = some .declaration := by
  cases t <;> rfl

end Ty

namespace AssignOp

theorem kind_ne_eof (op : AssignOp) : op.kind ≠ .eof := by
  cases op <;> decide

theorem isAssign_kind (op : AssignOp) : op.kind.isAssign = true := by
  cases op <;> rfl

end AssignOp

namespace StepOp

theorem kind_ne_eof (op : StepOp) : op.kind ≠ .eof := by
  cases op <;> decide

theorem isAssign_kind (op : StepOp) : op.kind.isAssign = false := by
  cases op <;> rfl

theorem isStep_kind (op : StepOp) : op.kind.isStep = true := by
  cases op <;> rfl

end StepOp

theorem Update.erase_upTo (stop : Position) (u : Update) : (u.upTo stop).erase = u.erase := by
  cases u <;> rfl

/-- The first sign of a statement selects a form. -/
theorem Statement.statementForm?_headKind_signs (st : Statement) :
    (Rules.statementForm? (Sign.headKind st.signs)).isSome = true := by
  cases st with
  | declare d =>
    have hhead : Sign.headKind d.signs = d.type.kind := by
      unfold Declaration.signs
      split <;> rfl
    rw [signs, hhead, d.type.statementForm?_kind]
    rfl
  | update u =>
    cases u with
    | assign name op value span => rfl
    | step name op side span =>
      cases side with
      | before => cases op <;> rfl
      | behind => rfl
  | ifElse condition body otherwise span => cases otherwise <;> rfl
  | forLoop init condition step body span => rfl
  | whileLoop condition body span => rfl
  | ret value span => cases value <;> rfl
  | call c span => rfl

/-- No statement begins with a kind that selects no form. -/
theorem Statement.headKind_signs_ne {k : Kind} (hk : Rules.statementForm? k = none)
    (st : Statement) : Sign.headKind st.signs ≠ k := by
  rintro rfl
  have hform := st.statementForm?_headKind_signs
  rw [hk] at hform
  cases hform

namespace Parse

variable {settings : Settings} {n : Nat} {expr : ExprReader} {block : ParseM Block}
  {rest : List Sign}

/-! ### Types and parameters -/

theorem yields_typeName (t : Ty) : Yields typeName [.fixed t.kind] rest (· = t) := by
  intro s hs
  have hkind : s.current.kind = t.kind := by rw [State.kind_current, hs]; rfl
  refine ⟨t, s.next, ?_, rfl, ?_⟩
  · rw [typeName_apply, hkind, Ty.ofKind?_eq_some_iff.2 rfl]
  · rw [State.signs_next, hs]
    rfl

theorem Yields.typeName_bind {β : Type} {Q : β → Prop} {u : List Sign} {f : Ty → ParseM β} (t : Ty)
    (h : Yields (f t) u rest Q) : Yields (typeName >>= f) (.fixed t.kind :: u) rest Q :=
  (yields_typeName t).bind fun _ ht => ht ▸ h

theorem yields_parameter (p : Parameter) : Yields parameter p.signs rest (·.erase = p.erase) := by
  refine Yields.position_bind fun start => Yields.typeName_bind p.type ?_
  refine Yields.name_bind fun t ht => yields_pure ?_
  rw [Parameter.erase, Parameter.erase, ht]

theorem yields_furtherParameters (ps : List Parameter) :
    Yields (many furtherParameter) (ps.flatMap fun p => .fixed .comma :: p.signs)
      (.fixed .closeParen :: rest) (·.map Parameter.erase = ps.map Parameter.erase) := by
  refine yields_many (fun p => .fixed .comma :: p.signs) Parameter.erase (by simp) ?_ ?_
  · intro p _ behind
    refine Yields.kind_bind (k := .comma) rfl ?_
    rw [if_pos rfl]
    exact Yields.advance_bind (by decide)
      fun t ht => (yields_parameter p).map fun p' hp => ⟨p', rfl, hp⟩
  · refine Yields.kind_bind (k := .closeParen) rfl ?_
    rw [if_neg (by decide)]
    exact yields_pure rfl

theorem yields_parameterList (ps : List Parameter) :
    Yields parameterList
      (.fixed .openParen :: Sign.separate (.fixed .comma) (ps.map Parameter.signs)
        ++ [.fixed .closeParen])
      rest (·.map Parameter.erase = ps.map Parameter.erase) := by
  rw [List.cons_append]
  refine Yields.expect_bind (by decide) fun opening => ?_
  cases ps with
  | nil =>
    refine Yields.kind_bind (k := .closeParen) rfl ?_
    rw [if_pos rfl]
    exact Yields.advance_bind (by decide) fun t ht => yields_pure rfl
  | cons first others =>
    rw [List.map_cons, Sign.separate_cons, List.flatMap_map, List.append_assoc]
    refine Yields.kind_bind (k := first.type.kind) rfl ?_
    rw [if_neg (by cases first.type <;> decide)]
    refine (yields_parameter first).bind fun p hp => ?_
    refine (yields_furtherParameters others).bind fun ps' hps => ?_
    refine yields_closeList.map fun close _ => ?_
    rw [List.map_cons, List.map_cons, hp, hps]

/-! ### Declarations and updates -/

theorem yields_declaration {d : Declaration}
    (h : ∀ value, d.value = some value → YieldsWhole expr value) :
    Yields (declaration expr) d.signs rest (·.erase = d.erase) := by
  unfold Declaration.signs
  split
  · next hnone =>
    refine Yields.position_bind fun start => Yields.typeName_bind d.type ?_
    refine Yields.name_bind fun name hname => Yields.kind_bind (k := .semicolon) rfl ?_
    rw [if_neg (by decide)]
    refine Yields.expectOneOf_bind (by simp) (by simp) fun close _ => yields_pure ?_
    rw [Declaration.erase, Declaration.erase, hname, hnone]
  · next value hvalue =>
    refine Yields.position_bind fun start => Yields.typeName_bind d.type ?_
    refine Yields.name_bind fun name hname => Yields.kind_bind (k := .assign) rfl ?_
    rw [if_pos rfl]
    refine Yields.advance_bind (by decide) fun mark _ => ?_
    refine (h value hvalue _ (by simp [closers])).bind fun e he => ?_
    refine Yields.expect_bind (by decide) fun close => yields_pure ?_
    rw [Declaration.erase, Declaration.erase, hname, hvalue, Option.map_some, Option.map_some, he]

theorem yields_assignUpdate {name : String} {op : AssignOp} {value : Expr} (span : Span)
    (h : YieldsWhole expr value) (hrest : Sign.headKind rest ∈ closers) :
    Yields (assignUpdate expr) (Update.assign name op value span).signs rest
      (·.erase = (Update.assign name op value span).erase) := by
  refine Yields.name_bind fun t ht => Yields.advance_bind op.kind_ne_eof fun mark hmark => ?_
  have hkind : mark.kind = op.kind := by rw [← Token.kind_sign, hmark]; rfl
  rw [hkind, AssignOp.ofKind?_eq_some_iff.2 rfl]
  refine (h rest hrest).map fun e he => ?_
  rw [Update.erase, Update.erase, ht, he]

theorem yields_stepUpdate (name : String) (op : StepOp) (side : Side) (span : Span) :
    Yields stepUpdate (Update.step name op side span).signs rest
      (·.erase = (Update.step name op side span).erase) := by
  cases side with
  | before =>
    refine Yields.advance_bind op.kind_ne_eof fun mark hmark => ?_
    have hkind : mark.kind = op.kind := by rw [← Token.kind_sign, hmark]; rfl
    rw [hkind, StepOp.ofKind?_eq_some_iff.2 rfl]
    refine Yields.name_bind fun t ht => yields_pure ?_
    rw [Update.erase, Update.erase, ht]
  | behind =>
    refine Yields.advance_bind (by simp) fun t ht => ?_
    have htkind : t.kind = .identifier := by rw [← Token.kind_sign, ht]; rfl
    rw [htkind]
    refine Yields.expectOneOf_bind (by cases op <;> simp [StepOp.all]) op.kind_ne_eof
      fun mark hmark => ?_
    have hkind : mark.kind = op.kind := by rw [← Token.kind_sign, hmark]; rfl
    rw [hkind, StepOp.ofKind?_eq_some_iff.2 rfl]
    refine yields_pure ?_
    rw [Update.erase, Update.erase, Token.text_of_sign_eq_name ht]

theorem yields_updateStatement {update : ParseM Update} {u : Update}
    (h : Yields update u.signs (.fixed .semicolon :: rest) (·.erase = u.erase)) :
    Yields (updateStatement update) (Statement.update u).signs rest
      (·.erase = (Statement.update u).erase) := by
  rw [Statement.signs]
  refine h.bind fun u' hu => Yields.expect_bind (by decide) fun close => yields_pure ?_
  rw [Statement.erase, Statement.erase, Update.erase_upTo, hu]

theorem yields_callStatement {c : Call} (span : Span)
    (h : ∀ e ∈ c.arguments, YieldsWhole expr e) :
    Yields (callStatement expr) (Statement.call c span).signs rest
      (·.erase = (Statement.call c span).erase) := by
  rw [Statement.signs]
  refine (yields_call h).bind fun c' hc => ?_
  refine Yields.expect_bind (by decide) fun close => yields_pure ?_
  rw [Statement.erase, Statement.erase, hc]

/-! ### Compound statements -/

theorem yields_condition {e : Expr} (h : YieldsWhole expr e) :
    Yields (condition expr) (.fixed .openParen :: e.signs ++ [.fixed .closeParen]) rest
      (·.erase = e.erase) := by
  rw [List.cons_append]
  refine Yields.expect_bind (by decide) fun opening => ?_
  refine (h _ (by simp [closers])).bind fun e' he => ?_
  exact Yields.expect_bind (by decide) fun close => yields_pure he

/-- The reader reads the block, whatever follows. -/
def YieldsBlock (block : ParseM Block) (b : Block) : Prop :=
  ∀ rest, Yields block b.signs rest (·.erase = b.erase)

theorem yields_ifStatement {e : Expr} {body : Block} {otherwise : Option Block} (span : Span)
    (he : YieldsWhole expr e) (hbody : YieldsBlock block body)
    (hotherwise : ∀ b, otherwise = some b → YieldsBlock block b)
    (hrest : Sign.headKind rest ≠ .elseWord) :
    Yields (ifStatement expr block) (Statement.ifElse e body otherwise span).signs rest
      (·.erase = (Statement.ifElse e body otherwise span).erase) := by
  cases otherwise with
  | none =>
    have hsigns : (Statement.ifElse e body none span).signs
        = .fixed .ifWord :: ((.fixed .openParen :: e.signs ++ [.fixed .closeParen])
          ++ (body.signs ++ [])) := by
      simp [Statement.signs]
    rw [hsigns]
    refine Yields.expect_bind (by decide) fun word => (yields_condition he).bind fun e' he' => ?_
    refine (hbody _).bind fun body' hbody' => Yields.kind_bind rfl ?_
    -- An `else` behind the statement would be taken into it.
    rw [List.nil_append, if_neg hrest]
    refine yields_pure ?_
    rw [Statement.erase, Statement.erase, he', hbody']
  | some b =>
    have hsigns : (Statement.ifElse e body (some b) span).signs
        = .fixed .ifWord :: ((.fixed .openParen :: e.signs ++ [.fixed .closeParen])
          ++ (body.signs ++ .fixed .elseWord :: b.signs)) := by
      simp [Statement.signs]
    rw [hsigns]
    refine Yields.expect_bind (by decide) fun word => (yields_condition he).bind fun e' he' => ?_
    refine (hbody _).bind fun body' hbody' => Yields.kind_bind (k := .elseWord) rfl ?_
    rw [if_pos rfl]
    refine Yields.advance_bind (by decide) fun _ _ => (hotherwise b rfl _).map fun b' hb' => ?_
    rw [Statement.erase, Statement.erase, he', hbody', hb']

theorem yields_loopStep {u : Update}
    (h : ∀ name op value span, u = .assign name op value span → YieldsWhole expr value)
    (hrest : Sign.headKind rest ∈ closers) :
    Yields (loopStep expr) u.signs rest (·.erase = u.erase) := by
  intro s hs
  have hkind := State.kind_current s
  rw [loopStep_apply]
  cases u with
  | assign name op value span =>
    have hnext : (s.stream.peek 1).kind = op.kind :=
      State.kind_peek_one (.name name) hs
    rw [hs] at hkind
    rw [hkind, hnext, op.isAssign_kind]
    exact yields_assignUpdate span (h name op value span rfl) hrest s hs
  | step name op side span =>
    rw [hs] at hkind
    cases side with
    | before =>
      have hstep : s.current.kind.isStep = true := by rw [hkind]; exact op.isStep_kind
      rw [if_pos hstep]
      exact yields_stepUpdate name op .before span s hs
    | behind =>
      -- The operator is behind the name, where the reader looks for it second.
      have hnext : (s.stream.peek 1).kind = op.kind :=
        State.kind_peek_one (.name name) hs
      rw [hkind, hnext, op.isAssign_kind, op.isStep_kind]
      exact yields_stepUpdate name op .behind span s hs

theorem yields_forStatement {init : Declaration} {e : Expr} {step : Update} {body : Block}
    (span : Span) (hinit : ∀ value, init.value = some value → YieldsWhole expr value)
    (he : YieldsWhole expr e)
    (hstep : ∀ name op value span, step = .assign name op value span → YieldsWhole expr value)
    (hbody : YieldsBlock block body) :
    Yields (forStatement expr block) (Statement.forLoop init e step body span).signs rest
      (·.erase = (Statement.forLoop init e step body span).erase) := by
  have hsigns : (Statement.forLoop init e step body span).signs
      = .fixed .forWord :: .fixed .openParen :: (init.signs ++ (e.signs
        ++ .fixed .semicolon :: (step.signs ++ .fixed .closeParen :: body.signs))) := by
    simp [Statement.signs]
  rw [hsigns]
  refine Yields.expect_bind (by decide) fun word => Yields.expect_bind (by decide) fun opening => ?_
  refine (yields_declaration hinit).bind fun init' hinit' => ?_
  refine (he _ (by simp [closers])).bind fun e' he' => ?_
  refine Yields.expect_bind (by decide) fun semicolon => ?_
  refine (yields_loopStep hstep (by simp [closers])).bind fun step' hstep' => ?_
  refine Yields.expect_bind (by decide) fun close => (hbody _).map fun body' hbody' => ?_
  rw [Statement.erase, Statement.erase, hinit', he', hstep', hbody']

theorem yields_whileStatement {e : Expr} {body : Block} (span : Span) (he : YieldsWhole expr e)
    (hbody : YieldsBlock block body) :
    Yields (whileStatement expr block) (Statement.whileLoop e body span).signs rest
      (·.erase = (Statement.whileLoop e body span).erase) := by
  have hsigns : (Statement.whileLoop e body span).signs
      = .fixed .whileWord :: ((.fixed .openParen :: e.signs ++ [.fixed .closeParen])
        ++ body.signs) := by
    simp [Statement.signs]
  rw [hsigns]
  refine Yields.expect_bind (by decide) fun word => (yields_condition he).bind fun e' he' => ?_
  refine (hbody _).map fun body' hbody' => ?_
  rw [Statement.erase, Statement.erase, he', hbody']

theorem yields_returnStatement {value : Option Expr} (span : Span)
    (h : ∀ e, value = some e → YieldsWhole expr e) :
    Yields (returnStatement expr) (Statement.ret value span).signs rest
      (·.erase = (Statement.ret value span).erase) := by
  cases value with
  | none =>
    refine Yields.expect_bind (by decide) fun word => Yields.kind_bind (k := .semicolon) rfl ?_
    rw [if_pos rfl]
    exact Yields.advance_bind (by decide) fun close _ => yields_pure rfl
  | some e =>
    rw [Statement.signs, List.cons_append]
    refine Yields.expect_bind (by decide) fun word => Yields.kind_bind rfl ?_
    -- No value begins with a semicolon, so the reader does not stop in front of this one.
    have hkind : Sign.headKind (e.signs ++ [Sign.fixed .semicolon] ++ rest) ≠ .semicolon := by
      rw [List.append_assoc, Sign.headKind_append e.signs_ne_nil]
      exact e.headKind_signs_ne rfl
    rw [if_neg hkind]
    refine (h e rfl _ (by simp [closers])).bind fun e' he' => ?_
    refine Yields.expect_bind (by decide) fun close => yields_pure ?_
    rw [Statement.erase, Statement.erase, Option.map_some, Option.map_some, he']

/-! ### Statements by their first sign -/

theorem yields_statementWith {block : ParseM Block} {u : List Sign} {P : Statement → Prop}
    (form : StatementForm) (hform : Rules.statementForm? (Sign.headKind (u ++ rest)) = some form)
    (h : Yields (statementOf expr block form) u rest P) :
    Yields (statementWith (.standard settings) expr block) u rest P := by
  intro s hs
  rw [← hs, ← State.kind_current] at hform
  rw [statementWith_apply, Rules.statement_standard, hform]
  exact h (announced s) hs

/-- A name in front of an operator or a parenthesis begins an update or a call. -/
theorem yields_nameStatement {name : String} {u : List Sign} {P : Statement → Prop}
    (h : (Sign.headKind (u ++ rest)).isAssign = true ∧
          Yields (updateStatement (assignUpdate expr)) (.name name :: u) rest P
      ∨ (Sign.headKind (u ++ rest)).isAssign = false
          ∧ (Sign.headKind (u ++ rest)).isStep = true
          ∧ Yields (updateStatement stepUpdate) (.name name :: u) rest P
      ∨ Sign.headKind (u ++ rest) = .openParen
          ∧ Yields (callStatement expr) (.name name :: u) rest P) :
    Yields (nameStatement expr) (.name name :: u) rest P := by
  refine Yields.peekKind_bind rfl ?_
  rcases h with ⟨hassign, h⟩ | ⟨hassign, hstep, h⟩ | ⟨hparen, h⟩
  · rw [if_pos hassign]
    exact h
  · rw [if_neg (by rw [hassign]; decide), if_pos hstep]
    exact h
  · rw [hparen]
    exact h

/-- The reader reads the statement wherever one stands: an `else` does not follow. -/
def YieldsStatement (statement : ParseM Statement) (st : Statement) : Prop :=
  ∀ rest, Sign.headKind rest ≠ .elseWord →
    Yields statement st.signs rest (·.erase = st.erase)

/-- The statements of a block are read up to its closing brace. -/
theorem yields_blockItems {statement : ParseM Statement} {body : List Statement}
    (h : ∀ st ∈ body, YieldsStatement statement st) :
    Yields (many (blockItem statement)) (body.flatMap Statement.signs) (.fixed .closeCurly :: rest)
      (·.map Statement.erase = body.map Statement.erase) := by
  refine yields_many Statement.signs Statement.erase (fun st _ => st.signs_ne_nil) ?_ ?_
  · intro st hst behind s hs
    have hnext : Sign.headKind (behind.flatMap Statement.signs ++ .fixed .closeCurly :: rest)
        ≠ .elseWord := by
      cases behind with
      | nil => exact fun h => by cases h
      | cons next _ =>
        rw [List.flatMap_cons, List.append_assoc, Sign.headKind_append next.signs_ne_nil]
        exact next.headKind_signs_ne rfl
    have hkind : s.current.kind = Sign.headKind st.signs := by
      rw [State.kind_current, hs, Sign.headKind_append st.signs_ne_nil]
    -- Neither the closing brace nor the end of the input begins a statement.
    rw [blockItem_apply, hkind, if_neg (st.headKind_signs_ne rfl),
      if_neg (st.headKind_signs_ne rfl)]
    exact ((h st hst _ hnext).map fun st' hst' => ⟨st', rfl, hst'⟩) s hs
  · exact Yields.kind_bind (k := .closeCurly) rfl (yields_pure rfl)

/-- A block is read with a level of its own, the statements in it with the others. -/
theorem yieldsBlock_blockAt (settings : Settings) {body : List Statement} (span : Span)
    (hneed : (Block.mk body span).need ≤ n)
    (h : ∀ m, Statement.needList body ≤ m →
      ∀ st ∈ body, YieldsStatement (statementAt (.standard settings) m) st) :
    YieldsBlock (blockAt (.standard settings) n) ⟨body, span⟩ := by
  intro rest
  rw [Block.need] at hneed
  cases n with
  | zero => omega
  | succ m =>
    have hm : Statement.needList body ≤ m := by omega
    rw [Block.signs, Statement.signsList_eq_flatMap, List.cons_append]
    refine Yields.expect_bind (by decide) fun opening s hs => ?_
    rw [deeper_bind]
    refine Yields.bind (yields_blockItems (h m hm)) (fun sts hsts => ?_) s.deeper hs
    refine Yields.expect_bind (by decide) fun close s' hs' => ?_
    refine ⟨⟨sts, ⟨opening.span.start, close.span.stop⟩⟩, s'.shallower, rfl, ?_, hs'⟩
    rw [Block.erase, Block.erase, Statement.eraseList_eq_map, Statement.eraseList_eq_map, hsts]

/-! ### Statements and blocks -/

theorem yieldsWhole_of_declaration (settings : Settings) {d : Declaration}
    (hfits : d.wellFormed = true) (hneed : d.need ≤ n) :
    ∀ value, d.value = some value → YieldsWhole (exprAt (.standard settings) n) value := by
  intro value hvalue
  rw [Declaration.wellFormed, hvalue] at hfits
  rw [Declaration.need, hvalue] at hneed
  exact yieldsWhole_exprAt hfits hneed

theorem yieldsWhole_of_update (settings : Settings) {u : Update}
    (hfits : u.wellFormed = true) (hneed : u.need ≤ n) :
    ∀ name op value span, u = .assign name op value span →
      YieldsWhole (exprAt (.standard settings) n) value := by
  rintro name op value span rfl
  exact yieldsWhole_exprAt hfits hneed

mutual

/-- A statement that the powers allow is read with the levels it needs. -/
theorem yieldsStatement_statementAt (settings : Settings) : (st : Statement) → {n : Nat} →
    st.wellFormed = true → st.need ≤ n →
    YieldsStatement (statementAt (.standard settings) n) st
  | .declare d, n, hfits, hneed => by
    intro rest _
    have hhead : Sign.headKind (d.signs ++ rest) = d.type.kind := by
      unfold Declaration.signs
      split <;> rfl
    refine yields_statementWith .declaration
      (by rw [Statement.signs, hhead]; exact d.type.statementForm?_kind) ?_
    have hvalue := yieldsWhole_of_declaration settings hfits hneed
    refine (yields_declaration hvalue).map fun d' hd => ?_
    rw [Statement.erase, Statement.erase, hd]
  | .update (.assign name op value span), n, hfits, hneed => by
    intro rest _
    refine yields_statementWith .name rfl ?_
    refine yields_nameStatement (.inl ⟨op.isAssign_kind, ?_⟩)
    exact yields_updateStatement
      (yields_assignUpdate span (yieldsWhole_exprAt hfits hneed) (by simp [closers]))
  | .update (.step name op .before span), n, _, _ => by
    intro rest _
    refine yields_statementWith .step (by cases op <;> rfl) ?_
    exact yields_updateStatement (yields_stepUpdate name op .before span)
  | .update (.step name op .behind span), n, _, _ => by
    intro rest _
    refine yields_statementWith .name rfl ?_
    refine yields_nameStatement (.inr (.inl ⟨op.isAssign_kind, op.isStep_kind, ?_⟩))
    exact yields_updateStatement (yields_stepUpdate name op .behind span)
  | .ifElse e ⟨body, bodySpan⟩ none span, n, hfits, hneed => by
    intro rest hrest
    simp only [Statement.wellFormed, Bool.and_eq_true] at hfits
    obtain ⟨hneed₁, hneed₂⟩ := Nat.max_le.1 hneed
    refine yields_statementWith .ifElse rfl ?_
    exact yields_ifStatement span (yieldsWhole_exprAt hfits.1 hneed₁)
      (yieldsBlock_blockAt settings bodySpan hneed₂ fun m hm =>
        yieldsStatement_of_mem settings body hfits.2 hm)
      (by simp) hrest
  | .ifElse e ⟨body, bodySpan⟩ (some ⟨otherwise, otherSpan⟩) span, n, hfits, hneed => by
    intro rest hrest
    simp only [Statement.wellFormed, Bool.and_eq_true] at hfits
    obtain ⟨hneed₁, hneed₂⟩ := Nat.max_le.1 hneed
    obtain ⟨hneed₂, hneed₃⟩ := Nat.max_le.1 hneed₂
    refine yields_statementWith .ifElse rfl ?_
    refine yields_ifStatement span (yieldsWhole_exprAt hfits.1.1 hneed₁)
      (yieldsBlock_blockAt settings bodySpan hneed₂ fun m hm =>
        yieldsStatement_of_mem settings body hfits.1.2 hm)
      (fun b hb => ?_) hrest
    obtain rfl := Option.some.inj hb
    exact yieldsBlock_blockAt settings otherSpan hneed₃ fun m hm =>
      yieldsStatement_of_mem settings otherwise hfits.2 hm
  | .forLoop init e step ⟨body, bodySpan⟩ span, n, hfits, hneed => by
    intro rest _
    simp only [Statement.wellFormed, Bool.and_eq_true] at hfits
    obtain ⟨⟨⟨hfits₁, hfits₂⟩, hfits₃⟩, hfits₄⟩ := hfits
    obtain ⟨hneed₁, hneed⟩ := Nat.max_le.1 hneed
    obtain ⟨hneed₂, hneed⟩ := Nat.max_le.1 hneed
    obtain ⟨hneed₃, hneed₄⟩ := Nat.max_le.1 hneed
    refine yields_statementWith .forLoop rfl ?_
    exact yields_forStatement span (yieldsWhole_of_declaration settings hfits₁ hneed₁)
      (yieldsWhole_exprAt hfits₂ hneed₂) (yieldsWhole_of_update settings hfits₃ hneed₃)
      (yieldsBlock_blockAt settings bodySpan hneed₄ fun m hm =>
        yieldsStatement_of_mem settings body hfits₄ hm)
  | .whileLoop e ⟨body, bodySpan⟩ span, n, hfits, hneed => by
    intro rest _
    simp only [Statement.wellFormed, Bool.and_eq_true] at hfits
    obtain ⟨hneed₁, hneed₂⟩ := Nat.max_le.1 hneed
    refine yields_statementWith .whileLoop rfl ?_
    exact yields_whileStatement span (yieldsWhole_exprAt hfits.1 hneed₁)
      (yieldsBlock_blockAt settings bodySpan hneed₂ fun m hm =>
        yieldsStatement_of_mem settings body hfits.2 hm)
  | .ret none span, n, _, _ => by
    intro rest _
    exact yields_statementWith .ret rfl (yields_returnStatement span (by simp))
  | .ret (some e) span, n, hfits, hneed => by
    intro rest _
    refine yields_statementWith .ret rfl (yields_returnStatement span ?_)
    rintro e' heq
    obtain rfl := Option.some.inj heq
    exact yieldsWhole_exprAt hfits hneed
  | .call c span, n, hfits, hneed => by
    intro rest _
    refine yields_statementWith .name rfl ?_
    refine yields_nameStatement (.inr (.inr ⟨rfl, ?_⟩))
    exact yields_callStatement span (yieldsWhole_of_mem settings c.arguments hfits hneed)

/-- Each of some statements that the powers allow is read with the levels they need. -/
theorem yieldsStatement_of_mem (settings : Settings) : (body : List Statement) → {n : Nat} →
    Statement.wellFormedList body = true → Statement.needList body ≤ n →
    ∀ st ∈ body, YieldsStatement (statementAt (.standard settings) n) st
  | [], n, _, _ => by
    intro st hst
    cases hst
  | first :: others, n, hfits, hneed => by
    simp only [Statement.wellFormedList, Bool.and_eq_true] at hfits
    obtain ⟨hneed₁, hneed₂⟩ := Nat.max_le.1 hneed
    intro st hst
    rcases List.mem_cons.1 hst with heq | hst
    · rw [heq]
      exact yieldsStatement_statementAt settings first hfits.1 hneed₁
    · exact yieldsStatement_of_mem settings others hfits.2 hneed₂ st hst

end

end Parse

end ImpFront
