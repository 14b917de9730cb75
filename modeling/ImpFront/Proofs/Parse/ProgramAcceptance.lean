import ImpFront.Proofs.Parse.ProgramReading
import ImpFront.Proofs.Parse.StatementAcceptance
/-!
# ImpFront.Proofs.Parse.ProgramAcceptance

**Every program that the powers allow is read from its own signs**, up to the end of
the input. Two signs of lookahead tell the parts of a program apart: a global and a
function are recognised by theirs, and no other statement is taken for either.
-/

namespace ImpFront

/-- No part of a program begins with an alternative. -/
theorem Item.headKind_signs_ne_elseWord (item : Item) :
    Sign.headKind item.signs ≠ .elseWord := by
  cases item with
  | global d => exact Statement.headKind_signs_ne rfl (.declare d)
  | function f =>
    show f.returns.kind ≠ .elseWord
    cases f.returns <;> decide
  | statement st => exact st.headKind_signs_ne rfl

/-- Only a declaration begins with a type, among the statements. -/
theorem Statement.isType_headKind_signs {st : Statement}
    (h : (Item.statement st).isLateDeclaration = false) :
    (Sign.headKind st.signs).isType = false := by
  cases st with
  | declare d => cases h
  | update u =>
    cases u with
    | assign name op value span => rfl
    | step name op side span =>
      cases side with
      | before => cases op <;> rfl
      | behind => rfl
  | ifElse condition body otherwise span => cases otherwise <;> rfl
  | forLoop init condition step body span => rfl
  | whileLoop condition body span => rfl
  | ret value span => cases value <;> rfl
  | call c span => rfl

namespace Parse

variable {settings : Settings} {n : Nat} {expr : ExprReader} {block : ParseM Block}
  {rest : List Sign} {s : State}

/-! ### Looking ahead -/

/-- Behind the name of a function stands a parenthesis. -/
theorem atDeclared_of_function {test : Kind → Bool} {f : Function}
    (h : s.signs = f.signs ++ rest) : atDeclared test s.stream = test .openParen := by
  have hsigns : s.signs = .fixed f.returns.kind :: .name f.name :: .fixed .openParen
      :: (Sign.separate (.fixed .comma) (f.parameters.map Parameter.signs)
        ++ .fixed .closeParen :: f.body.signs ++ rest) := by
    rw [h, Function.signs]
    simp
  exact atDeclared_of_signs hsigns

/-- A statement is not taken for a function. -/
theorem atFunction_of_statement {st : Statement} (h : s.signs = st.signs ++ rest) :
    atFunction s.stream = false := by
  by_cases hlate : (Item.statement st).isLateDeclaration = true
  · cases st with
    | declare d =>
      rw [Statement.signs, Declaration.signs] at h
      split at h
      · exact atDeclared_of_signs h
      · exact atDeclared_of_signs h
    | _ => cases hlate
  · apply atDeclared_eq_false
    rw [h, Sign.headKind_append st.signs_ne_nil]
    exact st.isType_headKind_signs (by simpa using hlate)

/-- Behind the leading globals of a program, no global comes next. -/
theorem atGlobal_of_others {items : List Item} (hglobal : items.all (!·.isGlobal) = true)
    (hlate : (!items.head?.any Item.isLateDeclaration) = true)
    (h : s.signs = items.flatMap Item.signs) : atGlobal s.stream = false := by
  cases items with
  | nil =>
    apply atDeclared_eq_false
    rw [h]
    rfl
  | cons item others =>
    rw [List.flatMap_cons] at h
    cases item with
    | global d => cases hglobal
    | function f => exact atDeclared_of_function h
    | statement st =>
      apply atDeclared_eq_false
      rw [h, Item.signs, Sign.headKind_append st.signs_ne_nil]
      exact st.isType_headKind_signs (by simpa using hlate)

/-! ### Parts of programs -/

theorem yields_functionWith {f : Function} (hbody : YieldsBlock block f.body) :
    Yields (functionWith block) f.signs rest (·.erase = f.erase) := by
  have hsigns : f.signs = .fixed f.returns.kind :: .name f.name
      :: ((.fixed .openParen :: Sign.separate (.fixed .comma) (f.parameters.map Parameter.signs)
        ++ [.fixed .closeParen]) ++ f.body.signs) := by
    simp [Function.signs]
  rw [hsigns]
  refine Yields.position_bind fun start => Yields.typeName_bind f.returns ?_
  refine Yields.name_bind fun name hname => ?_
  refine (yields_parameterList f.parameters).bind fun ps hps => ?_
  refine (hbody rest).map fun body hbody' => ?_
  rw [Function.erase, Function.erase, hname, hps, hbody']

/-- The globals of a program are read where none follows them. -/
theorem yields_globals {items : List Item} (hglobal : ∀ item ∈ items, item.isGlobal = true)
    (hfits : ∀ item ∈ items, item.wellFormed = true) (hneed : ∀ item ∈ items, item.need ≤ n)
    (hrest : ∀ s : State, s.signs = rest → atGlobal s.stream = false) :
    Yields (many (globalItem (exprAt (.standard settings) n))) (items.flatMap Item.signs) rest
      (·.map Item.erase = items.map Item.erase) := by
  refine yields_many Item.signs Item.erase (fun item _ => item.signs_ne_nil) ?_ ?_
  · intro item hitem behind s hs
    have hglobal' := hglobal item hitem
    cases item with
    | global d =>
      rw [globalItem_apply, if_pos (atGlobal_of_signs hs)]
      have hvalue := yieldsWhole_of_declaration settings (hfits _ hitem) (hneed _ hitem)
      refine ((yields_declaration hvalue).map fun d' hd => ?_) (announcedGlobal s) hs
      exact ⟨.global d', rfl, by rw [Item.erase, Item.erase, hd]⟩
    | _ => cases hglobal'
  · intro s hs
    refine ⟨none, s, ?_, rfl, hs⟩
    rw [globalItem_apply, hrest s hs]
    rfl

/-- The functions and statements of a program are read up to the end of the input. -/
theorem yields_laterItems {items : List Item} (hglobal : ∀ item ∈ items, item.isGlobal = false)
    (hfits : ∀ item ∈ items, item.wellFormed = true) (hneed : ∀ item ∈ items, item.need ≤ n) :
    Yields (many (laterItem (.standard settings) n)) (items.flatMap Item.signs) []
      (·.map Item.erase = items.map Item.erase) := by
  refine yields_many Item.signs Item.erase (fun item _ => item.signs_ne_nil) ?_ ?_
  · intro item hitem behind s hs
    have hglobal' := hglobal item hitem
    have hfits' := hfits item hitem
    have hneed' := hneed item hitem
    have hnext : Sign.headKind (behind.flatMap Item.signs ++ []) ≠ .elseWord := by
      rw [List.append_nil]
      cases behind with
      | nil => exact fun h => by cases h
      | cons next _ =>
        rw [List.flatMap_cons, Sign.headKind_append next.signs_ne_nil]
        exact next.headKind_signs_ne_elseWord
    have hkind : s.current.kind ≠ .eof := by
      intro heof
      have hnil := State.signs_eq_nil_iff.2 heof
      rw [hs] at hnil
      exact item.signs_ne_nil (List.append_eq_nil_iff.1 hnil).1
    -- Two signs of lookahead tell a function from a statement.
    rw [laterItem_apply, if_neg hkind]
    cases item with
    | global d => cases hglobal'
    | function f =>
      rw [if_pos (show atFunction s.stream = true from atDeclared_of_function hs)]
      obtain ⟨returns, name, parameters, ⟨body, bodySpan⟩, span⟩ := f
      have hbody := yieldsBlock_blockAt settings bodySpan hneed' fun m hm =>
        yieldsStatement_of_mem settings body hfits' hm
      refine ((yields_functionWith hbody).map fun f' hf => ?_) (announcedFunction s) hs
      exact ⟨.function f', rfl, by rw [Item.erase, Item.erase, hf]⟩
    | statement st =>
      rw [atFunction_of_statement hs, if_neg (by decide)]
      have hst := yieldsStatement_statementAt settings st hfits' hneed'
      refine ((hst _ hnext).map fun st' hst' => ?_) s hs
      exact ⟨.statement st', rfl, by rw [Item.erase, Item.erase, hst']⟩
  · refine Yields.kind_bind (k := .eof) rfl ?_
    rw [if_pos rfl]
    exact yields_pure rfl

/-! ### Programs -/

/-- A program that the powers allow is read with the levels it needs. -/
theorem yields_programAt (settings : Settings) {p : Program} (hfits : p.wellFormed = true)
    (hneed : p.need ≤ n) :
    Yields (programAt (.standard settings) n) p.signs [] (·.erase = p.erase) := by
  simp only [Program.wellFormed, Bool.and_eq_true] at hfits
  obtain ⟨⟨hglobal, hlate⟩, hall⟩ := hfits
  -- The two loops read the globals at the start and what is behind them.
  have hsplit : p.items.takeWhile Item.isGlobal ++ p.others = p.items :=
    List.takeWhile_append_dropWhile
  have hneed' : ∀ item ∈ p.items, item.need ≤ n := Item.needList_le_iff.1 hneed
  have hfits' : ∀ item ∈ p.items, item.wellFormed = true := List.all_eq_true.1 hall
  have hglobals : ∀ item ∈ p.items.takeWhile Item.isGlobal, item ∈ p.items :=
    fun item hitem => hsplit ▸ List.mem_append_left _ hitem
  have hothers : ∀ item ∈ p.others, item ∈ p.items :=
    fun item hitem => hsplit ▸ List.mem_append_right _ hitem
  have hsigns : p.signs = (p.items.takeWhile Item.isGlobal).flatMap Item.signs
      ++ (p.others.flatMap Item.signs ++ []) := by
    rw [Program.signs, List.append_nil, ← List.flatMap_append, hsplit]
  rw [hsigns]
  refine Yields.position_bind fun start => ?_
  have hfirst : Yields (many (globalItem (exprAt (.standard settings) n)))
      ((p.items.takeWhile Item.isGlobal).flatMap Item.signs)
      (p.others.flatMap Item.signs ++ [] ++ [])
      (·.map Item.erase = (p.items.takeWhile Item.isGlobal).map Item.erase) :=
    yields_globals (fun item hitem => List.all_eq_true.1 List.all_takeWhile item hitem)
      (fun item hitem => hfits' item (hglobals item hitem))
      (fun item hitem => hneed' item (hglobals item hitem))
      (fun s hs => atGlobal_of_others hglobal hlate (by rw [hs, List.append_nil, List.append_nil]))
  have hlater : Yields (many (laterItem (.standard settings) n)) (p.others.flatMap Item.signs) []
      (·.map Item.erase = p.others.map Item.erase) :=
    yields_laterItems (fun item hitem => by simpa using List.all_eq_true.1 hglobal item hitem)
      (fun item hitem => hfits' item (hothers item hitem))
      (fun item hitem => hneed' item (hothers item hitem))
  refine Yields.bind hfirst fun globals hglobalsErase => ?_
  refine Yields.bind hlater fun later hlaterErase => ?_
  have herase : (globals ++ later).map Item.erase = p.items.map Item.erase := by
    rw [List.map_append, hglobalsErase, hlaterErase, ← List.map_append, hsplit]
  intro s hs
  exact ⟨_, _, rfl, congrArg (fun items => Program.mk items default) herase, hs⟩

end Parse

end ImpFront
