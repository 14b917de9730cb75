import ImpFront.Proofs.Parse.Grammar
import ImpFront.Proofs.Parse.StatementAgenda
/-!
# ImpFront.Proofs.Parse.ProgramAgenda

**A parse works off one agenda**: functions and statements up to the end of the input. Two
tokens of lookahead tell a global, a function and a declaration apart. They begin alike, so
the agenda reads a type and a name and decides on the token behind them, and for a parse it
makes no difference where the globals end.
-/

namespace ImpFront

namespace State

/-- The token behind two that are no end of the input. -/
theorem kind_current_next_next {s : State} (h : s.current.kind ≠ .eof)
    (h' : s.next.current.kind ≠ .eof) :
    s.next.next.current.kind = (s.stream.peek 2).kind := by
  have hsigns := (signs_eq_cons h).trans (congrArg (_ :: ·) (signs_eq_cons h'))
  rw [kind_current, kind_peek (by rw [hsigns]; simp), hsigns]
  rfl

end State

namespace Parse

variable {settings : Settings} {n : Nat} {s : State}

/-! ### Looking ahead -/

theorem atDeclared_iff {test : Kind → Bool} :
    atDeclared test s.stream = true ↔ s.current.kind.isType = true
      ∧ s.next.current.kind = .identifier ∧ test s.next.next.current.kind = true := by
  unfold atDeclared
  rw [Bool.and_eq_true, Bool.and_eq_true, decide_eq_true_iff, and_assoc,
    show s.stream.current.kind = s.current.kind from rfl]
  refine and_congr_right fun htype => ?_
  have hne : s.current.kind ≠ .eof := by
    intro heof
    rw [heof] at htype
    cases htype
  rw [← State.kind_current_next hne]
  refine and_congr_right fun hname => ?_
  rw [State.kind_current_next_next hne (by rw [hname]; decide)]

theorem atFunction_iff : atFunction s.stream = true ↔ s.current.kind.isType = true
    ∧ s.next.current.kind = .identifier ∧ s.next.next.current.kind = .openParen :=
  atDeclared_iff.trans (by simp)

theorem atGlobal_iff : atGlobal s.stream = true ↔ s.current.kind.isType = true
    ∧ s.next.current.kind = .identifier
    ∧ (s.next.next.current.kind = .assign ∨ s.next.next.current.kind = .semicolon) :=
  atDeclared_iff.trans (by simp)

/-- Where a global comes next, no function does. -/
theorem atFunction_eq_false_of_atGlobal (h : atGlobal s.stream = true) :
    atFunction s.stream = false := by
  obtain ⟨-, -, hthird⟩ := atGlobal_iff.1 h
  refine Bool.eq_false_iff.2 fun hfunction => ?_
  obtain ⟨-, -, hopen⟩ := atFunction_iff.1 hfunction
  rw [hopen] at hthird
  simp at hthird

/-! ### Items -/

/-- What follows a type and a name is the value of a declaration, unless a function comes next. -/
theorem obeys_items_of_declaration {α : Type} {o : Outcome α} {ds' : List Demand}
    (htype : s.current.kind.isType = true) (hnot : atFunction s.stream = false)
    (h : Obeys settings o s.tokens [.typeName, .token .identifier, .value n, .items n] ds') :
    Obeys settings o s.tokens [.items n] ds' := by
  refine obeys_of_take [.token .identifier, .declared n, .items n] (if_pos htype) ?_
  have h := h.behind [] (if_pos htype)
  by_cases hname : s.next.current.kind = .identifier
  · have h := Obeys.behind h [] (if_pos hname)
    refine obeys_of_take [] (if_pos hname) ?_
    have hopen : s.next.next.current.kind ≠ .openParen := fun hopen =>
      Bool.eq_false_iff.1 hnot (atFunction_iff.2 ⟨htype, hname, hopen⟩)
    -- When no parenthesis follows, both demands take and refuse the same tokens.
    have htake : (Demand.declared n).take? s.next.next.current.kind
        = (Demand.value n).take? s.next.next.current.kind := if_neg hopen
    exact h.of_answer fun agenda => answer_congr htake rfl
  · refine h.of_answer fun agenda => ?_
    have hnone : (Demand.token .identifier).take? s.next.current.kind = none := if_neg hname
    exact (answer_of_refuse hnone rfl).trans (answer_of_refuse hnone rfl).symm

theorem obeys_globalItem (settings : Settings) (n : Nat) (s : State) :
    Obeys settings (globalItem (exprAt (.standard settings) n) s) s.tokens
      [.items n] [.items n] := by
  rw [globalItem_apply]
  split
  · next hat =>
    refine obeys_items_of_declaration (s := announcedGlobal s) (atGlobal_iff.1 hat).1
      (atFunction_eq_false_of_atGlobal hat) ?_
    exact ((obeys_declaration (obeysExprs_exprAt settings n) _).append [.items n]).map _
  · exact obeys_ok _ _ _

theorem obeys_functionWith {block : ParseM Block} (hblock : ObeysBlocks settings n block)
    (hat : atFunction s.stream = true) :
    Obeys settings (functionWith block s) s.tokens [.items n] [.items n] := by
  obtain ⟨htype, hname, hopen⟩ := atFunction_iff.1 hat
  obtain ⟨t, ht⟩ := Option.isSome_iff_exists.1 htype
  have htypeName : typeName s = .ok t s.next := by rw [typeName_apply, ht]
  refine obeys_of_take [.token .identifier, .declared n, .items n] (if_pos htype) ?_
  refine obeys_of_take [] (if_pos hname) ?_
  refine obeys_of_take (.parameters :: Demand.block n) (if_pos hopen) ?_
  unfold functionWith
  rw [position_bind, ParseM.bind_of_ok htypeName, ParseM.bind_of_ok (expect_of_kind hname)]
  refine (obeys_parameterList hopen).bind_cons fun parameters s₁ _ => ?_
  exact ((hblock s₁).append [.items n]).map _

theorem obeys_laterItem (settings : Settings) (n : Nat) (s : State) :
    Obeys settings (laterItem (.standard settings) n s) s.tokens [.items n] [.items n] := by
  rw [laterItem_apply]
  split
  · exact obeys_ok _ _ _
  · next heof =>
    split
    · next hat =>
      refine (obeys_functionWith (s := announcedFunction s) ?_ hat).map _
      exact obeysBlocks_blockAt settings n
    · next hat =>
      refine Obeys.map ?_ _
      have h := (obeys_statementAt settings n s).append [.items n]
      by_cases htype : s.current.kind.isType = true
      · -- A declaration among the statements begins with its type.
        refine obeys_items_of_declaration htype (Bool.eq_false_iff.2 hat) ?_
        refine obeys_of_take [] (if_pos htype) ?_
        refine h.behind [.token .identifier, .value n] ?_
        rw [Demand.take?, Rules.statementForm?_eq_declaration_iff.2 htype]
        rfl
      · refine Obeys.of_like (.statement n) [.items n]
          (r := .kind (Rules.standard settings).statementStarts) ?_ (if_neg heof) rfl h
        simp only [Demand.take?, if_neg htype, Option.map_map]
        rfl

/-! ### Programs -/

theorem obeys_programAt (settings : Settings) (n : Nat) (s : State) :
    Obeys settings (programAt (.standard settings) n s) s.tokens [.items n] [.items n] := by
  unfold programAt
  rw [position_bind]
  have hglobal (s : State) (item : Item) (s' : State)
      (h : globalItem (exprAt (.standard settings) n) s = .ok (some item) s') :
      s'.stream.left < s.stream.left := by
    have htook := (took_of_globalItem (readsExprs_exprAt settings n) h).1
    exact State.left_lt_of_signs item.signs_ne_nil htook.signs_eq
  have hlater (s : State) (item : Item) (s' : State)
      (h : laterItem (.standard settings) n s = .ok (some item) s') :
      s'.stream.left < s.stream.left :=
    State.left_lt_of_signs item.signs_ne_nil (took_of_laterItem h).1.signs_eq
  refine (obeys_many hglobal (obeys_globalItem settings n) s).bind fun globals s₁ _ => ?_
  refine (obeys_many hlater (obeys_laterItem settings n) s₁).bind fun others s₂ _ => ?_
  rw [note_bind, position_bind]
  exact obeys_ok _ (remarked _ s₂) _

end Parse

/-- **A parse accepts exactly what its agenda accepts**, and where it fails, the agenda refuses the
token it looks at. -/
theorem Program.run_tokens (settings : Settings) (tokens : List Token) :
    Parse.run settings [.items settings.maxDepth] (State.ofTokens tokens).tokens =
      match parseTokens settings tokens with
      | .ok _ _ => .accepted
      | .error e s => .refused e s.tokens := by
  have hobeys := Parse.obeys_programAt settings settings.maxDepth (.ofTokens tokens) []
  rw [List.append_nil, ← parseTokens_eq] at hobeys
  rw [hobeys]
  cases h : parseTokens settings tokens with
  | error e s => rfl
  | ok p s =>
    rw [parseTokens_eq] at h
    have heof := State.signs_eq_nil_iff.1 (Parse.took_of_programAt h).2
    obtain ⟨rest, hrest⟩ := s.exists_tokens_eq
    dsimp only
    rw [hrest]
    refine Parse.run_of_accept ?_ rest
    rw [heof]
    rfl

end ImpFront
