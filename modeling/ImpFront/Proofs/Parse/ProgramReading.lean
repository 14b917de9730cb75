import ImpFront.Proofs.Parse.StatementReading
/-!
# ImpFront.Proofs.Parse.ProgramReading

**A program that was read has the signs that were taken**, all up to the end of the
input; the powers allow it, its globals come first, and it needs no more levels
than were free.
-/

namespace ImpFront

namespace Parse

variable {n : Nat} {expr : ExprReader} {s s' : State}

/-! ### Looking ahead -/

/-- Behind a type and a name, the next sign decides what is declared. -/
theorem atDeclared_of_signs {test : Kind → Bool} {t : Ty} {name : String} {tail : List Sign}
    (h : s.signs = .fixed t.kind :: .name name :: tail) :
    atDeclared test s.stream = test (Sign.headKind tail) := by
  have htype : s.stream.current.kind = t.kind := by
    rw [show s.stream.current.kind = s.current.kind from rfl, State.kind_current, h]
    rfl
  have hname : (s.stream.peek 1).kind = .identifier := State.kind_peek_one _ h
  have hthird : (s.stream.peek 2).kind = Sign.headKind tail := by
    rw [State.kind_peek (by rw [h]; simp), h]
    rfl
  have hisType : t.kind.isType = true := by
    rw [Kind.isType, Ty.ofKind?_eq_some_iff.2 rfl]
    rfl
  rw [atDeclared, htype, hname, hthird, hisType]
  rfl

/-- Where no type comes next, nothing is declared. -/
theorem atDeclared_eq_false {test : Kind → Bool} (h : (Sign.headKind s.signs).isType = false) :
    atDeclared test s.stream = false := by
  rw [← State.kind_current] at h
  rw [atDeclared, show s.stream.current.kind = s.current.kind from rfl, h]
  rfl

/-- Where a declaration is written, a global comes next. -/
theorem atGlobal_of_signs {d : Declaration} {rest : List Sign} (h : s.signs = d.signs ++ rest) :
    atGlobal s.stream = true := by
  unfold Declaration.signs at h
  split at h
  · exact atDeclared_of_signs h
  · exact atDeclared_of_signs h

/-! ### Parts of programs -/

/-- A further global is read exactly where one comes next. -/
theorem took_of_globalItem (hexpr : ReadsExprs n expr) {r : Option Item}
    (h : globalItem expr s = .ok r s') :
    match r with
    | some item => Took n s s' item.signs item.wellFormed item.need ∧ item.isGlobal = true
    | none => s' = s ∧ atGlobal s.stream = false := by
  rw [globalItem_apply] at h
  split at h
  · obtain ⟨d, s₁, hd, h⟩ := ParseM.bind_eq_ok_iff.1 h
    obtain ⟨rfl, rfl⟩ := ParseM.pure_eq_ok_iff.1 h
    have htook := took_of_declaration hexpr hd
    exact ⟨⟨htook.signs_eq, htook.wellFormed, htook.need_le⟩, rfl⟩
  · next hat =>
    cases h
    exact ⟨rfl, by simpa using hat⟩

/-- A further function or statement is read unless the input ends. -/
theorem took_of_laterItem {settings : Settings} {r : Option Item}
    (h : laterItem (.standard settings) n s = .ok r s') :
    match r with
    | some item => Took n s s' item.signs item.wellFormed item.need ∧ item.isGlobal = false
    | none => s' = s ∧ s.signs = [] := by
  rw [laterItem_apply] at h
  split at h
  · next heof =>
    cases h
    exact ⟨rfl, State.signs_eq_nil_iff.2 heof⟩
  · split at h
    · obtain ⟨f, s₁, hf, h⟩ := ParseM.bind_eq_ok_iff.1 h
      obtain ⟨rfl, rfl⟩ := ParseM.pure_eq_ok_iff.1 h
      have htook := took_of_functionWith (readsBlocks_blockAt settings n) hf
      exact ⟨⟨htook.signs_eq, htook.wellFormed, htook.need_le⟩, rfl⟩
    · obtain ⟨st, s₁, hst, h⟩ := ParseM.bind_eq_ok_iff.1 h
      obtain ⟨rfl, rfl⟩ := ParseM.pure_eq_ok_iff.1 h
      have htook := took_of_statementAt hst
      exact ⟨⟨htook.signs_eq, htook.wellFormed, htook.need_le⟩, rfl⟩

/-! ### Programs -/

/-- A program is read with the levels that are free, up to the end of the input. -/
theorem took_of_programAt {settings : Settings} {p : Program}
    (h : programAt (.standard settings) n s = .ok p s') :
    Took n s s' p.signs p.wellFormed p.need ∧ s'.signs = [] := by
  unfold programAt at h
  rw [position_bind] at h
  obtain ⟨globals, s₁, hglobals, h⟩ := ParseM.bind_eq_ok_iff.1 h
  obtain ⟨others, s₂, hothers, h⟩ := ParseM.bind_eq_ok_iff.1 h
  rw [note_bind, position_bind] at h
  obtain ⟨rfl, rfl⟩ := ParseM.pure_eq_ok_iff.1 h
  obtain ⟨hsigns₁, hall₁, hend₁⟩ := signs_of_many
    Item.signs
    (P := fun item => (item.wellFormed ∧ item.need ≤ n) ∧ item.isGlobal = true)
    (E := fun s => atGlobal s.stream = false)
    (fun s item s' hitem => by
      obtain ⟨htook, hglobal⟩ := took_of_globalItem (readsExprs_exprAt settings n) hitem
      exact ⟨htook.signs_eq, item.signs_ne_nil, ⟨htook.wellFormed, htook.need_le⟩, hglobal⟩)
    (fun s s' hnone => by
      obtain ⟨rfl, hat⟩ := took_of_globalItem (readsExprs_exprAt settings n) hnone
      exact ⟨rfl, hat⟩)
    hglobals
  obtain ⟨hsigns₂, hall₂, hend₂⟩ := signs_of_many
    Item.signs
    (P := fun item => (item.wellFormed ∧ item.need ≤ n) ∧ item.isGlobal = false)
    (E := fun s => s.signs = [])
    (fun s item s' hitem => by
      obtain ⟨htook, hglobal⟩ := took_of_laterItem hitem
      exact ⟨htook.signs_eq, item.signs_ne_nil, ⟨htook.wellFormed, htook.need_le⟩, hglobal⟩)
    (fun s s' hnone => by
      obtain ⟨rfl, hnil⟩ := took_of_laterItem hnone
      exact ⟨rfl, hnil⟩)
    hothers
  have hall : ∀ item ∈ globals ++ others, item.wellFormed ∧ item.need ≤ n := by
    intro item hitem
    rcases List.mem_append.1 hitem with hitem | hitem
    · exact (hall₁ item hitem).1
    · exact (hall₂ item hitem).1
  have hbehind : (globals ++ others).dropWhile Item.isGlobal = others := by
    rw [List.dropWhile_append_of_pos fun item hitem => (hall₁ item hitem).2]
    cases others with
    | nil => rfl
    | cons item rest => rw [List.dropWhile_cons_of_neg (by simp [(hall₂ item (by simp)).2])]
  refine ⟨⟨?_, ?_, ?_⟩, hend₂⟩
  · rw [hsigns₁, hsigns₂, Program.signs, List.flatMap_append, List.append_assoc]
    rfl
  · -- A declaration behind the globals would have been read as one of them.
    have hhead : others.head?.any Item.isLateDeclaration = false := by
      cases others with
      | nil => rfl
      | cons item rest =>
        cases item with
        | statement st =>
          cases st with
          | declare d =>
            rw [List.flatMap_cons, List.append_assoc] at hsigns₂
            rw [atGlobal_of_signs (d := d) hsigns₂] at hend₁
            cases hend₁
          | _ => rfl
        | _ => rfl
    simp only [Program.wellFormed, Program.others, hbehind, hhead, Bool.and_eq_true,
      List.all_eq_true]
    refine ⟨⟨fun item hitem => ?_, rfl⟩, fun item hitem => (hall item hitem).1⟩
    rw [(hall₂ item hitem).2]
    rfl
  · exact Item.needList_le_iff.2 fun item hitem => (hall item hitem).2

end Parse

end ImpFront
