import ImpFront.Proofs.Parse.Dispatch
/-!
# ImpFront.Proofs.Parse.Yields

**Productions that cannot fail on their own signs.** `Yields p u rest P` says that
where the signs `u` come next and `rest` behind them, `p` succeeds, takes exactly
`u`, and its value satisfies `P`.

The judgement mentions `rest` because a production decides by what follows. It
composes along sequences, so the proof for a production has one step for each of
its own.
-/

namespace ImpFront.Parse

variable {α β : Type}

/-- The production reads exactly the signs `u` where `rest` follows, with a value that satisfies
`P`. -/
def Yields (p : ParseM α) (u rest : List Sign) (P : α → Prop) : Prop :=
  ∀ s : State, s.signs = u ++ rest → ∃ a s', p s = .ok a s' ∧ P a ∧ s'.signs = rest

variable {u v rest : List Sign} {P : α → Prop} {Q : β → Prop}

/-! ### Sequences -/

theorem Yields.bind {p : ParseM α} {f : α → ParseM β} (hp : Yields p u (v ++ rest) P)
    (hf : ∀ a, P a → Yields (f a) v rest Q) : Yields (p >>= f) (u ++ v) rest Q := by
  intro s hs
  rw [List.append_assoc] at hs
  obtain ⟨a, s₁, hpa, hP, hs₁⟩ := hp s hs
  obtain ⟨b, s₂, hfb, hQ, hs₂⟩ := hf a hP s₁ hs₁
  exact ⟨b, s₂, ParseM.bind_eq_ok_iff.2 ⟨a, s₁, hpa, hfb⟩, hQ, hs₂⟩

theorem yields_pure {a : α} (h : P a) : Yields (pure a) [] rest P :=
  fun s hs => ⟨a, s, rfl, h, hs⟩

/-- A last step that only builds a value. -/
theorem Yields.map {p : ParseM α} {f : α → β} (hp : Yields p u rest P)
    (hf : ∀ a, P a → Q (f a)) : Yields (p >>= fun a => pure (f a)) u rest Q := by
  intro s hs
  obtain ⟨a, s₁, hpa, hP, hs₁⟩ := hp s hs
  exact ⟨f a, s₁, ParseM.bind_eq_ok_iff.2 ⟨a, s₁, hpa, rfl⟩, hf a hP, hs₁⟩

/-! ### Looking -/

theorem Yields.kind_bind {k : Kind} {f : Kind → ParseM β} (hk : Sign.headKind (u ++ rest) = k)
    (h : Yields (f k) u rest Q) : Yields (kind >>= f) u rest Q := by
  intro s hs
  rw [Parse.kind_bind, State.kind_current, hs, hk]
  exact h s hs

theorem Yields.position_bind {f : Position → ParseM β} (h : ∀ p, Yields (f p) u rest Q) :
    Yields (position >>= f) u rest Q :=
  fun s hs => h s.position s hs

theorem Yields.peekKind_bind {k : Kind} {f : Kind → ParseM β} {sign : Sign}
    (hk : Sign.headKind (u ++ rest) = k) (h : Yields (f k) (sign :: u) rest Q) :
    Yields (peekKind 1 >>= f) (sign :: u) rest Q := by
  intro s hs
  have hpeek : (s.stream.peek 1).kind = k := (State.kind_peek_one sign hs).trans hk
  rw [Parse.peekKind_bind, hpeek]
  exact h s hs

/-! ### Taking -/

theorem Yields.advance_bind {f : Token → ParseM β} {sign : Sign} (hsign : sign.kind ≠ .eof)
    (h : ∀ t : Token, t.sign = sign → Yields (f t) u rest Q) :
    Yields (advance >>= f) (sign :: u) rest Q := by
  intro s hs
  have hkind : s.current.kind = sign.kind := by rw [State.kind_current, hs]; rfl
  rw [State.signs_eq_cons (hkind ▸ hsign)] at hs
  obtain ⟨hcurrent, hnext⟩ := List.cons.inj hs
  exact h _ hcurrent _ hnext

theorem Yields.expectOneOf_bind {kinds : List Kind} {f : Token → ParseM β} {sign : Sign}
    (hmem : sign.kind ∈ kinds) (hsign : sign.kind ≠ .eof)
    (h : ∀ t : Token, t.sign = sign → Yields (f t) u rest Q) :
    Yields (expectOneOf kinds >>= f) (sign :: u) rest Q := by
  intro s hs
  have hkind : s.current.kind = sign.kind := by rw [State.kind_current, hs]; rfl
  obtain ⟨b, s', hb, hQ, hrest⟩ := Yields.advance_bind hsign h s hs
  refine ⟨b, s', ?_, hQ, hrest⟩
  exact ParseM.bind_eq_ok_iff.2
    ⟨s.current, s.next, expectOneOf_eq_ok_iff.2 ⟨hkind ▸ hmem, rfl, rfl⟩, hb⟩

/-- A kind with one spelling is taken where its sign stands. -/
theorem Yields.expect_bind {k : Kind} {f : Token → ParseM β} (hk : k ≠ .eof)
    (h : ∀ t, Yields (f t) u rest Q) : Yields (expect k >>= f) (.fixed k :: u) rest Q :=
  Yields.expectOneOf_bind (List.mem_singleton.2 rfl) hk fun t _ => h t

/-- A name is taken where its sign stands. -/
theorem Yields.name_bind {name : String} {f : Token → ParseM β}
    (h : ∀ t : Token, t.text = name → Yields (f t) u rest Q) :
    Yields (expect .identifier >>= f) (.name name :: u) rest Q :=
  Yields.expectOneOf_bind (List.mem_singleton.2 rfl) (by simp)
    fun t ht => h t (Token.text_of_sign_eq_name ht)

/-! ### Repetition -/

/-- A repetition reads items one after the other: where each is read in front of any others, and
where none is read at the end. What is read has the same keys. -/
theorem yields_many {κ : Type} {item : ParseM (Option α)} {as : List α} (signs : α → List Sign)
    (key : α → κ) (hne : ∀ a ∈ as, signs a ≠ [])
    (hitem : ∀ a ∈ as, ∀ behind : List α, Yields item (signs a) (behind.flatMap signs ++ rest)
      fun r => ∃ a', r = some a' ∧ key a' = key a)
    (hend : Yields item [] rest (· = none)) :
    Yields (many item) (as.flatMap signs) rest (·.map key = as.map key) := by
  induction as with
  | nil =>
    intro s hs
    obtain ⟨r, s', hr, rfl, hs'⟩ := hend s hs
    refine ⟨[], s', ?_, rfl, hs'⟩
    rw [many_eq, hr]
  | cons a behind ih =>
    rw [List.forall_mem_cons] at hne hitem
    intro s hs
    rw [List.flatMap_cons, List.append_assoc] at hs
    obtain ⟨r, s₁, hr, ⟨a', rfl, hkey⟩, hs₁⟩ := hitem.1 behind s hs
    obtain ⟨behind', s₂, hmany, hkeys, hs₂⟩ := ih hne.2 hitem.2 s₁ hs₁
    -- Every item has signs, so the repetition makes progress.
    have hlt : s₁.stream.left < s.stream.left := State.left_lt_of_signs hne.1 (by rw [hs, hs₁])
    refine ⟨a' :: behind', s₂, ?_, List.cons_eq_cons.2 ⟨hkey, hkeys⟩, hs₂⟩
    rw [many_eq, hr]
    dsimp only
    rw [if_pos hlt, hmany]

end ImpFront.Parse
