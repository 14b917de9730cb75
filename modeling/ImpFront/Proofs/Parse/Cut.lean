import ImpFront.Proofs.Parse.Dispatch
/-!
# ImpFront.Proofs.Parse.Cut

**A production and the same production with fewer levels.** `Cuts limit k p q` says
that `q` is `p` cut off at a limit: wherever fewer than `k` tokens are ahead, `q` ends
as `p` does, unless it runs out of levels first, and then not behind the place where
`p` ends.

The bound `k` is there because `p` itself must not run out of levels. A level is opened
only behind a token that was taken, so with at least `k` levels `p` has enough of them;
taking a token turns the bound `k + 1` into `k`, and no other rule changes it.
-/

namespace ImpFront.Parse

variable {α β : Type} {limit k : Nat}

/-- How a run that is cut off ends, beside the run that is not: `left` tokens were ahead of both at
the start. -/
structure Cut (limit left : Nat) (o o' : Outcome α) : Prop where
  /-- The run does not go back. -/
  forward : o.state.stream.left ≤ left
  /-- What the run refuses is the token it looks at, and never for want of levels. -/
  blames : ∀ e s, o = .error e s → e.position = s.position ∧ ∀ l, e.cause ≠ .nestingTooDeep l
  /-- The other run ends in the same way or is cut off before. -/
  same_or : o' = o ∨ ∃ s, o' = .error ⟨.nestingTooDeep limit, s.position⟩ s
    ∧ o.state.stream.left ≤ s.stream.left

/-- The second production is the first one cut off at the limit, with fewer than `k` tokens
ahead. -/
def Cuts (limit k : Nat) (p p' : ParseM α) : Prop :=
  ∀ s : State, s.stream.left < k → Cut limit s.stream.left (p s) (p' s)

theorem Cuts.mono {p p' : ParseM α} (h : Cuts limit (k + 1) p p') : Cuts limit k p p' :=
  fun s hs => h s (Nat.lt_succ_of_lt hs)

/-! ### Outcomes -/

theorem cut_ok {left : Nat} (a : α) {s : State} (h : s.stream.left ≤ left) :
    Cut limit left (.ok a s) (.ok a s) where
  forward := h
  blames := fun e s hes => by cases hes
  same_or := .inl rfl

theorem cut_error {left : Nat} {e : Diagnostic} {s : State} (h : s.stream.left ≤ left)
    (hposition : e.position = s.position) (hcause : ∀ l, e.cause ≠ .nestingTooDeep l) :
    Cut limit left (.error e s : Outcome α) (.error e s) where
  forward := h
  blames := fun e' s' hes => by
    cases hes
    exact ⟨hposition, hcause⟩
  same_or := .inl rfl

/-- A run may be cut off where it starts. -/
theorem Cut.tooDeep {settings : Settings} {o o' : Outcome α} {s : State}
    (h : Cut settings.maxDepth s.stream.left o o') :
    Cut settings.maxDepth s.stream.left o (Parse.tooDeep (.standard settings) s) where
  forward := h.forward
  blames := h.blames
  same_or := .inr ⟨s, rfl, h.forward⟩

theorem Cut.trans_le {left left' : Nat} {o o' : Outcome α} (h : Cut limit left o o')
    (hle : left ≤ left') : Cut limit left' o o' where
  forward := Nat.le_trans h.forward hle
  blames := h.blames
  same_or := h.same_or

/-! ### Sequences -/

/-- A sequence is cut off where one of its parts is. -/
theorem Cut.bind {p p' : ParseM α} {f f' : α → ParseM β} {s : State}
    (hp : Cut limit s.stream.left (p s) (p' s))
    (hf : ∀ a s₁, p s = .ok a s₁ → Cut limit s₁.stream.left (f a s₁) (f' a s₁)) :
    Cut limit s.stream.left ((p >>= f) s) ((p' >>= f') s) := by
  obtain ⟨hforward, hblames, hsame⟩ := hp
  rw [ParseM.bind_apply, ParseM.bind_apply]
  cases h : p s with
  | error e s₁ =>
    rw [h] at hforward hblames hsame
    obtain ⟨hposition, hcause⟩ := hblames e s₁ rfl
    refine ⟨hforward, fun e' s' hes => ?_, ?_⟩
    · cases hes
      exact ⟨hposition, hcause⟩
    · rcases hsame with hsame | ⟨s₀, hsame, hle⟩
      · exact .inl (by rw [hsame])
      · exact .inr ⟨s₀, by rw [hsame], hle⟩
  | ok a s₁ =>
    rw [h] at hforward hsame
    have hrest := hf a s₁ h
    refine ⟨Nat.le_trans hrest.forward hforward, hrest.blames, ?_⟩
    rcases hsame with hsame | ⟨s₀, hsame, hle⟩
    · rw [hsame]
      exact hrest.same_or
    · -- The second part only goes further, so the cut is before its end as well.
      exact .inr ⟨s₀, by rw [hsame], Nat.le_trans hrest.forward hle⟩

theorem Cuts.bind {p p' : ParseM α} {f f' : α → ParseM β} (hp : Cuts limit k p p')
    (hf : ∀ a, Cuts limit k (f a) (f' a)) : Cuts limit k (p >>= f) (p' >>= f') := by
  intro s hs
  refine Cut.bind (hp s hs) fun a s₁ h => ?_
  have hforward := (hp s hs).forward
  rw [h] at hforward
  exact hf a s₁ (Nat.lt_of_le_of_lt hforward hs)

theorem cuts_pure (a : α) : Cuts limit k (pure a) (pure a) :=
  fun _ _ => cut_ok a (Nat.le_refl _)

/-- A last step that only builds a value. -/
theorem Cuts.map {p p' : ParseM α} (hp : Cuts limit k p p') (f : α → β) :
    Cuts limit k (p >>= fun a => pure (f a)) (p' >>= fun a => pure (f a)) :=
  hp.bind fun a => cuts_pure (f a)

/-! ### Looking -/

theorem Cuts.kind_bind {f f' : Kind → ParseM β} (h : ∀ kd, Cuts limit k (f kd) (f' kd)) :
    Cuts limit k (kind >>= f) (kind >>= f') :=
  fun s hs => h s.current.kind s hs

theorem Cuts.position_bind {f f' : Position → ParseM β} (h : ∀ p, Cuts limit k (f p) (f' p)) :
    Cuts limit k (position >>= f) (position >>= f') :=
  fun s hs => h s.position s hs

/-! ### Taking and refusing -/

theorem Cuts.advance_bind {f f' : Token → ParseM β} (h : ∀ t, Cuts limit k (f t) (f' t)) :
    Cuts limit k (advance >>= f) (advance >>= f') := by
  intro s hs
  have hle : s.next.stream.left ≤ s.stream.left := by
    rw [State.next, s.stream.left_next]
    exact Nat.sub_le _ _
  exact (h s.current s.next (Nat.lt_of_le_of_lt hle hs)).trans_le hle

/-- Behind a token that was taken for its kind, fewer tokens are ahead. -/
theorem Cut.expectOneOf_bind {kinds : List Kind} (hkinds : .eof ∉ kinds)
    {f f' : Token → ParseM β} {s : State}
    (h : s.current.kind ∈ kinds → s.next.stream.left < s.stream.left →
      Cut limit s.next.stream.left (f s.current s.next) (f' s.current s.next)) :
    Cut limit s.stream.left ((expectOneOf kinds >>= f) s) ((expectOneOf kinds >>= f') s) := by
  by_cases hmem : s.current.kind ∈ kinds
  · have htake : expectOneOf kinds s = .ok s.current s.next := by
      rw [expectOneOf, if_pos hmem]
    have hlt : s.next.stream.left < s.stream.left :=
      Stream.left_next_lt fun heof => hkinds (heof ▸ hmem)
    rw [ParseM.bind_of_ok htake, ParseM.bind_of_ok htake]
    exact (h hmem hlt).trans_le (Nat.le_of_lt hlt)
  · have hrefuse : expectOneOf kinds s = .error (refuse s.current kinds) s := by
      rw [expectOneOf, if_neg hmem]
    rw [ParseM.bind_of_error hrefuse, ParseM.bind_of_error hrefuse]
    exact cut_error (Nat.le_refl _) rfl fun l h => by cases h

theorem Cuts.expectOneOf_bind {kinds : List Kind} (hkinds : .eof ∉ kinds)
    {f f' : Token → ParseM β} (h : ∀ t : Token, t.kind ∈ kinds → Cuts limit k (f t) (f' t)) :
    Cuts limit (k + 1) (expectOneOf kinds >>= f) (expectOneOf kinds >>= f') := by
  intro s hs
  refine Cut.expectOneOf_bind hkinds fun hmem hlt => ?_
  exact h s.current hmem s.next (by omega)

theorem Cuts.expect_bind {kd : Kind} (hkd : kd ≠ .eof) {f f' : Token → ParseM β}
    (h : ∀ t, Cuts limit k (f t) (f' t)) :
    Cuts limit (k + 1) (expect kd >>= f) (expect kd >>= f') := by
  have hkinds : Kind.eof ∉ [kd] := by simpa using Ne.symm hkd
  exact Cuts.expectOneOf_bind hkinds fun t _ => h t

/-! ### Levels -/

theorem Cuts.nested {p p' : ParseM α} (h : Cuts limit k p p') :
    Cuts limit k (nested p) (nested p') := by
  intro s hs
  -- Going a level down and back up moves no token and no error.
  obtain ⟨hforward, hblames, hsame⟩ := h s.deeper hs
  unfold Parse.nested
  cases hp : p s.deeper with
  | ok a s₁ =>
    rw [hp] at hforward hsame
    refine ⟨hforward, fun e s' hes => (by cases hes), ?_⟩
    rcases hsame with hsame | ⟨s₀, hsame, hle⟩
    · exact .inl (by rw [hsame])
    · exact .inr ⟨s₀.shallower, by rw [hsame]; rfl, hle⟩
  | error e s₁ =>
    rw [hp] at hforward hsame
    refine ⟨hforward, fun e' s' hes => ?_, ?_⟩
    · cases hes
      exact hblames e s₁ hp
    · rcases hsame with hsame | ⟨s₀, hsame, hle⟩
      · exact .inl (by rw [hsame])
      · exact .inr ⟨s₀.shallower, by rw [hsame]; rfl, hle⟩

/-! ### Repetition -/

/-- A loop as its first round and what follows the round. -/
theorem iterate_eq_bind (round : α → ParseM (Option α)) (a : α) (s : State) :
    iterate round a s = (round a >>= fun r s₁ =>
      match r with
      | none => .ok a s₁
      | some b => if s₁.stream.left < s.stream.left then iterate round b s₁ else .ok b s₁) s := by
  rw [iterate_eq, ParseM.bind_apply]
  cases round a s with
  | error e s₁ => rfl
  | ok r s₁ => cases r <;> rfl

/-- A loop is cut off where one of its rounds is. -/
theorem Cuts.iterate {round round' : α → ParseM (Option α)}
    (h : ∀ a, Cuts limit k (round a) (round' a)) (a : α) :
    Cuts limit k (iterate round a) (iterate round' a) := by
  intro s hs
  -- Both loops run on where a round took a token, so the induction is on the tokens ahead.
  induction hn : s.stream.left using Nat.strongRecOn generalizing a s with
  | ind n ih =>
    subst hn
    rw [iterate_eq_bind, iterate_eq_bind round']
    refine Cut.bind (h a s hs) fun r s₁ _ => ?_
    cases r with
    | none => exact cut_ok a (Nat.le_refl _)
    | some b =>
      dsimp only
      by_cases hlt : s₁.stream.left < s.stream.left
      · rw [if_pos hlt, if_pos hlt]
        exact ih _ hlt b s₁ (Nat.lt_trans hlt hs) rfl
      · rw [if_neg hlt, if_neg hlt]
        exact cut_ok b (Nat.le_refl _)

theorem Cuts.many {item item' : ParseM (Option α)} (h : Cuts limit k item item') :
    Cuts limit k (many item) (many item') := by
  refine Cuts.map (Cuts.iterate (fun found => ?_) []) List.reverse
  refine h.bind fun r => ?_
  cases r with
  | none => exact cuts_pure _
  | some a => exact cuts_pure _

end ImpFront.Parse
