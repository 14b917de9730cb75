import ImpFront.Proofs.Parse.Dispatch
/-!
# ImpFront.Proofs.Parse.Keeps

**What every production keeps, whether it succeeds or fails**: the tokens, of which it
takes some and goes back behind none, and the limit on the levels that are open.

`Keeps limit n p` says so of a production `p` that may open `n` levels. A success gives
back the levels that were opened, so what follows has as many of them; a failure may leave
levels open, but no more than the limit allows. The rules below take a production apart
step by step; none of them asks what a token is.
-/

namespace ImpFront

/-! ### Tokens taken -/

namespace Stream

/-- Between the two places these tokens were taken, and nothing else about the tokens has
changed. -/
structure Taken (read : List Token) (s s' : Stream) : Prop where
  ahead_eq : s.ahead = read ++ s'.ahead
  stop_eq : s'.stop = s.stop
  beyond_eq : s'.beyond = s.beyond
  lastStop_eq : s'.lastStop = (read.getLast?.map (·.span.stop)).or s.lastStop

variable {read read' : List Token} {s s₁ s₂ : Stream}

theorem Taken.refl (s : Stream) : Taken [] s s := ⟨rfl, rfl, rfl, rfl⟩

theorem Taken.trans (h : Taken read s s₁) (h' : Taken read' s₁ s₂) :
    Taken (read ++ read') s s₂ := by
  refine ⟨?_, h'.stop_eq.trans h.stop_eq, h'.beyond_eq.trans h.beyond_eq, ?_⟩
  · rw [h.ahead_eq, h'.ahead_eq, List.append_assoc]
  · rw [h'.lastStop_eq, h.lastStop_eq, List.getLast?_append, Option.map_or, Option.or_assoc]

/-- The current token is taken, unless it is the end of the input. -/
theorem exists_taken_next (s : Stream) : ∃ read, Taken read s s.next := by
  unfold next
  split
  · exact ⟨[], .refl s⟩
  · next t rest hcons => exact ⟨[t], hcons, rfl, rfl, rfl⟩

end Stream

namespace Parse

variable {α β : Type} {limit n : Nat} {s : State}

/-! ### Outcomes -/

/-- A run keeps to the tokens and to the limit. A success leaves as many levels open as there were
at the start. -/
structure Kept (limit : Nat) (s : State) (o : Outcome α) : Prop where
  exists_taken : ∃ read, s.stream.Taken read o.state.stream
  depth_eq : ∀ a s', o = .ok a s' → s'.depth = s.depth
  depth_le : o.state.depth ≤ limit

/-- The production keeps to the tokens and to the limit, wherever `n` levels are free. -/
def Keeps (limit n : Nat) (p : ParseM α) : Prop :=
  ∀ s : State, s.depth + n ≤ limit → Kept limit s (p s)

theorem kept_ok {s' : State} (a : α) (htaken : ∃ read, s.stream.Taken read s'.stream)
    (hdepth : s'.depth = s.depth) (hle : s.depth ≤ limit) : Kept limit s (.ok a s') where
  exists_taken := htaken
  depth_eq := fun b s₁ h => by
    cases h
    exact hdepth
  depth_le := Nat.le_trans (Nat.le_of_eq hdepth) hle

theorem kept_error {s' : State} (e : Diagnostic) (htaken : ∃ read, s.stream.Taken read s'.stream)
    (hle : s'.depth ≤ limit) : Kept limit s (.error e s' : Outcome α) where
  exists_taken := htaken
  depth_eq := fun b s₁ h => by cases h
  depth_le := hle

/-- What is kept from a later state on is kept from the state before it. -/
theorem Kept.of_taken {s₁ : State} {o : Outcome α} (h : Kept limit s₁ o)
    (htaken : ∃ read, s.stream.Taken read s₁.stream) (hdepth : s₁.depth = s.depth) : Kept limit s o := by
  obtain ⟨read, hread⟩ := htaken
  obtain ⟨read', hread'⟩ := h.exists_taken
  exact ⟨⟨_, hread.trans hread'⟩, fun a s' ho => (h.depth_eq a s' ho).trans hdepth, h.depth_le⟩

/-! ### Sequences -/

theorem Kept.bind {p : ParseM α} {f : α → ParseM β} (hp : Kept limit s (p s))
    (hf : ∀ a s₁, p s = .ok a s₁ → Kept limit s₁ (f a s₁)) : Kept limit s ((p >>= f) s) := by
  rw [ParseM.bind_apply]
  cases h : p s with
  | error e s₁ =>
    rw [h] at hp
    exact kept_error e hp.exists_taken hp.depth_le
  | ok a s₁ =>
    rw [h] at hp
    exact (hf a s₁ h).of_taken hp.exists_taken (hp.depth_eq a s₁ rfl)

/-- A sequence keeps what its parts keep: the second part has the levels that the first had. -/
theorem Keeps.bind {p : ParseM α} {f : α → ParseM β} (hp : Keeps limit n p)
    (hf : ∀ a, Keeps limit n (f a)) : Keeps limit n (p >>= f) := by
  intro s hs
  refine Kept.bind (hp s hs) fun a s₁ h => hf a s₁ ?_
  rw [(hp s hs).depth_eq a s₁ h]
  exact hs

theorem keeps_pure (a : α) : Keeps limit n (pure a) :=
  fun _ hs => kept_ok a ⟨[], .refl _⟩ rfl (Nat.le_of_add_right_le hs)

/-- A last step that only builds a value. -/
theorem Keeps.map {p : ParseM α} (hp : Keeps limit n p) (f : α → β) :
    Keeps limit n (p >>= fun a => pure (f a)) :=
  hp.bind fun a => keeps_pure (f a)

/-! ### Looking and taking -/

theorem Keeps.kind_bind {f : Kind → ParseM β} (h : ∀ k, Keeps limit n (f k)) :
    Keeps limit n (kind >>= f) :=
  fun s hs => h s.current.kind s hs

theorem Keeps.peekKind_bind {places : Nat} {f : Kind → ParseM β} (h : ∀ k, Keeps limit n (f k)) :
    Keeps limit n (peekKind places >>= f) :=
  fun s hs => h (s.stream.peek places).kind s hs

theorem Keeps.current_bind {f : Token → ParseM β} (h : ∀ t, Keeps limit n (f t)) :
    Keeps limit n (current >>= f) :=
  fun s hs => h s.current s hs

theorem Keeps.position_bind {f : Position → ParseM β} (h : ∀ p, Keeps limit n (f p)) :
    Keeps limit n (position >>= f) :=
  fun s hs => h s.position s hs

theorem Keeps.note_bind {remark : Note} {f : Unit → ParseM β} (h : Keeps limit n (f ())) :
    Keeps limit n (note remark >>= f) :=
  fun s hs => (h (remarked remark s) hs).of_taken ⟨[], .refl _⟩ rfl

theorem keeps_advance : Keeps limit n advance :=
  fun s hs => kept_ok _ s.stream.exists_taken_next rfl (Nat.le_of_add_right_le hs)

theorem keeps_expectOneOf (kinds : List Kind) : Keeps limit n (expectOneOf kinds) := by
  intro s hs
  have hle := Nat.le_of_add_right_le hs
  unfold expectOneOf
  split
  · exact kept_ok _ s.stream.exists_taken_next rfl hle
  · exact kept_error _ ⟨[], .refl _⟩ hle

theorem keeps_expect (k : Kind) : Keeps limit n (expect k) := keeps_expectOneOf [k]

/-! ### Refusing -/

theorem keeps_fail (e : Diagnostic) : Keeps limit n (ParseM.fail e : ParseM α) :=
  fun _ hs => kept_error e ⟨[], .refl _⟩ (Nat.le_of_add_right_le hs)

theorem keeps_unexpected (kinds : List Kind) : Keeps limit n (unexpected kinds : ParseM α) :=
  fun _ hs => kept_error _ ⟨[], .refl _⟩ (Nat.le_of_add_right_le hs)

theorem keeps_tooDeep (R : Rules) : Keeps limit n (tooDeep R : ParseM α) :=
  fun _ hs => kept_error _ ⟨[], .refl _⟩ (Nat.le_of_add_right_le hs)

/-! ### Levels -/

/-- What is read in a level of its own gives the level back in any case. -/
theorem Keeps.nested {p : ParseM α} (h : Keeps limit n p) : Keeps limit (n + 1) (nested p) := by
  intro s hs
  have hinside : s.deeper.depth + n ≤ limit := by
    show s.depth + 1 + n ≤ limit
    omega
  have hkept := h s.deeper hinside
  unfold Parse.nested
  cases hp : p s.deeper with
  | ok a s₁ =>
    rw [hp] at hkept
    refine kept_ok a hkept.exists_taken ?_ (Nat.le_of_add_right_le hs)
    rw [State.shallower, hkept.depth_eq a s₁ rfl]
    rfl
  | error e s₁ =>
    rw [hp] at hkept
    exact kept_error e hkept.exists_taken (Nat.le_trans (Nat.sub_le _ _) hkept.depth_le)

/-- What is read behind an opening that is closed at the end gives the level back if it succeeds. -/
theorem Keeps.opened {γ : Type} {p : ParseM α} {q : α → ParseM β} (hp : Keeps limit n p)
    (hq : ∀ a, Keeps limit n (q a)) (f : α → β → γ) :
    Keeps limit (n + 1)
      (deeper >>= fun _ => p >>= fun a => q a >>= fun b => shallower >>= fun _ => pure (f a b)) := by
  intro s hs
  have hinside : s.deeper.depth + n ≤ limit := by
    show s.depth + 1 + n ≤ limit
    omega
  have hkept := (hp.bind fun a => (hq a).map (f a)) s.deeper hinside
  rw [deeper_bind]
  rw [ParseM.bind_apply] at hkept ⊢
  cases ha : p s.deeper with
  | error e s₁ =>
    rw [ha] at hkept
    exact kept_error e hkept.exists_taken hkept.depth_le
  | ok a s₁ =>
    rw [ha] at hkept
    dsimp only at hkept ⊢
    rw [ParseM.bind_apply] at hkept ⊢
    cases hb : q a s₁ with
    | error e s₂ =>
      rw [hb] at hkept
      exact kept_error e hkept.exists_taken hkept.depth_le
    | ok b s₂ =>
      rw [hb] at hkept
      refine kept_ok _ hkept.exists_taken ?_ (Nat.le_of_add_right_le hs)
      show s₂.depth - 1 = s.depth
      rw [hkept.depth_eq _ s₂ rfl]
      rfl

/-! ### Repetition -/

/-- A loop keeps what each of its rounds keeps. -/
theorem Keeps.iterate {round : α → ParseM (Option α)} (h : ∀ a, Keeps limit n (round a)) (a : α) :
    Keeps limit n (iterate round a) := by
  refine iterate_of_rounds (J := fun s o => s.depth + n ≤ limit → Kept limit s o)
    (fun a s e s₁ hr => ?_) (fun a s r s₁ hr => ?_) (fun a s b s₁ o hr ho => ?_) a
  all_goals
    intro hs
    have hround := h a s hs
    rw [hr] at hround
  · exact kept_error e hround.exists_taken hround.depth_le
  · exact kept_ok _ hround.exists_taken (hround.depth_eq r s₁ rfl) (Nat.le_of_add_right_le hs)
  · have hdepth := hround.depth_eq (some b) s₁ rfl
    exact (ho (by rw [hdepth]; exact hs)).of_taken hround.exists_taken hdepth

theorem Keeps.many {item : ParseM (Option α)} (h : Keeps limit n item) :
    Keeps limit n (many item) := by
  refine Keeps.map (Keeps.iterate (fun found => ?_) []) List.reverse
  refine h.bind fun r => ?_
  cases r with
  | none => exact keeps_pure _
  | some a => exact keeps_pure _

end Parse

end ImpFront
