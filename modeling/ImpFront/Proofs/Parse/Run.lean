import ImpFront.Parse.Program
import ImpFront.Proofs.Syntax.Signs
/-!
# ImpFront.Proofs.Parse.Run

**Runs of productions**, taken apart step by step: what a successful sequence went
through, what each elementary step does, and what a loop keeps.

What is ahead of a state is seen as a list of *signs* (`State.signs`), because no
production looks at anything else. The end of the input shows as the empty list.
-/

namespace ImpFront

/-! ### The signs ahead of a state -/

/-- At the start of a parse, the tokens up to the first end of the input are ahead. -/
theorem Stream.ahead_ofTokens (tokens : List Token) :
    (ofTokens tokens).ahead = tokens.takeWhile (·.kind ≠ .eof) := by
  have hend : (missingEnd tokens).takeWhile (·.kind ≠ .eof) = [] := by
    unfold missingEnd
    split <;> rfl
  show (tokens ++ missingEnd tokens).takeWhile (·.kind ≠ .eof) = _
  rw [List.takeWhile_append, hend]
  split
  · next hlen =>
    rw [List.append_nil]
    exact ((List.takeWhile_sublist _).eq_of_length hlen).symm
  · rfl

namespace State

/-- The signs between a state and the end of the input. -/
def signs (s : State) : List Sign := s.stream.ahead.map Token.sign

@[simp] theorem signs_deeper (s : State) : s.deeper.signs = s.signs := rfl

@[simp] theorem signs_shallower (s : State) : s.shallower.signs = s.signs := rfl

theorem signs_ofTokens (tokens : List Token) :
    (ofTokens tokens).signs = (tokens.takeWhile (·.kind ≠ .eof)).map Token.sign :=
  congrArg (List.map Token.sign) (Stream.ahead_ofTokens tokens)

/-- Tokens that say the same have the same signs ahead. -/
theorem signs_ofTokens_congr {tokens tokens' : List Token}
    (h : tokens.map Token.sign = tokens'.map Token.sign) :
    (ofTokens tokens).signs = (ofTokens tokens').signs := by
  have hahead (l : List Token) : (ofTokens l).signs
      = (l.map Token.sign).takeWhile (·.kind ≠ .eof) := by
    rw [signs_ofTokens, List.takeWhile_map]
    simp only [Function.comp_def, Token.kind_sign]
  rw [hahead, hahead, h]

theorem length_signs (s : State) : s.signs.length = s.stream.left := by
  rw [signs, List.length_map, s.stream.left_eq]

theorem signs_next (s : State) : s.next.signs = s.signs.tail := by
  rw [signs, signs, next, Stream.ahead_next, List.map_tail]

/-- The current token is of the kind at the front. -/
theorem kind_current (s : State) : s.current.kind = Sign.headKind s.signs := by
  unfold current Stream.current signs
  cases h : s.stream.ahead with
  | nil => simpa using s.stream.stop_eof
  | cons t rest => simp

theorem signs_eq_nil_iff {s : State} : s.signs = [] ↔ s.current.kind = .eof := by
  rw [signs, List.map_eq_nil_iff]
  exact s.stream.current_kind_eq_eof_iff.symm

/-- Unless the input ends, the current token is the first sign. -/
theorem signs_eq_cons {s : State} (h : s.current.kind ≠ .eof) :
    s.signs = s.current.sign :: s.next.signs := by
  have hne : s.stream.ahead ≠ [] := fun hnil => h (s.stream.current_kind_eq_eof_iff.2 hnil)
  obtain ⟨t, rest, hcons⟩ := List.exists_cons_of_ne_nil hne
  rw [signs_next, signs, current, Stream.current, hcons]
  rfl

theorem left_lt_of_signs {s s' : State} {u : List Sign} (hu : u ≠ [])
    (h : s.signs = u ++ s'.signs) : s'.stream.left < s.stream.left := by
  have hlen := congrArg List.length h
  have hpos := List.length_pos_iff.2 hu
  rw [List.length_append, length_signs, length_signs] at hlen
  omega

/-- Looking ahead within the input sees the signs. -/
theorem kind_peek {s : State} {n : Nat} (h : n ≤ s.signs.length) :
    (s.stream.peek n).kind = Sign.headKind (s.signs.drop n) := by
  rw [length_signs, s.stream.left_eq] at h
  rw [signs, ← List.map_drop, Stream.peek]
  cases hget : s.stream.ahead[n]? with
  | some t =>
    have hlt : n < s.stream.ahead.length := (List.getElem?_eq_some_iff.1 hget).1
    rw [List.drop_eq_getElem_cons hlt, List.map_cons, Sign.headKind_cons, Token.kind_sign]
    exact congrArg Token.kind (List.getElem?_eq_some_iff.1 hget).2.symm
  | none =>
    have hle : s.stream.ahead.length ≤ n := List.getElem?_eq_none_iff.1 hget
    have hzero : n - s.stream.left = 0 := by rw [s.stream.left_eq]; omega
    rw [List.drop_eq_nil_of_le hle, hzero]
    exact s.stream.stop_eof

/-- The token after one that is no end of the input. -/
theorem kind_peek_one {s : State} (sign : Sign) {rest : List Sign}
    (h : s.signs = sign :: rest) :
    (s.stream.peek 1).kind = Sign.headKind rest := by
  rw [kind_peek (by rw [h]; simp), h]
  rfl

/-- Unless the input ends, looking ahead sees what comes next. -/
theorem kind_current_next {s : State} (h : s.current.kind ≠ .eof) :
    s.next.current.kind = (s.stream.peek 1).kind := by
  rw [kind_current, kind_peek_one _ (signs_eq_cons h)]

end State

/-! ### Sequences -/

namespace ParseM

variable {α β : Type}

/-- A sequence succeeds when both parts do. -/
theorem bind_eq_ok_iff {p : ParseM α} {f : α → ParseM β} {s s' : State} {b : β} :
    (p >>= f) s = .ok b s' ↔ ∃ a s₁, p s = .ok a s₁ ∧ f a s₁ = .ok b s' := by
  rw [bind_apply]
  constructor
  · intro h
    split at h
    · next a s₁ hp => exact ⟨a, s₁, hp, h⟩
    · cases h
  · rintro ⟨a, s₁, hp, hf⟩
    rw [hp]
    exact hf

theorem pure_eq_ok_iff {a b : α} {s s' : State} :
    (pure a : ParseM α) s = .ok b s' ↔ a = b ∧ s = s' := by
  simp

end ParseM

namespace Parse

variable {α β : Type}

/-! ### Elementary steps -/

@[simp] theorem kind_bind (f : Kind → ParseM β) (s : State) :
    (kind >>= f) s = f s.current.kind s := rfl

@[simp] theorem current_bind (f : Token → ParseM β) (s : State) :
    (current >>= f) s = f s.current s := rfl

@[simp] theorem position_bind (f : Position → ParseM β) (s : State) :
    (position >>= f) s = f s.position s := rfl

@[simp] theorem peekKind_bind (n : Nat) (f : Kind → ParseM β) (s : State) :
    (peekKind n >>= f) s = f (s.stream.peek n).kind s := rfl

@[simp] theorem advance_bind (f : Token → ParseM β) (s : State) :
    (advance >>= f) s = f s.current s.next := rfl

@[simp] theorem lookingAt_bind (test : Stream → Bool) (f : Bool → ParseM β) (s : State) :
    (lookingAt test >>= f) s = f (test s.stream) s := rfl

@[simp] theorem nameAhead_bind (f : String → ParseM β) (s : State) :
    (nameAhead >>= f) s = f (s.stream.peek 1).text s := rfl

@[simp] theorem deeper_bind (f : Unit → ParseM β) (s : State) :
    (deeper >>= f) s = f () s.deeper := rfl

@[simp] theorem shallower_bind (f : Unit → ParseM β) (s : State) :
    (shallower >>= f) s = f () s.shallower := rfl

/-- The state with one more remark. -/
def remarked (n : Note) (s : State) : State := { s with notes := n :: s.notes }

@[simp] theorem note_bind (n : Note) (f : Unit → ParseM β) (s : State) :
    (note n >>= f) s = f () (remarked n s) := rfl

theorem expectOneOf_eq_ok_iff {kinds : List Kind} {t : Token} {s s' : State} :
    expectOneOf kinds s = .ok t s' ↔ s.current.kind ∈ kinds ∧ s.current = t ∧ s.next = s' := by
  unfold expectOneOf
  split <;> simp_all

/-- A token taken for its kind is the first sign. -/
theorem signs_of_expectOneOf {kinds : List Kind} {t : Token} {s s' : State}
    (h : expectOneOf kinds s = .ok t s') (hkinds : .eof ∉ kinds) :
    t.kind ∈ kinds ∧ s.signs = t.sign :: s'.signs := by
  obtain ⟨hmem, rfl, rfl⟩ := expectOneOf_eq_ok_iff.1 h
  exact ⟨hmem, State.signs_eq_cons fun heof => hkinds (heof ▸ hmem)⟩

/-- Taking a kind with one spelling takes its sign. -/
theorem signs_of_expect {k : Kind} {t : Token} {s s' : State} (h : expect k s = .ok t s')
    (hk : k.spelling? = some k.describe) : s.signs = .fixed k :: s'.signs := by
  have hne : Kind.eof ∉ [k] := by rintro hmem; rw [← List.mem_singleton.1 hmem] at hk; cases hk
  obtain ⟨hkind, hsigns⟩ := signs_of_expectOneOf h hne
  rw [hsigns, Token.sign_of_spelled (List.mem_singleton.1 hkind) hk]

/-- Taking a name takes the sign of that name. -/
theorem signs_of_expect_name {t : Token} {s s' : State}
    (h : expect .identifier s = .ok t s') : s.signs = .name t.text :: s'.signs := by
  obtain ⟨hkind, hsigns⟩ := signs_of_expectOneOf h (by decide)
  rw [hsigns, Token.sign_of_unspelled (List.mem_singleton.1 hkind) rfl]
  rfl

/-- Taking a token whose kind is known to have one spelling. -/
theorem signs_of_kind {s : State} {k : Kind} (h : s.current.kind = k)
    (hk : k.spelling? = some k.describe) : s.signs = .fixed k :: s.next.signs := by
  have hne : s.current.kind ≠ .eof := by rintro heof; rw [← h, heof] at hk; cases hk
  rw [State.signs_eq_cons hne, Token.sign_of_spelled h hk]

/-- What is read in a level of its own is read from the same signs. -/
theorem nested_eq_ok_iff {p : ParseM α} {a : α} {s s' : State} :
    nested p s = .ok a s' ↔ ∃ s₁, p s.deeper = .ok a s₁ ∧ s₁.shallower = s' := by
  unfold nested
  constructor
  · intro h
    split at h
    · next b s₁ hp =>
      cases h
      exact ⟨s₁, hp, rfl⟩
    · cases h
  · rintro ⟨s₁, hp, rfl⟩
    rw [hp]

/-! ### Loops -/

/-- What holds of a loop that fails or ends with a round, and passes from the state behind a round
to the state before it, holds of the loop. -/
theorem iterate_of_rounds {round : α → ParseM (Option α)} {J : State → Outcome α → Prop}
    (hfail : ∀ a s e s₁, round a s = .error e s₁ → J s (.error e s₁))
    (hend : ∀ a s r s₁, round a s = .ok r s₁ → J s (.ok (r.getD a) s₁))
    (hmore : ∀ a s b s₁ o, round a s = .ok (some b) s₁ → J s₁ o → J s o) (a : α) (s : State) :
    J s (iterate round a s) := by
  -- The loop goes on where a round took a token, so the induction is on the tokens ahead.
  induction hn : s.stream.left using Nat.strongRecOn generalizing a s with
  | ind left ih =>
    subst hn
    rw [iterate_eq]
    cases hr : round a s with
    | error e s₁ => exact hfail a s e s₁ hr
    | ok r s₁ =>
      cases r with
      | none => exact hend a s none s₁ hr
      | some b =>
        dsimp only
        split
        · next hlt => exact hmore a s b s₁ _ hr (ih _ hlt b s₁ rfl)
        · exact hend a s (some b) s₁ hr

/-- A loop whose rounds keep an invariant and consume something ends where a round declines. -/
theorem exists_of_iterate_eq_ok {round : α → ParseM (Option α)} {I : α → State → Prop}
    (hround : ∀ a s b s', I a s → round a s = .ok (some b) s' →
      I b s' ∧ s'.stream.left < s.stream.left)
    {a b : α} {s s' : State} (hI : I a s) (h : iterate round a s = .ok b s') :
    ∃ s₁, I b s₁ ∧ round b s₁ = .ok none s' := by
  -- A round consumes something, so the induction is on what is left of the input.
  induction hn : s.stream.left using Nat.strongRecOn generalizing a s with
  | ind n ih =>
    subst hn
    rw [iterate_eq] at h
    split at h
    · cases h
    · next s₁ hr =>
      cases h
      exact ⟨s, hI, hr⟩
    · next c s₁ hr =>
      obtain ⟨hI', hlt⟩ := hround a s c s₁ hI hr
      rw [if_pos hlt] at h
      exact ih _ hlt hI' h rfl

/-- The items of a repetition one after the other: each takes its signs and satisfies `P`, and
where the repetition ends, `E` holds. -/
theorem signs_of_many {item : ParseM (Option α)} (signs : α → List Sign) {P : α → Prop}
    {E : State → Prop}
    (hsome : ∀ s a s', item s = .ok (some a) s' →
      s.signs = signs a ++ s'.signs ∧ signs a ≠ [] ∧ P a)
    (hnone : ∀ s s', item s = .ok none s' → s'.signs = s.signs ∧ E s')
    {as : List α} {s s' : State} (h : many item s = .ok as s') :
    s.signs = as.flatMap signs ++ s'.signs ∧ (∀ a ∈ as, P a) ∧ E s' := by
  induction hn : s.stream.left using Nat.strongRecOn generalizing as s with
  | ind n ih =>
    subst hn
    rw [many_eq] at h
    split at h
    · cases h
    · next s₁ hitem =>
      cases h
      obtain ⟨hsigns, hE⟩ := hnone s s' hitem
      exact ⟨by rw [hsigns]; rfl, by simp, hE⟩
    · next a s₁ hitem =>
      obtain ⟨hsigns, hne, hP⟩ := hsome s a s₁ hitem
      -- An item has a sign, so the check for progress passes and the rest is read.
      have hlt := State.left_lt_of_signs hne hsigns
      rw [if_pos hlt] at h
      split at h
      · next as' s₂ hmany =>
        cases h
        obtain ⟨hrest, hPs, hE⟩ := ih _ hlt hmany rfl
        refine ⟨?_, ?_, hE⟩
        · rw [hsigns, hrest, List.flatMap_cons, List.append_assoc]
        · rintro b hb
          rcases List.mem_cons.1 hb with rfl | hb
          · exact hP
          · exact hPs b hb
      · cases h

end Parse

end ImpFront
