import ImpFront.Proofs.Parse.Agenda
import ImpFront.Proofs.Parse.Dispatch
/-!
# ImpFront.Proofs.Parse.Obeys

**A production and the agenda it works off.** `Obeys settings o tokens ds ds'` says that a
run with outcome `o` does to the tokens what the demands `ds` do, up to the demands `ds'`:
where it succeeds, `ds'` are still to be met in front of what is left, and where it fails,
the demands refuse the token that it looks at, with the same diagnostic.

The rules below take a production apart. Taking a token, passing it on and refusing it
work off the first demand; a sequence works off the demands of its parts one after the
other; a loop keeps the demand that each of its rounds leaves as it finds it.
-/

namespace ImpFront.Parse

variable {α β : Type} {settings : Settings}

/-- A run with this outcome does to the tokens what the demands do, up to others. -/
def Obeys (settings : Settings) (o : Outcome α) (tokens : List Token) (ds ds' : List Demand) :
    Prop :=
  ∀ agenda, run settings (ds ++ agenda) tokens =
    match o with
    | .ok _ s => run settings (ds' ++ agenda) s.tokens
    | .error e s => .refused e s.tokens

variable {o : Outcome α} {s : State} {tokens : List Token} {d : Demand}
  {ds ds' ds₁ ds₂ : List Demand}

/-! ### The first demand -/

/-- A production that is done leaves the demands as they are. -/
theorem obeys_ok (a : α) (s : State) (ds : List Demand) :
    Obeys settings (.ok a s) s.tokens ds ds :=
  fun _ => rfl

/-- A demand that takes the current token leaves what it has in its place to the tokens behind. -/
theorem obeys_iff_of_take (htake : d.take? s.current.kind = some ds₁) :
    Obeys settings o s.tokens (d :: ds) ds' ↔ Obeys settings o s.next.tokens (ds₁ ++ ds) ds' := by
  have hne : s.current.kind ≠ .eof := by
    intro heof
    rw [heof, d.take?_eof] at htake
    cases htake
  refine forall_congr' fun agenda => ?_
  rw [s.tokens_eq_cons hne, List.cons_append, run_of_take (answer_of_take htake),
    ← List.append_assoc]

theorem obeys_of_take (ds₁ : List Demand) (htake : d.take? s.current.kind = some ds₁)
    (h : Obeys settings o s.next.tokens (ds₁ ++ ds) ds') :
    Obeys settings o s.tokens (d :: ds) ds' :=
  (obeys_iff_of_take htake).2 h

/-- Behind a token that is known to be taken. -/
theorem Obeys.behind (h : Obeys settings o s.tokens (d :: ds) ds') (ds₁ : List Demand)
    (htake : d.take? s.current.kind = some ds₁) :
    Obeys settings o s.next.tokens (ds₁ ++ ds) ds' :=
  (obeys_iff_of_take htake).1 h

/-- Demands that do the same with the current token can stand for each other. -/
theorem Obeys.of_answer {ds₀ : List Demand}
    (hanswer : ∀ agenda, answer settings (ds ++ agenda) s.current.kind
      = answer settings (ds₀ ++ agenda) s.current.kind)
    (h : Obeys settings o s.tokens ds₀ ds') : Obeys settings o s.tokens ds ds' := by
  intro agenda
  rw [← h agenda]
  obtain ⟨rest, hrest⟩ := s.exists_tokens_eq
  rw [hrest, run, run, hanswer]

theorem obeys_of_pass (hnone : d.take? s.current.kind = none)
    (hpass : d.otherwise settings s.current.kind = .pass)
    (h : Obeys settings o s.tokens ds ds') : Obeys settings o s.tokens (d :: ds) ds' :=
  h.of_answer fun _ => answer_of_pass hnone hpass

theorem obeys_of_refuse {r : Refusal} (hnone : d.take? s.current.kind = none)
    (hrefuse : d.otherwise settings s.current.kind = .refuse r) :
    Obeys settings (.error (r.diagnostic s.current) s : Outcome α) s.tokens (d :: ds) ds' := by
  intro agenda
  obtain ⟨rest, hrest⟩ := s.exists_tokens_eq
  dsimp only
  rw [hrest, List.cons_append, run_of_refuse (answer_of_refuse hnone hrefuse)]

/-- A demand that does with the current token what another does, in front of further ones. -/
theorem Obeys.of_like (d₀ : Demand) (ds : List Demand) {r : Refusal}
    (htake : d.take? s.current.kind = (d₀.take? s.current.kind).map (· ++ ds))
    (hrefuse : d.otherwise settings s.current.kind = .refuse r)
    (hrefuse₀ : d₀.otherwise settings s.current.kind = .refuse r)
    (h : Obeys settings o s.tokens (d₀ :: ds) ds') : Obeys settings o s.tokens [d] ds' := by
  refine h.of_answer fun agenda => ?_
  rw [List.cons_append, List.cons_append, List.nil_append]
  cases htake₀ : d₀.take? s.current.kind with
  | none =>
    rw [htake₀] at htake
    rw [answer_of_refuse htake hrefuse, answer_of_refuse htake₀ hrefuse₀]
  | some ds₁ =>
    rw [htake₀] at htake
    rw [answer_of_take htake, answer_of_take htake₀, List.append_assoc]

/-! ### Sequences -/

/-- A sequence whose first part is a sequence. -/
theorem bind_assoc_apply {γ : Type} (p : ParseM α) (f : α → ParseM β) (g : β → ParseM γ)
    (s : State) : ((p >>= f) >>= g) s = (p >>= fun a => f a >>= g) s := by
  rw [ParseM.bind_apply, ParseM.bind_apply, ParseM.bind_apply]
  cases p s <;> rfl

theorem Obeys.append (h : Obeys settings o tokens ds ds') (more : List Demand) :
    Obeys settings o tokens (ds ++ more) (ds' ++ more) := by
  intro agenda
  rw [List.append_assoc, h (more ++ agenda)]
  cases o <;> simp only [List.append_assoc]

/-- A sequence works off what its parts work off. -/
theorem Obeys.bind {p : ParseM α} {f : α → ParseM β} (hp : Obeys settings (p s) tokens ds ds₁)
    (hf : ∀ a s₁, p s = .ok a s₁ → Obeys settings (f a s₁) s₁.tokens ds₁ ds₂) :
    Obeys settings ((p >>= f) s) tokens ds ds₂ := by
  intro agenda
  rw [hp agenda, ParseM.bind_apply]
  cases h : p s with
  | error e s₁ => rfl
  | ok a s₁ => exact hf a s₁ h agenda

/-- A part that works off one demand, in front of others. -/
theorem Obeys.bind_cons {p : ParseM α} {f : α → ParseM β}
    (hp : Obeys settings (p s) tokens [d] [])
    (hf : ∀ a s₁, p s = .ok a s₁ → Obeys settings (f a s₁) s₁.tokens ds ds') :
    Obeys settings ((p >>= f) s) tokens (d :: ds) ds' :=
  (hp.append ds).bind hf

/-- A last step that only builds a value. -/
theorem Obeys.map {p : ParseM α} (hp : Obeys settings (p s) tokens ds ds') (f : α → β) :
    Obeys settings ((p >>= fun a => pure (f a)) s) tokens ds ds' :=
  hp.bind fun a s₁ _ => obeys_ok (f a) s₁ ds'

theorem expect_of_kind {k : Kind} (h : s.current.kind = k) :
    expect k s = .ok s.current s.next :=
  expectOneOf_eq_ok_iff.2 ⟨List.mem_singleton.2 h, rfl, rfl⟩

theorem expect_of_ne {k : Kind} (h : s.current.kind ≠ k) :
    expect k s = .error (refuse s.current [k]) s :=
  if_neg (mt List.mem_singleton.1 h)

/-- Taking a token of one kind works off the demand for it. -/
theorem obeys_expect_bind {k : Kind} (hk : k ≠ .eof) {f : Token → ParseM β}
    (h : Obeys settings (f s.current s.next) s.next.tokens ds ds') :
    Obeys settings ((expect k >>= f) s) s.tokens (.token k hk :: ds) ds' := by
  by_cases hkind : s.current.kind = k
  · rw [ParseM.bind_of_ok (expect_of_kind hkind)]
    exact obeys_of_take [] (if_pos hkind) h
  · rw [ParseM.bind_of_error (expect_of_ne hkind)]
    exact obeys_of_refuse (r := .kind [k]) (if_neg hkind) rfl

/-! ### Levels -/

/-- Going a level down and back up moves no token. -/
theorem Obeys.nested {p : ParseM α} (h : Obeys settings (p s.deeper) tokens ds ds') :
    Obeys settings (nested p s) tokens ds ds' := by
  intro agenda
  rw [h agenda, Parse.nested]
  cases p s.deeper <;> rfl

/-! ### Repetition -/

section Many

variable {item : ParseM (Option α)}
  (hprogress : ∀ s a s₁, item s = .ok (some a) s₁ → s₁.stream.left < s.stream.left)

include hprogress

/-- Items are read up to a state in which there is none. -/
theorem declines_of_many {as : List α} {s₁ : State} (h : many item s = .ok as s₁) :
    ∃ s₀, item s₀ = .ok none s₁ := by
  induction hn : s.stream.left using Nat.strongRecOn generalizing as s with
  | ind n ih =>
    subst hn
    rw [many_eq] at h
    split at h
    · cases h
    · next hitem =>
      cases h
      exact ⟨s, hitem⟩
    · next a s₂ hitem =>
      have hlt := hprogress s a s₂ hitem
      rw [if_pos hlt] at h
      split at h
      · next hmany =>
        cases h
        exact ih _ hlt hmany rfl
      · cases h

/-- Items that each leave the demands as they are leave them so together. -/
theorem obeys_many (hitem : ∀ s, Obeys settings (item s) s.tokens ds ds) (s : State) :
    Obeys settings (many item s) s.tokens ds ds := by
  -- An item takes a token, so the induction is on the tokens ahead.
  induction hn : s.stream.left using Nat.strongRecOn generalizing s with
  | ind n ih =>
    subst hn
    intro agenda
    rw [many_eq, hitem s agenda]
    cases h : item s with
    | error e s₁ => rfl
    | ok r s₁ =>
      cases r with
      | none => rfl
      | some a =>
        have hlt := hprogress s a s₁ h
        dsimp only
        rw [if_pos hlt, ih _ hlt s₁ rfl agenda]
        cases many item s₁ <;> rfl

end Many

end ImpFront.Parse
