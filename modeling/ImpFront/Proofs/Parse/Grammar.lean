import Mathlib.Data.List.TakeWhile
import ImpFront.Proofs.Parse.ProgramAcceptance
import ImpFront.Proofs.Syntax.Levels
/-!
# ImpFront.Proofs.Parse.Grammar

**The grammar that is accepted.** A program is a *reading* of some tokens if the
powers of the operators and the order of its parts allow it and its signs are what
the tokens say. With enough levels of nesting, tokens are accepted exactly when they
have a reading, and then they have only one, up to spans.

What is read is a reading because every production takes the signs of its value
(`Parse.took_of_programAt`); a reading is found because no production can fail on
the signs of its own value (`Parse.yields_programAt`).
-/

namespace ImpFront

namespace Program

variable {settings : Settings} {tokens : List Token}

/-- Whether the program is what the tokens say. -/
def Reads (p : Program) (tokens : List Token) : Prop :=
  p.wellFormed = true ∧ p.signs = tokens.map Token.sign

theorem ofTokens_eq_ok_iff {p : Program} :
    ofTokens settings tokens = .ok p ↔ ∃ s, parseTokens settings tokens = .ok p s := by
  unfold ofTokens
  cases parseTokens settings tokens with
  | ok q s => simp [Outcome.result]
  | error d s => simp [Outcome.result]

/-- Reading a program uses all levels that the limit leaves. -/
theorem parseTokens_eq (settings : Settings) (tokens : List Token) :
    parseTokens settings tokens
      = Parse.programAt (.standard settings) settings.maxDepth (.ofTokens tokens) := rfl

/-- A program that is read has the signs up to the end of the input, and the limit allows it. -/
theorem of_parseTokens {p : Program} {s : State} (h : parseTokens settings tokens = .ok p s) :
    p.signs = (State.ofTokens tokens).signs ∧ p.wellFormed = true ∧ p.need ≤ settings.maxDepth := by
  rw [parseTokens_eq] at h
  obtain ⟨htook, hend⟩ := Parse.took_of_programAt h
  have hsigns := htook.signs_eq
  rw [hend, List.append_nil] at hsigns
  exact ⟨hsigns.symm, htook.wellFormed, htook.need_le⟩

/-- Where the signs of a program are ahead and the limit allows it, the program is read. -/
theorem exists_parseTokens (settings : Settings) {p : Program}
    (hsigns : (State.ofTokens tokens).signs = p.signs)
    (hfits : p.wellFormed = true) (hneed : p.need ≤ settings.maxDepth) :
    ∃ q s, parseTokens settings tokens = .ok q s ∧ q.erase = p.erase := by
  rw [parseTokens_eq]
  have hyields := Parse.yields_programAt settings hfits hneed
  obtain ⟨q, s, hq, herase, -⟩ := hyields (.ofTokens tokens) (by rw [hsigns, List.append_nil])
  exact ⟨q, s, hq, herase⟩

/-- Programs that can be read and have the signs ahead differ in spans at most. -/
theorem erase_eq_of_signs {p q : Program} (hp : (State.ofTokens tokens).signs = p.signs)
    (hq : (State.ofTokens tokens).signs = q.signs) (hfits : p.wellFormed = true)
    (hfits' : q.wellFormed = true) : p.erase = q.erase := by
  -- A limit that allows both: reading finds one program, whichever of them shows that it is there.
  obtain ⟨r, s, hr, hrp⟩ :=
    exists_parseTokens ⟨max p.need q.need⟩ hp hfits (Nat.le_max_left ..)
  obtain ⟨r', s', hr', hrq⟩ :=
    exists_parseTokens ⟨max p.need q.need⟩ hq hfits' (Nat.le_max_right ..)
  rw [hr] at hr'
  cases hr'
  rw [← hrp, ← hrq]

theorem signs_ofTokens_of_eof_free (h : ∀ t ∈ tokens, t.kind ≠ .eof) :
    (State.ofTokens tokens).signs = tokens.map Token.sign := by
  have hall : ∀ t ∈ tokens, decide (t.kind ≠ .eof) = true :=
    fun t ht => decide_eq_true (h t ht)
  rw [State.signs_ofTokens, List.takeWhile_eq_self_iff.2 hall]

/-- **Exactness of the grammar.** Without an end of the input among them, and with more levels than
there are tokens, tokens are read as a program exactly when they have a reading, and any two of
their readings differ in spans at most. -/
theorem ofTokens_exact (settings : Settings) (tokens : List Token)
    (hopen : ∀ t ∈ tokens, t.kind ≠ .eof) (hdepth : tokens.length < settings.maxDepth) :
    (∀ p, ofTokens settings tokens = .ok p → p.Reads tokens) ∧
    (∀ p : Program, p.Reads tokens → ∃ q, ofTokens settings tokens = .ok q ∧ q.erase = p.erase) ∧
    (∀ p q : Program, p.Reads tokens → q.Reads tokens → p.erase = q.erase) := by
  have hsigns := signs_ofTokens_of_eof_free hopen
  have hfound : ∀ p : Program, p.Reads tokens →
      ∃ q, ofTokens settings tokens = .ok q ∧ q.erase = p.erase := by
    rintro p ⟨hfits, hp⟩
    have hneed : p.need ≤ settings.maxDepth := by
      have := p.need_le_length_signs
      rw [hp, List.length_map] at this
      omega
    obtain ⟨q, s, hq, herase⟩ := exists_parseTokens settings (hsigns.trans hp.symm) hfits hneed
    exact ⟨q, ofTokens_eq_ok_iff.2 ⟨s, hq⟩, herase⟩
  refine ⟨fun p hp => ?_, hfound, fun p q hp hq => ?_⟩
  · obtain ⟨s, hs⟩ := ofTokens_eq_ok_iff.1 hp
    obtain ⟨hread, hfits, -⟩ := of_parseTokens hs
    exact ⟨hfits, hread.trans hsigns⟩
  · -- What is found does not depend on the reading that shows it is there.
    obtain ⟨r, hr, hrp⟩ := hfound p hp
    obtain ⟨r', hr', hrq⟩ := hfound q hq
    rw [hr] at hr'
    cases hr'
    rw [← hrp, ← hrq]

theorem ofTokens_exact_at_product :
    ∃ q, ofTokens ⟨8⟩ [⟨.intType, "int", default⟩, ⟨.identifier, "x", default⟩,
        ⟨.assign, "=", default⟩, ⟨.identifier, "a", default⟩, ⟨.star, "*", default⟩,
        ⟨.number, "2", default⟩, ⟨.semicolon, ";", default⟩] = .ok q
      ∧ q.erase = ⟨[.global ⟨.int, "x", some (.binary .mul (.symbol "a" default)
          (.number "2" default) default), default⟩], default⟩ :=
  (ofTokens_exact ⟨8⟩ _ (by decide) (by decide)).2.1
    ⟨[.global ⟨.int, "x", some (.binary .mul (.symbol "a" default) (.number "2" default) default),
      default⟩], default⟩ ⟨by decide, by decide⟩

end Program

end ImpFront
