import ImpFront.Proofs.Parse.Completion
import ImpFront.Proofs.Parse.ProgramAgenda
/-!
# ImpFront.Proofs.Parse.ErrorPlace

**Where a parse fails, and what decides that.** A parse that fails has taken the tokens
before one and refuses that one. What was taken and the refused token decide the failure,
whatever follows; without the nesting limit, what was taken is the beginning of a program.
And each kind that the failure lists would have been taken in place of the refused one.

All of this is read off the agenda that a parse works off (`Program.run_tokens`).
-/

namespace ImpFront

/-! ### Tokens and cursors -/

/-- The tokens of a parse, the end of the input included. -/
def Stream.whole (tokens : List Token) : List Token := tokens ++ missingEnd tokens

/-- How many tokens a parse has taken when it has come to a state. -/
def State.cursor (tokens : List Token) (s : State) : Nat :=
  (ofTokens tokens).stream.left - s.stream.left

namespace Stream

variable {tokens : List Token}

theorem exists_eof_mem_whole (tokens : List Token) : ∃ t ∈ whole tokens, t.kind = .eof := by
  unfold whole missingEnd
  split
  · next hclosed =>
    obtain ⟨t, ht, heof⟩ := Option.map_eq_some_iff.1 (of_decide_eq_true hclosed)
    exact ⟨t, List.mem_append_left _ (List.mem_of_getLast? ht), heof⟩
  · exact ⟨.endAt (finish tokens), List.mem_append_right _ List.mem_cons_self, rfl⟩

theorem split_at_eof {all : List Token} (h : ∃ t ∈ all, t.kind = .eof) (stop : Token) :
    all = all.takeWhile (·.kind ≠ .eof) ++ [(all.find? (·.kind = .eof)).getD stop]
      ++ (all.dropWhile (·.kind ≠ .eof)).tail := by
  induction all with
  | nil =>
    obtain ⟨t, ht, -⟩ := h
    cases ht
  | cons t all ih =>
    by_cases heof : t.kind = .eof
    · simp [heof]
    · obtain ⟨u, hu, hkind⟩ := h
      have hmem : u ∈ all := (List.mem_cons.1 hu).resolve_left fun hut => heof (hut ▸ hkind)
      simpa [heof] using ih ⟨u, hmem, hkind⟩

/-- A parse starts in front of all its tokens; those behind the first end of the input stand
apart. -/
theorem whole_eq (tokens : List Token) :
    whole tokens = (State.ofTokens tokens).tokens ++ (State.ofTokens tokens).stream.beyond :=
  split_at_eof (exists_eof_mem_whole tokens) (.endAt (finish tokens))

/-- Tokens before the end of the input get one end token. -/
theorem whole_of_eof_free (h : ∀ t ∈ tokens, t.kind ≠ .eof) :
    whole tokens = tokens ++ [.endAt (finish tokens)] := by
  have hclosed : closed tokens = false := by
    refine decide_eq_false fun hlast => ?_
    obtain ⟨t, ht, heof⟩ := Option.map_eq_some_iff.1 hlast
    exact h t (List.mem_of_getLast? ht) heof
  rw [whole, missingEnd, hclosed]
  rfl

end Stream

namespace Program

open Parse (Demand Refusal run answer Completable)

variable {settings : Settings} {tokens read more : List Token} {agenda : List Demand} {t : Token}
  {r : Refusal}

/-! ### The agenda of a parse -/

/-- A parse as a run over all its tokens. -/
theorem run_whole (settings : Settings) (tokens : List Token) :
    run settings [.items settings.maxDepth] (Stream.whole tokens) =
      match parseTokens settings tokens with
      | .ok _ _ => .accepted
      | .error e s => .refused e (s.tokens ++ (State.ofTokens tokens).stream.beyond) := by
  have hrun := run_tokens settings tokens
  rw [Stream.whole_eq]
  cases h : parseTokens settings tokens with
  | ok p s =>
    rw [h] at hrun
    exact Parse.run_append_of_accepted hrun _
  | error e s =>
    rw [h] at hrun
    exact Parse.run_append_of_refused hrun _

/-- The tokens that a parse has taken and those it has not are all its tokens. -/
theorem cursor_eq_length {s : State}
    (h : Stream.whole tokens = read ++ (s.tokens ++ (State.ofTokens tokens).stream.beyond)) :
    s.cursor tokens = read.length := by
  have hlength := congrArg List.length ((Stream.whole_eq tokens).symm.trans h)
  rw [List.length_append, List.length_append, List.length_append, State.length_tokens,
    State.length_tokens] at hlength
  unfold State.cursor
  omega

theorem ofTokens_eq_error_iff {e : Diagnostic} :
    ofTokens settings tokens = .error e ↔ ∃ s, parseTokens settings tokens = .error e s := by
  unfold ofTokens
  cases parseTokens settings tokens with
  | ok p s => simp [Outcome.result]
  | error d s => simp [Outcome.result]

/-- A parse that fails has taken tokens and refuses the next one. -/
theorem exists_refusal_of_error {e : Diagnostic} {s : State}
    (h : parseTokens settings tokens = .error e s) :
    ∃ read more agenda r, Stream.whole tokens = read ++ s.current :: more
      ∧ s.cursor tokens = read.length
      ∧ run settings [.items settings.maxDepth] read = .open agenda
      ∧ answer settings agenda s.current.kind = .refuse r ∧ e = r.diagnostic s.current := by
  have hrun := run_whole settings tokens
  rw [h] at hrun
  obtain ⟨read, agenda, t, r, more, hwhole, hrest, hread, hanswer, he⟩ :=
    Parse.exists_of_run_eq_refused hrun
  obtain ⟨rest, htokens⟩ := s.exists_tokens_eq
  obtain rfl : s.current = t := by
    rw [htokens] at hrest
    exact (List.cons_eq_cons.1 hrest).1
  exact ⟨read, more, agenda, r, hwhole, cursor_eq_length (by rw [hwhole, hrest]), hread, hanswer,
    he⟩

/-- A parse that has taken tokens and refuses the next one fails there. -/
theorem exists_error_of_refusal (hwhole : Stream.whole tokens = read ++ t :: more)
    (hread : run settings [.items settings.maxDepth] read = .open agenda)
    (hanswer : answer settings agenda t.kind = .refuse r) :
    ∃ s, parseTokens settings tokens = .error (r.diagnostic t) s
      ∧ s.cursor tokens = read.length := by
  have hrun := run_whole settings tokens
  rw [hwhole, Parse.run_append hread, Parse.run_of_refuse hanswer] at hrun
  cases h : parseTokens settings tokens with
  | ok p s =>
    rw [h] at hrun
    cases hrun
  | error e s =>
    rw [h] at hrun
    injection hrun with he hrest
    exact ⟨s, by rw [he], cursor_eq_length (by rw [hwhole, hrest])⟩

/-- A parse does not fail within tokens that are taken. -/
theorem cursor_of_taken (hwhole : Stream.whole tokens = read ++ more)
    (hread : run settings [.items settings.maxDepth] read = .open agenda) {e : Diagnostic}
    {s : State} (h : parseTokens settings tokens = .error e s) :
    read.length ≤ s.cursor tokens := by
  have hrun := run_whole settings tokens
  rw [hwhole, Parse.run_append hread, h] at hrun
  obtain ⟨read', agenda', u, r, more', rfl, hrest, -⟩ := Parse.exists_of_run_eq_refused hrun
  rw [← List.append_assoc, ← hrest] at hwhole
  rw [cursor_eq_length hwhole, List.length_append]
  exact Nat.le_add_right ..

/-- Without the limit, tokens that are all taken begin a program. -/
theorem exists_ofTokens_of_taken
    (hread : run settings [.items settings.maxDepth] read = .open agenda)
    (hlimit : read.length < settings.maxDepth) :
    ∃ more p, ofTokens settings (read ++ more) = .ok p := by
  have hcompletable : Completable 0 agenda :=
    Parse.of_run_eq_open (fun _ _ _ _ h hanswer => h.of_answer hanswer) hread
      (Parse.completable_items hlimit)
  obtain ⟨more, hfree, haccepted⟩ := hcompletable.exists_run settings
  have hall := List.forall_mem_append.2 ⟨Parse.ne_eof_of_run_eq_open hread, hfree⟩
  have hrun := run_whole settings (read ++ more)
  rw [Stream.whole_of_eof_free hall, List.append_assoc,
    Parse.run_append hread, haccepted _ rfl] at hrun
  cases h : parseTokens settings (read ++ more) with
  | ok p s => exact ⟨more, p, ofTokens_eq_ok_iff.2 ⟨s, h⟩⟩
  | error e s =>
    rw [h] at hrun
    cases hrun

/-! ### The place of a failure -/

theorem take_cursor {e : Diagnostic} {s : State} (h : parseTokens settings tokens = .error e s) :
    (Stream.whole tokens).take (s.cursor tokens) = tokens.take (s.cursor tokens) := by
  obtain ⟨read, more, agenda, r, hwhole, hcursor, -⟩ := exists_refusal_of_error h
  have hlength := congrArg List.length hwhole
  have hend : (Stream.missingEnd tokens).length ≤ 1 := by
    unfold Stream.missingEnd
    split <;> simp
  rw [Stream.whole, List.length_append, List.length_append, List.length_cons] at hlength
  rw [Stream.whole, List.take_append, Nat.sub_eq_zero_of_le (by omega), List.take_zero,
    List.append_nil]

/-- **A failure is local, and comes at the first token that it can come at.** Let a parse fail in a
state. Then it fails at the start of the current token of that state; every list of tokens that
agrees with this one up to that token fails at the same place with the same diagnostic, whatever
follows; and if the limit is larger than the number of tokens, the tokens before that place are the
beginning of a program. -/
theorem parseTokens_error_local {e : Diagnostic} {s : State}
    (h : parseTokens settings tokens = .error e s) :
    ((Stream.whole tokens)[s.cursor tokens]? = some s.current
      ∧ e.position = s.current.span.start)
    ∧ (∀ others, (Stream.whole others).take (s.cursor tokens + 1)
          = (Stream.whole tokens).take (s.cursor tokens + 1) →
        ∃ s', parseTokens settings others = .error e s' ∧ s'.cursor others = s.cursor tokens)
    ∧ (tokens.length < settings.maxDepth →
        ∃ more p, ofTokens settings (tokens.take (s.cursor tokens) ++ more) = .ok p) := by
  obtain ⟨read, more, agenda, r, hwhole, hcursor, hread, hanswer, rfl⟩ :=
    exists_refusal_of_error h
  have htake := take_cursor h
  rw [hwhole, hcursor, List.take_left] at htake
  rw [hcursor]
  refine ⟨⟨?_, rfl⟩, fun others hothers => ?_, fun hlimit => ?_⟩
  · rw [hwhole, List.getElem?_append_right (Nat.le_refl _), Nat.sub_self]
    rfl
  · have hprefix : (Stream.whole tokens).take (read.length + 1) = read ++ [s.current] := by
      rw [hwhole, List.append_cons]
      exact List.take_left' List.length_append
    have hsplit := (List.take_append_drop (read.length + 1) (Stream.whole others)).symm
    rw [hothers, hprefix, List.append_assoc] at hsplit
    exact exists_error_of_refusal hsplit hread hanswer
  · rw [← htake]
    refine exists_ofTokens_of_taken hread ?_
    rw [htake, List.length_take]
    omega

theorem parseTokens_error_local_at_missing_value :
    ∃ s, parseTokens ⟨8⟩ [⟨.intType, "int", default⟩, ⟨.identifier, "x", default⟩,
        ⟨.assign, "=", default⟩, ⟨.semicolon, ";", default⟩]
      = .error ⟨.expectedExpression ";" .semicolon, s.current.span.start⟩ s
      ∧ ∃ more p, ofTokens ⟨8⟩ ([⟨.intType, "int", default⟩, ⟨.identifier, "x", default⟩,
          ⟨.assign, "=", default⟩, ⟨.semicolon, ";", default⟩].take (s.cursor
            [⟨.intType, "int", default⟩, ⟨.identifier, "x", default⟩,
              ⟨.assign, "=", default⟩, ⟨.semicolon, ";", default⟩]) ++ more) = .ok p := by
  have hfails : ofTokens ⟨8⟩ [⟨.intType, "int", default⟩, ⟨.identifier, "x", default⟩,
        ⟨.assign, "=", default⟩, ⟨.semicolon, ";", default⟩]
      = .error ⟨.expectedExpression ";" .semicolon, default⟩ := by
    decide +kernel
  obtain ⟨s, hs⟩ := ofTokens_eq_error_iff.1 hfails
  obtain ⟨⟨-, hposition⟩, -, hviable⟩ := parseTokens_error_local hs
  exact ⟨s, hposition ▸ hs, hviable (by decide)⟩

/-! ### The kinds that a failure lists -/

theorem found?_of_refusal (hanswer : answer settings agenda t.kind = .refuse r)
    (hcause : ∀ l, (r.diagnostic t).cause ≠ .nestingTooDeep l) :
    (r.diagnostic t).cause.found? = some t.kind := by
  cases r with
  | kind expected => rfl
  | noExpression => rfl
  | unclosed => rw [Parse.eq_eof_of_answer_eq_unclosed hanswer]; rfl
  | tooDeep limit => exact absurd rfl (hcause limit)

/-- **Each kind that a failure lists would have been taken.** A parse that fails for a token, and
not for want of levels, names the kind of that token and does not list it. With a token of a listed
kind in its place, the parse succeeds or fails further on. -/
theorem parseTokens_error_expected {e : Diagnostic} {s : State}
    (h : parseTokens settings tokens = .error e s) (hcause : ∀ l, e.cause ≠ .nestingTooDeep l) :
    (Stream.whole tokens)[s.cursor tokens]? = some s.current
    ∧ e.cause.found? = some s.current.kind ∧ s.current.kind ∉ e.cause.expectedKinds
    ∧ ∀ t : Token, t.kind ∈ e.cause.expectedKinds →
        match parseTokens settings ((Stream.whole tokens).set (s.cursor tokens) t) with
        | .ok _ _ => True
        | .error _ s' =>
          s.cursor tokens < s'.cursor ((Stream.whole tokens).set (s.cursor tokens) t) := by
  obtain ⟨read, more, agenda, r, hwhole, hcursor, hread, hanswer, rfl⟩ :=
    exists_refusal_of_error h
  have hkinds : (r.diagnostic s.current).cause.expectedKinds = r.expected :=
    r.expectedKinds_cause s.current
  rw [hcursor, hkinds]
  refine ⟨?_, found?_of_refusal hanswer hcause, Parse.not_mem_expected_of_answer hanswer,
    fun t ht => ?_⟩
  · rw [hwhole, List.getElem?_append_right (Nat.le_refl _), Nat.sub_self]
    rfl
  · -- The agenda takes the other token, so what is taken is longer by one.
    obtain ⟨agenda', htake⟩ := Parse.exists_answer_of_mem_expected hanswer ht
    have hlonger : run settings [.items settings.maxDepth] (read ++ [t]) = .open agenda' := by
      rw [Parse.run_append hread, Parse.run_of_take htake]
      rfl
    have hset : Stream.whole ((Stream.whole tokens).set read.length t)
        = (read ++ [t]) ++ (more ++ Stream.missingEnd ((Stream.whole tokens).set read.length t)) := by
      rw [Stream.whole, hwhole]
      simp
    split
    · trivial
    · next e' s' he =>
      have hle := cursor_of_taken hset hlonger he
      rw [List.length_append] at hle
      exact hle

theorem parseTokens_error_expected_at_missing_value :
    ∃ s, parseTokens ⟨8⟩ [⟨.intType, "int", default⟩, ⟨.identifier, "x", default⟩,
        ⟨.assign, "=", default⟩, ⟨.semicolon, ";", default⟩]
      = .error ⟨.expectedExpression ";" .semicolon, default⟩ s
      ∧ s.current.kind = .semicolon ∧ s.current.kind ∉ Cause.expressionStart := by
  have hfails : ofTokens ⟨8⟩ [⟨.intType, "int", default⟩, ⟨.identifier, "x", default⟩,
        ⟨.assign, "=", default⟩, ⟨.semicolon, ";", default⟩]
      = .error ⟨.expectedExpression ";" .semicolon, default⟩ := by
    decide +kernel
  obtain ⟨s, hs⟩ := ofTokens_eq_error_iff.1 hfails
  obtain ⟨-, hfound, hnot, -⟩ := parseTokens_error_expected hs (fun l h => by cases h)
  exact ⟨s, hs, (Option.some.inj hfound).symm, hnot⟩

end Program

end ImpFront
