import ImpFront.Parse.Request
import ImpFront.Proofs.Parse.ErrorPlace
import ImpFront.Proofs.Parse.ProductionsKeep
import ImpFront.Proofs.Parse.ProgramReading
/-!
# ImpFront.Proofs.Parse.Requests

**A parser under any use.** Whatever is asked of a parser, and whether it succeeds or fails,
the parser stays within its tokens and its levels: it never goes back, never passes the
first end of the input, and looks at no token that is not there.

Every request takes some tokens (`Request.kept_perform`, from the productions one by one),
so all requests together do (`State.exists_taken_afterAll`). The rest is arithmetic on the
tokens taken.

The loops of a parse check in each round that a token was consumed. They need not: with the
rules of the language every round that goes on consumes one, so a loop without the check is
the same and comes to an end as well (`Parse.Terminates`).
-/

namespace ImpFront

/-! ### Places in all tokens -/

namespace Stream

variable {tokens read : List Token} {s : Stream}

/-- The last of all tokens is an end of the input. -/
theorem kind_getLast_whole (tokens : List Token) :
    (whole tokens).getLast?.map (·.kind) = some .eof := by
  unfold whole missingEnd
  split
  · next hclosed =>
    rw [List.append_nil]
    exact of_decide_eq_true hclosed
  · rw [List.getLast?_concat]
    rfl

/-- The tokens that were taken come first, then those from the place on. -/
theorem Taken.whole_eq (h : Taken read (ofTokens tokens) s) :
    whole tokens = read ++ (s.ahead ++ s.stop :: s.beyond) := by
  rw [Stream.whole_eq, State.tokens]
  show (ofTokens tokens).ahead ++ [(ofTokens tokens).stop] ++ (ofTokens tokens).beyond = _
  rw [h.ahead_eq, h.stop_eq, h.beyond_eq, List.append_assoc, List.append_assoc]
  rfl

/-- No end of the input was taken. -/
theorem Taken.ne_eof (h : Taken read (ofTokens tokens) s) : ∀ t ∈ read, t.kind ≠ .eof := by
  intro t ht
  refine (ofTokens tokens).ahead_ne_eof t ?_
  rw [h.ahead_eq]
  exact List.mem_append_left _ ht

/-- Looking ahead shows the token at that distance, or the last one. -/
theorem getElem?_peek (s : Stream) (n : Nat) :
    (s.ahead ++ s.stop :: s.beyond)[min n (s.ahead.length + s.beyond.length)]?
      = some (s.peek n) := by
  unfold peek
  cases hget : s.ahead[n]? with
  | some t =>
    have hlt : n < s.ahead.length := (List.getElem?_eq_some_iff.1 hget).1
    rw [Nat.min_eq_left (by omega), List.getElem?_append_left hlt, hget]
  | none =>
    have hle : s.ahead.length ≤ n := List.getElem?_eq_none_iff.1 hget
    rw [List.getElem?_append_right (by omega), s.left_eq]
    cases hdistance : n - s.ahead.length with
    | zero =>
      rw [show min n (s.ahead.length + s.beyond.length) - s.ahead.length = 0 by omega]
      rfl
    | succ k =>
      by_cases hk : k < s.beyond.length
      · rw [show min n (s.ahead.length + s.beyond.length) - s.ahead.length = k + 1 by omega,
          List.getElem?_cons_succ]
        simp [List.getElem?_eq_getElem hk]
      · -- Behind all tokens, what is seen is the last of them.
        have hnone : s.beyond[k]? = none := List.getElem?_eq_none_iff.2 (Nat.le_of_not_lt hk)
        have hindex : min n (s.ahead.length + s.beyond.length) - s.ahead.length
            = (s.stop :: s.beyond).length - 1 := by
          rw [List.length_cons]
          omega
        rw [hindex, ← List.getLast?_eq_getElem?, List.getLast?_cons]
        dsimp only
        rw [hnone]
        rfl

/-! ### A place behind the tokens taken -/

/-- The tokens taken come first, and none of them is an end of the input. -/
theorem Taken.exists_passed (h : Taken read (ofTokens tokens) s) {i : Nat} (hi : i < read.length) :
    ∃ t, (whole tokens)[i]? = some t ∧ t.kind ≠ .eof := by
  refine ⟨read[i], ?_, h.ne_eof _ (List.getElem_mem hi)⟩
  rw [h.whole_eq, List.getElem?_append_left hi, List.getElem?_eq_getElem hi]

/-- Looking ahead counts from behind the tokens taken, and no further than to the last token. -/
theorem Taken.getElem?_whole (h : Taken read (ofTokens tokens) s) (n : Nat) :
    (whole tokens)[min (read.length + n) ((whole tokens).length - 1)]? = some (s.peek n) := by
  have hlength : (whole tokens).length - 1
      = read.length + (s.ahead.length + s.beyond.length) := by
    rw [h.whole_eq, List.length_append, List.length_append, List.length_cons]
    omega
  rw [hlength, Nat.add_min_add_left, h.whole_eq, List.getElem?_append_right (Nat.le_add_right _ _),
    Nat.add_sub_cancel_left]
  exact s.getElem?_peek n

theorem Taken.lastStop_whole (h : Taken read (ofTokens tokens) s) :
    s.lastStop = read.getLast?.map (·.span.stop) := by
  rw [h.lastStop_eq]
  exact Option.or_none

/-- Looking back shows the last token taken. -/
theorem Taken.previousStop_whole (h : Taken read (ofTokens tokens) s) {i : Nat}
    (hi : read.length = i + 1) : (whole tokens)[i]?.map (·.span.stop) = some s.previousStop := by
  have hlt : i < read.length := by omega
  have hindex : read.length - 1 = i := by omega
  have hlast : read.getLast? = some read[i] := by
    rw [List.getLast?_eq_getElem?, hindex, List.getElem?_eq_getElem hlt]
  rw [previousStop, h.lastStop_whole, hlast, h.whole_eq, List.getElem?_append_left hlt,
    List.getElem?_eq_getElem hlt]
  rfl

/-- Before the first token, looking back shows where that one starts. -/
theorem Taken.previousStop_start (h : Taken [] (ofTokens tokens) s) :
    s.previousStop = s.current.span.start := by
  rw [previousStop, h.lastStop_whole]
  rfl

end Stream

namespace State

variable {tokens read : List Token} {s : State}

theorem cursor_eq_of_taken (h : (Stream.ofTokens tokens).Taken read s.stream) :
    s.cursor tokens = read.length := by
  have hlength := congrArg List.length h.ahead_eq
  rw [List.length_append, ← s.stream.left_eq, ← (Stream.ofTokens tokens).left_eq] at hlength
  show (Stream.ofTokens tokens).left - s.stream.left = read.length
  omega

end State

/-! ### Requests -/

namespace Parse

variable {α : Type} {limit n : Nat}

theorem Keeps.void {p : ParseM α} (h : Keeps limit n p) : Keeps limit n p.void :=
  h.map fun _ => ()

/-- What keeps to the levels that are free can be asked for wherever the limit is kept. -/
theorem kept_withLevels {R : Rules} {p : Nat → ParseM α} (h : ∀ n, Keeps R.limit n (p n)) {s : State}
    (hs : s.depth ≤ R.limit) : Kept R.limit s (withLevels R p s) :=
  h (R.limit - s.depth) s (by omega)

theorem keeps_block (R : Rules) : Keeps R.limit 0 (block R) :=
  fun _ hs => kept_withLevels (keeps_blockAt R R.limit) hs

theorem readsBlocks_block (settings : Settings) :
    ReadsBlocks settings.maxDepth (block (.standard settings)) := by
  intro s b s' h
  have htook := readsBlocks_blockAt settings (settings.maxDepth - s.depth) s b s' h
  exact ⟨htook.signs_eq, htook.wellFormed, Nat.le_trans htook.need_le (Nat.sub_le _ _)⟩

theorem kept_withLevels_blocks {R : Rules} {p : Nat → ExprReader → ParseM Block → ParseM α}
    (h : ∀ n expr block, KeepsExprs R.limit n expr → Keeps R.limit n block →
      Keeps R.limit n (p n expr block)) {s : State} (hs : s.depth ≤ R.limit) :
    Kept R.limit s (withLevels R (fun n => (p n (exprAt R n) (blockAt R n)).void) s) :=
  kept_withLevels (fun n => (h n _ _ (keepsExprs_exprAt R _ n) (keeps_blockAt R _ n)).void) hs

end Parse

namespace Request

open Parse

variable {R : Rules} {s : State}

/-- A request for anything but a level keeps to the tokens and to the limit. -/
theorem kept_perform (hs : s.depth ≤ R.limit) (request : Request) (henter : request ≠ enter)
    (hleave : request ≠ leave) : Kept R.limit s (request.perform R s) := by
  -- What reads no expressions needs no level, and what does has those that are free.
  have flat {α : Type} {p : ParseM α} (h : Keeps R.limit 0 p) : Kept R.limit s (p.void s) :=
    h.void s hs
  have deep {α : Type} {p : ExprReader → ParseM α}
      (h : ∀ n expr, KeepsExprs R.limit n expr → Keeps R.limit n (p expr)) :
      Kept R.limit s (withLevels R (fun n => (p (exprAt R n)).void) s) :=
    kept_withLevels (fun n => (h n _ (keepsExprs_exprAt R _ n)).void) hs
  cases request with
  | advance => exact flat keeps_advance
  | expectOneOf kinds => exact flat (keeps_expectOneOf kinds)
  | peek places => exact flat (Keeps.peekKind_bind fun k => keeps_pure k)
  | enter => exact absurd rfl henter
  | leave => exact absurd rfl hleave
  | expr least => exact deep fun n expr h => h least
  | operators least => exact deep fun n expr h => keeps_extended h least
  | literal => exact flat keeps_literal
  | negation => exact deep fun n expr => keeps_negation
  | group => exact deep fun n expr => keeps_group
  | nameOperand => exact deep fun n expr => keeps_nameOperand
  | call => exact deep fun n expr => keeps_call
  | binary power left => exact deep fun n expr h => keeps_binary h power left
  | typeName => exact flat keeps_typeName
  | parameter => exact flat keeps_parameter
  | parameterList => exact flat keeps_parameterList
  | declaration => exact deep fun n expr => keeps_declaration
  | assignUpdate => exact deep fun n expr => keeps_assignUpdate
  | stepUpdate => exact flat keeps_stepUpdate
  | nameStatement => exact deep fun n expr => keeps_nameStatement
  | stepStatement => exact flat keeps_stepStatement
  | condition => exact deep fun n expr => keeps_condition
  | loopStep => exact deep fun n expr => keeps_loopStep
  | ifStatement => exact kept_withLevels_blocks (fun n expr block => keeps_ifStatement) hs
  | forStatement => exact kept_withLevels_blocks (fun n expr block => keeps_forStatement) hs
  | whileStatement => exact kept_withLevels_blocks (fun n expr block => keeps_whileStatement) hs
  | returnStatement => exact deep fun n expr => keeps_returnStatement
  | statement => exact kept_withLevels_blocks (fun n expr block => keeps_statementWith) hs
  | block => exact kept_withLevels_blocks (fun n expr block _ h => h) hs
  | function => exact flat (keeps_functionWith (keeps_block R))

/-- **One request**, whether it succeeds or fails, takes some tokens and opens no level that is not
there. -/
theorem taken_of_perform (hs : s.depth ≤ R.limit) (request : Request) :
    (∃ read, s.stream.Taken read (request.perform R s).state.stream)
      ∧ (request.perform R s).state.depth ≤ R.limit := by
  by_cases henter : request = enter
  · subst henter
    show (∃ read, s.stream.Taken read (Parse.enter R s).state.stream)
      ∧ (Parse.enter R s).state.depth ≤ R.limit
    unfold Parse.enter
    split
    · next hlt => exact ⟨⟨[], .refl _⟩, hlt⟩
    · exact ⟨⟨[], .refl _⟩, hs⟩
  · by_cases hleave : request = leave
    · subst hleave
      exact ⟨⟨[], .refl _⟩, Nat.le_trans (Nat.sub_le _ _) hs⟩
    · have hkept := kept_perform hs request henter hleave
      exact ⟨hkept.exists_taken, hkept.depth_le⟩

/-- A request that consumes succeeds behind the place where it starts. -/
theorem left_lt_of_perform {settings : Settings} {request : Request}
    (hconsumes : request.consumes = true) {s' : State}
    (h : request.perform (.standard settings) s = .ok () s') :
    s'.stream.left < s.stream.left := by
  have unvoid {α : Type} {p : ParseM α} (h : p.void s = .ok () s') : ∃ a, p s = .ok a s' := by
    obtain ⟨a, s₁, hp, hpure⟩ := ParseM.bind_eq_ok_iff.1 h
    obtain ⟨-, rfl⟩ := ParseM.pure_eq_ok_iff.1 hpure
    exact ⟨a, hp⟩
  cases request with
  | expr least =>
    obtain ⟨e, he⟩ := unvoid h
    exact State.left_lt_of_signs e.signs_ne_nil (readsExprs_exprAt settings _ _ _ _ _ he).signs_eq
  | statement =>
    obtain ⟨st, hst⟩ := unvoid h
    exact State.left_lt_of_signs st.signs_ne_nil (took_of_statementAt hst).signs_eq
  | block =>
    obtain ⟨⟨body, span⟩, hb⟩ := unvoid h
    refine State.left_lt_of_signs ?_ (readsBlocks_block settings _ _ _ hb).signs_eq
    rw [Block.signs]
    exact List.cons_ne_nil _ _
  | function =>
    obtain ⟨f, hf⟩ := unvoid h
    refine State.left_lt_of_signs ?_ (took_of_functionWith (readsBlocks_block settings) hf).signs_eq
    exact List.cons_ne_nil _ _
  | typeName =>
    obtain ⟨type, htype⟩ := unvoid h
    exact State.left_lt_of_signs (List.cons_ne_nil _ []) (signs_of_typeName htype)
  | parameter =>
    obtain ⟨p, hp⟩ := unvoid h
    exact State.left_lt_of_signs (List.cons_ne_nil _ _) (signs_of_parameter hp)
  | parameterList =>
    obtain ⟨ps, hps⟩ := unvoid h
    have hsigns := signs_of_parameterList hps
    rw [List.append_cons] at hsigns
    exact State.left_lt_of_signs (List.cons_ne_nil _ _) hsigns
  | _ => cases hconsumes

end Request

namespace State

variable {R : Rules} {s : State}

/-- **All requests together** take some tokens and leave no more levels open than there are. -/
theorem exists_taken_afterAll (requests : List Request) (hs : s.depth ≤ R.limit) :
    (∃ read, s.stream.Taken read (s.afterAll R requests).stream)
      ∧ (s.afterAll R requests).depth ≤ R.limit := by
  induction requests generalizing s with
  | nil => exact ⟨⟨[], .refl _⟩, hs⟩
  | cons request requests ih =>
    obtain ⟨⟨read, hread⟩, hdepth⟩ := Request.taken_of_perform hs request
    obtain ⟨⟨read', hread'⟩, hdepth'⟩ := ih hdepth
    exact ⟨⟨read ++ read', hread.trans hread'⟩, hdepth'⟩

variable {tokens read : List Token}

/-- A further request moves the cursor by the tokens that it takes. -/
theorem exists_moved (hread : (Stream.ofTokens tokens).Taken read s.stream) (hs : s.depth ≤ R.limit)
    (request : Request) :
    ∃ taken, s.stream.left = taken + (request.perform R s).state.stream.left
      ∧ (request.perform R s).state.cursor tokens = s.cursor tokens + taken := by
  obtain ⟨⟨more, hmore⟩, -⟩ := Request.taken_of_perform hs request
  refine ⟨more.length, ?_, ?_⟩
  · rw [s.stream.left_eq, hmore.ahead_eq, List.length_append, Stream.left_eq]
  · rw [cursor_eq_of_taken hread, cursor_eq_of_taken (hread.trans hmore), List.length_append]

theorem cursor_le_perform (hread : (Stream.ofTokens tokens).Taken read s.stream)
    (hs : s.depth ≤ R.limit) (request : Request) :
    s.cursor tokens ≤ (request.perform R s).state.cursor tokens := by
  obtain ⟨taken, -, hmoved⟩ := exists_moved hread hs request
  rw [hmoved]
  exact Nat.le_add_right _ _

/-- A request that consumes moves the cursor if it succeeds. -/
theorem cursor_lt_of_perform {settings : Settings}
    (hread : (Stream.ofTokens tokens).Taken read s.stream) (hs : s.depth ≤ settings.maxDepth)
    {request : Request} (hconsumes : request.consumes = true) {s' : State}
    (h : request.perform (.standard settings) s = .ok () s') :
    s.cursor tokens < s'.cursor tokens := by
  have hs' : s.depth ≤ (Rules.standard settings).limit := hs
  obtain ⟨taken, hleft, hmoved⟩ := exists_moved hread hs' request
  rw [h] at hleft hmoved
  change s.stream.left = taken + s'.stream.left at hleft
  change s'.cursor tokens = s.cursor tokens + taken at hmoved
  have hlt := Request.left_lt_of_perform hconsumes h
  omega

end State

/-! ### Loops -/

namespace Parse

variable {α : Type}

/-- A loop comes to an end without a check for progress: no row of rounds goes on for ever, and the
check changes nothing. -/
structure Terminates (round : α → ParseM (Option α)) : Prop where
  wellFounded : WellFounded fun later earlier : α × State =>
    round earlier.1 earlier.2 = .ok (some later.1) later.2
  unchecked : ∀ a s, iterate round a s =
    match round a s with
    | .error e s' => .error e s'
    | .ok none s' => .ok a s'
    | .ok (some b) s' => iterate round b s'

theorem terminates_of_progress {round : α → ParseM (Option α)}
    (h : ∀ a s b s', round a s = .ok (some b) s' → s'.stream.left < s.stream.left) :
    Terminates round where
  wellFounded :=
    Subrelation.wf (fun {later earlier} hround => h earlier.1 earlier.2 later.1 later.2 hround)
      (measure fun p : α × State => p.2.stream.left).wf
  unchecked := fun a s => by
    rw [iterate_eq]
    cases hr : round a s with
    | error e s' => rfl
    | ok r s' =>
      cases r with
      | none => rfl
      | some b => exact if_pos (h a s b s' hr)

/-- A repetition ends if each of its items consumes something. -/
theorem terminates_collect {item : ParseM (Option α)}
    (h : ∀ s a s', item s = .ok (some a) s' → s'.stream.left < s.stream.left) :
    Terminates (collect item) := by
  refine terminates_of_progress fun found s b s' hround => ?_
  rw [collect_apply] at hround
  split at hround
  · cases hround
  · cases hround
  · next a s₁ hitem =>
    cases hround
    exact h s a _ hitem

/-- The loops of a parse with `n` levels free. -/
structure LoopsEnd (R : Rules) (n : Nat) : Prop where
  globals : Terminates (collect (globalItem (exprAt R n)))
  items : Terminates (collect (laterItem R n))
  statements : Terminates (collect (blockItem (statementAt R n)))
  arguments : Terminates (collect (furtherArgument (exprAt R n)))
  parameters : Terminates (collect furtherParameter)
  operators : ∀ least, Terminates (extend R (exprAt R n) least)

theorem loopsEnd (settings : Settings) (n : Nat) : LoopsEnd (.standard settings) n where
  globals := terminates_collect fun _ item _ h =>
    State.left_lt_of_signs item.signs_ne_nil
      (took_of_globalItem (readsExprs_exprAt settings n) h).1.signs_eq
  items := terminates_collect fun _ item _ h =>
    State.left_lt_of_signs item.signs_ne_nil (took_of_laterItem h).1.signs_eq
  statements := terminates_collect fun _ st _ h =>
    State.left_lt_of_signs st.signs_ne_nil
      (took_of_blockItem (fun _ _ _ => took_of_statementAt) h).signs_eq
  arguments := terminates_collect fun _ _ _ h =>
    State.left_lt_of_signs (List.cons_ne_nil _ _)
      (signs_of_furtherArgument (readsExprs_exprAt settings n) h).1
  parameters := terminates_collect fun _ _ _ h =>
    State.left_lt_of_signs (List.cons_ne_nil _ _) (signs_of_furtherParameter h)
  operators := fun _ => terminates_of_progress fun _ _ _ _ h =>
    left_lt_of_extend (readsExprs_exprAt settings n) h

end Parse

/-! ### Any use -/

namespace State

/-- **A parser stays within its tokens and its levels under any use.** Let any requests be made of a
parser on some tokens, each of which may succeed or fail. There is a last token, and it is an
end of the input; the cursor has passed no end; looking ahead by any distance shows a token that is
there, and so does looking back; no more levels are open than the limit allows. A further request
does not go back, and goes on if it is one that consumes and succeeds. The loops in it come to an
end, whatever the tokens are. -/
theorem afterAll_inBounds (settings : Settings) (tokens : List Token) (requests : List Request) :
    let all := Stream.whole tokens
    let s := (ofTokens tokens).afterAll (.standard settings) requests
    all.getLast?.map (·.kind) = some .eof
    ∧ (∀ i, i < s.cursor tokens → ∃ t, all[i]? = some t ∧ t.kind ≠ .eof)
    ∧ (∀ n, all[min (s.cursor tokens + n) (all.length - 1)]? = some (s.stream.peek n))
    ∧ (s.cursor tokens = 0 → s.stream.previousStop = s.position)
    ∧ (∀ i, s.cursor tokens = i + 1 → all[i]?.map (·.span.stop) = some s.stream.previousStop)
    ∧ s.depth ≤ settings.maxDepth
    ∧ (∀ request : Request,
        s.cursor tokens ≤ (request.perform (.standard settings) s).state.cursor tokens
        ∧ ∀ s', request.consumes = true → request.perform (.standard settings) s = .ok () s' →
          s.cursor tokens < s'.cursor tokens)
    ∧ ∀ n, Parse.LoopsEnd (.standard settings) n := by
  intro all s
  obtain ⟨⟨read, hread⟩, hdepth⟩ :=
    exists_taken_afterAll (R := .standard settings) (s := ofTokens tokens) requests (Nat.zero_le _)
  have hcursor : s.cursor tokens = read.length := cursor_eq_of_taken hread
  refine ⟨Stream.kind_getLast_whole tokens, fun i hi => ?_, fun n => ?_, fun hzero => ?_,
    fun i hi => ?_, hdepth, fun request => ?_, Parse.loopsEnd settings⟩
  · exact hread.exists_passed (hcursor ▸ hi)
  · rw [hcursor]
    exact hread.getElem?_whole n
  · obtain rfl := List.length_eq_zero_iff.1 (hcursor.symm.trans hzero)
    exact hread.previousStop_start
  · exact hread.previousStop_whole (hcursor.symm.trans hi)
  · exact ⟨cursor_le_perform hread hdepth request, fun s' hconsumes h =>
      cursor_lt_of_perform hread hdepth hconsumes h⟩

/-- A parameter is read, the comma that is asked for is not there, and neither is a second level: the
cursor stands on the first of two ends, and looking far ahead shows the second. -/
theorem afterAll_inBounds_at_first_end :
    let tokens : List Token := [⟨.intType, "int", default⟩, ⟨.identifier, "x", default⟩,
      ⟨.eof, "EOF", default⟩, ⟨.semicolon, ";", default⟩, ⟨.eof, "EOF", default⟩]
    let s := (ofTokens tokens).afterAll (.standard ⟨1⟩)
      [.parameter, .expect .comma, .enter, .enter, .advance, .expr .lowest]
    s.cursor tokens = 2 ∧ s.depth ≤ 1
    ∧ (∃ t, tokens[1]? = some t ∧ t.kind ≠ .eof)
    ∧ tokens[4]? = some (s.stream.peek 9)
    ∧ tokens[1]?.map (·.span.stop) = some s.stream.previousStop := by
  intro tokens s
  obtain ⟨-, htaken, hpeek, -, hprevious, hdepth, -⟩ := afterAll_inBounds ⟨1⟩ tokens
    [.parameter, .expect .comma, .enter, .enter, .advance, .expr .lowest]
  have hcursor : s.cursor tokens = 2 := by decide +kernel
  change ∀ i, i < s.cursor tokens → _ at htaken
  change ∀ n, tokens[min (s.cursor tokens + n) 4]? = some (s.stream.peek n) at hpeek
  change ∀ i, s.cursor tokens = i + 1 → _ at hprevious
  rw [hcursor] at htaken hpeek hprevious
  exact ⟨hcursor, hdepth, htaken 1 (by decide), hpeek 9, hprevious 1 rfl⟩

end State

end ImpFront
