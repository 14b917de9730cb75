import ImpFront.Parse.Request
import ImpFront.Proofs.Parse.Flat
import ImpFront.Proofs.Parse.StatementAgenda
/-!
# ImpFront.Proofs.Parse.Braces

**The levels of blocks are the braces that were taken.** An expression gives its level back
whether it succeeds or fails; a block gives it back only if it succeeds. So a run that fails
leaves as many levels open as it has taken opening braces without the closing ones, but for one
case: the brace of a block that is refused its level is taken, and the level is not open.

`Accounted s o` says so of a run from `s`. In front of a failure stand parts that succeeded, and
these have closed as many braces as they have opened, on the same level (`Balanced`).

That a block was refused its level shows in the cause and in the last token taken. An expression is
refused its level with the same cause, but never as the first thing in a body: there the agenda
wants a statement or the closing brace, and a statement begins with a token of its own.
-/

namespace ImpFront

/-! ### Counting braces -/

/-- The opening braces among tokens, less the closing ones. -/
def Token.net (read : List Token) : Int :=
  (read.countP fun t => t.kind = .openCurly) - (read.countP fun t => t.kind = .closeCurly : Nat)

namespace Token

variable {read read' : List Token}

@[simp] theorem net_nil : net [] = 0 := rfl

@[simp] theorem net_append : net (read ++ read') = net read + net read' := by
  simp only [net, List.countP_append]
  omega

theorem net_cons (t : Token) : net (t :: read) = net [t] + net read := by
  rw [← List.singleton_append, net_append]

theorem net_of_openCurly {t : Token} (h : t.kind = .openCurly) : net [t] = 1 := by
  simp [net, h]

theorem net_of_closeCurly {t : Token} (h : t.kind = .closeCurly) : net [t] = -1 := by
  simp [net, h]

theorem net_eq_zero (h : ∀ t ∈ read, t.kind.isCurly = false) : net read = 0 := by
  have hnone (k : Kind) (hk : k.isCurly = true) : (read.countP fun t => t.kind = k) = 0 := by
    refine List.countP_eq_zero.2 fun t ht hkind => ?_
    rw [← of_decide_eq_true hkind, h t ht] at hk
    cases hk
  rw [net, hnone _ rfl, hnone _ rfl]
  rfl

/-- Whether the last of the tokens is an opening brace. -/
def endsOpen (read : List Token) : Bool := read.getLast?.any fun t => t.kind = .openCurly

theorem endsOpen_append (h : endsOpen read = false) :
    endsOpen (read ++ read') = endsOpen read' := by
  unfold endsOpen at h ⊢
  rw [List.getLast?_append]
  cases hlast : read'.getLast? with
  | none => rw [Option.none_or, h]; rfl
  | some t => rfl

theorem endsOpen_concat (t : Token) :
    endsOpen (read ++ [t]) = decide (t.kind = .openCurly) := by
  unfold endsOpen
  rw [List.getLast?_concat]
  rfl

theorem endsOpen_cons_of_ne_nil {t : Token} (h : read ≠ []) :
    endsOpen (t :: read) = endsOpen read := by
  unfold endsOpen
  rw [List.getLast?_cons, List.getLast?_eq_some_getLast h]
  rfl

theorem endsOpen_eq_false (h : ∀ t ∈ read, t.kind.isCurly = false) : endsOpen read = false := by
  unfold endsOpen
  cases hlast : read.getLast? with
  | none => rfl
  | some t =>
    have ht := h t (List.mem_of_getLast? hlast)
    have hkind : t.kind ≠ .openCurly := by
      intro hkind
      rw [hkind] at ht
      cases ht
    simp [hkind]

end Token

/-- Whether a refusal is for the nesting limit. -/
def Diagnostic.isTooDeep (e : Diagnostic) : Bool :=
  match e.cause with
  | .nestingTooDeep _ => true
  | _ => false

namespace Parse

open Token

variable {α β : Type} {settings : Settings} {n : Nat} {s s₁ : State}

/-- The brace that was taken without a level for its block. -/
def unopened (e : Diagnostic) (read : List Token) : Int :=
  if e.isTooDeep && endsOpen read then 1 else 0

@[simp] theorem unopened_nil (e : Diagnostic) : unopened e [] = 0 := by
  rw [unopened, show endsOpen [] = false from rfl, Bool.and_false]
  rfl

theorem unopened_of_isTooDeep {e : Diagnostic} (h : e.isTooDeep = false) (read : List Token) :
    unopened e read = 0 := by
  rw [unopened, h]
  rfl

/-- A token in front matters only if it is the last one. -/
theorem unopened_cons {e : Diagnostic} {read : List Token} (t : Token)
    (h : read = [] → e.isTooDeep = false) : unopened e (t :: read) = unopened e read := by
  by_cases hnil : read = []
  · rw [unopened_of_isTooDeep (h hnil), unopened_of_isTooDeep (h hnil)]
  · rw [unopened, unopened, endsOpen_cons_of_ne_nil hnil]

/-! ### The judgement -/

/-- Between the states, every brace that was opened was closed, and the level is the same. -/
structure Balanced (s s₁ : State) : Prop where
  exists_taken : ∃ read, s.stream.Taken read s₁.stream ∧ net read = 0 ∧ endsOpen read = false
  depth_eq : s₁.depth = s.depth

/-- A success is balanced; a failure leaves a level open for each brace that is not closed. -/
structure Accounted (s : State) (o : Outcome α) : Prop where
  of_ok : ∀ a s', o = .ok a s' → Balanced s s'
  of_error : ∀ e s', o = .error e s' → ∃ read, s.stream.Taken read s'.stream ∧
    (s'.depth : Int) = s.depth + net read - unopened e read

/-- The production accounts for its braces, from any state. -/
def Accounts (p : ParseM α) : Prop := ∀ s, Accounted s (p s)

theorem accounted_ok {s' : State} (a : α) (h : Balanced s s') : Accounted s (.ok a s') where
  of_ok := fun b s₂ ho => by
    cases ho
    exact h
  of_error := fun e s₂ ho => by cases ho

theorem accounted_error {e : Diagnostic} {s' : State} (read : List Token)
    (htaken : s.stream.Taken read s'.stream)
    (hdepth : (s'.depth : Int) = s.depth + net read - unopened e read) :
    Accounted s (.error e s' : Outcome α) where
  of_ok := fun a s₂ ho => by cases ho
  of_error := fun d s₂ ho => by
    cases ho
    exact ⟨read, htaken, hdepth⟩

/-- A failure at once. -/
theorem accounted_error_nil (e : Diagnostic) (h : s₁.stream = s.stream)
    (hdepth : s₁.depth = s.depth) : Accounted s (.error e s₁ : Outcome α) := by
  refine accounted_error [] (h ▸ .refl _) ?_
  rw [hdepth, net_nil, unopened_nil]
  omega

theorem balanced_refl (h : s₁.stream = s.stream) (hdepth : s₁.depth = s.depth) : Balanced s s₁ :=
  ⟨⟨[], h ▸ .refl _, rfl, rfl⟩, hdepth⟩

theorem Balanced.trans {s₂ : State} (h : Balanced s s₁) (h' : Balanced s₁ s₂) : Balanced s s₂ := by
  obtain ⟨read, hread, hnet, hlast⟩ := h.exists_taken
  obtain ⟨read', hread', hnet', hlast'⟩ := h'.exists_taken
  refine ⟨⟨read ++ read', hread.trans hread', ?_, ?_⟩, h'.depth_eq.trans h.depth_eq⟩
  · rw [net_append, hnet, hnet']
    rfl
  · rw [endsOpen_append hlast, hlast']

/-- What is accounted for from a later state on is accounted for from the state before it. -/
theorem Accounted.of_balanced {o : Outcome α} (h : Accounted s₁ o) (hs : Balanced s s₁) :
    Accounted s o := by
  cases o with
  | ok a s' => exact accounted_ok a (hs.trans (h.of_ok a s' rfl))
  | error e s' =>
    obtain ⟨read, hread, hnet, hlast⟩ := hs.exists_taken
    obtain ⟨read', hread', hdepth⟩ := h.of_error e s' rfl
    refine accounted_error (read ++ read') (hread.trans hread') ?_
    rw [hdepth, hs.depth_eq, net_append, hnet, unopened, unopened, endsOpen_append hlast]
    omega

/-- What takes no brace and stays on its level is accounted for. -/
theorem Flat.accounted {o : Outcome α} (h : Flat (fun k => k.isCurly = false) s o) :
    Accounted s o := by
  obtain ⟨read, hread, hkinds⟩ := h.exists_taken
  have hdepth := h.depth_eq
  cases o with
  | ok a s' =>
    exact accounted_ok a ⟨⟨read, hread, net_eq_zero hkinds, endsOpen_eq_false hkinds⟩, hdepth⟩
  | error e s' =>
    refine accounted_error read hread ?_
    rw [net_eq_zero hkinds, unopened, endsOpen_eq_false hkinds, Bool.and_false]
    show (s'.depth : Int) = s.depth + 0 - 0
    rw [show s'.depth = s.depth from hdepth]
    omega

theorem IsFlat.accounts {p : ParseM α} (h : IsFlat (fun k => k.isCurly = false) p) : Accounts p :=
  fun s => (h s).accounted

/-- A failure is accounted for whatever was to be read. -/
theorem Accounted.refused {e : Diagnostic} {s' : State}
    (h : Accounted s (.error e s' : Outcome α)) : Accounted s (.error e s' : Outcome β) := by
  obtain ⟨read, hread, hdepth⟩ := h.of_error e s' rfl
  exact accounted_error read hread hdepth

/-! ### Sequences and repetition -/

theorem Accounted.bind {p : ParseM α} {f : α → ParseM β} (hp : Accounted s (p s))
    (hf : ∀ a, Accounts (f a)) : Accounted s ((p >>= f) s) := by
  rw [ParseM.bind_apply]
  cases h : p s with
  | error e s₁ =>
    rw [h] at hp
    exact hp.refused
  | ok a s₁ => exact (hf a s₁).of_balanced (hp.of_ok a s₁ h)

theorem Accounts.bind {p : ParseM α} {f : α → ParseM β} (hp : Accounts p)
    (hf : ∀ a, Accounts (f a)) : Accounts (p >>= f) := fun s => (hp s).bind hf

theorem accounts_pure (a : α) : Accounts (pure a) :=
  fun _ => accounted_ok a (balanced_refl rfl rfl)

/-- A last step that only builds a value. -/
theorem Accounts.map {p : ParseM α} (hp : Accounts p) (f : α → β) :
    Accounts (p >>= fun a => pure (f a)) :=
  hp.bind fun a => accounts_pure (f a)

/-- A loop accounts for its braces if each of its rounds does. -/
theorem Accounts.iterate {round : α → ParseM (Option α)} (h : ∀ a, Accounts (round a)) (a : α) :
    Accounts (iterate round a) := by
  refine iterate_of_rounds (fun a s e s₁ hr => ?_) (fun a s r s₁ hr => ?_)
    (fun a s b s₁ o hr ho => ?_) a
  · have hround := h a s
    rw [hr] at hround
    exact hround.refused
  · exact accounted_ok _ ((h a s).of_ok r s₁ hr)
  · exact ho.of_balanced ((h a s).of_ok (some b) s₁ hr)

theorem Accounts.many {item : ParseM (Option α)} (h : Accounts item) : Accounts (many item) := by
  refine Accounts.map (Accounts.iterate (fun found => ?_) []) List.reverse
  refine h.bind fun r => ?_
  cases r with
  | none => exact accounts_pure _
  | some a => exact accounts_pure _

theorem accounts_expect {k : Kind} (h : k.isCurly = false) : Accounts (expect k) :=
  IsFlat.accounts (isFlat_expect h)

/-- A token that is not there is refused at once. -/
theorem accounted_expect_bind {k : Kind} (h : s.current.kind ≠ k) (f : Token → ParseM β) :
    Accounted s ((expect k >>= f) s) := by
  rw [ParseM.bind_of_error (expect_of_ne h)]
  exact accounted_error_nil _ rfl rfl

/-! ### Blocks -/

theorem taken_next_of_kind {k : Kind} (h : s.current.kind = k) (hk : k ≠ .eof) :
    s.stream.Taken [s.current] s.next.stream := by
  have hkind : s.stream.current.kind ≠ .eof := fun heof => hk (h.symm.trans heof)
  exact Stream.taken_next hkind

/-- Nothing that begins a body is refused for the nesting limit. -/
theorem isTooDeep_of_body {e : Diagnostic} {tokens : List Token}
    (h : run settings [.body (n + 1)] tokens = .refused e tokens) : e.isTooDeep = false := by
  obtain ⟨read, agenda, t, r, more, htokens, hrest, hread, hanswer, rfl⟩ :=
    exists_of_run_eq_refused h
  -- The refused tokens are all of them, so the body itself has refused the first one.
  have hnil : read = [] := by
    have hlength := congrArg List.length (htokens.symm.trans hrest)
    rw [List.length_append] at hlength
    exact List.eq_nil_of_length_eq_zero (by omega)
  subst hnil
  cases hread
  rw [answer_cons] at hanswer
  split at hanswer
  · cases hanswer
  · by_cases heof : t.kind = .eof
    · simp only [Demand.otherwise, if_pos heof] at hanswer
      cases hanswer
      rfl
    · simp only [Demand.otherwise, if_neg heof] at hanswer
      cases hanswer
      rfl

/-- Behind its brace, a block takes a token before it is refused for the nesting limit. -/
theorem not_isTooDeep_of_blockAt {e : Diagnostic} {s' : State}
    (h : blockAt (.standard settings) (n + 1) s = .error e s')
    (hkind : s.current.kind = .openCurly) (htaken : s.next.stream.Taken [] s'.stream) :
    e.isTooDeep = false := by
  have hbehind := (obeysBlocks_blockAt settings (n + 1) s).behind [] (if_pos hkind) []
  have htokens : s'.tokens = s.next.tokens := by
    rw [State.tokens, State.tokens, htaken.ahead_eq, htaken.stop_eq]
    rfl
  rw [h] at hbehind
  have hbody : run settings [.body (n + 1)] s'.tokens = .refused e s'.tokens := by
    simpa [htokens] using hbehind
  exact isTooDeep_of_body hbody

/-- What is read between braces, in a level of its own. A failure inside leaves the level open. -/
theorem accounted_braces {γ : Type} {p : ParseM α} (hp : Accounts p)
    (hbehind : s.current.kind = .openCurly → ∀ e s', p s.next.deeper = .error e s' →
      s.next.stream.Taken [] s'.stream → e.isTooDeep = false) (f : Token → α → Token → γ) :
    Accounted s ((expect .openCurly >>= fun opening => deeper >>= fun _ => p >>= fun a =>
      expect .closeCurly >>= fun close => shallower >>= fun _ => pure (f opening a close)) s) := by
  by_cases hopen : s.current.kind = .openCurly
  · have htaken := taken_next_of_kind hopen (by decide)
    have hinside := hp s.next.deeper
    have hdeeper : ((s.next.deeper.depth : Nat) : Int) = s.depth + 1 := rfl
    rw [ParseM.bind_of_ok (expect_of_kind hopen), deeper_bind, ParseM.bind_apply]
    cases ha : p s.next.deeper with
    | error e s₁ =>
      obtain ⟨read, hread, hdepth⟩ := hinside.of_error e s₁ ha
      refine accounted_error (s.current :: read) (htaken.trans hread) ?_
      have hlate : read = [] → e.isTooDeep = false := by
        rintro rfl
        exact hbehind hopen e s₁ ha hread
      rw [net_cons, net_of_openCurly hopen, unopened_cons _ hlate, hdepth, hdeeper]
      omega
    | ok a s₁ =>
      obtain ⟨⟨read, hread, hnet, hlast⟩, hdepth⟩ := hinside.of_ok a s₁ ha
      dsimp only
      by_cases hclose : s₁.current.kind = .closeCurly
      · have htaken₁ := taken_next_of_kind hclose (by decide)
        rw [ParseM.bind_of_ok (expect_of_kind hclose), shallower_bind, ParseM.pure_apply]
        refine accounted_ok _ ⟨⟨_, (htaken.trans hread).trans htaken₁, ?_, ?_⟩, ?_⟩
        · rw [net_append, net_append, net_of_openCurly hopen, net_of_closeCurly hclose, hnet]
          rfl
        · rw [endsOpen_concat, hclose]
          rfl
        · show s₁.depth - 1 = s.depth
          rw [hdepth]
          rfl
      · rw [ParseM.bind_of_error (expect_of_ne hclose)]
        refine accounted_error _ (htaken.trans hread) ?_
        rw [unopened_of_isTooDeep rfl, net_append, net_of_openCurly hopen, hnet, hdepth, hdeeper]
        rfl
  · exact accounted_expect_bind hopen _

/-! ### Productions that read blocks -/

section Productions

variable {expr : ExprReader} {block : ParseM Block}
  (hexpr : ∀ least, IsFlat (fun k => k.isCurly = false) (expr least)) (hblock : Accounts block)

include hexpr hblock

theorem accounts_ifStatement : Accounts (ifStatement expr block) := by
  refine (accounts_expect rfl).bind fun word => ?_
  refine (isFlat_condition (fun _ h => h) hexpr).accounts.bind fun e => hblock.bind fun body => ?_
  intro s
  rw [kind_bind]
  split
  · next helse =>
    refine (flat_advance (by rw [helse]; rfl)).accounted.bind fun _ => ?_
    exact hblock.map _
  · exact accounts_pure _ s

theorem accounts_forStatement : Accounts (forStatement expr block) := by
  have hallowed (k : Kind) (h : k.isCurly = false) : k.isCurly = false := h
  refine (accounts_expect rfl).bind fun word => ?_
  refine (accounts_expect rfl).bind fun _ => ?_
  refine (isFlat_declaration hallowed hexpr).accounts.bind fun init => ?_
  refine (hexpr .lowest).accounts.bind fun e => (accounts_expect rfl).bind fun _ => ?_
  refine (isFlat_loopStep hallowed hexpr).accounts.bind fun step => ?_
  exact (accounts_expect rfl).bind fun _ => hblock.map _

theorem accounts_whileStatement : Accounts (whileStatement expr block) := by
  refine (accounts_expect rfl).bind fun word => ?_
  refine (isFlat_condition (fun _ h => h) hexpr).accounts.bind fun e => ?_
  exact hblock.map _

/-- A statement whose first token is no brace. -/
theorem accounted_statementOf (h : s.current.kind.isCurly = false) (form : StatementForm) :
    Accounted s (statementOf expr block form s) := by
  have hallowed (k : Kind) (h : k.isCurly = false) : k.isCurly = false := h
  cases form with
  | declaration =>
    exact (isFlat_declaration hallowed hexpr).accounts.map Statement.declare s
  | name => exact (flat_nameStatement hallowed hexpr h).accounted
  | step => exact (flat_stepStatement hallowed h).accounted
  | ifElse => exact accounts_ifStatement hexpr hblock s
  | forLoop => exact accounts_forStatement hexpr hblock s
  | whileLoop => exact accounts_whileStatement hexpr hblock s
  | ret => exact (isFlat_returnStatement hallowed hexpr).accounts s

theorem accounts_statementWith (settings : Settings) :
    Accounts (statementWith (.standard settings) expr block) := by
  intro s
  rw [statementWith_apply]
  have hannounced : Balanced s (announced s) := balanced_refl rfl rfl
  cases h : (Rules.standard settings).statement s.current.kind with
  | none => exact accounted_error_nil _ rfl rfl
  | some form =>
    have hkind : (announced s).current.kind.isCurly = false :=
      Kind.isCurly_of_test (p := fun k => (Rules.statementForm? k).isSome) rfl rfl
        (Option.isSome_iff_exists.2 ⟨form, h⟩)
    exact (accounted_statementOf hexpr hblock hkind form).of_balanced hannounced

omit hexpr hblock in
theorem accounts_blockItem {statement : ParseM Statement} (h : Accounts statement) :
    Accounts (blockItem statement) := by
  intro s
  rw [blockItem_apply]
  split
  · exact accounted_ok none (balanced_refl rfl rfl)
  · split
    · exact accounted_error_nil _ rfl rfl
    · exact h.map some s

omit hexpr in
theorem accounts_functionWith : Accounts (functionWith block) := by
  intro s
  have hallowed (k : Kind) (h : k.isCurly = false) : k.isCurly = false := h
  unfold functionWith
  rw [position_bind]
  refine (isFlat_typeName hallowed s).accounted.bind fun returns => ?_
  refine (accounts_expect rfl).bind fun name => ?_
  exact (isFlat_parameterList hallowed).accounts.bind fun parameters => hblock.map _

end Productions

/-- **A block accounts for its brace**: it gives the level back if it succeeds, and leaves it open
if it fails. -/
theorem accounts_blockAt (settings : Settings) (n : Nat) :
    Accounts (blockAt (.standard settings) n) := by
  induction n with
  | zero =>
    intro s
    rw [blockAt]
    by_cases hopen : s.current.kind = .openCurly
    · rw [ParseM.bind_of_ok (expect_of_kind hopen)]
      refine accounted_error [s.current] (taken_next_of_kind hopen (by decide)) ?_
      have hlate : endsOpen [s.current] = true := decide_eq_true hopen
      rw [net_of_openCurly hopen, unopened, hlate]
      show (s.depth : Int) = s.depth + 1 - 1
      omega
    · exact accounted_expect_bind hopen _
  | succ n ih =>
    intro s
    rw [blockAt]
    have hstatement := accounts_statementWith (isFlat_exprAt (fun _ h => h) settings n) ih settings
    refine accounted_braces (accounts_blockItem hstatement).many (fun hopen e s' he htaken => ?_) _
    have hblock : blockAt (.standard settings) (n + 1) s = .error e s' := by
      rw [blockAt, ParseM.bind_of_ok (expect_of_kind hopen), deeper_bind, ParseM.bind_of_error he]
    exact not_isTooDeep_of_blockAt hblock hopen htaken

end Parse

/-! ### Requests -/

namespace Request

open Parse Token

/-- The requests that read blocks. -/
def readsBlocks : Request → Bool
  | ifStatement | forStatement | whileStatement | statement | block | function => true
  | _ => false

/-- What reads no block stays on its level, from any state. -/
theorem flat_perform (settings : Settings) (s : State) (request : Request)
    (henter : request ≠ enter) (hleave : request ≠ leave) (hblocks : request.readsBlocks = false) :
    Flat (fun _ => True) s (request.perform (.standard settings) s) := by
  have hall (k : Kind) (_ : k.isCurly = false) : True := trivial
  have hexpr (n : Nat) (least : Power) :
      IsFlat (fun _ => True) (exprAt (.standard settings) n least) :=
    isFlat_exprAt hall settings n least
  -- No level is asked for but those of expressions, so it does not matter how many are free.
  have void {α : Type} {p : ParseM α} (h : Flat (fun _ => True) s (p s)) :
      Flat (fun _ => True) s (p.void s) := h.map fun _ => ()
  cases request with
  | advance => exact void (flat_advance trivial)
  | expectOneOf kinds => exact void (isFlat_expectOneOf (fun _ _ => trivial) s)
  | peek places => exact void (flat_of_state_eq rfl)
  | enter => exact absurd rfl henter
  | leave => exact absurd rfl hleave
  | expr least => exact void (hexpr _ least s)
  | operators least => exact void (isFlat_extended hall (hexpr _) settings least s)
  | literal => exact void (isFlat_literal hall s)
  | negation => exact void (isFlat_negation hall (hexpr _) s)
  | group => exact void (isFlat_group hall (hexpr _) s)
  | nameOperand => exact void (isFlat_nameOperand hall (hexpr _) s)
  | call => exact void (isFlat_call hall (hexpr _) s)
  | binary power left => exact void (flat_binary (hexpr _) power left trivial)
  | typeName => exact void (isFlat_typeName hall s)
  | parameter => exact void (isFlat_parameter hall s)
  | parameterList => exact void (isFlat_parameterList hall s)
  | declaration => exact void (isFlat_declaration hall (hexpr _) s)
  | assignUpdate => exact void (flat_assignUpdate hall (hexpr _) fun _ => trivial)
  | stepUpdate => exact void (flat_stepUpdate hall trivial)
  | nameStatement => exact void (flat_nameStatement hall (hexpr _) trivial)
  | stepStatement => exact void (flat_stepStatement hall trivial)
  | condition => exact void (isFlat_condition hall (hexpr _) s)
  | loopStep => exact void (isFlat_loopStep hall (hexpr _) s)
  | returnStatement => exact void (isFlat_returnStatement hall (hexpr _) s)
  | _ => cases hblocks

/-- What reads blocks accounts for its braces, from any state. -/
theorem accounted_perform (settings : Settings) (s : State) (request : Request)
    (hblocks : request.readsBlocks = true) :
    Accounted s (request.perform (.standard settings) s) := by
  have hexpr (n : Nat) (least : Power) :
      IsFlat (fun k => k.isCurly = false) (exprAt (.standard settings) n least) :=
    isFlat_exprAt (fun _ h => h) settings n least
  have void {α : Type} {p : ParseM α} (h : Accounted s (p s)) : Accounted s (p.void s) :=
    h.bind fun _ => accounts_pure ()
  cases request with
  | ifStatement => exact void (accounts_ifStatement (hexpr _) (accounts_blockAt settings _) s)
  | forStatement => exact void (accounts_forStatement (hexpr _) (accounts_blockAt settings _) s)
  | whileStatement => exact void (accounts_whileStatement (hexpr _) (accounts_blockAt settings _) s)
  | statement => exact void (accounts_statementWith (hexpr _) (accounts_blockAt settings _) _ s)
  | block => exact void (accounts_blockAt settings _ s)
  | function =>
    have hblock : Accounts (Parse.block (.standard settings)) :=
      fun s => accounts_blockAt settings _ s
    exact void (accounts_functionWith hblock s)
  | _ => cases hblocks

/-- **Levels are accounted for on success and on failure.** Whatever is asked of a parser in any
state, besides opening or closing a level: a success leaves as many levels open as there were. So
does the failure of what reads no block. The failure of what reads blocks leaves one more level
open for each opening brace that was taken, and one less for each closing one; it leaves none open
for a last opening brace behind which the nesting limit refused a block. -/
theorem depth_perform (settings : Settings) (s : State) (request : Request)
    (henter : request ≠ enter) (hleave : request ≠ leave) :
    (∀ s', request.perform (.standard settings) s = .ok () s' → s'.depth = s.depth) ∧
    ∀ e s', request.perform (.standard settings) s = .error e s' →
      (request.readsBlocks = false → s'.depth = s.depth) ∧
      (request.readsBlocks = true → ∃ read, s.stream.Taken read s'.stream ∧
        (s'.depth : Int) = s.depth + net read
          - if e.isTooDeep && endsOpen read then 1 else 0) := by
  cases hblocks : request.readsBlocks with
  | false =>
    have hlevel := flat_perform settings s request henter hleave hblocks
    refine ⟨fun s' h => ?_, fun e s' h => ⟨fun _ => ?_, nofun⟩⟩
    · rw [h] at hlevel
      exact hlevel.depth_eq
    · rw [h] at hlevel
      exact hlevel.depth_eq
  | true =>
    have haccounted := accounted_perform settings s request hblocks
    exact ⟨fun s' h => (haccounted.of_ok () s' h).depth_eq,
      fun e s' h => ⟨nofun, fun _ => haccounted.of_error e s' h⟩⟩

/-- With no level free, the brace of `void f() {` is taken and no level is left open. -/
theorem depth_perform_at_refused_body : ∃ e s',
    function.perform (.standard ⟨0⟩) (.ofTokens [⟨.voidType, "void", default⟩,
      ⟨.identifier, "f", default⟩, ⟨.openParen, "(", default⟩, ⟨.closeParen, ")", default⟩,
      ⟨.openCurly, "\x7b", default⟩]) = .error e s' ∧
    e.isTooDeep = true ∧ s'.depth = 0 ∧
    ∃ read, (Stream.ofTokens [⟨.voidType, "void", default⟩,
      ⟨.identifier, "f", default⟩, ⟨.openParen, "(", default⟩, ⟨.closeParen, ")", default⟩,
      ⟨.openCurly, "\x7b", default⟩]).Taken read s'.stream ∧
      (s'.depth : Int) = 0 + net read - if e.isTooDeep && endsOpen read then 1 else 0 := by
  cases h : function.perform (.standard ⟨0⟩) (.ofTokens [⟨.voidType, "void", default⟩,
      ⟨.identifier, "f", default⟩, ⟨.openParen, "(", default⟩, ⟨.closeParen, ")", default⟩,
      ⟨.openCurly, "\x7b", default⟩]) with
  | ok a s' => cases h
  | error e s' =>
    have hdepth := ((depth_perform ⟨0⟩ _ function nofun nofun).2 e s' h).2 rfl
    cases h
    exact ⟨_, _, rfl, rfl, rfl, hdepth⟩

end Request

end ImpFront
