import ImpFront.Proofs.Parse.Run
/-!
# ImpFront.Proofs.Parse.Agenda

**What a parse still has to read, as a list of demands.** A demand looks at one token: it
takes the token and leaves further demands in its place, or it passes the token on to the
next demand, or it refuses it. An agenda is a list of demands, the next one first, and
`run` answers the tokens one after the other.

An agenda knows nothing of trees and looks at no token but the current one. So what holds
of a parse because of what it has *not* yet seen (where an error is found, what would have
been accepted instead, how a text could go on) is said about agendas, and `Obeys` carries
it over to the productions: a production that looks ahead does with its lookahead what an
agenda decides one token later.

The levels of nesting that are free stand in the demands, as they do in `exprAt` and
`blockAt`.
-/

namespace ImpFront

namespace State

/-- The tokens from a state on, the end of the input included. -/
def tokens (s : State) : List Token := s.stream.ahead ++ [s.stream.stop]

theorem length_tokens (s : State) : s.tokens.length = s.stream.left + 1 := by
  rw [tokens, List.length_append, s.stream.left_eq]
  rfl

/-- The current token is the first one. -/
theorem exists_tokens_eq (s : State) : ∃ rest, s.tokens = s.current :: rest := by
  unfold tokens current Stream.current
  cases s.stream.ahead with
  | nil => exact ⟨[], rfl⟩
  | cons t rest => exact ⟨rest ++ [s.stream.stop], rfl⟩

/-- Unless the input ends, the others are those of the next state. -/
theorem tokens_eq_cons {s : State} (h : s.current.kind ≠ .eof) :
    s.tokens = s.current :: s.next.tokens := by
  have hne : s.stream.ahead ≠ [] := fun hnil => h (s.stream.current_kind_eq_eof_iff.2 hnil)
  obtain ⟨t, rest, hcons⟩ := List.exists_cons_of_ne_nil hne
  rw [tokens, tokens, next, Stream.ahead_next, Stream.stop_next, current, Stream.current, hcons]
  rfl

end State

namespace Parse

/-! ### Refusals -/

/-- Why a token is refused, without the token. -/
inductive Refusal where
  /-- Its kind is none of these. -/
  | kind (expected : List Kind)
  /-- It begins no expression. -/
  | noExpression
  /-- It is the end of the input inside a block. -/
  | unclosed
  /-- It stands one level too deep. -/
  | tooDeep (limit : Nat)

namespace Refusal

/-- The refusal of a token. -/
def cause (t : Token) : Refusal → Cause
  | kind expected => .unexpectedToken t.text t.kind expected
  | noExpression => .expectedExpression t.text t.kind
  | unclosed => .unclosedBlock t.text
  | tooDeep limit => .nestingTooDeep limit

/-- The refusal of a token at its place. -/
def diagnostic (r : Refusal) (t : Token) : Diagnostic := ⟨r.cause t, t.span.start⟩

/-- The kinds that would have been accepted. -/
def expected : Refusal → List Kind
  | kind expected => expected
  | noExpression => Cause.expressionStart
  | unclosed => [.closeCurly]
  | tooDeep _ => []

/-- The kinds that the refusal of a token lists. -/
theorem expectedKinds_cause (r : Refusal) (t : Token) : (r.cause t).expectedKinds = r.expected := by
  cases r <;> rfl

end Refusal

/-! ### Demands -/

/-- A thing that is still to be read. -/
inductive Demand where
  /-- A token of one kind. -/
  | token (kind : Kind) (ne_eof : kind ≠ .eof := by decide)
  | typeName
  | expr (levels : Nat) (least : Power)
  /-- The operators behind an operand. -/
  | operators (levels : Nat) (least : Power)
  /-- What makes a call or an assignment of a name at the start of an operand. -/
  | nameTail (levels : Nat)
  /-- Arguments behind the opening parenthesis, and the closing one. -/
  | arguments (levels : Nat)
  | moreArguments (levels : Nat)
  /-- Parameters behind the opening parenthesis, and the closing one. -/
  | parameters
  | moreParameters
  /-- What follows the name in a declaration. -/
  | value (levels : Nat)
  /-- What follows a type and a name outside of all blocks. -/
  | declared (levels : Nat)
  | statement (levels : Nat)
  /-- What follows a name at the start of a statement. -/
  | update (levels : Nat)
  /-- The alternative of an `if`. -/
  | alternative (levels : Nat)
  | loopStep (levels : Nat)
  /-- What follows a name at the start of a loop step. -/
  | loopUpdate (levels : Nat)
  /-- What follows `return`. -/
  | returned (levels : Nat)
  /-- Statements behind the opening brace, and the closing one. -/
  | body (levels : Nat)
  /-- Functions and statements up to the end of the input. -/
  | items (levels : Nat)

/-- What a demand does with a token that it does not take. -/
inductive Fallback where
  /-- It leaves the token to the next demand. -/
  | pass
  /-- It ends the parse with success. -/
  | accept
  | refuse (r : Refusal)

namespace Demand

/-- A block is a brace and a body. -/
def block (n : Nat) : List Demand := [.token .openCurly, .body n]

/-- What an operand demands behind its first token. -/
def operandRest (n : Nat) : OperandForm → List Demand
  | .negation => [.expr n .notOperand]
  | .group => [.expr n .lowest, .token .closeParen]
  | .name => [.nameTail n]
  | .literal => []

/-- What a condition between parentheses and a block demand. -/
def guarded (n : Nat) : List Demand :=
  .token .openParen :: .expr n .lowest :: .token .closeParen :: block n

/-- What a statement demands behind its first token. -/
def statementRest (n : Nat) : StatementForm → List Demand
  | .declaration => [.token .identifier, .value n]
  | .name => [.update n]
  | .step => [.token .identifier, .token .semicolon]
  | .ifElse => guarded n ++ [.alternative n]
  | .forLoop =>
    .token .openParen :: .typeName :: .token .identifier :: .value n :: .expr n .lowest
      :: .token .semicolon :: .loopStep n :: .token .closeParen :: block n
  | .whileLoop => guarded n
  | .ret => [.returned n]

/-- What an expression demands behind a token of the kind. -/
def exprRest? (least : Power) (k : Kind) : Nat → Option (List Demand)
  | 0 => none
  | n + 1 => (Rules.operandForm? k).map fun form => operandRest n form ++ [.operators n least]

/-- What is demanded behind a comma, and behind the parenthesis that ends the list. -/
def listRest? (item : List Demand) (more : Demand) (k : Kind) : Option (List Demand) :=
  if k = .comma then some (item ++ [more]) else if k = .closeParen then some [] else none

/-- What a declaration demands behind the token that follows its name. -/
def valueRest? (n : Nat) (k : Kind) : Option (List Demand) :=
  if k = .assign then some [.expr n .lowest, .token .semicolon]
  else if k = .semicolon then some []
  else none

/-- What takes the place of a demand that takes a token of the kind. -/
def take? : Demand → Kind → Option (List Demand)
  | .token kind _, k => if k = kind then some [] else none
  | .typeName, k => if k.isType then some [] else none
  | .expr n least, k => exprRest? least k n
  | .operators n least, k =>
    (Rules.power? k).bind fun power =>
      if least < power then some [.expr n power.next, .operators n least] else none
  | .nameTail n, k =>
    if k = .openParen then some [.arguments n]
    else if k = .assign then some [.expr n .lowest]
    else none
  | .arguments n, k =>
    if k = .closeParen then some []
    else (exprRest? .lowest k n).map (· ++ [.moreArguments n])
  | .moreArguments n, k => listRest? [.expr n .lowest] (.moreArguments n) k
  | .parameters, k =>
    if k = .closeParen then some []
    else if k.isType then some [.token .identifier, .moreParameters]
    else none
  | .moreParameters, k => listRest? [.typeName, .token .identifier] .moreParameters k
  | .value n, k => valueRest? n k
  | .declared n, k => if k = .openParen then some (.parameters :: block n) else valueRest? n k
  | .statement n, k => (Rules.statementForm? k).map (statementRest n)
  | .update n, k =>
    if k.isAssign then some [.expr n .lowest, .token .semicolon]
    else if k.isStep then some [.token .semicolon]
    else if k = .openParen then some [.arguments n, .token .semicolon]
    else none
  | .alternative n, k => if k = .elseWord then some (block n) else none
  | .loopStep n, k =>
    if k.isStep then some [.token .identifier]
    else if k = .identifier then some [.loopUpdate n]
    else none
  | .loopUpdate n, k =>
    if k.isAssign then some [.expr n .lowest] else if k.isStep then some [] else none
  | .returned n, k =>
    if k = .semicolon then some []
    else (exprRest? .lowest k n).map (· ++ [.token .semicolon])
  | .body 0, _ => none
  | .body (n + 1), k =>
    if k = .closeCurly then some []
    else (Rules.statementForm? k).map fun form => statementRest n form ++ [.body (n + 1)]
  | .items n, k =>
    if k.isType then some [.token .identifier, .declared n, .items n]
    else (Rules.statementForm? k).map fun form => statementRest n form ++ [.items n]

variable (settings : Settings)

/-- What an expression does with a token that begins none. -/
def exprFallback : Nat → Fallback
  | 0 => .refuse (.tooDeep settings.maxDepth)
  | _ + 1 => .refuse .noExpression

/-- An expression never passes a token on. -/
theorem exists_exprFallback_eq (n : Nat) : ∃ r, exprFallback settings n = .refuse r := by
  cases n with
  | zero => exact ⟨_, rfl⟩
  | succ n => exact ⟨_, rfl⟩

/-- What a demand does with a token of the kind that it does not take. -/
def otherwise : Demand → Kind → Fallback
  | .token kind _, _ => .refuse (.kind [kind])
  | .typeName, _ | .parameters, _ => .refuse (.kind Ty.keywords)
  | .expr n _, _ | .arguments n, _ | .returned n, _ => exprFallback settings n
  | .operators .., _ | .nameTail _, _ | .alternative _, _ => .pass
  | .moreArguments _, _ | .moreParameters, _ => .refuse (.kind [.comma, .closeParen])
  | .value _, _ | .declared _, _ => .refuse (.kind [.assign, .semicolon])
  | .statement _, _ => .refuse (.kind (Rules.standard settings).statementStarts)
  | .update _, _ => .refuse (.kind afterName)
  | .loopStep _, _ => .refuse (.kind [.identifier, .plusPlus, .minusMinus])
  | .loopUpdate _, _ => .refuse (.kind updateKinds)
  | .body 0, _ => .refuse (.tooDeep settings.maxDepth)
  | .body (_ + 1), k =>
    if k = .eof then .refuse .unclosed
    else .refuse (.kind (Rules.standard settings).statementStarts)
  | .items _, k =>
    if k = .eof then .accept else .refuse (.kind (Rules.standard settings).statementStarts)

end Demand

/-! ### Agendas -/

/-- What an agenda does with a token. -/
inductive Answer where
  | take (agenda : List Demand)
  /-- Nothing is demanded. -/
  | done
  | accept
  | refuse (r : Refusal)

variable (settings : Settings)

/-- What an agenda does with a token of the kind: the first demand that does not pass decides. -/
def answer : List Demand → Kind → Answer
  | [], _ => .done
  | d :: agenda, k =>
    match d.take? k with
    | some ds => .take (ds ++ agenda)
    | none =>
      match d.otherwise settings k with
      | .pass => answer agenda k
      | .accept => .accept
      | .refuse r => .refuse r

theorem answer_cons (d : Demand) (agenda : List Demand) (k : Kind) :
    answer settings (d :: agenda) k =
      match d.take? k with
      | some ds => .take (ds ++ agenda)
      | none =>
        match d.otherwise settings k with
        | .pass => answer settings agenda k
        | .accept => .accept
        | .refuse r => .refuse r := rfl

/-- How the answers of an agenda end. -/
inductive Verdict where
  /-- The tokens are used up. -/
  | open (agenda : List Demand)
  /-- Everything that was demanded has been read, in front of these tokens. -/
  | done (rest : List Token)
  | accepted
  /-- The first of these tokens is refused. -/
  | refused (d : Diagnostic) (rest : List Token)

/-- Answers tokens one after the other. -/
def run : List Demand → List Token → Verdict
  | agenda, [] => .open agenda
  | agenda, t :: rest =>
    match answer settings agenda t.kind with
    | .take agenda' => run agenda' rest
    | .done => .done (t :: rest)
    | .accept => .accepted
    | .refuse r => .refused (r.diagnostic t) (t :: rest)

theorem run_cons (agenda : List Demand) (t : Token) (rest : List Token) :
    run settings agenda (t :: rest) =
      match answer settings agenda t.kind with
      | .take agenda' => run settings agenda' rest
      | .done => .done (t :: rest)
      | .accept => .accepted
      | .refuse r => .refused (r.diagnostic t) (t :: rest) := rfl

/-! ### Single demands -/

namespace Demand

/-- Nothing takes the end of the input. -/
theorem take?_eof (d : Demand) : d.take? .eof = none := by
  cases d with
  | token kind ne_eof => exact if_neg (Ne.symm ne_eof)
  | expr n least => cases n <;> rfl
  | arguments n => cases n <;> rfl
  | returned n => cases n <;> rfl
  | body n => cases n <;> rfl
  | _ => rfl

theorem isSome_exprRest?_of_mem_expected {n : Nat} {r : Refusal}
    (hr : exprFallback settings n = .refuse r) {k : Kind} (hk : k ∈ r.expected) (least : Power) :
    (exprRest? least k n).isSome = true := by
  cases n with
  | zero =>
    cases hr
    cases hk
  | succ n =>
    cases hr
    rw [exprRest?, Option.isSome_map]
    exact (Rules.operandForm?_isSome_iff k).2 hk

/-- **Every kind that a demand asks for is one that it takes.** -/
theorem isSome_take?_of_mem_expected {d : Demand} {k k' : Kind} {r : Refusal}
    (hr : d.otherwise settings k = .refuse r) (hk : k' ∈ r.expected) :
    (d.take? k').isSome = true := by
  have hstart (h : k' ∈ (Rules.standard settings).statementStarts) :
      (Rules.statementForm? k').isSome = true := Rules.mem_statementStarts.1 h
  cases d with
  | token kind ne_eof =>
    cases hr
    rw [take?, if_pos (List.mem_singleton.1 hk)]
    rfl
  | expr n least => exact isSome_exprRest?_of_mem_expected settings hr hk least
  | arguments n =>
    rw [take?]
    split
    · rfl
    · rw [Option.isSome_map]
      exact isSome_exprRest?_of_mem_expected settings hr hk .lowest
  | returned n =>
    rw [take?]
    split
    · rfl
    · rw [Option.isSome_map]
      exact isSome_exprRest?_of_mem_expected settings hr hk .lowest
  | operators n least => cases hr
  | nameTail n => cases hr
  | alternative n => cases hr
  | statement n =>
    cases hr
    rw [take?, Option.isSome_map]
    exact hstart hk
  | body n =>
    cases n with
    | zero =>
      cases hr
      cases hk
    | succ n =>
      rw [otherwise] at hr
      rw [take?]
      split at hr <;> cases hr
      · rw [if_pos (List.mem_singleton.1 hk)]
        rfl
      · split
        · rfl
        · rw [Option.isSome_map]
          exact hstart hk
  | items n =>
    rw [otherwise] at hr
    rw [take?]
    split at hr <;> cases hr
    split
    · rfl
    · rw [Option.isSome_map]
      exact hstart hk
  | _ =>
    -- The lists are short, so each kind is either in the list and taken or not in the list.
    cases hr
    cases k' <;> first | rfl | exact absurd hk (by decide)

theorem eq_eof_of_otherwise_eq_unclosed {settings : Settings} {d : Demand} {k : Kind}
    (h : d.otherwise settings k = .refuse .unclosed) : k = .eof := by
  cases d with
  | expr n least => cases n <;> cases h
  | arguments n => cases n <;> cases h
  | returned n => cases n <;> cases h
  | body n =>
    cases n with
    | zero => cases h
    | succ n =>
      rw [otherwise] at h
      split at h
      · assumption
      · cases h
  | items n =>
    rw [otherwise] at h
    split at h <;> cases h
  | _ => cases h

/-- Whether a demand passes does not depend on the token. -/
theorem otherwise_eq_pass {d : Demand} {k : Kind} (h : d.otherwise settings k = .pass)
    (k' : Kind) : d.otherwise settings k' = .pass := by
  cases d with
  | operators n least => rfl
  | nameTail n => rfl
  | alternative n => rfl
  | expr n least => cases n <;> cases h
  | arguments n => cases n <;> cases h
  | returned n => cases n <;> cases h
  | body n =>
    cases n with
    | zero => cases h
    | succ n =>
      rw [otherwise] at h
      split at h <;> cases h
  | items n =>
    rw [otherwise] at h
    split at h <;> cases h
  | _ => cases h

end Demand

/-! ### Answers -/

section Answers

variable {settings : Settings} {d : Demand} {k : Kind} {ds agenda : List Demand} {r : Refusal}

theorem answer_of_take (h : d.take? k = some ds) :
    answer settings (d :: agenda) k = .take (ds ++ agenda) := by
  rw [answer_cons, h]

theorem answer_of_pass (h : d.take? k = none) (hpass : d.otherwise settings k = .pass) :
    answer settings (d :: agenda) k = answer settings agenda k := by
  rw [answer_cons, h, hpass]

theorem answer_of_refuse (h : d.take? k = none) (hrefuse : d.otherwise settings k = .refuse r) :
    answer settings (d :: agenda) k = .refuse r := by
  rw [answer_cons, h, hrefuse]

theorem answer_congr {d₀ : Demand} (htake : d.take? k = d₀.take? k)
    (hotherwise : d.otherwise settings k = d₀.otherwise settings k) :
    answer settings (d :: agenda) k = answer settings (d₀ :: agenda) k := by
  rw [answer_cons, answer_cons, htake, hotherwise]

/-- A property of agendas is kept by the answers if it is kept where the first demand takes the
token and where it passes. -/
theorem of_answer_eq_take {P Q : List Demand → Prop}
    (htake : ∀ d agenda ds, P (d :: agenda) → d.take? k = some ds → Q (ds ++ agenda))
    (hpass : ∀ d agenda, P (d :: agenda) → d.take? k = none → d.otherwise settings k = .pass →
      P agenda)
    {agenda agenda' : List Demand} (hP : P agenda) (h : answer settings agenda k = .take agenda') :
    Q agenda' := by
  induction agenda with
  | nil => cases h
  | cons d agenda ih =>
    rw [answer_cons] at h
    split at h
    · next ds hds =>
      cases h
      exact htake d agenda ds hP hds
    · next hnone =>
      split at h
      · next hp => exact ih (hpass d agenda hP hnone hp) h
      · cases h
      · cases h

/-- The end of the input is never taken. -/
theorem ne_eof_of_answer {agenda' : List Demand} (h : answer settings agenda k = .take agenda') :
    k ≠ .eof := by
  refine of_answer_eq_take (P := fun _ => True) (Q := fun _ => k ≠ .eof) ?_ ?_ trivial h
  · rintro d agenda ds - hds rfl
    rw [d.take?_eof] at hds
    cases hds
  · intros
    trivial

/-- **Every kind that an agenda asks for is one that it takes.** -/
theorem exists_answer_of_mem_expected {k' : Kind} (h : answer settings agenda k = .refuse r)
    (hk : k' ∈ r.expected) : ∃ agenda', answer settings agenda k' = .take agenda' := by
  induction agenda with
  | nil => cases h
  | cons d agenda ih =>
    rw [answer_cons] at h
    split at h
    · cases h
    · split at h
      · next hpass =>
        cases htake : d.take? k' with
        | some ds => exact ⟨_, answer_of_take htake⟩
        | none =>
          rw [answer_of_pass htake (Demand.otherwise_eq_pass settings hpass k')]
          exact ih h
      · cases h
      · next hrefuse =>
        cases h
        obtain ⟨ds, hds⟩ :=
          Option.isSome_iff_exists.1 (Demand.isSome_take?_of_mem_expected settings hrefuse hk)
        exact ⟨_, answer_of_take hds⟩

/-- Only the end of the input leaves a block unclosed. -/
theorem eq_eof_of_answer_eq_unclosed (h : answer settings agenda k = .refuse .unclosed) :
    k = .eof := by
  induction agenda with
  | nil => cases h
  | cons d agenda ih =>
    rw [answer_cons] at h
    split at h
    · cases h
    · split at h
      · exact ih h
      · cases h
      · next hrefuse =>
        cases h
        exact Demand.eq_eof_of_otherwise_eq_unclosed hrefuse

/-- What is refused was not asked for. -/
theorem not_mem_expected_of_answer (h : answer settings agenda k = .refuse r) :
    k ∉ r.expected := by
  intro hk
  obtain ⟨agenda', htake⟩ := exists_answer_of_mem_expected h hk
  rw [h] at htake
  cases htake

end Answers

/-! ### Runs -/

section Runs

variable {settings : Settings} {agenda agenda' : List Demand} {t : Token}

theorem run_of_take (h : answer settings agenda t.kind = .take agenda') (rest : List Token) :
    run settings agenda (t :: rest) = run settings agenda' rest := by
  rw [run_cons, h]

theorem run_of_done (h : answer settings agenda t.kind = .done) (rest : List Token) :
    run settings agenda (t :: rest) = .done (t :: rest) := by
  rw [run_cons, h]

theorem run_of_accept (h : answer settings agenda t.kind = .accept) (rest : List Token) :
    run settings agenda (t :: rest) = .accepted := by
  rw [run_cons, h]

theorem run_of_refuse {r : Refusal} (h : answer settings agenda t.kind = .refuse r)
    (rest : List Token) :
    run settings agenda (t :: rest) = .refused (r.diagnostic t) (t :: rest) := by
  rw [run_cons, h]

/-- Tokens that are all taken are taken one by one. -/
theorem exists_take_of_run_eq_open {read : List Token}
    (h : run settings agenda (t :: read) = .open agenda') :
    ∃ agenda₁, answer settings agenda t.kind = .take agenda₁
      ∧ run settings agenda₁ read = .open agenda' := by
  cases hanswer : answer settings agenda t.kind with
  | take agenda₁ => exact ⟨agenda₁, rfl, (run_of_take hanswer read).symm.trans h⟩
  | done => cases (run_of_done hanswer read).symm.trans h
  | accept => cases (run_of_accept hanswer read).symm.trans h
  | refuse r => cases (run_of_refuse hanswer read).symm.trans h

/-- A token in front of a refusal is taken, or it is the one refused. -/
theorem take_or_refuse_of_run_eq_refused {tokens rest : List Token} {e : Diagnostic}
    (h : run settings agenda (t :: tokens) = .refused e rest) :
    (∃ agenda₁, answer settings agenda t.kind = .take agenda₁
      ∧ run settings agenda₁ tokens = .refused e rest)
    ∨ ∃ r, answer settings agenda t.kind = .refuse r ∧ e = r.diagnostic t
      ∧ rest = t :: tokens := by
  cases hanswer : answer settings agenda t.kind with
  | take agenda₁ => exact .inl ⟨agenda₁, rfl, (run_of_take hanswer tokens).symm.trans h⟩
  | done => cases (run_of_done hanswer tokens).symm.trans h
  | accept => cases (run_of_accept hanswer tokens).symm.trans h
  | refuse r =>
    cases (run_of_refuse hanswer tokens).symm.trans h
    exact .inr ⟨r, rfl, rfl, rfl⟩

/-- Tokens that are all taken leave an agenda for those behind them. -/
theorem run_append {read : List Token} (h : run settings agenda read = .open agenda')
    (rest : List Token) : run settings agenda (read ++ rest) = run settings agenda' rest := by
  induction read generalizing agenda with
  | nil =>
    cases h
    rfl
  | cons t read ih =>
    obtain ⟨agenda₁, htake, hrun⟩ := exists_take_of_run_eq_open h
    rw [List.cons_append, run_of_take htake]
    exact ih hrun

theorem ne_eof_of_run_eq_open {read : List Token} (h : run settings agenda read = .open agenda') :
    ∀ t ∈ read, t.kind ≠ .eof := by
  induction read generalizing agenda with
  | nil => exact fun t ht => absurd ht List.not_mem_nil
  | cons t read ih =>
    obtain ⟨agenda₁, htake, hrun⟩ := exists_take_of_run_eq_open h
    exact List.forall_mem_cons.2 ⟨ne_eof_of_answer htake, ih hrun⟩

/-- What every answer keeps, tokens that are all taken keep. -/
theorem of_run_eq_open {P : Nat → List Demand → Prop}
    (hP : ∀ left agenda k agenda', P (left + 1) agenda → answer settings agenda k = .take agenda' →
      P left agenda')
    {read : List Token} {left : Nat} (h : run settings agenda read = .open agenda')
    (hstart : P (read.length + left) agenda) : P left agenda' := by
  induction read generalizing agenda with
  | nil =>
    cases h
    rwa [List.length_nil, Nat.zero_add] at hstart
  | cons t read ih =>
    obtain ⟨agenda₁, htake, hrun⟩ := exists_take_of_run_eq_open h
    refine ih hrun (hP _ _ _ _ ?_ htake)
    rwa [List.length_cons, Nat.add_right_comm] at hstart

theorem run_append_of_accepted {tokens : List Token}
    (h : run settings agenda tokens = .accepted) (more : List Token) :
    run settings agenda (tokens ++ more) = .accepted := by
  induction tokens generalizing agenda with
  | nil => cases h
  | cons t tokens ih =>
    cases hanswer : answer settings agenda t.kind with
    | take agenda₁ =>
      rw [List.cons_append, run_of_take hanswer]
      exact ih ((run_of_take hanswer tokens).symm.trans h)
    | done => cases (run_of_done hanswer tokens).symm.trans h
    | accept => exact run_of_accept hanswer _
    | refuse r => cases (run_of_refuse hanswer tokens).symm.trans h

theorem run_append_of_refused {tokens rest : List Token} {e : Diagnostic}
    (h : run settings agenda tokens = .refused e rest) (more : List Token) :
    run settings agenda (tokens ++ more) = .refused e (rest ++ more) := by
  induction tokens generalizing agenda with
  | nil => cases h
  | cons t tokens ih =>
    obtain ⟨agenda₁, htake, hrun⟩ | ⟨r, hrefuse, rfl, rfl⟩ := take_or_refuse_of_run_eq_refused h
    · rw [List.cons_append, run_of_take htake]
      exact ih hrun
    · exact run_of_refuse hrefuse _

/-- **A refusal comes at the first token that is not taken**, and is the answer to that token. -/
theorem exists_of_run_eq_refused {tokens rest : List Token} {e : Diagnostic}
    (h : run settings agenda tokens = .refused e rest) :
    ∃ read agenda' t r more, tokens = read ++ t :: more ∧ rest = t :: more
      ∧ run settings agenda read = .open agenda'
      ∧ answer settings agenda' t.kind = .refuse r ∧ e = r.diagnostic t := by
  induction tokens generalizing agenda with
  | nil => cases h
  | cons t tokens ih =>
    obtain ⟨agenda₁, htake, hrun⟩ | ⟨r, hrefuse, rfl, rfl⟩ := take_or_refuse_of_run_eq_refused h
    · obtain ⟨read, agenda', u, r, more, rfl, hrest, hread, hanswer, he⟩ := ih hrun
      refine ⟨t :: read, agenda', u, r, more, rfl, hrest, ?_, hanswer, he⟩
      rw [run_of_take htake, hread]
    · exact ⟨[], agenda, t, r, tokens, rfl, rfl, rfl, hrefuse, rfl⟩

end Runs

end Parse

end ImpFront
