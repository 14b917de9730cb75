import Mathlib.Data.List.Chain
import ImpFront.Proofs.Parse.ErrorPlace
/-!
# ImpFront.Proofs.Parse.Unlisted

**What a failure does not list.** A failure lists kinds that would have been taken in place of the
refused token, but not all of them. The list is that of the one demand that refuses. Kinds are
missing for two reasons.

* Demands that came before may have passed the token on, because what they stand for may be left
  out: a further operator, the rest of a call or of an assignment, an alternative. Nobody lists
  what those would have taken.
* The demand itself lists only what most of its tokens are for, and not what ends it at once:
  `)` behind the parenthesis that opens a list, `;` behind `return`, `}` and the end of the input
  behind a statement, and `(` behind the name of what might have been a function.

So what is missing is known from the cause alone (`Cause.unlisted`). That needs to know which
demands may stand behind one that passes, which is an invariant of agendas (`Ordered`): operators are
followed by what ends an expression, an alternative by further statements.
-/

namespace ImpFront

/-! ### The kinds that are not listed -/

/-- The kinds that begin a statement. -/
def Cause.statementStart : List Kind := (Rules.standard default).statementStarts

/-- The kinds that may go on with an expression that is complete. -/
def Cause.expressionTail : List Kind := [.openParen, .assign] ++ BinaryOp.all.map BinaryOp.kind

/-- Kinds that may be accepted beside the expected ones, where those are all that is listed. -/
def Cause.besides (expected : List Kind) : List Kind :=
  if expected = [.closeParen] ∨ expected = [.semicolon] ∨ expected = [.comma, .closeParen] then
    expressionTail
  else if expected = Ty.keywords then [.closeParen]
  else if expected = [.assign, .semicolon] then [.openParen]
  else if expected = statementStart then [.elseWord, .closeCurly, .eof]
  else []

/-- Kinds that may be accepted where a source is refused for the cause, and are not listed. -/
def Cause.unlisted : Cause → List Kind
  | .unexpectedToken _ _ expected => besides expected
  | .expectedExpression .. => [.closeParen, .semicolon]
  | .unclosedBlock _ => .elseWord :: statementStart
  | _ => []

namespace Parse

/-- The kinds that a refusal may leave out. -/
def Refusal.unlisted : Refusal → List Kind
  | kind expected => Cause.besides expected
  | noExpression => [.closeParen, .semicolon]
  | unclosed => .elseWord :: Cause.statementStart
  | tooDeep _ => []

theorem Refusal.unlisted_cause (r : Refusal) (t : Token) : (r.cause t).unlisted = r.unlisted := by
  cases r <;> rfl

/-! ### The order of demands -/

namespace Demand

/-- Whether what meets the demand may end in an expression. -/
@[simp] def mayEndExpr : Demand → Bool
  | expr .. | operators .. | nameTail _ | loopStep _ | loopUpdate _ => true
  | _ => false

/-- Whether the demand is for what stands behind an expression. -/
@[simp] def isBehindExpr : Demand → Bool
  | token kind _ => kind = .closeParen || kind = .semicolon
  | operators .. | moreArguments _ => true
  | _ => false

/-- Whether what meets the demand may end in an `if` without an alternative. -/
@[simp] def mayEndIf : Demand → Bool
  | statement _ | alternative _ => true
  | _ => false

/-- Whether the demand is for what stands behind a statement. -/
@[simp] def isBehindStatement : Demand → Bool
  | body _ | items _ => true
  | _ => false

/-- Whether the second demand may stand behind the first. -/
def Precedes (d d' : Demand) : Prop :=
  (d.mayEndExpr = true → d'.isBehindExpr = true) ∧ (d.mayEndIf = true → d'.isBehindStatement = true)

end Demand

/-- Whether each demand may stand behind the one before it. -/
def Ordered (agenda : List Demand) : Prop := agenda.IsChain Demand.Precedes

/-- Whether the demands may stand where the demand stands. -/
structure Demand.Replaces (d : Demand) (ds : List Demand) : Prop where
  ordered : Ordered ds
  last : ∀ x ∈ ds.getLast?, (x.mayEndExpr = true → d.mayEndExpr = true)
    ∧ (x.mayEndIf = true → d.mayEndIf = true)

variable {settings : Settings} {d d' : Demand} {ds agenda agenda' : List Demand} {k k' : Kind}
  {r : Refusal} {n : Nat}

/-- What stands where a demand stands may be followed by what may follow the demand. -/
theorem Demand.Replaces.append {d₀ : Demand} (h : d.Replaces ds) (hlast : d.Precedes d')
    (hexpr : d'.mayEndExpr = true → d₀.mayEndExpr = true)
    (hif : d'.mayEndIf = true → d₀.mayEndIf = true) : d₀.Replaces (ds ++ [d']) := by
  refine ⟨List.isChain_append.2 ⟨h.ordered, List.isChain_singleton _, fun x hx y hy => ?_⟩, ?_⟩
  · cases hy
    obtain ⟨hx₁, hx₂⟩ := h.last x hx
    exact ⟨fun hx => hlast.1 (hx₁ hx), fun hx => hlast.2 (hx₂ hx)⟩
  · rw [List.getLast?_concat]
    rintro x ⟨⟩
    exact ⟨hexpr, hif⟩

theorem replaces_statementRest (form : StatementForm) :
    (Demand.statement n).Replaces (Demand.statementRest n form) := by
  constructor <;> cases form <;>
    simp [Ordered, Demand.Precedes, Demand.statementRest, Demand.guarded, Demand.block]

/-- What a demand leaves may stand where the demand stands. -/
theorem replaces_of_leaves (h : d.Leaves ds) : d.Replaces ds := by
  induction h with
  | expr form =>
    constructor <;> cases form <;> simp [Ordered, Demand.Precedes, Demand.operandRest]
  | argument first ih => exact ih.append (by simp [Demand.Precedes]) (by simp) (by simp)
  | returned value ih => exact ih.append (by simp [Demand.Precedes]) (by simp) (by simp)
  | global value ih => exact ⟨ih.ordered, ih.last⟩
  | statement form => exact replaces_statementRest form
  | body form =>
    exact (replaces_statementRest form).append (by simp [Demand.Precedes]) (by simp) (by simp)
  | item form =>
    exact (replaces_statementRest form).append (by simp [Demand.Precedes]) (by simp) (by simp)
  | _ => constructor <;> simp [Ordered, Demand.Precedes, Demand.block]

theorem Ordered.tail (h : Ordered (d :: agenda)) : Ordered agenda := (List.isChain_cons.1 h).2

/-- Reading a token keeps the order. -/
theorem Ordered.of_answer (h : Ordered agenda)
    (hanswer : answer settings agenda k = .take agenda') : Ordered agenda' := by
  refine of_answer_eq_take (fun d agenda ds h htake => ?_) (fun _ _ h _ _ => h.tail) h hanswer
  have hreplaces := replaces_of_leaves (Demand.leaves_of_take htake)
  refine List.isChain_append.2 ⟨hreplaces.ordered, h.tail, fun x hx y hy => ?_⟩
  obtain ⟨hexpr, hif⟩ := (List.isChain_cons.1 h).1 y hy
  obtain ⟨hx₁, hx₂⟩ := hreplaces.last x hx
  exact ⟨fun hx => hexpr (hx₁ hx), fun hx => hif (hx₂ hx)⟩

/-- Tokens that are taken leave an agenda in order. -/
theorem ordered_of_run {read : List Token}
    (h : run settings [.items n] read = .open agenda) : Ordered agenda := by
  have hanswer (_ : Nat) (agenda : List Demand) (k : Kind) (agenda' : List Demand)
      (h : Ordered agenda) : answer settings agenda k = .take agenda' → Ordered agenda' :=
    h.of_answer
  exact @of_run_eq_open settings _ _ (fun _ agenda => Ordered agenda) hanswer read 0 h
    (List.isChain_singleton _)

/-! ### The refusal behind a demand that passes -/

/-- Behind an expression, what ends it is asked for. -/
theorem refusal_behind_expr (h : Ordered (d :: agenda)) (hd : d.mayEndExpr = true)
    (hrefuse : answer settings agenda k = .refuse r) :
    r.unlisted = Cause.expressionTail := by
  induction agenda generalizing d with
  | nil => cases hrefuse
  | cons d' agenda ih =>
    have hbehind : d'.isBehindExpr = true := ((List.isChain_cons.1 h).1 d' rfl).1 hd
    rw [answer_cons] at hrefuse
    split at hrefuse
    · cases hrefuse
    · cases d' with
      | token kind ne_eof =>
        cases hrefuse
        simp at hbehind
        rcases hbehind with rfl | rfl <;> rfl
      | moreArguments n =>
        cases hrefuse
        rfl
      | operators n least => exact ih h.tail rfl hrefuse
      | _ => cases hbehind

theorem unlisted_statementStarts :
    (Refusal.kind (Rules.standard settings).statementStarts).unlisted
      = [.elseWord, .closeCurly, .eof] := by
  show Cause.besides Cause.statementStart = _
  decide

/-- Behind an `if`, what follows a statement is asked for. -/
theorem refusal_behind_if (h : Ordered (.alternative n :: agenda))
    (hrefuse : answer settings agenda k = .refuse r) (hlevel : ∀ l, r ≠ .tooDeep l) :
    .elseWord ∈ r.unlisted := by
  cases agenda with
  | nil => cases hrefuse
  | cons d agenda =>
    have hbehind : d.isBehindStatement = true := ((List.isChain_cons.1 h).1 d rfl).2 rfl
    rw [answer_cons] at hrefuse
    split at hrefuse
    · cases hrefuse
    · cases d with
      | body n =>
        cases n with
        | zero =>
          cases hrefuse
          exact absurd rfl (hlevel _)
        | succ n =>
          rw [Demand.otherwise] at hrefuse
          by_cases heof : k = .eof
          · rw [if_pos heof] at hrefuse
            cases hrefuse
            exact List.mem_cons_self
          · rw [if_neg heof] at hrefuse
            cases hrefuse
            rw [unlisted_statementStarts]
            exact List.mem_cons_self
      | items n =>
        rw [Demand.otherwise] at hrefuse
        by_cases heof : k = .eof
        · rw [if_pos heof] at hrefuse
          cases hrefuse
        · rw [if_neg heof] at hrefuse
          cases hrefuse
          rw [unlisted_statementStarts]
          exact List.mem_cons_self
      | _ => cases hbehind

/-! ### The kinds that are taken -/

theorem mem_expressionTail_of_operator {p : Power} (h : Rules.power? k = some p) :
    k ∈ Cause.expressionTail := by
  obtain ⟨op, rfl, -⟩ := Rules.power?_eq_some_iff.1 h
  cases op <;> decide

/-- What a demand takes that passes on another token is what it stands for. -/
theorem mem_expressionTail_of_pass (hd : d.mayEndExpr = true)
    (hpass : d.otherwise settings k = .pass) (htake : d.take? k' = some ds) :
    k' ∈ Cause.expressionTail := by
  cases d with
  | operators n least =>
    obtain ⟨power, hpower, -⟩ := Option.bind_eq_some_iff.1 htake
    exact mem_expressionTail_of_operator hpower
  | nameTail n =>
    rw [Demand.take?] at htake
    split at htake
    · next hparen =>
      rw [hparen]
      decide
    · split at htake
      · next hassign =>
        rw [hassign]
        decide
      · cases htake
  | expr n least =>
    obtain ⟨r, hr⟩ := Demand.exists_exprFallback_eq settings n
    rw [Demand.otherwise, hr] at hpass
    cases hpass
  | alternative n => cases hd
  | _ => first | cases hpass | cases hd

theorem mem_expressionStart_of_exprRest {least : Power} (h : Demand.exprRest? least k n = some ds) :
    k ∈ Cause.expressionStart := by
  cases n with
  | zero => cases h
  | succ n =>
    obtain ⟨form, hform, -⟩ := Option.map_eq_some_iff.1 h
    exact (Rules.operandForm?_isSome_iff k).1 (by rw [hform]; rfl)

theorem mem_statementStarts_of_form {form : StatementForm} (h : Rules.statementForm? k = some form) :
    k ∈ (Rules.standard settings).statementStarts :=
  Rules.mem_statementStarts.2 (by
    show (Rules.statementForm? k).isSome = true
    rw [h]
    rfl)

/-- **What a demand takes and does not list** when it refuses another token. -/
theorem mem_of_take_of_refuse (hrefuse : d.otherwise settings k = .refuse r)
    (hlevel : ∀ l, r ≠ .tooDeep l) (htake : d.take? k' = some ds) :
    k' ∈ r.expected ∨ k' ∈ r.unlisted := by
  have hstart (n : Nat) (hfallback : Demand.exprFallback settings n = .refuse r) :
      r = .noExpression := by
    cases n with
    | zero =>
      cases hfallback
      exact absurd rfl (hlevel _)
    | succ n =>
      cases hfallback
      rfl
  cases d with
  | token kind ne_eof =>
    cases hrefuse
    rw [Demand.take?] at htake
    split at htake
    · next hkind => exact .inl (List.mem_singleton.2 hkind)
    · cases htake
  | expr n least =>
    obtain rfl := hstart n hrefuse
    exact .inl (mem_expressionStart_of_exprRest htake)
  | arguments n =>
    obtain rfl := hstart n hrefuse
    rw [Demand.take?] at htake
    split at htake
    · next hclose => exact .inr (by rw [hclose]; decide)
    · obtain ⟨ds, hds, -⟩ := Option.map_eq_some_iff.1 htake
      exact .inl (mem_expressionStart_of_exprRest hds)
  | returned n =>
    obtain rfl := hstart n hrefuse
    rw [Demand.take?] at htake
    split at htake
    · next hend => exact .inr (by rw [hend]; decide)
    · obtain ⟨ds, hds, -⟩ := Option.map_eq_some_iff.1 htake
      exact .inl (mem_expressionStart_of_exprRest hds)
  | statement n =>
    cases hrefuse
    obtain ⟨form, hform, -⟩ := Option.map_eq_some_iff.1 htake
    exact .inl (mem_statementStarts_of_form hform)
  | body n =>
    cases n with
    | zero => cases htake
    | succ n =>
      rw [Demand.otherwise] at hrefuse
      rw [Demand.take?] at htake
      split at htake
      · next hclose =>
        rw [hclose]
        split at hrefuse <;> cases hrefuse
        · exact .inl List.mem_cons_self
        · rw [unlisted_statementStarts]
          exact .inr (by decide)
      · obtain ⟨form, hform, -⟩ := Option.map_eq_some_iff.1 htake
        split at hrefuse <;> cases hrefuse
        · exact .inr (List.mem_cons_of_mem _ (mem_statementStarts_of_form hform))
        · exact .inl (mem_statementStarts_of_form hform)
  | items n =>
    rw [Demand.otherwise] at hrefuse
    rw [Demand.take?] at htake
    split at hrefuse <;> cases hrefuse
    split at htake
    · next htype =>
      have hform : Rules.statementForm? k' = some .declaration := by
        cases k' <;> first | rfl | cases htype
      exact .inl (mem_statementStarts_of_form hform)
    · obtain ⟨form, hform, -⟩ := Option.map_eq_some_iff.1 htake
      exact .inl (mem_statementStarts_of_form hform)
  | operators n least => cases hrefuse
  | nameTail n => cases hrefuse
  | alternative n => cases hrefuse
  | _ =>
    cases hrefuse
    cases k' <;> first | decide | cases htake

/-- The demands that pass a token on. -/
theorem mayEndExpr_or_of_pass (hpass : d.otherwise settings k = .pass) :
    d.mayEndExpr = true ∨ ∃ n, d = .alternative n := by
  cases d with
  | operators n least => exact .inl rfl
  | nameTail n => exact .inl rfl
  | alternative n => exact .inr ⟨n, rfl⟩
  | expr n least => exact .inl rfl
  | loopStep n => exact .inl rfl
  | loopUpdate n => exact .inl rfl
  | arguments n => cases n <;> cases hpass
  | returned n => cases n <;> cases hpass
  | body n =>
    cases n with
    | zero => cases hpass
    | succ n =>
      rw [Demand.otherwise] at hpass
      split at hpass <;> cases hpass
  | items n =>
    rw [Demand.otherwise] at hpass
    split at hpass <;> cases hpass
  | _ => cases hpass

/-- Only the end of the input is accepted, and only where nothing is open. -/
theorem eof_of_accept (haccept : d.otherwise settings k = .accept) :
    k = .eof ∧ ∃ n, d = .items n := by
  cases d with
  | items n =>
    rw [Demand.otherwise] at haccept
    split at haccept
    · next heof => exact ⟨heof, n, rfl⟩
    · cases haccept
  | expr n least => cases n <;> cases haccept
  | arguments n => cases n <;> cases haccept
  | returned n => cases n <;> cases haccept
  | body n =>
    cases n with
    | zero => cases haccept
    | succ n =>
      rw [Demand.otherwise] at haccept
      split at haccept <;> cases haccept
  | _ => cases haccept

/-- Whether an agenda gets past a token of the kind. -/
def GetsPast (settings : Settings) (agenda : List Demand) (k : Kind) : Prop :=
  ∀ r, answer settings agenda k ≠ .refuse r

/-- **What an agenda would have got past and does not list** when it refuses a token. -/
theorem mem_of_getsPast (hordered : Ordered agenda) (hrefuse : answer settings agenda k = .refuse r)
    (hlevel : ∀ l, r ≠ .tooDeep l) (hpast : GetsPast settings agenda k') :
    k' ∈ r.expected ∨ k' ∈ r.unlisted := by
  induction agenda with
  | nil => cases hrefuse
  | cons d agenda ih =>
    have htaken : d.take? k = none := by
      cases htaken : d.take? k with
      | some ds =>
        rw [answer_of_take htaken] at hrefuse
        cases hrefuse
      | none => rfl
    cases hfallback : d.otherwise settings k with
    | accept =>
      rw [answer_cons, htaken, hfallback] at hrefuse
      cases hrefuse
    | refuse r' =>
      rw [answer_of_refuse htaken hfallback] at hrefuse
      cases hrefuse
      cases htake : d.take? k' with
      | some ds => exact mem_of_take_of_refuse hfallback hlevel htake
      | none =>
        cases hfallback' : d.otherwise settings k' with
        | pass =>
          rw [Demand.otherwise_eq_pass settings hfallback' k] at hfallback
          cases hfallback
        | refuse r'' => exact absurd (answer_of_refuse htake hfallback') (hpast r'')
        | accept =>
          obtain ⟨rfl, n, rfl⟩ := eof_of_accept hfallback'
          rw [Demand.otherwise] at hfallback
          split at hfallback <;> cases hfallback
          rw [unlisted_statementStarts]
          exact .inr (by decide)
    | pass =>
      rw [answer_of_pass htaken hfallback] at hrefuse
      cases htake : d.take? k' with
      | none =>
        refine ih hordered.tail hrefuse fun r'' h => hpast r'' ?_
        rw [answer_of_pass htake (Demand.otherwise_eq_pass settings hfallback k'), h]
      | some ds =>
        rcases mayEndExpr_or_of_pass hfallback with hend | ⟨n, rfl⟩
        · rw [refusal_behind_expr hordered hend hrefuse]
          exact .inr (mem_expressionTail_of_pass hend hfallback htake)
        · rw [Demand.take?] at htake
          split at htake
          · next helse =>
            rw [helse]
            exact .inr (refusal_behind_if hordered hrefuse hlevel)
          · cases htake

end Parse

/-! ### Failures -/

namespace Program

variable {settings : Settings} {tokens : List Token}

/-- **What a failure leaves out of its list** is known from its cause. Let a parse fail for a token,
and not for want of levels, and let it succeed or fail further on with another token in that place.
Then the failure lists the kind of the other token, or it is one of those that its cause may leave
out. -/
theorem parseTokens_error_unlisted {e : Diagnostic} {s : State}
    (h : parseTokens settings tokens = .error e s) (hcause : ∀ l, e.cause ≠ .nestingTooDeep l)
    (t : Token)
    (hpast : ∀ e' s',
      parseTokens settings ((Stream.whole tokens).set (s.cursor tokens) t) = .error e' s' →
        s.cursor tokens < s'.cursor ((Stream.whole tokens).set (s.cursor tokens) t)) :
    t.kind ∈ e.cause.expectedKinds ∨ t.kind ∈ e.cause.unlisted := by
  obtain ⟨read, more, agenda, r, hwhole, hcursor, hread, hanswer, rfl⟩ :=
    exists_refusal_of_error h
  have hkinds : (r.diagnostic s.current).cause.expectedKinds = r.expected :=
    r.expectedKinds_cause s.current
  have hunlisted : (r.diagnostic s.current).cause.unlisted = r.unlisted :=
    r.unlisted_cause s.current
  rw [hcursor] at hpast
  rw [hkinds, hunlisted]
  have hlevel : ∀ l, r ≠ .tooDeep l := by
    rintro l rfl
    exact hcause l rfl
  refine Parse.mem_of_getsPast (Parse.ordered_of_run hread) hanswer hlevel fun r' hrefuse => ?_
  -- A token that the agenda refuses would be refused at the same place.
  have hset : Stream.whole ((Stream.whole tokens).set read.length t)
      = read ++ t :: (more ++ Stream.missingEnd ((Stream.whole tokens).set read.length t)) := by
    rw [Stream.whole, hwhole]
    simp
  obtain ⟨s', hs', hcursor'⟩ := exists_error_of_refusal hset hread hrefuse
  have hlt := hpast _ s' hs'
  rw [hcursor'] at hlt
  exact Nat.lt_irrefl _ hlt

/-- Behind the parenthesis that opens a list of parameters, the one that closes it is not listed. -/
theorem parseTokens_error_unlisted_at_parameters :
    ∃ s, parseTokens ⟨8⟩ [⟨.voidType, "void", default⟩, ⟨.identifier, "f", default⟩,
        ⟨.openParen, "(", default⟩, ⟨.number, "1", default⟩]
      = .error ⟨.unexpectedToken "1" .number Ty.keywords, default⟩ s
      ∧ .closeParen ∉ Ty.keywords
      ∧ .closeParen ∈ (Cause.unexpectedToken "1" .number Ty.keywords).unlisted := by
  let tokens : List Token := [⟨.voidType, "void", default⟩, ⟨.identifier, "f", default⟩,
    ⟨.openParen, "(", default⟩, ⟨.number, "1", default⟩]
  let closed := (Stream.whole tokens).set 3 ⟨.closeParen, ")", default⟩
  have hfails : ofTokens ⟨8⟩ tokens
      = .error ⟨.unexpectedToken "1" .number Ty.keywords, default⟩ := by
    decide +kernel
  have hplace : (parseTokens ⟨8⟩ tokens).state.cursor tokens = 3 := by decide +kernel
  have hlater : (parseTokens ⟨8⟩ closed).state.cursor closed = 4 := by decide +kernel
  obtain ⟨s, hs⟩ := ofTokens_eq_error_iff.1 hfails
  rw [hs] at hplace
  change s.cursor tokens = 3 at hplace
  have hpast := parseTokens_error_unlisted hs (fun l h => by cases h)
    ⟨.closeParen, ")", default⟩ fun e' s' h => by
      rw [hplace] at h ⊢
      rw [h] at hlater
      change s'.cursor closed = 4 at hlater
      change 3 < s'.cursor closed
      omega
  exact ⟨s, hs, by decide, hpast.resolve_left (by decide)⟩

end Program

end ImpFront
