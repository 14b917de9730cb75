import ImpFront.Proofs.Parse.Keeps
/-!
# ImpFront.Proofs.Parse.Flat

**What reads no block stays on its level**, whether it succeeds or fails. An expression gives
its level back in any case, so a production made of tokens and expressions leaves as many levels
open as it has found, from any state.

`IsFlat allowed p` also says of which kinds the tokens are that are taken. A production that asks
for a kind takes none but that one; the few that take a token unseen take whatever is there. So
without a word about the state, all kinds are allowed; where the token that is taken unseen is
known, the kinds that appear in no expression can be left out.
-/

namespace ImpFront

/-- Whether a kind is a brace. -/
def Kind.isCurly (k : Kind) : Bool := k = .openCurly || k = .closeCurly

/-- Unless the input ends, the current token is taken. -/
theorem Stream.taken_next {s : Stream} (h : s.current.kind ≠ .eof) :
    Taken [s.current] s s.next := by
  unfold next
  split
  · next hnil => exact absurd (s.current_kind_eq_eof_iff.2 hnil) h
  · next t rest hcons =>
    have hcurrent : s.current = t := by rw [current, hcons]; rfl
    rw [hcurrent]
    exact ⟨hcons, rfl, rfl, rfl⟩

/-- A kind that passes a test which neither brace passes is no brace. -/
theorem Kind.isCurly_of_test {p : Kind → Bool} (hopen : p .openCurly = false)
    (hclose : p .closeCurly = false) {k : Kind} (h : p k = true) : k.isCurly = false := by
  rw [isCurly, Bool.or_eq_false_iff, decide_eq_false_iff_not, decide_eq_false_iff_not]
  constructor
  · rintro rfl
    rw [hopen] at h
    cases h
  · rintro rfl
    rw [hclose] at h
    cases h

namespace Parse

variable {α β : Type} {allowed : Kind → Prop} {s : State}

/-- A run takes tokens of the allowed kinds only, and stays on its level. -/
structure Flat (allowed : Kind → Prop) (s : State) (o : Outcome α) : Prop where
  exists_taken : ∃ read, s.stream.Taken read o.state.stream ∧ ∀ t ∈ read, allowed t.kind
  depth_eq : o.state.depth = s.depth

/-- The production takes tokens of the allowed kinds only, and stays on its level. -/
def IsFlat (allowed : Kind → Prop) (p : ParseM α) : Prop := ∀ s, Flat allowed s (p s)

/-- What holds from a later state on holds from the state before it. -/
theorem Flat.of_taken {s₁ : State} {o : Outcome α} (h : Flat allowed s₁ o)
    (htaken : ∃ read, s.stream.Taken read s₁.stream ∧ ∀ t ∈ read, allowed t.kind)
    (hdepth : s₁.depth = s.depth) : Flat allowed s o := by
  obtain ⟨read, hread, hkinds⟩ := htaken
  obtain ⟨read', hread', hkinds'⟩ := h.exists_taken
  exact ⟨⟨_, hread.trans hread', List.forall_mem_append.2 ⟨hkinds, hkinds'⟩⟩,
    h.depth_eq.trans hdepth⟩

/-- A run that takes nothing stays on its level. -/
theorem flat_of_state_eq {o : Outcome α} (h : o.state = s) : Flat allowed s o := by
  rw [← h]
  exact ⟨⟨[], .refl _, by simp⟩, rfl⟩

/-! ### Sequences -/

theorem Flat.bind {p : ParseM α} {f : α → ParseM β} (hp : Flat allowed s (p s))
    (hf : ∀ a s₁, p s = .ok a s₁ → Flat allowed s₁ (f a s₁)) :
    Flat allowed s ((p >>= f) s) := by
  rw [ParseM.bind_apply]
  cases h : p s with
  | error e s₁ =>
    rw [h] at hp
    exact ⟨hp.exists_taken, hp.depth_eq⟩
  | ok a s₁ =>
    rw [h] at hp
    exact (hf a s₁ h).of_taken hp.exists_taken hp.depth_eq

theorem Flat.bind_isFlat {p : ParseM α} {f : α → ParseM β} (hp : Flat allowed s (p s))
    (hf : ∀ a, IsFlat allowed (f a)) : Flat allowed s ((p >>= f) s) :=
  hp.bind fun a s₁ _ => hf a s₁

theorem IsFlat.bind {p : ParseM α} {f : α → ParseM β} (hp : IsFlat allowed p)
    (hf : ∀ a, IsFlat allowed (f a)) : IsFlat allowed (p >>= f) := fun s => (hp s).bind_isFlat hf

theorem isFlat_pure (a : α) : IsFlat allowed (pure a) := fun _ => flat_of_state_eq rfl

/-- A last step that only builds a value. -/
theorem Flat.map {p : ParseM α} (hp : Flat allowed s (p s)) (f : α → β) :
    Flat allowed s ((p >>= fun a => pure (f a)) s) :=
  hp.bind_isFlat fun a => isFlat_pure (f a)

theorem IsFlat.map {p : ParseM α} (hp : IsFlat allowed p) (f : α → β) :
    IsFlat allowed (p >>= fun a => pure (f a)) := fun s => (hp s).map f

/-! ### Looking, taking and refusing -/

theorem IsFlat.kind_bind {f : Kind → ParseM β} (h : ∀ k, IsFlat allowed (f k)) :
    IsFlat allowed (kind >>= f) := fun s => h s.current.kind s

theorem IsFlat.peekKind_bind {places : Nat} {f : Kind → ParseM β} (h : ∀ k, IsFlat allowed (f k)) :
    IsFlat allowed (peekKind places >>= f) := fun s => h (s.stream.peek places).kind s

theorem IsFlat.position_bind {f : Position → ParseM β} (h : ∀ p, IsFlat allowed (f p)) :
    IsFlat allowed (position >>= f) := fun s => h s.position s

theorem flat_advance (h : allowed s.current.kind) : Flat allowed s (advance s) := by
  refine ⟨?_, rfl⟩
  by_cases heof : s.current.kind = .eof
  · have hsame : s.next.stream = s.stream :=
      Stream.next_of_nil (s.stream.current_kind_eq_eof_iff.1 heof)
    refine ⟨[], ?_, by simp⟩
    show s.stream.Taken [] s.next.stream
    rw [hsame]
    exact .refl _
  · exact ⟨[s.current], Stream.taken_next heof, List.forall_mem_singleton.2 h⟩

theorem isFlat_expectOneOf {kinds : List Kind} (h : ∀ k ∈ kinds, allowed k) :
    IsFlat allowed (expectOneOf kinds) := by
  intro s
  unfold expectOneOf
  split
  · next hmem => exact flat_advance (h _ hmem)
  · exact flat_of_state_eq rfl

theorem isFlat_expect {k : Kind} (h : allowed k) : IsFlat allowed (expect k) :=
  isFlat_expectOneOf (List.forall_mem_singleton.2 h)

theorem isFlat_fail (e : Diagnostic) : IsFlat allowed (ParseM.fail e : ParseM α) :=
  fun _ => flat_of_state_eq rfl

theorem isFlat_unexpected (kinds : List Kind) : IsFlat allowed (unexpected kinds : ParseM α) :=
  fun _ => flat_of_state_eq rfl

/-- What follows a token of one kind, if it is at hand, and what is read otherwise. -/
theorem IsFlat.ifKind_bind {k : Kind} (hk : allowed k) {f : Token → ParseM β} {p : ParseM β}
    (hf : ∀ t, IsFlat allowed (f t)) (hp : IsFlat allowed p) :
    IsFlat allowed (kind >>= fun k' => if k' = k then advance >>= f else p) := by
  intro s
  rw [Parse.kind_bind]
  split
  · next hkind => exact (flat_advance (hkind ▸ hk)).bind_isFlat hf
  · exact hp s

/-! ### Levels -/

/-- What is read in a level of its own gives the level back in any case. -/
theorem IsFlat.nested {p : ParseM α} (h : IsFlat allowed p) : IsFlat allowed (nested p) := by
  intro s
  have hinside := h s.deeper
  have hback {s₁ : State} (hdepth : s₁.depth = s.deeper.depth) : s₁.shallower.depth = s.depth := by
    show s₁.depth - 1 = s.depth
    rw [hdepth]
    rfl
  unfold Parse.nested
  cases hp : p s.deeper with
  | ok a s₁ =>
    rw [hp] at hinside
    exact ⟨hinside.exists_taken, hback hinside.depth_eq⟩
  | error e s₁ =>
    rw [hp] at hinside
    exact ⟨hinside.exists_taken, hback hinside.depth_eq⟩

/-! ### Repetition -/

/-- A loop stays on its level if each of its rounds does. -/
theorem IsFlat.iterate {round : α → ParseM (Option α)} (h : ∀ a, IsFlat allowed (round a)) (a : α) :
    IsFlat allowed (iterate round a) := by
  refine iterate_of_rounds (fun a s e s₁ hr => ?_) (fun a s r s₁ hr => ?_)
    (fun a s b s₁ o hr ho => ?_) a
  all_goals
    have hround := h a s
    rw [hr] at hround
  · exact ⟨hround.exists_taken, hround.depth_eq⟩
  · exact ⟨hround.exists_taken, hround.depth_eq⟩
  · exact ho.of_taken hround.exists_taken hround.depth_eq

theorem IsFlat.many {item : ParseM (Option α)} (h : IsFlat allowed item) :
    IsFlat allowed (many item) := by
  refine IsFlat.map (IsFlat.iterate (fun found => ?_) []) List.reverse
  refine h.bind fun r => ?_
  cases r with
  | none => exact isFlat_pure _
  | some a => exact isFlat_pure _

/-! ### Expressions -/

section Productions

variable (hallowed : ∀ k, k.isCurly = false → allowed k) {expr : ExprReader}
  (hexpr : ∀ least, IsFlat allowed (expr least))

include hallowed

theorem isFlat_closeList : IsFlat allowed closeList := by
  intro s
  unfold closeList
  rw [kind_bind]
  split
  · next hclose => exact flat_advance (hallowed _ (by rw [hclose]; rfl))
  · exact flat_of_state_eq rfl

theorem isFlat_literal : IsFlat allowed literal := by
  refine (isFlat_expectOneOf ?_).bind fun t => ?_
  · exact fun k hk => hallowed k (by revert k; decide)
  · split
    · exact isFlat_pure _
    · exact isFlat_pure _

theorem isFlat_symbol : IsFlat allowed symbol := (isFlat_expect (hallowed _ rfl)).map _

include hexpr

theorem isFlat_arguments : IsFlat allowed (arguments expr) := by
  have hfurther : IsFlat allowed (furtherArgument expr) :=
    IsFlat.ifKind_bind (hallowed _ rfl) (fun _ => (hexpr .lowest).map some) (isFlat_pure none)
  refine IsFlat.kind_bind fun k => ?_
  split
  · exact isFlat_pure []
  · exact (hexpr .lowest).bind fun first => hfurther.many.map (first :: ·)

theorem isFlat_call : IsFlat allowed (call expr) := by
  refine (isFlat_expect (hallowed _ rfl)).bind fun name => ?_
  refine (isFlat_expect (hallowed _ rfl)).bind fun _ => ?_
  exact (isFlat_arguments hallowed hexpr).bind fun es => (isFlat_closeList hallowed).map _

theorem isFlat_negation : IsFlat allowed (negation expr) :=
  (isFlat_expect (hallowed _ rfl)).bind fun _ => (hexpr .notOperand).map _

theorem isFlat_group : IsFlat allowed (group expr) := by
  refine (isFlat_expect (hallowed _ rfl)).bind fun opening => (hexpr .lowest).bind fun inner => ?_
  exact (isFlat_expect (hallowed _ rfl)).map _

theorem isFlat_assignment : IsFlat allowed (assignment expr) := by
  refine (isFlat_expect (hallowed _ rfl)).bind fun target => ?_
  exact (isFlat_expect (hallowed _ rfl)).bind fun _ => (hexpr .lowest).map _

theorem isFlat_nameOperand : IsFlat allowed (nameOperand expr) := by
  refine IsFlat.peekKind_bind fun k => ?_
  split
  · exact (isFlat_call hallowed hexpr).map Call.toExpr
  · exact isFlat_assignment hallowed hexpr
  · exact isFlat_symbol hallowed

theorem isFlat_operandOf (form : OperandForm) : IsFlat allowed (operandOf expr form) := by
  cases form with
  | negation => exact isFlat_negation hallowed hexpr
  | group => exact isFlat_group hallowed hexpr
  | name => exact isFlat_nameOperand hallowed hexpr
  | literal => exact isFlat_literal hallowed

theorem isFlat_operand (R : Rules) : IsFlat allowed (operand R expr) := by
  intro s
  rw [operand_apply]
  split
  · exact isFlat_operandOf hallowed hexpr _ s
  · exact flat_of_state_eq rfl

omit hallowed in
/-- The operator is taken unseen: who asks for it has looked at it. -/
theorem flat_binary (power : Power) (left : Expr) (h : allowed s.current.kind) :
    Flat allowed s (binary expr power left s) := by
  refine (flat_advance h).bind_isFlat fun t => ?_
  split
  · exact isFlat_fail _
  · exact (hexpr power.next).map _

theorem isFlat_extend (settings : Settings) (least : Power) (left : Expr) :
    IsFlat allowed (extend (.standard settings) expr least left) := by
  intro s
  rw [extend_apply]
  split
  · next power hpower =>
    split
    · refine (flat_binary hexpr power left (hallowed _ ?_)).map some
      exact Kind.isCurly_of_test (p := fun k => (Rules.power? k).isSome) rfl rfl
        (Option.isSome_iff_exists.2 ⟨power, hpower⟩)
    · exact flat_of_state_eq rfl
  · exact flat_of_state_eq rfl

/-- An operand with the operators behind it, in the level that is open. -/
theorem isFlat_extended (settings : Settings) (least : Power) :
    IsFlat allowed (operand (.standard settings) expr
      >>= iterate (extend (.standard settings) expr least)) :=
  (isFlat_operand hallowed hexpr _).bind fun first =>
    IsFlat.iterate (fun left => isFlat_extend hallowed hexpr settings least left) first

omit hexpr in
/-- **An expression stays on its level**, with any number of levels free. -/
theorem isFlat_exprAt (settings : Settings) (n : Nat) (least : Power) :
    IsFlat allowed (exprAt (.standard settings) n least) := by
  induction n generalizing least with
  | zero => exact fun s => flat_of_state_eq rfl
  | succ n ih => exact (isFlat_extended hallowed ih settings least).nested

/-! ### Types and parameters -/

omit hexpr

theorem isFlat_typeName : IsFlat allowed typeName := by
  intro s
  unfold typeName
  rw [kind_bind]
  cases h : Ty.ofKind? s.current.kind with
  | none => exact isFlat_unexpected _ s
  | some type =>
    refine (flat_advance (hallowed _ ?_)).map _
    exact Kind.isCurly_of_test (p := Kind.isType) rfl rfl (Option.isSome_iff_exists.2 ⟨type, h⟩)

theorem isFlat_parameter : IsFlat allowed parameter := by
  refine IsFlat.position_bind fun start => (isFlat_typeName hallowed).bind fun type => ?_
  exact (isFlat_expect (hallowed _ rfl)).map _

theorem isFlat_parameterList : IsFlat allowed parameterList := by
  have hfurther : IsFlat allowed furtherParameter :=
    IsFlat.ifKind_bind (hallowed _ rfl) (fun _ => (isFlat_parameter hallowed).map some)
      (isFlat_pure none)
  refine (isFlat_expect (hallowed _ rfl)).bind fun _ => ?_
  refine IsFlat.ifKind_bind (hallowed _ rfl) (fun _ => isFlat_pure []) ?_
  refine (isFlat_parameter hallowed).bind fun first => hfurther.many.bind fun others => ?_
  exact (isFlat_closeList hallowed).map _

/-! ### Declarations and updates -/

include hexpr

theorem isFlat_declaration : IsFlat allowed (declaration expr) := by
  refine IsFlat.position_bind fun start => (isFlat_typeName hallowed).bind fun type => ?_
  refine (isFlat_expect (hallowed _ rfl)).bind fun name => ?_
  refine IsFlat.ifKind_bind (hallowed _ rfl) (fun _ => (hexpr .lowest).bind fun value => ?_) ?_
  · exact (isFlat_expect (hallowed _ rfl)).map _
  · exact (isFlat_expectOneOf (by simp [hallowed .assign rfl, hallowed .semicolon rfl])).map _

/-- The token behind the name is taken unseen. -/
theorem flat_assignUpdate
    (h : s.current.kind = .identifier → allowed (s.stream.peek 1).kind) :
    Flat allowed s (assignUpdate expr s) := by
  refine (isFlat_expect (hallowed _ rfl) s).bind fun name s₁ hname => ?_
  obtain ⟨hkind, -, rfl⟩ := expectOneOf_eq_ok_iff.1 hname
  obtain hkind := List.mem_singleton.1 hkind
  have hnext : allowed s.next.current.kind := by
    rw [State.kind_current_next (by rw [hkind]; decide)]
    exact h hkind
  refine (flat_advance hnext).bind_isFlat fun t => ?_
  split
  · exact isFlat_fail _
  · exact (hexpr .lowest).map _

omit hexpr in
/-- The first token is taken unseen. -/
theorem flat_stepUpdate (h : allowed s.current.kind) : Flat allowed s (stepUpdate s) := by
  refine (flat_advance h).bind_isFlat fun first => ?_
  split
  · exact (isFlat_expect (hallowed _ rfl)).map _
  · refine (isFlat_expectOneOf fun k hk => hallowed k (by revert k; decide)).bind fun t => ?_
    split
    · exact isFlat_pure _
    · exact isFlat_fail _

omit hexpr in
theorem flat_updateStatement {update : ParseM Update} (h : Flat allowed s (update s)) :
    Flat allowed s (updateStatement update s) :=
  h.bind_isFlat fun _ => (isFlat_expect (hallowed _ rfl)).map _

omit hexpr hallowed in
theorem flat_unexpectedAfter (kinds : List Kind) (h : allowed s.current.kind) :
    Flat allowed s ((unexpectedAfter kinds : ParseM α) s) :=
  (flat_advance h).bind_isFlat fun _ => isFlat_unexpected kinds

/-! ### Statements without a block -/

theorem flat_nameStatement (h : allowed s.current.kind) :
    Flat allowed s (nameStatement expr s) := by
  unfold nameStatement
  rw [peekKind_bind]
  split
  · next hassign =>
    refine flat_updateStatement hallowed (flat_assignUpdate hallowed hexpr fun _ => ?_)
    exact hallowed _ (Kind.isCurly_of_test rfl rfl hassign)
  · split
    · exact flat_updateStatement hallowed (flat_stepUpdate hallowed h)
    · split
      · exact (isFlat_call hallowed hexpr).bind (fun _ => (isFlat_expect (hallowed _ rfl)).map _) s
      · exact flat_unexpectedAfter _ h

omit hexpr in
theorem flat_stepStatement (h : allowed s.current.kind) : Flat allowed s (stepStatement s) :=
  flat_updateStatement hallowed (flat_stepUpdate hallowed h)

theorem isFlat_condition : IsFlat allowed (condition expr) := by
  refine (isFlat_expect (hallowed _ rfl)).bind fun _ => (hexpr .lowest).bind fun e => ?_
  exact (isFlat_expect (hallowed _ rfl)).map _

theorem isFlat_loopStep : IsFlat allowed (loopStep expr) := by
  intro s
  rw [loopStep_apply]
  split
  · next hstep => exact flat_stepUpdate hallowed (hallowed _ (Kind.isCurly_of_test rfl rfl hstep))
  · split
    · next hname =>
      have hcurrent : allowed s.current.kind := hallowed _ (by rw [hname]; rfl)
      split
      · next hassign =>
        exact flat_assignUpdate hallowed hexpr fun _ =>
          hallowed _ (Kind.isCurly_of_test rfl rfl hassign)
      · split
        · exact flat_stepUpdate hallowed hcurrent
        · exact flat_unexpectedAfter _ hcurrent
    · exact flat_of_state_eq rfl

theorem isFlat_returnStatement : IsFlat allowed (returnStatement expr) := by
  refine (isFlat_expect (hallowed _ rfl)).bind fun word => ?_
  refine IsFlat.ifKind_bind (hallowed _ rfl) (fun close => isFlat_pure _) ?_
  exact (hexpr .lowest).bind fun value => (isFlat_expect (hallowed _ rfl)).map _

end Productions

end Parse

end ImpFront
