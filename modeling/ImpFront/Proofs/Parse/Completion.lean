import ImpFront.Proofs.Parse.Agenda
/-!
# ImpFront.Proofs.Parse.Completion

**What has been read can always be completed.** Each demand has a shortest word that meets
it, and the words of an agenda, one after the other, complete what was read so far.

A word may end where the word of the next demand must not go on with it: an expression
ends in front of a parenthesis or a semicolon, and an `if` in front of no `else`. Such
borders are what `closes` asks for. Reading a token keeps them, and it takes at most one of
the levels of nesting that the demands have.
-/

namespace ImpFront.Parse

/-! ### What a token leaves -/

namespace Demand

/-- What a demand may have in its place once it has taken a token, whatever the token. -/
inductive Leaves : Demand → List Demand → Prop where
  | token {kind : Kind} {ne_eof : kind ≠ .eof} : Leaves (.token kind ne_eof) []
  | typeName : Leaves .typeName []
  | expr {n : Nat} {least : Power} (form : OperandForm) :
    Leaves (.expr (n + 1) least) (operandRest n form ++ [.operators n least])
  | operator {n : Nat} {least : Power} (power : Power) :
    Leaves (.operators n least) [.expr n power, .operators n least]
  | call {n : Nat} : Leaves (.nameTail n) [.arguments n]
  | assignment {n : Nat} : Leaves (.nameTail n) [.expr n .lowest]
  | noArgument {n : Nat} : Leaves (.arguments n) []
  | argument {n : Nat} {ds : List Demand} (first : Leaves (.expr n .lowest) ds) :
    Leaves (.arguments n) (ds ++ [.moreArguments n])
  | furtherArgument {n : Nat} : Leaves (.moreArguments n) [.expr n .lowest, .moreArguments n]
  | lastArgument {n : Nat} : Leaves (.moreArguments n) []
  | noParameter : Leaves .parameters []
  | parameter : Leaves .parameters [.token .identifier, .moreParameters]
  | furtherParameter : Leaves .moreParameters [.typeName, .token .identifier, .moreParameters]
  | lastParameter : Leaves .moreParameters []
  | value {n : Nat} : Leaves (.value n) [.expr n .lowest, .token .semicolon]
  | noValue {n : Nat} : Leaves (.value n) []
  | function {n : Nat} : Leaves (.declared n) (.parameters :: block n)
  | global {n : Nat} {ds : List Demand} (value : Leaves (.value n) ds) : Leaves (.declared n) ds
  | statement {n : Nat} (form : StatementForm) : Leaves (.statement n) (statementRest n form)
  | assign {n : Nat} : Leaves (.update n) [.expr n .lowest, .token .semicolon]
  | step {n : Nat} : Leaves (.update n) [.token .semicolon]
  | callStatement {n : Nat} : Leaves (.update n) [.arguments n, .token .semicolon]
  | alternative {n : Nat} : Leaves (.alternative n) (block n)
  | loopStep {n : Nat} : Leaves (.loopStep n) [.token .identifier]
  | loopName {n : Nat} : Leaves (.loopStep n) [.loopUpdate n]
  | loopAssign {n : Nat} : Leaves (.loopUpdate n) [.expr n .lowest]
  | loopStepBehind {n : Nat} : Leaves (.loopUpdate n) []
  | noReturned {n : Nat} : Leaves (.returned n) []
  | returned {n : Nat} {ds : List Demand} (value : Leaves (.expr n .lowest) ds) :
    Leaves (.returned n) (ds ++ [.token .semicolon])
  | bodyEnd {n : Nat} : Leaves (.body n) []
  | body {n : Nat} (form : StatementForm) :
    Leaves (.body (n + 1)) (statementRest n form ++ [.body (n + 1)])
  | declaredItem {n : Nat} : Leaves (.items n) [.token .identifier, .declared n, .items n]
  | item {n : Nat} (form : StatementForm) :
    Leaves (.items n) (statementRest n form ++ [.items n])

variable {n : Nat} {k : Kind} {d : Demand} {ds : List Demand}

theorem leaves_of_exprRest {least : Power} (h : exprRest? least k n = some ds) :
    Leaves (.expr n least) ds := by
  cases n with
  | zero => cases h
  | succ n =>
    obtain ⟨form, -, rfl⟩ := Option.map_eq_some_iff.1 h
    exact .expr form

theorem leaves_of_valueRest (h : valueRest? n k = some ds) : Leaves (.value n) ds := by
  rw [valueRest?] at h
  split at h
  · cases h
    exact .value
  · split at h <;> cases h
    exact .noValue

/-- A demand that takes a token leaves one of these. -/
theorem leaves_of_take (h : d.take? k = some ds) : Leaves d ds := by
  cases d with
  | token kind ne_eof =>
    rw [take?] at h
    split at h <;> cases h
    exact .token
  | typeName =>
    rw [take?] at h
    split at h <;> cases h
    exact .typeName
  | expr n least => exact leaves_of_exprRest h
  | operators n least =>
    obtain ⟨power, -, h⟩ := Option.bind_eq_some_iff.1 h
    split at h <;> cases h
    exact .operator power.next
  | nameTail n =>
    rw [take?] at h
    split at h
    · cases h
      exact .call
    · split at h <;> cases h
      exact .assignment
  | arguments n =>
    rw [take?] at h
    split at h
    · cases h
      exact .noArgument
    · obtain ⟨ds, hds, rfl⟩ := Option.map_eq_some_iff.1 h
      exact .argument (leaves_of_exprRest hds)
  | moreArguments n =>
    rw [take?, listRest?] at h
    split at h
    · cases h
      exact .furtherArgument
    · split at h <;> cases h
      exact .lastArgument
  | parameters =>
    rw [take?] at h
    split at h
    · cases h
      exact .noParameter
    · split at h <;> cases h
      exact .parameter
  | moreParameters =>
    rw [take?, listRest?] at h
    split at h
    · cases h
      exact .furtherParameter
    · split at h <;> cases h
      exact .lastParameter
  | value n => exact leaves_of_valueRest h
  | declared n =>
    rw [take?] at h
    split at h
    · cases h
      exact .function
    · exact .global (leaves_of_valueRest h)
  | statement n =>
    obtain ⟨form, -, rfl⟩ := Option.map_eq_some_iff.1 h
    exact .statement form
  | update n =>
    rw [take?] at h
    split at h
    · cases h
      exact .assign
    · split at h
      · cases h
        exact .step
      · split at h <;> cases h
        exact .callStatement
  | alternative n =>
    rw [take?] at h
    split at h <;> cases h
    exact .alternative
  | loopStep n =>
    rw [take?] at h
    split at h
    · cases h
      exact .loopStep
    · split at h <;> cases h
      exact .loopName
  | loopUpdate n =>
    rw [take?] at h
    split at h
    · cases h
      exact .loopAssign
    · split at h <;> cases h
      exact .loopStepBehind
  | returned n =>
    rw [take?] at h
    split at h
    · cases h
      exact .noReturned
    · obtain ⟨ds, hds, rfl⟩ := Option.map_eq_some_iff.1 h
      exact .returned (leaves_of_exprRest hds)
  | body n =>
    cases n with
    | zero => cases h
    | succ n =>
      rw [take?] at h
      split at h
      · cases h
        exact .bodyEnd
      · obtain ⟨form, -, rfl⟩ := Option.map_eq_some_iff.1 h
        exact .body form
  | items n =>
    rw [take?] at h
    split at h
    · cases h
      exact .declaredItem
    · obtain ⟨form, -, rfl⟩ := Option.map_eq_some_iff.1 h
      exact .item form

end Demand

/-! ### Words -/

/-- Whether an expression may end before a token of the kind. -/
def endsExpr (k : Kind) : Bool := k = .closeParen || k = .semicolon

/-- Whether a statement may end before a token of the kind. -/
def endsStatement (k : Kind) : Bool := k = .closeCurly || k = .eof

namespace Demand

/-- A shortest word that meets the demand. -/
def word : Demand → List Kind
  | token kind _ => [kind]
  | typeName => [.intType]
  | expr .. => [.identifier]
  | operators .. | nameTail _ | alternative _ | items _ => []
  | arguments _ | moreArguments _ | parameters | moreParameters => [.closeParen]
  | value _ | declared _ | returned _ => [.semicolon]
  | statement _ => [.returnWord, .semicolon]
  | update _ => [.plusPlus, .semicolon]
  | loopStep _ => [.plusPlus, .identifier]
  | loopUpdate _ => [.plusPlus]
  | body _ => [.closeCurly]

/-- Whether a token of the kind may follow what meets the demand. -/
def endsBefore : Demand → Kind → Bool
  | expr .., k | operators .., k | nameTail _, k | loopStep _, k | loopUpdate _, k => endsExpr k
  | alternative _, k | statement _, k => endsStatement k
  | items _, _ => false
  | _, _ => true

/-- Whether the demand has more levels than a number. -/
def HasRoom (m : Nat) : Demand → Prop
  | expr n _ | operators n _ | nameTail n | arguments n | moreArguments n | value n | declared n
  | statement n | update n | alternative n | loopStep n | loopUpdate n | returned n | body n
  | items n => m < n
  | token .. | typeName | parameters | moreParameters => True

end Demand

/-- The first kind of the words of an agenda in front of a kind. -/
def lead (ds : List Demand) (k : Kind) : Kind := (ds.flatMap Demand.word).head?.getD k

/-- Whether the words of an agenda may follow one another, and a token of the kind may follow
them. -/
def closes : List Demand → Kind → Bool
  | [], _ => true
  | d :: ds, k => d.endsBefore (lead ds k) && closes ds k

variable {k : Kind} {d : Demand} {ds : List Demand} {m n : Nat}

theorem lead_append (ds₁ ds₂ : List Demand) (k : Kind) :
    lead (ds₁ ++ ds₂) k = lead ds₁ (lead ds₂ k) := by
  unfold lead
  rw [List.flatMap_append, List.head?_append]
  cases (ds₁.flatMap Demand.word).head? <;> rfl

theorem closes_append (ds₁ ds₂ : List Demand) (k : Kind) :
    closes (ds₁ ++ ds₂) k = (closes ds₁ (lead ds₂ k) && closes ds₂ k) := by
  induction ds₁ with
  | nil => rfl
  | cons d ds₁ ih => rw [List.cons_append, closes, closes, ih, lead_append, Bool.and_assoc]

theorem endsExpr_iff : endsExpr k = true ↔ k = .closeParen ∨ k = .semicolon := by
  simp [endsExpr]

theorem endsStatement_iff : endsStatement k = true ↔ k = .closeCurly ∨ k = .eof := by
  simp [endsStatement]

theorem closes_statementRest (form : StatementForm) (hk : endsStatement k = true) :
    closes (Demand.statementRest n form) k = true := by
  rcases endsStatement_iff.1 hk with rfl | rfl <;> cases form <;> rfl

/-- What a demand leaves may be followed by what may follow the demand. -/
theorem closes_of_leaves (h : d.Leaves ds) (hk : d.endsBefore k = true) : closes ds k = true := by
  induction h generalizing k with
  | expr form => rcases endsExpr_iff.1 hk with rfl | rfl <;> cases form <;> rfl
  | operator power => rcases endsExpr_iff.1 hk with rfl | rfl <;> rfl
  | assignment => rcases endsExpr_iff.1 hk with rfl | rfl <;> rfl
  | loopName => rcases endsExpr_iff.1 hk with rfl | rfl <;> rfl
  | loopAssign => rcases endsExpr_iff.1 hk with rfl | rfl <;> rfl
  | argument first ih => rw [closes_append, ih rfl, closes, closes]; rfl
  | returned value ih => rw [closes_append, ih rfl, closes, closes]; rfl
  | global value ih => exact ih rfl
  | statement form => exact closes_statementRest form hk
  | body form => rw [closes_append, closes_statementRest form rfl]; rfl
  | declaredItem => cases hk
  | item form => cases hk
  | _ => rfl

/-! ### Levels -/

theorem hasRoom_statementRest (form : StatementForm) (h : m < n) :
    ∀ d ∈ Demand.statementRest n form, d.HasRoom m := by
  cases form <;>
    simp [Demand.statementRest, Demand.guarded, Demand.block, Demand.HasRoom, h]

theorem hasRoom_operandRest (form : OperandForm) (h : m < n) :
    ∀ d ∈ Demand.operandRest n form, d.HasRoom m := by
  cases form <;> simp [Demand.operandRest, Demand.HasRoom, h]

/-- Taking a token takes at most one level. -/
theorem hasRoom_of_leaves (h : d.Leaves ds) (hroom : d.HasRoom (m + 1)) :
    ∀ d' ∈ ds, d'.HasRoom m := by
  induction h with
  | expr form =>
    have hlt := Nat.lt_of_succ_lt_succ hroom
    exact List.forall_mem_append.2 ⟨hasRoom_operandRest form hlt, List.forall_mem_singleton.2 hlt⟩
  | argument first ih =>
    exact List.forall_mem_append.2 ⟨ih hroom, List.forall_mem_singleton.2 (Nat.lt_of_succ_lt hroom)⟩
  | returned value ih =>
    exact List.forall_mem_append.2 ⟨ih hroom, List.forall_mem_singleton.2 trivial⟩
  | global value ih => exact ih hroom
  | statement form => exact hasRoom_statementRest form (Nat.lt_of_succ_lt hroom)
  | body form =>
    exact List.forall_mem_append.2 ⟨hasRoom_statementRest form (Nat.lt_of_succ_lt_succ hroom),
      List.forall_mem_singleton.2 (Nat.lt_of_succ_lt hroom)⟩
  | item form =>
    have hlt := Nat.lt_of_succ_lt hroom
    exact List.forall_mem_append.2
      ⟨hasRoom_statementRest form hlt, List.forall_mem_singleton.2 hlt⟩
  | _ => simp_all [Demand.HasRoom, Demand.block] <;> omega

theorem hasRoom_of_succ (h : d.HasRoom (m + 1)) : d.HasRoom m := by
  cases d <;> simp_all [Demand.HasRoom] <;> omega

/-! ### Reading on -/

/-- The words of the agenda may follow one another up to the end of the input, and each demand has
more levels than a number. -/
def Completable (left : Nat) (agenda : List Demand) : Prop :=
  ∃ ds n, agenda = ds ++ [.items n] ∧ closes ds .eof = true ∧ ∀ d ∈ agenda, d.HasRoom left

theorem completable_items {left n : Nat} (h : left < n) : Completable left [.items n] :=
  ⟨[], n, rfl, rfl, List.forall_mem_singleton.2 h⟩

variable {settings : Settings} {left : Nat} {agenda agenda' : List Demand}

theorem Completable.of_take (h : Completable (left + 1) (d :: agenda))
    (htake : d.take? k = some ds) : Completable left (ds ++ agenda) := by
  have hleaves := Demand.leaves_of_take htake
  obtain ⟨before, n, heq, hcloses, hroom⟩ := h
  obtain ⟨hroom, hrooms⟩ := List.forall_mem_cons.1 hroom
  have hroom : ∀ d ∈ ds ++ agenda, d.HasRoom left :=
    List.forall_mem_append.2
      ⟨hasRoom_of_leaves hleaves hroom, fun d hd => hasRoom_of_succ (hrooms d hd)⟩
  cases before with
  | nil =>
    obtain ⟨rfl, rfl⟩ := List.cons_eq_cons.1 heq
    cases hleaves with
    | declaredItem => exact ⟨[.token .identifier, .declared n], n, rfl, rfl, hroom⟩
    | item form =>
      exact ⟨Demand.statementRest n form, n, List.append_nil _, closes_statementRest form rfl,
        hroom⟩
  | cons d' before =>
    obtain ⟨rfl, rfl⟩ := List.cons_eq_cons.1 heq
    obtain ⟨hends, hbefore⟩ := Bool.and_eq_true_iff.1 hcloses
    refine ⟨ds ++ before, n, (List.append_assoc ..).symm, ?_, hroom⟩
    rw [closes_append, closes_of_leaves hleaves hends, hbefore]
    rfl

theorem Completable.of_pass (h : Completable left (d :: agenda))
    (hpass : d.otherwise settings k = .pass) : Completable left agenda := by
  obtain ⟨before, n, heq, hcloses, hroom⟩ := h
  cases before with
  | nil =>
    obtain ⟨rfl, rfl⟩ := List.cons_eq_cons.1 heq
    rw [Demand.otherwise] at hpass
    split at hpass <;> cases hpass
  | cons d' before =>
    obtain ⟨rfl, rfl⟩ := List.cons_eq_cons.1 heq
    exact ⟨before, n, rfl, (Bool.and_eq_true_iff.1 hcloses).2, (List.forall_mem_cons.1 hroom).2⟩

/-- **Reading a token leaves an agenda that can be completed.** -/
theorem Completable.of_answer (h : Completable (left + 1) agenda)
    (hanswer : answer settings agenda k = .take agenda') : Completable left agenda' :=
  of_answer_eq_take (fun _ _ _ h htake => h.of_take htake) (fun _ _ h _ hpass => h.of_pass hpass)
    h hanswer

/-! ### Completing -/

theorem run_of_pass {t : Token} (hnone : d.take? t.kind = none)
    (hpass : d.otherwise settings t.kind = .pass) (rest : List Token) :
    run settings (d :: agenda) (t :: rest) = run settings agenda (t :: rest) := by
  rw [run_cons, run_cons, answer_of_pass hnone hpass]

theorem take?_operators_of_endsExpr {least : Power} (h : endsExpr k = true) :
    (Demand.operators n least).take? k = none := by
  rcases endsExpr_iff.1 h with rfl | rfl <;> rfl

theorem take?_nameTail_of_endsExpr (h : endsExpr k = true) :
    (Demand.nameTail n).take? k = none := by
  rcases endsExpr_iff.1 h with rfl | rfl <;> rfl

/-- One token that leaves nothing of the demand. -/
theorem run_one {word : List Token} (hword : word.map Token.kind = [k])
    (htake : d.take? k = some []) (rest : List Token) :
    run settings (d :: agenda) (word ++ rest) = run settings agenda rest := by
  obtain ⟨u, rfl, rfl⟩ := List.map_eq_singleton_iff.1 hword
  exact run_of_take (answer_of_take htake) rest

/-- One token that leaves another demand, and one that leaves nothing of that. -/
theorem run_two {word : List Token} {k₁ k₂ : Kind} (d₁ : Demand)
    (hword : word.map Token.kind = [k₁, k₂]) (htake : d.take? k₁ = some [d₁])
    (htake₁ : d₁.take? k₂ = some []) (rest : List Token) :
    run settings (d :: agenda) (word ++ rest) = run settings agenda rest := by
  obtain ⟨u, tail, rfl, rfl, htail⟩ := List.map_eq_cons_iff.1 hword
  rw [List.cons_append, run_of_take (answer_of_take htake)]
  exact run_one htail htake₁ rest

/-- The word of a demand meets it. -/
theorem run_word {t : Token} (hroom : d.HasRoom 0) (hends : d.endsBefore t.kind = true)
    {word : List Token} (hword : word.map Token.kind = d.word) (rest : List Token) :
    run settings (d :: agenda) (word ++ t :: rest) = run settings agenda (t :: rest) := by
  cases d with
  | operators n least =>
    obtain rfl := List.map_eq_nil_iff.1 hword
    exact run_of_pass (take?_operators_of_endsExpr hends) rfl rest
  | nameTail n =>
    obtain rfl := List.map_eq_nil_iff.1 hword
    exact run_of_pass (take?_nameTail_of_endsExpr hends) rfl rest
  | alternative n =>
    obtain rfl := List.map_eq_nil_iff.1 hword
    refine run_of_pass ?_ rfl rest
    rcases endsStatement_iff.1 hends with h | h <;> rw [h] <;> rfl
  | items n => cases hends
  | expr n least =>
    obtain ⟨u, rfl, hu⟩ := List.map_eq_singleton_iff.1 hword
    obtain ⟨n, rfl⟩ := Nat.exists_eq_succ_of_ne_zero (Nat.ne_of_gt hroom)
    have htake : (Demand.expr (n + 1) least).take? u.kind
        = some [.nameTail n, .operators n least] := by
      rw [hu]
      rfl
    refine (run_of_take (answer_of_take htake) _).trans ?_
    refine (run_of_pass (take?_nameTail_of_endsExpr hends) rfl rest).trans ?_
    exact run_of_pass (take?_operators_of_endsExpr hends) rfl rest
  | body n =>
    obtain ⟨n, rfl⟩ := Nat.exists_eq_succ_of_ne_zero (Nat.ne_of_gt hroom)
    exact run_one hword rfl _
  | token kind ne_eof =>
    have htake : (Demand.token kind ne_eof).take? kind = some [] := if_pos rfl
    exact run_one hword htake _
  | statement n => exact run_two (.returned n) hword rfl rfl _
  | update n => exact run_two (.token .semicolon) hword rfl rfl _
  | loopStep n => exact run_two (.token .identifier) hword rfl rfl _
  | _ => exact run_one hword rfl _

/-- The words of an agenda meet all of it. -/
theorem run_words {t : Token} (hcloses : closes ds t.kind = true) (hroom : ∀ d ∈ ds, d.HasRoom 0)
    {words : List Token} (hwords : words.map Token.kind = ds.flatMap Demand.word)
    (rest : List Token) :
    run settings (ds ++ agenda) (words ++ t :: rest) = run settings agenda (t :: rest) := by
  induction ds generalizing words with
  | nil =>
    obtain rfl := List.map_eq_nil_iff.1 hwords
    rfl
  | cons d ds ih =>
    rw [List.flatMap_cons] at hwords
    obtain ⟨word, words, rfl, hword, hwords⟩ := List.map_eq_append_iff.1 hwords
    obtain ⟨hends, hcloses⟩ := Bool.and_eq_true_iff.1 hcloses
    obtain ⟨hroom, hrooms⟩ := List.forall_mem_cons.1 hroom
    rw [← ih hcloses hrooms hwords, List.append_assoc, List.cons_append]
    rw [lead, ← hwords] at hends
    -- The word ends in front of the next one, or of the token behind all of them.
    cases words with
    | nil => exact run_word hroom hends hword rest
    | cons u words => exact run_word hroom hends hword (words ++ t :: rest)

theorem eof_not_mem_word (d : Demand) : Kind.eof ∉ d.word := by
  cases d with
  | token kind ne_eof => exact fun h => ne_eof (List.mem_singleton.1 h).symm
  | _ => simp [Demand.word]

/-- **What can be completed is completed by some tokens before the end of the input.** -/
theorem Completable.exists_run (settings : Settings) (h : Completable 0 agenda) :
    ∃ more : List Token, (∀ u ∈ more, u.kind ≠ .eof)
      ∧ ∀ t, t.kind = .eof → run settings agenda (more ++ [t]) = .accepted := by
  obtain ⟨ds, n, rfl, hcloses, hroom⟩ := h
  let more : List Token := (ds.flatMap Demand.word).map fun k => ⟨k, k.describe, .empty .start⟩
  have hkinds : more.map Token.kind = ds.flatMap Demand.word := by
    rw [List.map_map]
    exact List.map_id _
  refine ⟨more, fun u hu => ?_, fun t ht => ?_⟩
  · have hmem : u.kind ∈ ds.flatMap Demand.word := hkinds ▸ List.mem_map_of_mem hu
    obtain ⟨d, -, hd⟩ := List.mem_flatMap.1 hmem
    intro heof
    exact eof_not_mem_word d (heof ▸ hd)
  · rw [← ht] at hcloses
    rw [run_words hcloses (List.forall_mem_append.1 hroom).1 hkinds]
    refine run_of_accept ?_ []
    rw [ht]
    rfl

end ImpFront.Parse
