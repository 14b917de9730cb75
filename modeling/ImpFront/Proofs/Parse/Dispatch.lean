import ImpFront.Proofs.Parse.Run
/-!
# ImpFront.Proofs.Parse.Dispatch

**Productions by the tokens they look at.** A production that chooses among others
reads kinds from the state first; here is the choice with the state put in, one
equation for each such production. What follows about a production starts from its
equation and does not unfold it.
-/

namespace ImpFront

namespace Rules

variable (settings : Settings)

@[simp] theorem operand_standard : (standard settings).operand = operandForm? := rfl

@[simp] theorem operator_standard : (standard settings).operator = power? := rfl

@[simp] theorem statement_standard : (standard settings).statement = statementForm? := rfl

end Rules

namespace Parse

/-! ### Expressions -/

theorem nameOperand_apply (expr : ExprReader) (s : State) :
    nameOperand expr s =
      if (s.stream.peek 1).kind = .openParen then (call expr >>= fun c => pure c.toExpr) s
      else if (s.stream.peek 1).kind = .assign then assignment expr s
      else symbol s := by
  unfold nameOperand
  rw [peekKind_bind]
  cases (s.stream.peek 1).kind <;> rfl

theorem operand_apply (R : Rules) (expr : ExprReader) (s : State) :
    operand R expr s =
      match R.operand s.current.kind with
      | some form => operandOf expr form s
      | none => .error (noExpression s.current) s := by
  unfold operand
  rw [kind_bind]
  cases R.operand s.current.kind <;> rfl

theorem binary_apply (expr : ExprReader) (power : Power) (left : Expr) (s : State) :
    binary expr power left s =
      match BinaryOp.ofKind? s.current.kind with
      | none => .error (noExpression s.current) s.next
      | some op =>
        (expr power.next >>= fun right =>
          pure (.binary op left right ⟨left.span.start, right.span.stop⟩)) s.next := by
  unfold binary
  rw [advance_bind]
  cases BinaryOp.ofKind? s.current.kind <;> rfl

theorem extend_apply (R : Rules) (expr : ExprReader) (least : Power) (left : Expr) (s : State) :
    extend R expr least left s =
      match R.operator s.current.kind with
      | some power =>
        if least < power then (binary expr power left >>= fun e => pure (some e)) s
        else .ok none s
      | none => .ok none s := by
  unfold extend
  rw [kind_bind]
  cases R.operator s.current.kind with
  | none => rfl
  | some power => dsimp only; split <;> rfl

/-! ### Declarations and updates -/

theorem typeName_apply (s : State) :
    typeName s =
      match Ty.ofKind? s.current.kind with
      | some t => .ok t s.next
      | none => .error (refuse s.current Ty.keywords) s := by
  unfold typeName
  rw [kind_bind]
  cases Ty.ofKind? s.current.kind <;> rfl

/-- The token behind the name of an assignment decides what it does. -/
theorem assignUpdate_apply (expr : ExprReader) (s : State) :
    assignUpdate expr s =
      (expect .identifier >>= fun name s₁ =>
        match AssignOp.ofKind? s₁.current.kind with
        | none => .error (refuse s₁.current (AssignOp.all.map AssignOp.kind)) s₁.next
        | some op =>
          (expr .lowest >>= fun value =>
            pure (.assign name.text op value ⟨name.span.start, value.span.stop⟩)) s₁.next) s := by
  unfold assignUpdate
  rw [ParseM.bind_apply, ParseM.bind_apply]
  split
  · next name s₁ hname =>
    rw [advance_bind]
    cases AssignOp.ofKind? s₁.current.kind <;> rfl
  · rfl

/-- A step begins with its operator, or with the variable and then has the operator. -/
theorem stepUpdate_apply (s : State) :
    stepUpdate s =
      match StepOp.ofKind? s.current.kind with
      | some op =>
        (expect .identifier >>= fun name =>
          pure (.step name.text op .before ⟨s.current.span.start, name.span.stop⟩)) s.next
      | none =>
        (expectOneOf (StepOp.all.map StepOp.kind) >>= fun t s₁ =>
          match StepOp.ofKind? t.kind with
          | some op =>
            .ok (.step s.current.text op .behind ⟨s.current.span.start, t.span.stop⟩) s₁
          | none => .error (refuse t (StepOp.all.map StepOp.kind)) s₁) s.next := by
  unfold stepUpdate
  rw [advance_bind]
  cases StepOp.ofKind? s.current.kind with
  | some op => rfl
  | none =>
    dsimp only
    rw [ParseM.bind_apply, ParseM.bind_apply]
    split
    · next t s₁ ht => cases StepOp.ofKind? t.kind <;> rfl
    · rfl

/-! ### Statements -/

theorem loopStep_apply (expr : ExprReader) (s : State) :
    loopStep expr s =
      if s.current.kind.isStep then stepUpdate s
      else if s.current.kind = .identifier then
        if (s.stream.peek 1).kind.isAssign then assignUpdate expr s
        else if (s.stream.peek 1).kind.isStep then stepUpdate s
        else unexpectedAfter updateKinds s
      else .error (refuse s.current [.identifier, .plusPlus, .minusMinus]) s := by
  unfold loopStep
  rw [kind_bind]
  cases s.current.kind with
  | identifier =>
    dsimp only
    rw [peekKind_bind]
    split
    · rfl
    · split <;> rfl
  | _ => rfl

/-- The state in which a statement has been announced. -/
def announced (s : State) : State :=
  remarked ⟨.trace, "statement",
    [("kind", s.current.kind.name), ("position", s.current.span.start.text)]⟩ s

theorem statementWith_apply (R : Rules) (expr : ExprReader) (block : ParseM Block) (s : State) :
    statementWith R expr block s =
      match R.statement s.current.kind with
      | some form => statementOf expr block form (announced s)
      | none => .error (refuse s.current R.statementStarts) (announced s) := by
  unfold statementWith
  rw [current_bind, note_bind]
  cases R.statement s.current.kind <;> rfl

theorem blockItem_apply (statement : ParseM Statement) (s : State) :
    blockItem statement s =
      if s.current.kind = .closeCurly then .ok none s
      else if s.current.kind = .eof then .error (unclosed s.current) s
      else (statement >>= fun a => pure (some a)) s := by
  unfold blockItem
  rw [kind_bind]
  cases s.current.kind <;> rfl

/-! ### Programs -/

/-- The state in which a global has been announced. -/
def announcedGlobal (s : State) : State :=
  remarked ⟨.trace, "global declaration", [("name", (s.stream.peek 1).text)]⟩ s

/-- The state in which a function has been announced. -/
def announcedFunction (s : State) : State :=
  remarked ⟨.debug, "function declaration", [("name", (s.stream.peek 1).text)]⟩ s

theorem globalItem_apply (expr : ExprReader) (s : State) :
    globalItem expr s =
      if atGlobal s.stream then
        (declaration expr >>= fun d => pure (some (.global d))) (announcedGlobal s)
      else .ok none s := by
  unfold globalItem
  rw [lookingAt_bind]
  split
  · rw [nameAhead_bind, note_bind]
    rfl
  · rfl

theorem laterItem_apply (R : Rules) (n : Nat) (s : State) :
    laterItem R n s =
      if s.current.kind = .eof then .ok none s
      else if atFunction s.stream then
        (functionWith (blockAt R n) >>= fun f => pure (some (.function f))) (announcedFunction s)
      else (statementAt R n >>= fun a => pure (some (.statement a))) s := by
  unfold laterItem
  rw [kind_bind]
  split
  · rfl
  · rw [lookingAt_bind]
    split
    · rw [nameAhead_bind, note_bind]
      rfl
    · rfl

end Parse

end ImpFront
