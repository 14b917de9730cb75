import ImpFront.Proofs.Parse.Keeps
/-!
# ImpFront.Proofs.Parse.ProductionsKeep

**Productions keep to the tokens and to the limit**, with any rules and from any state,
also where nobody would ask for them. Each keeps what the readers it is given keep; the
knots are tied on the levels that are free.

A block opens its level by itself and does not give it back when it fails. So it needs a
level that is free where it starts, and so does every production that reads blocks.
-/

namespace ImpFront.Parse

variable {limit n : Nat} {R : Rules} {expr : ExprReader} {block : ParseM Block}

/-- A reader that keeps to the tokens and to the limit, for each power. -/
def KeepsExprs (limit n : Nat) (expr : ExprReader) : Prop := ∀ least, Keeps limit n (expr least)

/-! ### Expressions -/

theorem keeps_furtherArgument (h : KeepsExprs limit n expr) :
    Keeps limit n (furtherArgument expr) := by
  refine Keeps.kind_bind fun k => ?_
  split
  · exact keeps_advance.bind fun _ => (h .lowest).map some
  · exact keeps_pure none

theorem keeps_arguments (h : KeepsExprs limit n expr) : Keeps limit n (arguments expr) := by
  refine Keeps.kind_bind fun k => ?_
  split
  · exact keeps_pure []
  · exact (h .lowest).bind fun first => (keeps_furtherArgument h).many.map (first :: ·)

theorem keeps_closeList : Keeps limit n closeList := by
  refine Keeps.kind_bind fun k => ?_
  split
  · exact keeps_advance
  · exact keeps_unexpected _

theorem keeps_call (h : KeepsExprs limit n expr) : Keeps limit n (call expr) := by
  refine (keeps_expect .identifier).bind fun name => (keeps_expect .openParen).bind fun _ => ?_
  exact (keeps_arguments h).bind fun es => keeps_closeList.map _

theorem keeps_literal : Keeps limit n literal := by
  refine (keeps_expectOneOf _).bind fun t => ?_
  split
  · exact keeps_pure _
  · exact keeps_pure _

theorem keeps_negation (h : KeepsExprs limit n expr) : Keeps limit n (negation expr) :=
  (keeps_expect .not).bind fun _ => (h .notOperand).map _

theorem keeps_group (h : KeepsExprs limit n expr) : Keeps limit n (group expr) := by
  refine (keeps_expect .openParen).bind fun opening => (h .lowest).bind fun inner => ?_
  exact (keeps_expect .closeParen).map _

theorem keeps_assignment (h : KeepsExprs limit n expr) : Keeps limit n (assignment expr) := by
  refine (keeps_expect .identifier).bind fun target => (keeps_expect .assign).bind fun _ => ?_
  exact (h .lowest).map _

theorem keeps_symbol : Keeps limit n symbol := (keeps_expect .identifier).map _

theorem keeps_nameOperand (h : KeepsExprs limit n expr) : Keeps limit n (nameOperand expr) := by
  refine Keeps.peekKind_bind fun k => ?_
  split
  · exact (keeps_call h).map Call.toExpr
  · exact keeps_assignment h
  · exact keeps_symbol

theorem keeps_operandOf (h : KeepsExprs limit n expr) (form : OperandForm) :
    Keeps limit n (operandOf expr form) := by
  cases form with
  | negation => exact keeps_negation h
  | group => exact keeps_group h
  | name => exact keeps_nameOperand h
  | literal => exact keeps_literal

theorem keeps_operand (h : KeepsExprs limit n expr) : Keeps limit n (operand R expr) := by
  refine Keeps.kind_bind fun k => ?_
  split
  · exact keeps_operandOf h _
  · exact Keeps.current_bind fun t => keeps_fail _

theorem keeps_binary (h : KeepsExprs limit n expr) (power : Power) (left : Expr) :
    Keeps limit n (binary expr power left) := by
  refine keeps_advance.bind fun t => ?_
  split
  · exact keeps_fail _
  · exact (h power.next).map _

theorem keeps_extend (h : KeepsExprs limit n expr) (least : Power) (left : Expr) :
    Keeps limit n (extend R expr least left) := by
  refine Keeps.kind_bind fun k => ?_
  split
  · split
    · exact (keeps_binary h _ left).map some
    · exact keeps_pure none
  · exact keeps_pure none

/-- An operand with the operators behind it, in the level that is open. -/
theorem keeps_extended (h : KeepsExprs limit n expr) (least : Power) :
    Keeps limit n (operand R expr >>= iterate (extend R expr least)) :=
  (keeps_operand h).bind fun first => Keeps.iterate (fun left => keeps_extend h least left) first

/-- An expression keeps to the levels that are free. -/
theorem keepsExprs_exprAt (R : Rules) (limit n : Nat) : KeepsExprs limit n (exprAt R n) := by
  induction n with
  | zero => exact fun least => keeps_tooDeep R
  | succ n ih => exact fun least => (keeps_extended ih least).nested

/-! ### Types and parameters -/

theorem keeps_typeName : Keeps limit n typeName := by
  refine Keeps.kind_bind fun k => ?_
  split
  · exact keeps_advance.map _
  · exact keeps_unexpected _

theorem keeps_parameter : Keeps limit n parameter := by
  refine Keeps.position_bind fun start => keeps_typeName.bind fun type => ?_
  exact (keeps_expect .identifier).map _

theorem keeps_furtherParameter : Keeps limit n furtherParameter := by
  refine Keeps.kind_bind fun k => ?_
  split
  · exact keeps_advance.bind fun _ => keeps_parameter.map some
  · exact keeps_pure none

theorem keeps_parameterList : Keeps limit n parameterList := by
  refine (keeps_expect .openParen).bind fun _ => Keeps.kind_bind fun k => ?_
  split
  · exact keeps_advance.map _
  · refine keeps_parameter.bind fun first => keeps_furtherParameter.many.bind fun others => ?_
    exact keeps_closeList.map _

/-! ### Declarations and updates -/

theorem keeps_declaration (h : KeepsExprs limit n expr) : Keeps limit n (declaration expr) := by
  refine Keeps.position_bind fun start => keeps_typeName.bind fun type => ?_
  refine (keeps_expect .identifier).bind fun name => Keeps.kind_bind fun k => ?_
  split
  · refine keeps_advance.bind fun _ => (h .lowest).bind fun value => ?_
    exact (keeps_expect .semicolon).map _
  · exact (keeps_expectOneOf _).map _

theorem keeps_assignUpdate (h : KeepsExprs limit n expr) : Keeps limit n (assignUpdate expr) := by
  refine (keeps_expect .identifier).bind fun name => keeps_advance.bind fun t => ?_
  split
  · exact keeps_fail _
  · exact (h .lowest).map _

theorem keeps_stepUpdate : Keeps limit n stepUpdate := by
  refine keeps_advance.bind fun first => ?_
  split
  · exact (keeps_expect .identifier).map _
  · refine (keeps_expectOneOf _).bind fun t => ?_
    split
    · exact keeps_pure _
    · exact keeps_fail _

theorem keeps_updateStatement {update : ParseM Update} (h : Keeps limit n update) :
    Keeps limit n (updateStatement update) :=
  h.bind fun _ => (keeps_expect .semicolon).map _

theorem keeps_callStatement (h : KeepsExprs limit n expr) : Keeps limit n (callStatement expr) :=
  (keeps_call h).bind fun _ => (keeps_expect .semicolon).map _

theorem keeps_unexpectedAfter {α : Type} (kinds : List Kind) :
    Keeps limit n (unexpectedAfter kinds : ParseM α) :=
  keeps_advance.bind fun _ => keeps_unexpected kinds

theorem keeps_nameStatement (h : KeepsExprs limit n expr) :
    Keeps limit n (nameStatement expr) := by
  refine Keeps.peekKind_bind fun k => ?_
  split
  · exact keeps_updateStatement (keeps_assignUpdate h)
  · split
    · exact keeps_updateStatement keeps_stepUpdate
    · split
      · exact keeps_callStatement h
      · exact keeps_unexpectedAfter _

theorem keeps_stepStatement : Keeps limit n stepStatement :=
  keeps_updateStatement keeps_stepUpdate

/-! ### Compound statements -/

theorem keeps_condition (h : KeepsExprs limit n expr) : Keeps limit n (condition expr) := by
  refine (keeps_expect .openParen).bind fun _ => (h .lowest).bind fun e => ?_
  exact (keeps_expect .closeParen).map _

theorem keeps_ifStatement (h : KeepsExprs limit n expr) (hblock : Keeps limit n block) :
    Keeps limit n (ifStatement expr block) := by
  refine (keeps_expect .ifWord).bind fun word => (keeps_condition h).bind fun e => ?_
  refine hblock.bind fun body => Keeps.kind_bind fun k => ?_
  split
  · exact keeps_advance.bind fun _ => hblock.map _
  · exact keeps_pure _

theorem keeps_loopStep (h : KeepsExprs limit n expr) : Keeps limit n (loopStep expr) := by
  refine Keeps.kind_bind fun k => ?_
  split
  · exact keeps_stepUpdate
  · exact keeps_stepUpdate
  · refine Keeps.peekKind_bind fun k => ?_
    split
    · exact keeps_assignUpdate h
    · split
      · exact keeps_stepUpdate
      · exact keeps_unexpectedAfter _
  · exact keeps_unexpected _

theorem keeps_forStatement (h : KeepsExprs limit n expr) (hblock : Keeps limit n block) :
    Keeps limit n (forStatement expr block) := by
  refine (keeps_expect .forWord).bind fun word => (keeps_expect .openParen).bind fun _ => ?_
  refine (keeps_declaration h).bind fun init => (h .lowest).bind fun e => ?_
  refine (keeps_expect .semicolon).bind fun _ => (keeps_loopStep h).bind fun step => ?_
  exact (keeps_expect .closeParen).bind fun _ => hblock.map _

theorem keeps_whileStatement (h : KeepsExprs limit n expr) (hblock : Keeps limit n block) :
    Keeps limit n (whileStatement expr block) :=
  (keeps_expect .whileWord).bind fun _ => (keeps_condition h).bind fun _ => hblock.map _

theorem keeps_returnStatement (h : KeepsExprs limit n expr) :
    Keeps limit n (returnStatement expr) := by
  refine (keeps_expect .returnWord).bind fun word => Keeps.kind_bind fun k => ?_
  split
  · exact keeps_advance.map _
  · exact (h .lowest).bind fun value => (keeps_expect .semicolon).map _

theorem keeps_statementOf (h : KeepsExprs limit n expr) (hblock : Keeps limit n block)
    (form : StatementForm) : Keeps limit n (statementOf expr block form) := by
  cases form with
  | declaration => exact (keeps_declaration h).map Statement.declare
  | name => exact keeps_nameStatement h
  | step => exact keeps_stepStatement
  | ifElse => exact keeps_ifStatement h hblock
  | forLoop => exact keeps_forStatement h hblock
  | whileLoop => exact keeps_whileStatement h hblock
  | ret => exact keeps_returnStatement h

theorem keeps_statementWith (h : KeepsExprs limit n expr) (hblock : Keeps limit n block) :
    Keeps limit n (statementWith R expr block) := by
  refine Keeps.current_bind fun t => Keeps.note_bind ?_
  split
  · exact keeps_statementOf h hblock _
  · exact keeps_unexpected _

/-! ### Blocks and functions -/

theorem keeps_blockItem {statement : ParseM Statement} (h : Keeps limit n statement) :
    Keeps limit n (blockItem statement) := by
  refine Keeps.kind_bind fun k => ?_
  split
  · exact keeps_pure none
  · exact Keeps.current_bind fun t => keeps_fail _
  · exact h.map some

/-- A block keeps to the levels that are free. -/
theorem keeps_blockAt (R : Rules) (limit n : Nat) : Keeps limit n (blockAt R n) := by
  induction n with
  | zero => exact (keeps_expect .openCurly).bind fun _ => keeps_tooDeep R
  | succ n ih =>
    have hstatement : Keeps limit n (statementAt R n) :=
      keeps_statementWith (keepsExprs_exprAt R limit n) ih
    refine (keeps_expect .openCurly).bind fun opening => ?_
    exact (keeps_blockItem hstatement).many.opened (fun body => keeps_expect .closeCurly) _

theorem keeps_functionWith (hblock : Keeps limit n block) : Keeps limit n (functionWith block) := by
  refine Keeps.position_bind fun start => keeps_typeName.bind fun returns => ?_
  refine (keeps_expect .identifier).bind fun name => keeps_parameterList.bind fun parameters => ?_
  exact hblock.map _

end ImpFront.Parse
