import ImpFront.Syntax.Program
import ImpFront.Text.Quoted
/-!
# ImpFront.Syntax.Record

A **full listing of a tree**: every value as a record with the names of its
fields, down to the positions, one field a line.

`Record` is the shape of such a listing, apart from what is listed. It has one
layout: each level moves in by four spaces, and a comma follows every entry.
-/

namespace ImpFront

/-- A value for listing. -/
inductive Record where
  /-- A value that is one word. -/
  | word (text : String)
  /-- A named value around another: `name(inner)`. -/
  | wrap (name : String) (inner : Record)
  /-- A named value with named fields. -/
  | fields (name : String) (fields : List (String × Record))
  | list (items : List Record)
  deriving Repr, Inhabited

namespace Record

/-- The spaces before a line at a level. -/
def margin (level : Nat) : String := String.ofList (List.replicate (4 * level) ' ')

mutual

/-- The listing of a value whose first line stands at the given level. -/
def text (level : Nat) : Record → String
  | word w => w
  | wrap name inner =>
    name ++ "(\n" ++ margin (level + 1) ++ inner.text (level + 1) ++ ",\n" ++ margin level ++ ")"
  | fields name entries =>
    name ++ " \x7b\n" ++ textFields (level + 1) entries ++ margin level ++ "\x7d"
  | list [] => "[]"
  | list (r :: rest) => "[\n" ++ textList (level + 1) (r :: rest) ++ margin level ++ "]"

/-- The fields of a value, a line for each. -/
def textFields (level : Nat) : List (String × Record) → String
  | [] => ""
  | (name, r) :: rest =>
    margin level ++ name ++ ": " ++ r.text level ++ ",\n" ++ textFields level rest

/-- The items of a list, a line for each. -/
def textList (level : Nat) : List Record → String
  | [] => ""
  | r :: rest => margin level ++ r.text level ++ ",\n" ++ textList level rest

end

/-- A text in quotes. -/
def quoted (text : String) : Record := word (Text.quote text)

/-- A number in decimal. -/
def number (n : Nat) : Record := word (toString n)

/-- A value that may be missing. -/
def option : Option Record → Record
  | none => word "None"
  | some r => wrap "Some" r

end Record

/-! ### Records of trees -/

/-- The record of a position. -/
def Position.record (p : Position) : Record :=
  .fields "Position" [("offset", .number p.offset), ("line", .number p.line),
    ("column", .number p.column)]

/-- The record of a span. -/
def Span.record (s : Span) : Record :=
  .fields "Span" [("start", s.start.record), ("end", s.stop.record)]

namespace Expr

mutual

/-- The record of an expression. -/
def record : Expr → Record
  | symbol name span =>
    .wrap "Symbol" (.fields "SymbolExpr" [("value", .quoted name), ("span", span.record)])
  | number text span =>
    .wrap "Number" (.fields "NumberExpr" [("value", .quoted text), ("span", span.record)])
  | string value span =>
    .wrap "String" (.fields "StringExpr" [("value", .quoted value), ("span", span.record)])
  | not operand span =>
    .wrap "Not" (.fields "NotExpr" [("operand", operand.record), ("span", span.record)])
  | group inner span =>
    .wrap "Grouping" (.fields "GroupingExpr" [("inner", inner.record), ("span", span.record)])
  | assign target value span =>
    .wrap "Assignment" (.fields "AssignmentExpr"
      [("target", .quoted target), ("value", value.record), ("span", span.record)])
  | binary op left right span =>
    .wrap "Binary" (.fields "BinaryExpr"
      [("operator", .word op.name), ("left", left.record), ("right", right.record),
        ("span", span.record)])
  | call callee arguments span =>
    .wrap "Call" (.fields "CallExpr"
      [("callee", .quoted callee), ("arguments", .list (recordList arguments)),
        ("span", span.record)])

/-- The records of expressions. -/
def recordList : List Expr → List Record
  | [] => []
  | e :: rest => e.record :: recordList rest

end

end Expr

/-- The record of a call. -/
def Call.record (c : Call) : Record :=
  .fields "CallExpr" [("callee", .quoted c.callee),
    ("arguments", .list (c.arguments.map Expr.record)), ("span", c.span.record)]

/-- The record of a declaration. -/
def Declaration.record (d : Declaration) : Record :=
  .fields "VarDeclStmt" [("var_type", .word d.type.name), ("identifier", .quoted d.name),
    ("assigned_value", .option (d.value.map Expr.record)), ("span", d.span.record)]

/-- The record of an update. -/
def Update.record : Update → Record
  | assign name op value span =>
    .wrap "Assignment" (.fields "AssignmentStmt" [("identifier", .quoted name),
      ("operator", .word op.name), ("value", value.record), ("span", span.record)])
  | step name op side span =>
    .wrap "IncDec" (.fields "IncDecStmt" [("identifier", .quoted name),
      ("operator", .word op.name), ("is_prefix", .word (if side = .before then "true" else "false")),
      ("span", span.record)])

mutual

/-- The record of a statement. -/
def Statement.record : Statement → Record
  | .declare d => .wrap "VarDecl" d.record
  | .update u => u.record
  | .ifElse condition body otherwise span =>
    .wrap "If" (.fields "IfStmt" [("condition", condition.record), ("then_body", body.record),
      ("else_body", .option (Block.recordOption otherwise)), ("span", span.record)])
  | .forLoop init condition step body span =>
    .wrap "For" (.fields "ForStmt" [("init", init.record), ("condition", condition.record),
      ("step", step.record), ("body", body.record), ("span", span.record)])
  | .whileLoop condition body span =>
    .wrap "While" (.fields "WhileStmt" [("condition", condition.record), ("body", body.record),
      ("span", span.record)])
  | .ret value span =>
    .wrap "Return" (.fields "ReturnStmt"
      [("value", .option (value.map Expr.record)), ("span", span.record)])
  | .call call span =>
    .wrap "Expression" (.fields "ExpressionStmt" [("call", call.record), ("span", span.record)])

/-- The record of a block that may be missing. -/
def Block.recordOption : Option Block → Option Record
  | none => none
  | some block => some block.record

/-- The record of a block. -/
def Block.record : Block → Record
  | ⟨body, span⟩ =>
    .fields "BlockStmt" [("body", .list (Statement.recordList body)), ("span", span.record)]

/-- The records of statements. -/
def Statement.recordList : List Statement → List Record
  | [] => []
  | s :: rest => s.record :: Statement.recordList rest

end

/-- The record of a parameter. -/
def Parameter.record (p : Parameter) : Record :=
  .fields "Parameter" [("param_type", .word p.type.name), ("name", .quoted p.name),
    ("span", p.span.record)]

/-- The record of a function. -/
def Function.record (f : Function) : Record :=
  .fields "FnDeclStmt" [("return_type", .word f.returns.name), ("identifier", .quoted f.name),
    ("parameters", .list (f.parameters.map Parameter.record)), ("body", f.body.record),
    ("span", f.span.record)]

/-- The record of a part of a program. -/
def Item.record : Item → Record
  | global d => .wrap "Global" d.record
  | function f => .wrap "Function" f.record
  | statement s => .wrap "Statement" s.record

/-- The record of a program. -/
def Program.record (p : Program) : Record :=
  .fields "Program" [("items", .list (p.items.map Item.record)), ("span", p.span.record)]

/-- The full listing of a program. -/
def Program.listing (p : Program) : String := p.record.text 0

end ImpFront
