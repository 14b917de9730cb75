import ImpFront.Syntax.Program
import ImpFront.Text.Literal
/-!
# ImpFront.Syntax.Printer

**Programs as text.** The printed text has the tokens of the source that the tree
stands for, in the same order: parentheses are in the tree, and nothing else is
put in. The layout is canonical, with one statement a line and four spaces a
level.

`Expr.shape` is the other written form, with every operator before its operands
in parentheses; it shows which operands an operator has.
-/

namespace ImpFront

/-! ### Expressions -/

namespace Expr

mutual

/-- An expression as source text. -/
def text : Expr → String
  | symbol name _ => name
  | number digits _ => digits
  | string value _ => Text.encode value
  | not operand _ => "!" ++ operand.text
  | group inner _ => "(" ++ inner.text ++ ")"
  | assign target value _ => target ++ " = " ++ value.text
  | binary op left right _ => left.text ++ " " ++ op.symbol ++ " " ++ right.text
  | call callee arguments _ => callee ++ "(" ++ textList arguments ++ ")"

/-- Expressions with commas between them. -/
def textList : List Expr → String
  | [] => ""
  | [e] => e.text
  | e :: f :: rest => e.text ++ ", " ++ textList (f :: rest)

end

mutual

/-- An expression with its operators in front. -/
def shape : Expr → String
  | symbol name _ => name
  | number digits _ => digits
  | string value _ => Text.encode value
  | not operand _ => "(! " ++ operand.shape ++ ")"
  | group inner _ => "(group " ++ inner.shape ++ ")"
  | assign target value _ => "(= " ++ target ++ " " ++ value.shape ++ ")"
  | binary op left right _ => "(" ++ op.symbol ++ " " ++ left.shape ++ " " ++ right.shape ++ ")"
  | call callee arguments _ => "(call " ++ callee ++ shapeList arguments ++ ")"

/-- The shapes of expressions, each after a space. -/
def shapeList : List Expr → String
  | [] => ""
  | e :: rest => " " ++ e.shape ++ shapeList rest

end

end Expr

/-- A call as source text. -/
def Call.text (c : Call) : String := c.callee ++ "(" ++ Expr.textList c.arguments ++ ")"

@[simp] theorem Call.text_toExpr (c : Call) : c.toExpr.text = c.text := rfl

/-! ### Statements -/

/-- A declaration as source text. -/
def Declaration.text (d : Declaration) : String :=
  match d.value with
  | none => d.type.keyword ++ " " ++ d.name ++ ";"
  | some value => d.type.keyword ++ " " ++ d.name ++ " = " ++ value.text ++ ";"

/-- An update as source text, without a semicolon. -/
def Update.text : Update → String
  | assign name op value _ => name ++ " " ++ op.symbol ++ " " ++ value.text
  | step name op .before _ => op.symbol ++ name
  | step name op .behind _ => name ++ op.symbol

/-- The spaces before a line at a level of nesting. -/
def indentation (level : Nat) : String := String.ofList (List.replicate (4 * level) ' ')

mutual

/-- A statement as source text. Its first line is not indented; `level` is the level of
nesting for the others. -/
def Statement.text (level : Nat) : Statement → String
  | .declare declaration => declaration.text
  | .update update => update.text ++ ";"
  | .ifElse condition body none _ =>
    "if (" ++ condition.text ++ ") " ++ body.text level
  | .ifElse condition body (some otherwise) _ =>
    "if (" ++ condition.text ++ ") " ++ body.text level ++ " else " ++ otherwise.text level
  | .forLoop init condition step body _ =>
    "for (" ++ init.text ++ " " ++ condition.text ++ "; " ++ step.text ++ ") " ++ body.text level
  | .whileLoop condition body _ => "while (" ++ condition.text ++ ") " ++ body.text level
  | .ret none _ => "return;"
  | .ret (some value) _ => "return " ++ value.text ++ ";"
  | .call call _ => call.text ++ ";"

/-- A block as source text: a pair of braces when empty, otherwise a line for each statement. -/
def Block.text (level : Nat) : Block → String
  | ⟨[], _⟩ => "\x7b\x7d"
  | ⟨s :: rest, _⟩ =>
    "\x7b\n" ++ Statement.textLines (level + 1) (s :: rest) ++ indentation level ++ "\x7d"

/-- Statements at a level of nesting, each on a line of its own. -/
def Statement.textLines (level : Nat) : List Statement → String
  | [] => ""
  | s :: rest => indentation level ++ s.text level ++ "\n" ++ Statement.textLines level rest

end

/-! ### Programs -/

/-- A parameter as source text. -/
def Parameter.text (p : Parameter) : String := p.type.keyword ++ " " ++ p.name

/-- A function as source text. -/
def Function.text (f : Function) : String :=
  f.returns.keyword ++ " " ++ f.name ++ "(" ++ ", ".intercalate (f.parameters.map Parameter.text)
    ++ ") " ++ f.body.text 0

/-- A part of a program as source text. -/
def Item.text : Item → String
  | global declaration => declaration.text
  | function f => f.text
  | statement s => s.text 0

/-- A program as source text, a newline after each part. -/
def Program.text (p : Program) : String := String.join (p.items.map fun item => item.text ++ "\n")

end ImpFront
