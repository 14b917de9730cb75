import ImpFront.Syntax.Program
import ImpFront.Token.Basic
/-!
# ImpFront.Syntax.Sign

The **signs that a tree stands for**: its tokens without their places.

A sign has a kind and a text. Where the kind has one spelling, the sign has that
text whatever the token says, because nothing else can be meant; the text counts
for names, numbers and strings.
-/

namespace ImpFront

/-- A token without its place. -/
structure Sign where
  kind : Kind
  text : String
  deriving DecidableEq, Repr, Inhabited

namespace Sign

/-- The sign of a kind with one spelling. -/
def fixed (kind : Kind) : Sign := ⟨kind, kind.describe⟩

/-- The sign of a name. -/
def name (text : String) : Sign := ⟨.identifier, text⟩

/-- Lists of signs with a sign between each two of them. -/
def separate (separator : Sign) : List (List Sign) → List Sign
  | [] => []
  | [signs] => signs
  | signs :: next :: rest => signs ++ separator :: separate separator (next :: rest)

end Sign

/-- What a token says. -/
def Token.sign (t : Token) : Sign :=
  match t.kind.spelling? with
  | none => ⟨t.kind, t.text⟩
  | some spelling => ⟨t.kind, spelling⟩

/-! ### Expressions -/

namespace Expr

mutual

/-- The signs of an expression. -/
def signs : Expr → List Sign
  | symbol name _ => [.name name]
  | number text _ => [⟨.number, text⟩]
  | string value _ => [⟨.string, value⟩]
  | not operand _ => .fixed .not :: operand.signs
  | group inner _ => .fixed .openParen :: inner.signs ++ [.fixed .closeParen]
  | assign target value _ => .name target :: .fixed .assign :: value.signs
  | binary op left right _ => left.signs ++ .fixed op.kind :: right.signs
  | call callee arguments _ =>
    .name callee :: .fixed .openParen :: signsList arguments ++ [.fixed .closeParen]

/-- The signs of expressions, with commas between them. -/
def signsList : List Expr → List Sign
  | [] => []
  | [e] => e.signs
  | e :: f :: rest => e.signs ++ .fixed .comma :: signsList (f :: rest)

end

end Expr

/-- The signs of a call. -/
def Call.signs (c : Call) : List Sign := c.toExpr.signs

/-! ### Statements -/

/-- The signs of a declaration, its semicolon included. -/
def Declaration.signs (d : Declaration) : List Sign :=
  match d.value with
  | none => [.fixed d.type.kind, .name d.name, .fixed .semicolon]
  | some value =>
    .fixed d.type.kind :: .name d.name :: .fixed .assign :: value.signs ++ [.fixed .semicolon]

/-- The signs of an update, without a semicolon. -/
def Update.signs : Update → List Sign
  | assign name op value _ => .name name :: .fixed op.kind :: value.signs
  | step name op .before _ => [.fixed op.kind, .name name]
  | step name op .behind _ => [.name name, .fixed op.kind]

mutual

/-- The signs of a statement. -/
def Statement.signs : Statement → List Sign
  | .declare declaration => declaration.signs
  | .update update => update.signs ++ [.fixed .semicolon]
  | .ifElse condition body none _ =>
    .fixed .ifWord :: .fixed .openParen :: condition.signs ++ .fixed .closeParen :: body.signs
  | .ifElse condition body (some otherwise) _ =>
    .fixed .ifWord :: .fixed .openParen :: condition.signs
      ++ .fixed .closeParen :: body.signs ++ .fixed .elseWord :: otherwise.signs
  | .forLoop init condition step body _ =>
    .fixed .forWord :: .fixed .openParen :: init.signs ++ condition.signs
      ++ .fixed .semicolon :: step.signs ++ .fixed .closeParen :: body.signs
  | .whileLoop condition body _ =>
    .fixed .whileWord :: .fixed .openParen :: condition.signs ++ .fixed .closeParen :: body.signs
  | .ret none _ => [.fixed .returnWord, .fixed .semicolon]
  | .ret (some value) _ => .fixed .returnWord :: value.signs ++ [.fixed .semicolon]
  | .call call _ => call.signs ++ [.fixed .semicolon]

/-- The signs of a block. -/
def Block.signs : Block → List Sign
  | ⟨body, _⟩ => .fixed .openCurly :: Statement.signsList body ++ [.fixed .closeCurly]

/-- The signs of statements. -/
def Statement.signsList : List Statement → List Sign
  | [] => []
  | s :: rest => s.signs ++ Statement.signsList rest

end

/-! ### Programs -/

/-- The signs of a parameter. -/
def Parameter.signs (p : Parameter) : List Sign := [.fixed p.type.kind, .name p.name]

/-- The signs of a function. -/
def Function.signs (f : Function) : List Sign :=
  .fixed f.returns.kind :: .name f.name :: .fixed .openParen
    :: Sign.separate (.fixed .comma) (f.parameters.map Parameter.signs)
    ++ .fixed .closeParen :: f.body.signs

/-- The signs of a part of a program. -/
def Item.signs : Item → List Sign
  | global declaration => declaration.signs
  | function f => f.signs
  | statement s => s.signs

/-- The signs of a program, without the end of the source. -/
def Program.signs (p : Program) : List Sign := p.items.flatMap Item.signs

end ImpFront
