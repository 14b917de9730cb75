import ImpFront.Syntax.Erasure
import ImpFront.Syntax.Printer
/-!
# ImpFront.Syntax.SExpr

**S-expressions**: what the shape of an expression spells. An s-expression is a word, a
literal, or a list in parentheses with a mark in front of its parts. `Expr.toSExpr` gives the
one that an expression has, and `SExpr.toExpr?` reads an expression back, without places.

Nothing but its first character says whether a word is a name or a number. What the parts of a
list are, the mark says.
-/

namespace ImpFront

/-- What stands in front of the parts of a list. -/
inductive Mark where
  | not | group | assign | call
  | binary (op : BinaryOp)
  deriving DecidableEq, Repr

/-- An s-expression. -/
inductive SExpr where
  /-- A name or a number. -/
  | word (text : String)
  /-- A string literal, by the text it stands for. -/
  | literal (value : String)
  /-- `(mark part part …)` -/
  | list (mark : Mark) (parts : List SExpr)

/-! ### Writing -/

namespace Mark

/-- Every mark once. -/
def all : List Mark := [not, group, assign, call] ++ BinaryOp.all.map binary

/-- How a mark is written. -/
def text : Mark → String
  | not => "!"
  | group => "group"
  | assign => "="
  | call => "call"
  | binary op => op.symbol

end Mark

namespace SExpr

mutual

/-- An s-expression as text. -/
def text : SExpr → List Char
  | word text => text.toList
  | literal value => (Text.encode value).toList
  | list mark parts => '(' :: (mark.text.toList ++ (textList parts ++ [')']))

/-- S-expressions as text, each after a space. -/
def textList : List SExpr → List Char
  | [] => []
  | s :: rest => ' ' :: (s.text ++ textList rest)

end

end SExpr

namespace Expr

mutual

/-- The s-expression of an expression. -/
def toSExpr : Expr → SExpr
  | symbol name _ => .word name
  | number digits _ => .word digits
  | string value _ => .literal value
  | not operand _ => .list .not [operand.toSExpr]
  | group inner _ => .list .group [inner.toSExpr]
  | assign target value _ => .list .assign [.word target, value.toSExpr]
  | binary op left right _ => .list (.binary op) [left.toSExpr, right.toSExpr]
  | call callee arguments _ => .list .call (.word callee :: toSExprList arguments)

/-- The s-expressions of expressions. -/
def toSExprList : List Expr → List SExpr
  | [] => []
  | e :: rest => e.toSExpr :: toSExprList rest

end

mutual

/-- The shape of an expression is the text of its s-expression. -/
theorem toList_shape : (e : Expr) → e.shape.toList = e.toSExpr.text
  | symbol .. | number .. | string .. => rfl
  | not operand _ => by
    simp [shape, toSExpr, SExpr.text, SExpr.textList, Mark.text, operand.toList_shape]
  | group inner _ => by
    simp [shape, toSExpr, SExpr.text, SExpr.textList, Mark.text, inner.toList_shape]
  | assign target value _ => by
    simp [shape, toSExpr, SExpr.text, SExpr.textList, Mark.text, value.toList_shape]
  | binary op left right _ => by
    simp [shape, toSExpr, SExpr.text, SExpr.textList, Mark.text, left.toList_shape,
      right.toList_shape]
  | call callee arguments _ => by
    simp [shape, toSExpr, SExpr.text, SExpr.textList, Mark.text, toList_shapeList arguments]

theorem toList_shapeList : (es : List Expr) →
    (shapeList es).toList = SExpr.textList (toSExprList es)
  | [] => rfl
  | e :: rest => by
    simp [shapeList, toSExprList, SExpr.textList, e.toList_shape, toList_shapeList rest]

end

end Expr

/-! ### Reading -/

/-- The expression that a word is read as: a number if it begins with a digit. -/
def Expr.ofWord (text : String) : Expr :=
  if text.toList.head?.any Char.isDigit then .number text default else .symbol text default

/-- The expression that a list is read as, from its mark and the expressions behind it. -/
def Mark.toExpr? : Mark → List Expr → Option Expr
  | not, [operand] => some (.not operand default)
  | group, [inner] => some (.group inner default)
  | assign, [.symbol target _, value] => some (.assign target value default)
  | binary op, [left, right] => some (.binary op left right default)
  | call, .symbol callee _ :: arguments => some (.call callee arguments default)
  | _, _ => none

namespace SExpr

mutual

/-- The expression that an s-expression is read as. -/
def toExpr? : SExpr → Option Expr
  | word text => some (.ofWord text)
  | literal value => some (.string value default)
  | list mark parts => (toExprList? parts).bind mark.toExpr?

/-- The expressions that s-expressions are read as. -/
def toExprList? : List SExpr → Option (List Expr)
  | [] => some []
  | s :: rest => s.toExpr?.bind fun e => (toExprList? rest).map (e :: ·)

end

end SExpr

end ImpFront
