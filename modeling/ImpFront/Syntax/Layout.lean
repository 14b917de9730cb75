import ImpFront.Syntax.Order
import ImpFront.Syntax.Sign
/-!
# ImpFront.Syntax.Layout

The **layout of a tree**: where the parts of a node stand between its own signs. `Node.pieces`
lists both from left to right.

`Laid` says that tokens are what some pieces stand for, and that every node among the pieces and
below them goes from the start of the first of its tokens to the end of the last. The tokens of a
node are thus its own marks and those of its parts, and no others. `Node.Nested` says of the spans
alone that those of the parts lie in that of the node, one behind the other.

An update is a node of two kinds of places. As a statement it has a semicolon, as the last clause
of a `for` header it has none.
-/

namespace ImpFront

/-! ### Stretches of a source -/

namespace Span

/-- The stretch from the start of the first of some tokens to the end of the last. -/
def around (tokens : List Token) : Span :=
  ⟨(tokens.head?.getD default).span.start, (tokens.getLast?.getD default).span.stop⟩

/-- The stretch holds some of the source. -/
def Proper (s : Span) : Prop := s.start.offset < s.stop.offset

/-- The first stretch lies in the second. -/
def Inside (inner outer : Span) : Prop :=
  outer.start.offset ≤ inner.start.offset ∧ inner.stop.offset ≤ outer.stop.offset

/-- The first stretch stops before the second starts. -/
def Before (first second : Span) : Prop := first.stop.offset ≤ second.start.offset

end Span

/-! ### Pieces -/

/-- What a node is made of, from left to right. -/
inductive Piece where
  /-- A sign of the node itself. -/
  | mark (sign : Sign)
  /-- A part. -/
  | part (node : Node)
  /-- A part that is an update without its semicolon. -/
  | clause (update : Update)

/-- The mark of a kind with one spelling. -/
def Piece.fixed (kind : Kind) : Piece := .mark (.fixed kind)

/-- The mark of a name. -/
def Piece.name (text : String) : Piece := .mark (.name text)

/-- Parts with commas between them. -/
def Piece.separate : List Node → List Piece
  | [] => []
  | first :: others => .part first :: others.flatMap fun n => [.fixed .comma, .part n]

/-- An expression from left to right. -/
def Expr.pieces : Expr → List Piece
  | symbol name _ => [.name name]
  | number text _ => [.mark ⟨.number, text⟩]
  | string value _ => [.mark ⟨.string, value⟩]
  | not operand _ => [.fixed .not, .part (.expr operand)]
  | group inner _ => [.fixed .openParen, .part (.expr inner), .fixed .closeParen]
  | assign target value _ => [.name target, .fixed .assign, .part (.expr value)]
  | binary op left right _ => [.part (.expr left), .fixed op.kind, .part (.expr right)]
  | call callee arguments _ =>
    .name callee :: .fixed .openParen :: Piece.separate (arguments.map .expr)
      ++ [.fixed .closeParen]

/-- A declaration from left to right. -/
def Declaration.pieces (d : Declaration) : List Piece :=
  match d.value with
  | none => [.fixed d.type.kind, .name d.name, .fixed .semicolon]
  | some value =>
    [.fixed d.type.kind, .name d.name, .fixed .assign, .part (.expr value), .fixed .semicolon]

/-- An update from left to right, without a semicolon. -/
def Update.pieces : Update → List Piece
  | assign name op value _ => [.name name, .fixed op.kind, .part (.expr value)]
  | step name op .before _ => [.fixed op.kind, .name name]
  | step name op .behind _ => [.name name, .fixed op.kind]

/-- A statement from left to right. -/
def Statement.pieces : Statement → List Piece
  | declare d => d.pieces
  | update u => u.pieces ++ [.fixed .semicolon]
  | ifElse condition body none _ =>
    [.fixed .ifWord, .fixed .openParen, .part (.expr condition), .fixed .closeParen,
      .part (.block body)]
  | ifElse condition body (some otherwise) _ =>
    [.fixed .ifWord, .fixed .openParen, .part (.expr condition), .fixed .closeParen,
      .part (.block body), .fixed .elseWord, .part (.block otherwise)]
  | forLoop init condition step body _ =>
    [.fixed .forWord, .fixed .openParen, .part (.statement (.declare init)),
      .part (.expr condition), .fixed .semicolon, .clause step, .fixed .closeParen,
      .part (.block body)]
  | whileLoop condition body _ =>
    [.fixed .whileWord, .fixed .openParen, .part (.expr condition), .fixed .closeParen,
      .part (.block body)]
  | ret none _ => [.fixed .returnWord, .fixed .semicolon]
  | ret (some value) _ => [.fixed .returnWord, .part (.expr value), .fixed .semicolon]
  | call c _ => [.part (.expr c.toExpr), .fixed .semicolon]

/-- A block from left to right. -/
def Block.pieces (b : Block) : List Piece :=
  .fixed .openCurly :: b.body.map (fun s => .part (.statement s)) ++ [.fixed .closeCurly]

/-- A parameter from left to right. -/
def Parameter.pieces (p : Parameter) : List Piece := [.fixed p.type.kind, .name p.name]

/-- A function from left to right. -/
def Function.pieces (f : Function) : List Piece :=
  .fixed f.returns.kind :: .name f.name :: .fixed .openParen
    :: Piece.separate (f.parameters.map .parameter)
    ++ [.fixed .closeParen, .part (.block f.body)]

/-- A program from left to right, without the end of the source. -/
def Program.pieces (p : Program) : List Piece := p.items.map fun item => .part item.node

/-- A node from left to right. -/
def Node.pieces : Node → List Piece
  | program p => p.pieces
  | function f => f.pieces
  | parameter p => p.pieces
  | block b => b.pieces
  | statement s => s.pieces
  | expr e => e.pieces

/-- The node that a piece is, if it is one. -/
def Piece.node? : Piece → Option Node
  | mark _ => none
  | part n => some n
  | clause u => some (.statement (.update u))

/-- What a piece is made of in its turn. -/
def Piece.inner : Piece → List Piece
  | mark _ => []
  | part n => n.pieces
  | clause u => u.pieces

/-! ### Laid out tokens -/

/-- Tokens stand for pieces, and the spans of all nodes go around their tokens. -/
inductive Laid : List Token → List Piece → Prop where
  | nil : Laid [] []
  | mark {t : Token} {ts : List Token} {sign : Sign} {ps : List Piece} :
    t.sign = sign → Laid ts ps → Laid (t :: ts) (.mark sign :: ps)
  | node {piece : Piece} {n : Node} {own ts : List Token} {ps : List Piece} :
    piece.node? = some n → own ≠ [] → n.span = .around own → Laid own piece.inner →
      Laid ts ps → Laid (own ++ ts) (piece :: ps)

/-- The span goes around these tokens, and they are laid out as these pieces. -/
structure Spans (span : Span) (pieces : List Piece) (tokens : List Token) : Prop where
  ne_nil : tokens ≠ []
  span_eq : span = .around tokens
  laid : Laid tokens pieces

/-! ### Nested spans -/

namespace Node

/-- The parts of a node lie in it, one behind the other. -/
structure PartsInOrder (n : Node) : Prop where
  proper : ∀ c ∈ n.children, c.span.Proper
  inside : ∀ c ∈ n.children, c.span.Inside n.span
  apart : n.children.Pairwise fun c d => c.span.Before d.span

/-- In a whole tree, the parts of every node lie in it, one behind the other. -/
def Nested (n : Node) : Prop := ∀ m ∈ n.preorder, m.PartsInOrder

end Node

end ImpFront
