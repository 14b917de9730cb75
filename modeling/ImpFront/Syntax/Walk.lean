import ImpFront.Syntax.Node
/-!
# ImpFront.Syntax.Walk

A **walk over a program** announces every node twice: when it is entered, before
its parts, and when it is left, after them. Parts are visited in source order.

A walk is the list of these events, so what a visitor computes is a fold over a
list, and two programs of the same structure have the same events up to the spans.
-/

namespace ImpFront

/-- A node is entered or left. -/
inductive Event where
  | enter (node : Node)
  | exit (node : Node)
  deriving DecidableEq, Repr, Inhabited

namespace Event

/-- An event in words. -/
def describe : Event → String
  | enter node => "enter " ++ node.describe
  | exit node => "exit " ++ node.describe

/-- The node entered, if one is. -/
def entered? : Event → Option Node
  | enter node => some node
  | exit _ => none

/-- The node left, if one is. -/
def left? : Event → Option Node
  | enter _ => none
  | exit node => some node

end Event

/-- The events of a node around those of its parts. -/
def Node.around (node : Node) (inner : List Event) : List Event :=
  .enter node :: inner ++ [.exit node]

/-! ### Events of a tree -/

namespace Expr

mutual

/-- The events of an expression. -/
def events : Expr → List Event
  | symbol name span => (Node.expr (symbol name span)).around []
  | number text span => (Node.expr (number text span)).around []
  | string value span => (Node.expr (string value span)).around []
  | not operand span => (Node.expr (not operand span)).around operand.events
  | group inner span => (Node.expr (group inner span)).around inner.events
  | assign target value span => (Node.expr (assign target value span)).around value.events
  | binary op left right span =>
    (Node.expr (binary op left right span)).around (left.events ++ right.events)
  | call callee arguments span =>
    (Node.expr (call callee arguments span)).around (eventsList arguments)

/-- The events of expressions one after the other. -/
def eventsList : List Expr → List Event
  | [] => []
  | e :: rest => e.events ++ eventsList rest

end

end Expr

/-- The events of a declaration. -/
def Declaration.events (d : Declaration) : List Event :=
  (Node.statement (.declare d)).around
    (match d.value with
    | none => []
    | some value => value.events)

/-- The events of an update. -/
def Update.events (u : Update) : List Event :=
  (Node.statement (.update u)).around
    (match u with
    | .assign _ _ value _ => value.events
    | .step .. => [])

mutual

/-- The events of a statement. -/
def Statement.events : Statement → List Event
  | .declare declaration => declaration.events
  | .update update => update.events
  | .ifElse condition body none span =>
    (Node.statement (.ifElse condition body none span)).around (condition.events ++ body.events)
  | .ifElse condition body (some otherwise) span =>
    (Node.statement (.ifElse condition body (some otherwise) span)).around
      (condition.events ++ body.events ++ otherwise.events)
  | .forLoop init condition step body span =>
    (Node.statement (.forLoop init condition step body span)).around
      (init.events ++ condition.events ++ step.events ++ body.events)
  | .whileLoop condition body span =>
    (Node.statement (.whileLoop condition body span)).around (condition.events ++ body.events)
  | .ret none span => (Node.statement (.ret none span)).around []
  | .ret (some value) span => (Node.statement (.ret (some value) span)).around value.events
  | .call call span => (Node.statement (.call call span)).around call.toExpr.events

/-- The events of a block. -/
def Block.events : Block → List Event
  | ⟨body, span⟩ => (Node.block ⟨body, span⟩).around (Statement.eventsList body)

/-- The events of statements one after the other. -/
def Statement.eventsList : List Statement → List Event
  | [] => []
  | s :: rest => s.events ++ Statement.eventsList rest

end

/-- The events of a function. -/
def Function.events (f : Function) : List Event :=
  (Node.function f).around
    ((f.parameters.flatMap fun p => (Node.parameter p).around []) ++ f.body.events)

/-- The events of a part of a program. -/
def Item.events : Item → List Event
  | global declaration => declaration.events
  | function f => f.events
  | statement s => s.events

namespace Program

/-- The events of a program. -/
def events (p : Program) : List Event :=
  (Node.program p).around (p.items.flatMap Item.events)

/-- The events of a program in words. They show everything but the spans. -/
def trace (p : Program) : List String := p.events.map Event.describe

end Program

/-! ### Counting open nodes -/

namespace Event

/-- The nodes open after an event that `depth` open nodes preceded. -/
def depthAfter (depth : Nat) : Event → Nat
  | enter _ => depth + 1
  | exit _ => depth - 1

/-- The nodes open after some events. -/
def openAfter (events : List Event) : Nat := events.foldl depthAfter 0

/-- The nodes open before each event and after the last. -/
def depths (events : List Event) : List Nat := events.scanl depthAfter 0

/-- The most nodes open at once. -/
def maxOpen (events : List Event) : Nat := (depths events).foldl max 0

/-- Every entered node with the number of nodes open around it. -/
def enteredAt (depth : Nat) : List Event → List (Nat × Node)
  | [] => []
  | enter node :: rest => (depth, node) :: enteredAt (depth + 1) rest
  | exit _ :: rest => enteredAt (depth - 1) rest

end Event

end ImpFront
