import ImpFront.Syntax.Order
import ImpFront.Syntax.Walk
/-!
# ImpFront.Proofs.Syntax.Traversal

**The walk of a tree from `Node.children` alone.** The events of a program are defined
form by form; here they are what any walk over the children gives. What holds of every
walk is then proved by induction on nodes, with one case instead of one for each form.
-/

namespace ImpFront

namespace Node

/-- What holds of a node when it holds of its children holds of every node. -/
theorem induct {motive : Node → Prop} (h : ∀ n : Node, (∀ c ∈ n.children, motive c) → motive n)
    (n : Node) : motive n :=
  h n fun c _ => induct h c
termination_by sizeOf n
decreasing_by exact sizeOf_lt_of_mem_children ‹_›

/-- The events of a node around those of its children, in order. -/
def walk (n : Node) : List Event :=
  n.around (n.children.attach.flatMap fun ⟨c, _⟩ => walk c)
termination_by sizeOf n
decreasing_by exact sizeOf_lt_of_mem_children ‹_›

theorem walk_eq (n : Node) : n.walk = n.around (n.children.flatMap walk) := by
  rw [walk, List.flatMap_subtype (g := walk) fun _ _ => rfl, List.unattach_attach]

end Node

/-! ### The events of each form -/

namespace Expr

mutual

theorem events_eq_walk : (e : Expr) → e.events = (Node.expr e).walk
  | symbol .. | number .. | string .. => by
    rw [Node.walk_eq]
    rfl
  | not operand _ => by
    rw [Node.walk_eq, events, operand.events_eq_walk]
    simp [Node.children]
  | group inner _ => by
    rw [Node.walk_eq, events, inner.events_eq_walk]
    simp [Node.children]
  | assign _ value _ => by
    rw [Node.walk_eq, events, value.events_eq_walk]
    simp [Node.children]
  | binary _ left right _ => by
    rw [Node.walk_eq, events, left.events_eq_walk, right.events_eq_walk]
    simp [Node.children]
  | call _ arguments _ => by
    rw [Node.walk_eq, events, eventsList_eq_walk arguments]
    simp [Node.children, List.flatMap_map]

theorem eventsList_eq_walk :
    (es : List Expr) → eventsList es = es.flatMap fun e => (Node.expr e).walk
  | [] => rfl
  | e :: rest => by
    rw [eventsList, e.events_eq_walk, eventsList_eq_walk rest, List.flatMap_cons]

end

end Expr

theorem Declaration.events_eq_walk (d : Declaration) :
    d.events = (Node.statement (.declare d)).walk := by
  rw [Node.walk_eq, events]
  obtain ⟨type, name, value, span⟩ := d
  cases value with
  | none => rfl
  | some value => simp [Node.children, value.events_eq_walk]

theorem Update.events_eq_walk (u : Update) : u.events = (Node.statement (.update u)).walk := by
  rw [Node.walk_eq]
  cases u with
  | assign name op value span => simp [events, Node.children, value.events_eq_walk]
  | step name op side span => rfl

mutual

theorem Statement.events_eq_walk : (st : Statement) → st.events = (Node.statement st).walk
  | .declare d => d.events_eq_walk
  | .update u => u.events_eq_walk
  | .ifElse condition body none _ => by
    rw [Node.walk_eq, Statement.events, condition.events_eq_walk, body.events_eq_walk]
    simp [Node.children]
  | .ifElse condition body (some otherwise) _ => by
    rw [Node.walk_eq, Statement.events, condition.events_eq_walk, body.events_eq_walk,
      otherwise.events_eq_walk]
    simp [Node.children]
  | .forLoop init condition step body _ => by
    rw [Node.walk_eq, Statement.events, init.events_eq_walk, condition.events_eq_walk,
      step.events_eq_walk, body.events_eq_walk]
    simp [Node.children]
  | .whileLoop condition body _ => by
    rw [Node.walk_eq, Statement.events, condition.events_eq_walk, body.events_eq_walk]
    simp [Node.children]
  | .ret none _ => by
    rw [Node.walk_eq]
    rfl
  | .ret (some value) _ => by
    rw [Node.walk_eq, Statement.events, value.events_eq_walk]
    simp [Node.children]
  | .call c _ => by
    rw [Node.walk_eq, Statement.events, Expr.events_eq_walk]
    simp [Node.children]

theorem Block.events_eq_walk : (b : Block) → b.events = (Node.block b).walk
  | ⟨body, _⟩ => by
    rw [Node.walk_eq, Block.events, Statement.eventsList_eq_walk body]
    simp [Node.children, List.flatMap_map]

theorem Statement.eventsList_eq_walk :
    (body : List Statement) →
      Statement.eventsList body = body.flatMap fun st => (Node.statement st).walk
  | [] => rfl
  | st :: rest => by
    rw [Statement.eventsList, st.events_eq_walk, Statement.eventsList_eq_walk rest,
      List.flatMap_cons]

end

theorem Function.events_eq_walk (f : Function) : f.events = (Node.function f).walk := by
  have hparameter : ∀ p : Parameter, (Node.parameter p).around [] = (Node.parameter p).walk := by
    intro p
    rw [Node.walk_eq]
    rfl
  rw [Node.walk_eq, events, f.body.events_eq_walk]
  simp [Node.children, List.flatMap_map, hparameter]

theorem Item.events_eq_walk (item : Item) : item.events = item.node.walk := by
  cases item with
  | global d => exact d.events_eq_walk
  | function f => exact f.events_eq_walk
  | statement st => exact st.events_eq_walk

/-- The events of a program are the walk over its node. -/
theorem Program.events_eq_walk (p : Program) : p.events = (Node.program p).walk := by
  have hitems : Item.events = fun item => item.node.walk := funext Item.events_eq_walk
  rw [Node.walk_eq, events, Node.children, List.flatMap_map, hitems]

/-! ### Open nodes -/

namespace Event

/-- The most nodes open at once during some events that `depth` open nodes precede. -/
def peak (depth : Nat) : List Event → Nat
  | [] => depth
  | e :: rest => max depth (peak (depthAfter depth e) rest)

theorem foldl_max_scanl (depth m : Nat) (events : List Event) :
    (events.scanl depthAfter depth).foldl max m = max m (peak depth events) := by
  induction events generalizing depth m with
  | nil => rfl
  | cons e rest ih =>
    rw [List.scanl_cons, List.foldl_cons, ih, peak]
    omega

theorem maxOpen_eq_peak (events : List Event) : maxOpen events = peak 0 events := by
  rw [maxOpen, depths, foldl_max_scanl]
  omega

theorem le_peak (depth : Nat) (events : List Event) : depth ≤ peak depth events := by
  cases events with
  | nil => exact Nat.le_refl depth
  | cons e rest => exact Nat.le_max_left _ _

theorem peak_append (depth : Nat) (first second : List Event) :
    peak depth (first ++ second)
      = max (peak depth first) (peak (first.foldl depthAfter depth) second) := by
  induction first generalizing depth with
  | nil =>
    have := le_peak depth second
    simp only [List.nil_append, peak, List.foldl_nil]
    omega
  | cons e rest ih =>
    rw [List.cons_append, peak, ih, peak, List.foldl_cons]
    omega

end Event

namespace Node

/-- A walk leaves as many nodes open as there were, and opens as many more as the node is high. -/
theorem closed_and_peak_walk (n : Node) (depth : Nat) :
    n.walk.foldl Event.depthAfter depth = depth ∧ Event.peak depth n.walk = depth + n.height := by
  induction n using Node.induct generalizing depth with
  | h n ih =>
    -- The children follow each other, so each one starts from the same depth.
    have hchildren (cs : List Node) (hcs : ∀ c ∈ cs, c ∈ n.children) (depth : Nat) :
        (cs.flatMap walk).foldl Event.depthAfter depth = depth ∧
          Event.peak depth (cs.flatMap walk) = depth + (cs.map height).foldr max 0 := by
      induction cs with
      | nil => exact ⟨rfl, rfl⟩
      | cons c rest ihcs =>
        obtain ⟨hc, hrest⟩ := List.forall_mem_cons.1 hcs
        obtain ⟨hclosed, hpeak⟩ := ih c hc depth
        obtain ⟨hclosed', hpeak'⟩ := ihcs hrest
        rw [List.flatMap_cons, List.foldl_append, Event.peak_append, hclosed, hclosed', hpeak,
          hpeak', List.map_cons, List.foldr_cons]
        exact ⟨rfl, by omega⟩
    obtain ⟨hclosed, hpeak⟩ := hchildren n.children (fun c hc => hc) (depth + 1)
    rw [walk_eq, around, List.cons_append, List.foldl_cons, List.foldl_append, Event.peak,
      Event.peak_append]
    simp only [Event.depthAfter, hclosed, hpeak, List.foldl_cons, List.foldl_nil, Event.peak]
    rw [height_eq]
    omega

end Node

/-- The most nodes open at once in a walk over a program is the height of its tree. -/
theorem Program.maxOpen_events (p : Program) :
    Event.maxOpen p.events = (Node.program p).height := by
  rw [Event.maxOpen_eq_peak, p.events_eq_walk, (Node.closed_and_peak_walk _ 0).2, Nat.zero_add]

end ImpFront
