import ImpFront.Log
import ImpFront.Parse.Rules
import ImpFront.Parse.Stream
/-!
# ImpFront.Parse.State

The **state of a parse and its elementary steps**: looking at tokens, taking them,
refusing them, and opening a level of nesting.

A production is a computation on the state that may fail with a diagnostic; a
failure keeps the state it happened in, so that what was consumed and what is
still open can be seen. Repetition is `iterate`, a loop that ends when a round
declines or has consumed nothing.
-/

namespace ImpFront

/-- How far a parse has come. -/
structure State where
  stream : Stream
  /-- The levels of nesting that are open. -/
  depth : Nat
  /-- Remarks on what was read, the newest first. -/
  notes : List Note

namespace State

/-- The start of a parse. -/
def ofTokens (tokens : List Token) : State := ⟨.ofTokens tokens, 0, []⟩

/-- The token a parse looks at. -/
def current (s : State) : Token := s.stream.current

/-- Where that token starts. -/
def position (s : State) : Position := s.current.span.start

/-- The state behind that token. -/
def next (s : State) : State := { s with stream := s.stream.next }

/-- The state with one more level open. -/
def deeper (s : State) : State := { s with depth := s.depth + 1 }

/-- The state with one level less open. -/
def shallower (s : State) : State := { s with depth := s.depth - 1 }

end State

/-- How a production ends: with a value or a refusal, and the state it has reached either way. -/
inductive Outcome (α : Type) where
  | ok (value : α) (state : State)
  | error (refusal : Diagnostic) (state : State)

namespace Outcome

/-- The state reached. -/
def state {α : Type} : Outcome α → State
  | ok _ s | error _ s => s

/-- The value or the refusal, without the state. -/
def result {α : Type} : Outcome α → Except Diagnostic α
  | ok a _ => .ok a
  | error d _ => .error d

end Outcome

/-- A production: it reads a value from the state or fails. -/
abbrev ParseM (α : Type) := State → Outcome α

instance : Monad ParseM where
  pure a := fun s => .ok a s
  bind p f := fun s =>
    match p s with
    | .ok a s' => f a s'
    | .error d s' => .error d s'

/-- Fails with a refusal. -/
def ParseM.fail {α : Type} (d : Diagnostic) : ParseM α := fun s => .error d s

namespace ParseM

variable {α β : Type}

@[simp] theorem pure_apply (a : α) (s : State) : (pure a : ParseM α) s = .ok a s := rfl

theorem bind_apply (p : ParseM α) (f : α → ParseM β) (s : State) :
    (p >>= f) s =
      match p s with
      | .ok a s' => f a s'
      | .error d s' => .error d s' := rfl

@[simp] theorem bind_of_ok {p : ParseM α} {s s' : State} {a : α} (h : p s = .ok a s')
    (f : α → ParseM β) : (p >>= f) s = f a s' := by
  rw [bind_apply, h]

@[simp] theorem bind_of_error {p : ParseM α} {s s' : State} {d : Diagnostic}
    (h : p s = .error d s') (f : α → ParseM β) : (p >>= f) s = .error d s' := by
  rw [bind_apply, h]

end ParseM

namespace Parse

variable {α : Type}

/-! ### Tokens -/

/-- The current token. -/
def current : ParseM Token := fun s => .ok s.current s

/-- The kind of the current token. -/
def kind : ParseM Kind := fun s => .ok s.current.kind s

/-- The kind of the token `n` places further on. -/
def peekKind (n : Nat) : ParseM Kind := fun s => .ok (s.stream.peek n).kind s

/-- Where the current token starts. -/
def position : ParseM Position := fun s => .ok s.position s

/-- Takes the current token. -/
def advance : ParseM Token := fun s => .ok s.current s.next

/-! ### Refusals -/

/-- Refuses a token for its kind. -/
def refuse (t : Token) (expected : List Kind) : Diagnostic :=
  ⟨.unexpectedToken t.text t.kind expected, t.span.start⟩

/-- Refuses the current token for its kind. -/
def unexpected (expected : List Kind) : ParseM α := fun s => .error (refuse s.current expected) s

/-- Takes the current token if it is of one of the kinds. -/
def expectOneOf (expected : List Kind) : ParseM Token := fun s =>
  if s.current.kind ∈ expected then .ok s.current s.next
  else .error (refuse s.current expected) s

/-- Takes the current token if it is of the kind. -/
def expect (expected : Kind) : ParseM Token := expectOneOf [expected]

/-! ### Nesting -/

/-- Refuses one more level of nesting. -/
def tooDeep (R : Rules) : ParseM α := fun s => .error ⟨.nestingTooDeep R.limit, s.position⟩ s

/-- Opens a level of nesting without asking for the limit. -/
def deeper : ParseM Unit := fun s => .ok () s.deeper

/-- Closes a level of nesting. -/
def shallower : ParseM Unit := fun s => .ok () s.shallower

/-- Opens a level of nesting if one is free. -/
def enter (R : Rules) : ParseM Unit := fun s =>
  if s.depth < R.limit then .ok () s.deeper else tooDeep R s

/-- Reads inside a level of its own, which is closed whether the reading succeeds or fails. -/
def nested (p : ParseM α) : ParseM α := fun s =>
  match p s.deeper with
  | .ok a s' => .ok a s'.shallower
  | .error e s' => .error e s'.shallower

/-- Reads with all levels that are free. -/
def withLevels (R : Rules) (p : Nat → ParseM α) : ParseM α := fun s => p (R.limit - s.depth) s

/-- Remarks on what is being read. -/
def note (n : Note) : ParseM Unit := fun s => .ok () { s with notes := n :: s.notes }

/-! ### Repetition -/

/-- Repeats a round on its own result until it declines. A round that consumes nothing is the
last one. -/
def iterate (round : α → ParseM (Option α)) (a : α) : ParseM α := fun s =>
  match round a s with
  | .error e s' => .error e s'
  | .ok none s' => .ok a s'
  | .ok (some b) s' => if s'.stream.left < s.stream.left then iterate round b s' else .ok b s'
termination_by s => s.stream.left

/-- A round that reads one more item and puts it in front of those found. -/
def collect (item : ParseM (Option α)) (found : List α) : ParseM (Option (List α)) := do
  match ← item with
  | none => return none
  | some a => return some (a :: found)

/-- Reads items until there is none. -/
def many (item : ParseM (Option α)) : ParseM (List α) := do
  let found ← iterate (collect item) []
  return found.reverse

/-! ### Laws -/

/-- A loop by its first round. -/
theorem iterate_eq (round : α → ParseM (Option α)) (a : α) (s : State) :
    iterate round a s =
      match round a s with
      | .error e s' => .error e s'
      | .ok none s' => .ok a s'
      | .ok (some b) s' =>
        if s'.stream.left < s.stream.left then iterate round b s' else .ok b s' := by
  rw [iterate]

/-- One round of collecting items, the newest first. -/
theorem collect_apply (item : ParseM (Option α)) (found : List α) (s : State) :
    collect item found s =
      match item s with
      | .error e s' => .error e s'
      | .ok none s' => .ok none s'
      | .ok (some a) s' => .ok (some (a :: found)) s' := by
  unfold collect
  rw [ParseM.bind_apply]
  split <;> rename_i h <;> rw [h]
  cases ‹Option α› <;> rfl

/-- Collecting items in front of others is collecting them and appending. -/
theorem iterate_collect (item : ParseM (Option α)) (found : List α) (s : State) :
    iterate (collect item) found s =
      match iterate (collect item) [] s with
      | .ok more s' => .ok (more ++ found) s'
      | .error e s' => .error e s' := by
  induction hn : s.stream.left using Nat.strongRecOn generalizing found s with
  | ind n ih =>
    subst hn
    rw [iterate_eq, iterate_eq _ [], collect_apply, collect_apply]
    cases item s with
    | error e s' => rfl
    | ok r s' =>
      cases r with
      | none => rfl
      | some a =>
        dsimp only
        split
        · next hlt =>
          rw [ih _ hlt (a :: found) s' rfl, ih _ hlt [a] s' rfl]
          split <;> simp
        · rfl

/-- Reading items by the first one. -/
theorem many_eq (item : ParseM (Option α)) (s : State) :
    many item s =
      match item s with
      | .error e s' => .error e s'
      | .ok none s' => .ok [] s'
      | .ok (some a) s' =>
        if s'.stream.left < s.stream.left then
          match many item s' with
          | .ok as s'' => .ok (a :: as) s''
          | .error e s'' => .error e s''
        else .ok [a] s' := by
  unfold many
  rw [ParseM.bind_apply, iterate_eq, collect_apply]
  cases item s with
  | error e s' => rfl
  | ok r s' =>
    cases r with
    | none => rfl
    | some a =>
      by_cases hlt : s'.stream.left < s.stream.left
      · simp only [if_pos hlt]
        rw [iterate_collect item [a], ParseM.bind_apply]
        cases iterate (collect item) [] s' <;> simp
      · simp [if_neg hlt]

end Parse

end ImpFront
