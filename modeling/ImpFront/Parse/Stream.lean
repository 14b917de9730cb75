import ImpFront.Token.Basic
/-!
# ImpFront.Parse.Stream

The **tokens a parse still has to read**. The end of the input is the first end
token: reading stops in front of it, and only looking ahead sees past it. A list of
tokens that does not close with an end token gets one.

The tokens ahead are counted once, so that a loop can tell in one comparison
whether a round has consumed anything.
-/

namespace ImpFront

/-- A place in a list of tokens. -/
structure Stream where
  /-- The tokens before the end of the input. -/
  ahead : List Token
  /-- How many they are. -/
  left : Nat
  /-- The end of the input. -/
  stop : Token
  /-- What stands behind the end of the input. -/
  beyond : List Token
  /-- Where the token read last stops, once one has been read. -/
  lastStop : Option Position
  left_eq : left = ahead.length
  ahead_ne_eof : ∀ t ∈ ahead, t.kind ≠ .eof
  stop_eof : stop.kind = .eof

namespace Stream

/-- Two streams are equal when they show the same. -/
@[ext] theorem ext {s t : Stream} (ahead : s.ahead = t.ahead) (stop : s.stop = t.stop)
    (beyond : s.beyond = t.beyond) (lastStop : s.lastStop = t.lastStop) : s = t := by
  have left : s.left = t.left := by rw [s.left_eq, t.left_eq, ahead]
  cases s; cases t
  simp_all

/-- Where the last token of a list stops. -/
def finish (tokens : List Token) : Position :=
  (tokens.getLast?.map (·.span.stop)).getD .start

/-- Whether a list of tokens closes with an end token. -/
def closed (tokens : List Token) : Bool := tokens.getLast?.map (·.kind) = some .eof

/-- The end token that a list of tokens lacks. -/
def missingEnd (tokens : List Token) : List Token :=
  if closed tokens then [] else [.endAt (finish tokens)]

/-- The start of a list of tokens, closed if it is not. -/
def ofTokens (tokens : List Token) : Stream :=
  let all := tokens ++ missingEnd tokens
  { ahead := all.takeWhile (·.kind ≠ .eof)
    left := (all.takeWhile (·.kind ≠ .eof)).length
    stop := (all.find? (·.kind = .eof)).getD (.endAt (finish tokens))
    beyond := (all.dropWhile (·.kind ≠ .eof)).tail
    lastStop := none
    left_eq := rfl
    ahead_ne_eof := fun t ht => by
      simpa using List.all_eq_true.1 List.all_takeWhile t ht
    stop_eof := by
      cases h : all.find? (·.kind = .eof) with
      | none => rfl
      | some t => simpa using List.find?_some h }

/-- The token at the place. -/
def current (s : Stream) : Token := s.ahead.head?.getD s.stop

/-- The last token of all. -/
def last (s : Stream) : Token := s.beyond.getLast?.getD s.stop

/-- The token `n` places further on, or the last one. -/
def peek (s : Stream) (n : Nat) : Token :=
  match s.ahead[n]? with
  | some t => t
  | none =>
    match n - s.left with
    | 0 => s.stop
    | k + 1 => s.beyond[k]?.getD s.last

/-- The place behind the current token; the end of the input is never passed. -/
def next (s : Stream) : Stream :=
  match h : s.ahead with
  | [] => s
  | t :: rest =>
    { s with
      ahead := rest
      left := s.left - 1
      lastStop := some t.span.stop
      left_eq := by rw [s.left_eq, h]; rfl
      ahead_ne_eof := fun u hu => s.ahead_ne_eof u (h ▸ List.mem_cons_of_mem t hu) }

/-- Where the token read last stops; before the first, where the current one starts. -/
def previousStop (s : Stream) : Position := s.lastStop.getD s.current.span.start

/-! ### Laws -/

theorem current_eq_peek (s : Stream) : s.peek 0 = s.current := by
  unfold peek current
  cases s.ahead <;> simp

theorem next_of_nil {s : Stream} (h : s.ahead = []) : s.next = s := by
  unfold next; split
  · rfl
  · next h' => rw [h] at h'; simp at h'

theorem ahead_next (s : Stream) : s.next.ahead = s.ahead.tail := by
  unfold next; split
  · next h => simp [h]
  · next h => simp [h]

theorem left_next (s : Stream) : s.next.left = s.left - 1 := by
  rw [s.next.left_eq, ahead_next, s.left_eq, List.length_tail]

@[simp] theorem stop_next (s : Stream) : s.next.stop = s.stop := by
  unfold next; split <;> rfl

@[simp] theorem beyond_next (s : Stream) : s.next.beyond = s.beyond := by
  unfold next; split <;> rfl

/-- The current token is the end of the input exactly when nothing is ahead. -/
theorem current_kind_eq_eof_iff (s : Stream) : s.current.kind = .eof ↔ s.ahead = [] := by
  unfold current
  cases h : s.ahead with
  | nil => simp [s.stop_eof]
  | cons t rest => simpa using s.ahead_ne_eof t (by simp [h])

/-- The place moves on unless it is at the end of the input. -/
theorem left_next_lt {s : Stream} (h : s.current.kind ≠ .eof) : s.next.left < s.left := by
  have hne : s.ahead ≠ [] := fun e => h (s.current_kind_eq_eof_iff.2 e)
  have := List.length_pos_iff.2 hne
  rw [left_next, s.left_eq]
  omega

end Stream

end ImpFront
