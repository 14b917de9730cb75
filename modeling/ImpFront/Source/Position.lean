/-!
# ImpFront.Source.Position

**Places in a source text.** A position counts the bytes before it from zero,
and lines and columns from one. Only a newline starts a line, and a column is one
character wide whatever its byte length.

Positions are moved along character by character (`Position.after`);
`Position.ofPrefix` gives the same place in closed form from the text before it.
-/

namespace ImpFront

/-- A place in a source text. -/
structure Position where
  /-- Bytes before the place. -/
  offset : Nat
  /-- Line number, from one. -/
  line : Nat
  /-- Column number in characters, from one. -/
  column : Nat
  deriving DecidableEq, Repr, Inhabited

namespace Position

/-- The place before the first character. -/
def start : Position := ⟨0, 1, 1⟩

/-- The place after one character that stands at `p`. -/
def step (p : Position) (c : Char) : Position :=
  if c = '\n' then ⟨p.offset + c.utf8Size, p.line + 1, 1⟩
  else ⟨p.offset + c.utf8Size, p.line, p.column + 1⟩

/-- The place after a text that stands at `p`. -/
def after (p : Position) (text : List Char) : Position := text.foldl step p

/-- Line and column, as messages show them. -/
def text (p : Position) : String := s!"{p.line}:{p.column}"

/-! ### Closed form -/

/-- Bytes of a text. -/
def byteLength : List Char → Nat
  | [] => 0
  | c :: text => c.utf8Size + byteLength text

/-- The characters after the last newline. -/
def lastLine (text : List Char) : List Char := (text.reverse.takeWhile (· ≠ '\n')).reverse

/-- The place behind a text that begins a source. -/
def ofPrefix (text : List Char) : Position :=
  ⟨byteLength text, 1 + text.count '\n', 1 + (lastLine text).length⟩

/-! ### Laws -/

@[simp] theorem after_nil (p : Position) : p.after [] = p := rfl

@[simp] theorem after_cons (p : Position) (c : Char) (text : List Char) :
    p.after (c :: text) = (p.step c).after text := rfl

/-- Moving along two texts is moving along their concatenation. -/
theorem after_append (p : Position) (a b : List Char) :
    p.after (a ++ b) = (p.after a).after b := by
  simp [after]

@[simp] theorem byteLength_nil : byteLength [] = 0 := rfl

@[simp] theorem byteLength_cons (c : Char) (text : List Char) :
    byteLength (c :: text) = c.utf8Size + byteLength text := rfl

@[simp] theorem byteLength_append (a b : List Char) :
    byteLength (a ++ b) = byteLength a + byteLength b := by
  induction a with
  | nil => simp
  | cons c a ih => rw [List.cons_append, byteLength_cons, byteLength_cons, ih, Nat.add_assoc]

@[simp] theorem step_offset (p : Position) (c : Char) :
    (p.step c).offset = p.offset + c.utf8Size := by
  unfold step; split <;> rfl

/-- The offset moves by the length in bytes. -/
@[simp] theorem after_offset (p : Position) (text : List Char) :
    (p.after text).offset = p.offset + byteLength text := by
  induction text generalizing p with
  | nil => rfl
  | cons c text ih => rw [after_cons, ih, step_offset, byteLength_cons, Nat.add_assoc]

end Position

/-- A stretch of source text: where it starts and where it stops. -/
structure Span where
  start : Position
  stop : Position
  deriving DecidableEq, Repr, Inhabited

namespace Span

/-- The empty stretch at a place. -/
def empty (p : Position) : Span := ⟨p, p⟩

end Span

end ImpFront
