import ImpFront.Source.Position
import ImpFront.Text.Decimal
/-!
# ImpFront.Source.Cursor

A **cursor over a source text**: the position reached and the characters that
remain. It moves by bytes, and a move stops at the end of the text.

A move is refused when it would end inside a character or when its target is no
machine address; a refused move leaves the cursor where it is.
-/

namespace ImpFront

/-- Splits a text after `n` bytes, or at its end when it is shorter; refused inside a character. -/
def splitBytes? : Nat → List Char → Option (List Char × List Char)
  | 0, cs => some ([], cs)
  | _ + 1, [] => some ([], [])
  | n + 1, c :: cs =>
    if c.utf8Size ≤ n + 1 then
      (splitBytes? (n + 1 - c.utf8Size) cs).map fun (taken, rest) => (c :: taken, rest)
    else none

/-- A position in a text, and what follows it. -/
structure Cursor where
  position : Position
  rest : List Char
  deriving DecidableEq, Repr

namespace Cursor

/-- Before the first character. -/
def ofSource (source : String) : Cursor := ⟨.start, source.toList⟩

/-- Moves past `n` bytes. -/
def advance? (c : Cursor) (n : Nat) : Option Cursor :=
  if c.position.offset + n < Text.wordBound then
    (splitBytes? n c.rest).map fun (taken, rest) => ⟨c.position.after taken, rest⟩
  else none

/-- The next character. -/
def next? (c : Cursor) : Option Char := c.rest.head?

/-- Bytes still to come. -/
def bytesLeft (c : Cursor) : Nat := Position.byteLength c.rest

/-- Nothing remains. -/
def atEnd (c : Cursor) : Bool := c.rest.isEmpty

end Cursor

/-! ### Laws -/

/-- A split takes the text apart and loses nothing. -/
theorem append_of_splitBytes? {n : Nat} {cs taken rest : List Char}
    (h : splitBytes? n cs = some (taken, rest)) : taken ++ rest = cs := by
  fun_induction splitBytes? n cs generalizing taken rest with
  | case1 cs => simp_all
  | case2 n => simp_all
  | case3 n c cs hle ih =>
    obtain ⟨⟨t, r⟩, hs, heq⟩ := Option.map_eq_some_iff.1 h
    obtain ⟨rfl, rfl⟩ := Prod.mk.inj heq
    rw [List.cons_append, ih hs]
  | case4 n c cs hle => simp at h

end ImpFront
