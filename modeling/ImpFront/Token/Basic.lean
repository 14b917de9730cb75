import ImpFront.Source.Position
import ImpFront.Text.Quoted
import ImpFront.Token.Kind
/-!
# ImpFront.Token.Basic

**Tokens**: a kind, a text and the stretch of source they cover. The text of a
string token is the decoded value; of any other token it is what the source
says.
-/

namespace ImpFront

/-- A token of the source. -/
structure Token where
  kind : Kind
  text : String
  span : Span
  deriving DecidableEq, Repr, Inhabited

namespace Token

/-- The token that marks the end of the source, at a place. -/
def endAt (p : Position) : Token := ⟨.eof, "EOF", .empty p⟩

/-- A token as one line of a listing. -/
def listing (t : Token) : String :=
  "<" ++ t.kind.name ++ ", " ++ Text.quote t.text ++ ", line " ++ toString t.span.start.line ++ ">"

@[simp] theorem endAt_kind (p : Position) : (endAt p).kind = .eof := rfl

end Token

end ImpFront
