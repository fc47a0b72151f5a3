/-
  ImpFront.Proofs.Grammar.ExpressionFork
  ──────────────────────────────────────
  **EXPRESSIONS IN TWO FILES THAT PART AT A PLACE.**

  One theorem for each rule of expressions, from what it is given of the
  readers of inner expressions on both sides, which differ in their bounds.

      inner readers go alike  →  rule goes alike

  No rule takes an end token, so that taking a token always moves on; and
  none looks further than one token ahead, or for a declaration further down.
-/
import ImpFront.Proofs.Grammar.Fork

namespace ImpFront

open Parse

/-- No rule of the grammar begins at the end, and no operator stands there. -/
structure Grammar.Ends (g : Grammar) : Prop extends g.Productive where
  /-- The end is no operator. -/
  operator : g.precedence? .eof = none

namespace Fork

variable (F : Fork)

variable {F} {expr expr' : Precedence → Parse Expr} {p q : Parser}

/-! ## §1. Operands. -/

variable {g : Grammar}

end Fork

end ImpFront
