/-
  ImpFront.Proofs.Grammar.StatementFork
  ─────────────────────────────────────
  **STATEMENTS AND FILES THAT PART AT A PLACE.**

  One theorem for each rule of statements.  All but one measure what is behind
  them from the cursor.  A chain of conditions has looked past the line ends
  behind its last body, and given them back; so it is measured from behind
  these line ends:

      if c { }  ⏎ ⏎ x        the cursor is back at ⏎, but x has been seen

  What comes next cannot fail before it has passed the line ends as well: they
  end the statement, and separators are skipped before the next one.
-/
import ImpFront.Proofs.Grammar.ExpressionFork

namespace ImpFront

open Parse

/-- The index behind the line ends ahead. -/
def Cursor.indexBehindLines (c : Cursor) : Nat :=
  (c.skip (· == .newline)).index

/-- Line ends are separators. -/
theorem Cursor.indexBehindLines_le (c : Cursor) :
    c.indexBehindLines ≤ (c.skip Kind.isTerminator).index := by
  unfold indexBehindLines skip index run
  rw [List.length_append, List.length_append, List.length_reverse, List.length_reverse]
  refine Nat.add_le_add_right ?_ _
  induction c.ahead with
  | nil => exact Nat.le_refl _
  | cons token rest ih =>
      by_cases hline : token.kind = .newline
      · simpa [hline, Kind.isTerminator] using ih
      · simp [hline]

/-- What a statement is behind is measured from behind the line ends where it
may have looked past them. -/
def Stmt.reach : Stmt → Cursor → Nat
  | .conditional _ _ _, c => c.indexBehindLines
  | _, c => c.index

namespace Fork

variable (F : Fork)

variable {F} {g : Grammar} {statement statement' : Parse Stmt} {p q : Parser}

/-- Separators are passed over, and the line ends among them. -/
theorem Goes.pastSeparators {β : Type} {reach : β → Cursor → Nat} {x x' : Parse β}
    (h : F.Goes Cursor.index reach x x' p.pastSeparators q.pastSeparators) :
    F.Goes Cursor.indexBehindLines reach (do let _ ← Parse.skipTerminators; x)
      (do let _ ← Parse.skipTerminators; x') p q := by
  refine h.step rfl (fun past => Nat.lt_of_lt_of_le past (Cursor.indexBehindLines_le _)) ?_
  intro twin
  exact ⟨rfl, twin.past rfl⟩

/-! ## §1. Blocks. -/

end Fork

end ImpFront
