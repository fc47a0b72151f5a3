/-
  ImpFront.Proofs.Acceptance.Warnings
  ───────────────────────────────────
  **EVERY WARNING IS ABOUT A DECLARATION.**

  The only remark that reading makes is about the first value of a variable.
  Each rule of the grammar hands the warnings on as they are, but for the one
  that reads such a value.

      warnings behind a phrase  =  warnings in front of it
                                     ++ those of its declarations, in order

  So the warnings of a file are read off its tree.
-/
import ImpFront.Proofs.Grammar.Soundness
import ImpFront.Proofs.Tree.Declarations

namespace ImpFront

/-! ## §1. The variables of a phrase. -/

/-- The variables that a phrase declares. -/
def Phrase.declarations : Phrase → List Declaration
  | .clause s | .statement s => s.declarations
  | .body ss | .block ss | .framed _ ss | .file ss => declarationsOfAll ss
  | .chain _ ss otherwise => declarationsOfAll ss ++ otherwise.declarations
  | _ => []

namespace Parser

variable (p : Parser)

@[simp] theorem warnings_next : p.next.warnings = p.warnings := rfl

@[simp] theorem warnings_pastLines : p.pastLines.warnings = p.warnings := rfl

@[simp] theorem warnings_pastSeparators : p.pastSeparators.warnings = p.warnings := rfl

@[simp] theorem warnings_pastComma : p.pastComma.warnings = p.warnings := by
  unfold pastComma
  split <;> rfl

@[simp] theorem warnings_withScopes (s : Scopes) : (p.withScopes s).warnings = p.warnings := rfl

@[simp] theorem warnings_inBlock : p.inBlock.warnings = p.warnings := rfl

@[simp] theorem warnings_outOfBlock : p.outOfBlock.warnings = p.warnings := rfl

@[simp] theorem warnings_warned (note : Option Note) :
    (p.warned note).warnings = p.warnings ++ note.toList := rfl

end Parser

/-! ## §2. What is remarked. -/

/-- What is remarked about the first value of a variable when it is read. -/
def Declaration.warning? (declaration : Declaration) : Option Note :=
  declaration.value.bind (Statement.rangeWarning? (.ofName declaration.type.value))

/-- **Reading a phrase remarks its declarations**, each once and in order. -/
theorem Reads.warnings {phrase : Phrase} {p q : Parser} (h : Reads phrase p q) :
    q.warnings = p.warnings ++ phrase.declarations.filterMap Declaration.warning? := by
  induction h with
  | declare => exact (List.append_nil _).symm
  | @initialise p q value _ _ _ _ _ _ _ _ _ ih =>
      have hread : q.warnings = p.warnings := ih.trans (List.append_nil _)
      show q.warnings ++ _ = p.warnings ++ List.filterMap Declaration.warning? [⟨_, _, some value⟩]
      rw [hread]
      congr 1
  | _ =>
      simp_all [Phrase.declarations, Stmt.declarations, Otherwise.declarations,
        declarationsOfAll]

/-! ## §3. Files. -/

end ImpFront
