/-
  ImpFront.Grammar.File
  ─────────────────────
  **READING A FILE.**

  A file is statements with separators around them, attributes first, and at
  its end no call may be left unanswered.  Reading stops at the first error.
  The parser is returned along with the outcome, for its warnings, its
  journal and its last place.

  The calls that wait are visited in some order.  It shows where several of
  them are left at one offset, and nowhere else.
-/
import ImpFront.Grammar.Statement

namespace ImpFront

open Parse

namespace Grammar

/-- The statements of a file behind those read so far, in at most so many
rounds. -/
def statementsWithin (g : Grammar) : Nat → Program → Parse Program
  | 0, _ => stall
  | rounds + 1, program => do
    let _ ← skipTerminators
    if (← currentKind) = .eof then return program
    else
      let stmt ← g.statement
      match program.append stmt with
      | .error error => throw error
      | .ok longer =>
        match stmt with
        | .attribute attached => record (.appended attached.token.value)
        | _ => pure ()
        statementsWithin g rounds longer

/-- A file. -/
def program (g : Grammar) (order : Table.Traversal Pending) : Parse Program := do
  let program ← statementsWithin g (← budget) .empty
  match (← scopes).unresolved? order with
  | some error => throw error
  | none => return program

end Grammar

/-- Read the tokens of a file: the tree or the first error, and the parser
where reading stopped. -/
def parse (file : String) (tokens : List Token) (order : Table.Traversal Pending := .entry) :
    Except Error Program × Parser :=
  match Grammar.standard.program order ((Parser.ofTokens tokens).record (.reading file)) with
  | .ok program p =>
    let count := program.statements.length
    (.ok program, p.record (.finished file program.attributes.length count))
  | .error error p => (.error error, p)

end ImpFront
