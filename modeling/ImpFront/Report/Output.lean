/-
  ImpFront.Report.Output
  ──────────────────────
  **WHAT A CHECK GIVES OUT.**

  A check gives out one thing after the other, and what becomes of them is up
  to whoever receives them: a collection keeps them, a terminal shows them.
-/
import ImpFront.Journal
import ImpFront.Report.Diagnostic

namespace ImpFront

/-- One thing that a check gives out. -/
inductive Output where
  /-- An event for the journal. -/
  | noted (event : Event)
  /-- The text of a file, for the lines that are shown. -/
  | registered (file source : String)
  /-- A message about a place. -/
  | reported (diagnostic : Diagnostic)
  /-- A message about the work itself. -/
  | announced (severity : Severity) (message : String)
  /-- A failure of the compiler, with lines that help to find it. -/
  | crashed (message : String) (context : List String)
  /-- A text that was asked for. -/
  | printed (text : String)
  deriving Repr, DecidableEq

namespace Output

/-- A note about a place. -/
def ofNote (file : String) (note : Note) : Output :=
  .reported (.on .note file note.position note.length note.message)

/-- A warning. -/
def ofWarning (file : String) (note : Note) : Output :=
  .reported (.on .warning file note.position note.length note.message)

/-- An error and then its notes. -/
def ofError (file : String) (error : Error) : List Output :=
  .reported (.on .error file error.position error.length error.report)
    :: error.notes.map (ofNote file)

end Output

end ImpFront
