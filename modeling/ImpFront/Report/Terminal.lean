/-
  ImpFront.Report.Terminal
  ────────────────────────
  **SHOWING WHAT A CHECK GIVES OUT.**

  A terminal has two streams.  What was asked for goes to the first, and
  everything else to the second: diagnostics with their lines, announcements
  behind the name of the compiler, crashes between two marks, and, where that
  is wanted, the journal without its finest level.
-/
import ImpFront.Report.Output

namespace ImpFront

/-- The name of the compiler in front of its announcements. -/
def compilerName : String := "impc"

/-- A terminal and what has been written to it. -/
structure Terminal where
  /-- Severities are shown in colour. -/
  colored : Bool
  /-- The journal is shown. -/
  verbose : Bool
  /-- The texts of the files that were registered. -/
  sources : Table String
  /-- The first stream. -/
  out : String
  /-- The second stream. -/
  err : String

namespace Terminal

/-- A terminal without any text. -/
def fresh (colored verbose : Bool) : Terminal := ⟨colored, verbose, .empty, "", ""⟩

/-- A line on the first stream. -/
def print (t : Terminal) (line : String) : Terminal :=
  { t with out := t.out ++ line ++ "\n" }

/-- A line on the second stream. -/
def complain (t : Terminal) (line : String) : Terminal :=
  { t with err := t.err ++ line ++ "\n" }

/-- The text of a file: the registered one, or else the one on disk. -/
def source? (t : Terminal) (disk : String → Option String) (file : String) : Option String :=
  (t.sources.get? file).or (disk file)

/-- A message about the work itself. -/
def announce (t : Terminal) (severity : Severity) (message : String) : Terminal :=
  t.complain (compilerName ++ ": " ++ severity.paint t.colored severity.label ++ ": " ++ message)

/-- The mark above and below a crash. -/
def crashMark : String := "------------[ cut here ]------------"

/-- What is said about every crash. -/
def crashNotice : String :=
  "internal compiler error, please report this along with the output below"

/-- A failure of the compiler between two marks. -/
def crash (t : Terminal) (message : String) (context : List String) : Terminal :=
  let opened := ((t.announce .error crashNotice).complain crashMark).complain message
  (context.foldl complain opened).complain crashMark

/-- The terminal after one more thing.  `disk` finds the texts of files that
were not registered. -/
def write (disk : String → Option String) (t : Terminal) : Output → Terminal
  | .noted event =>
    if t.verbose && event.level ≠ .trace then t.complain event.line else t
  | .registered file source => { t with sources := t.sources.insert file source }
  | .reported d =>
    let line := (t.source? disk d.file).bind fun source => Text.sourceLine? source d.line
    t.complain (d.render line t.colored)
  | .announced severity message => t.announce severity message
  | .crashed message context => t.crash message context
  | .printed text => t.print text

/-- The terminal after more things. -/
def writeAll (disk : String → Option String) (t : Terminal) (outputs : List Output) : Terminal :=
  outputs.foldl (write disk) t

end Terminal

end ImpFront
