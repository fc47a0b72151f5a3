/-
  ImpFront.Report.Collection
  ──────────────────────────
  **KEEPING WHAT A CHECK GIVES OUT.**

  A collection holds all diagnostics, announcements and crashes in the order
  in which they came, and the last text of each file.
-/
import ImpFront.Report.Output

namespace ImpFront

/-- What one or more checks gave out. -/
structure Collection where
  /-- The messages about places. -/
  diagnostics : List Diagnostic
  /-- The messages about the work itself. -/
  announcements : List (Severity × String)
  /-- The failures of the compiler. -/
  crashes : List (String × List String)
  /-- The texts of the files. -/
  sources : Table String
  /-- The journal. -/
  journal : List Event

namespace Collection

/-- The collection of nothing. -/
def empty : Collection := ⟨[], [], [], .empty, []⟩

instance : Inhabited Collection := ⟨empty⟩

/-- The collection with one more thing. -/
def add (c : Collection) : Output → Collection
  | .noted event => { c with journal := c.journal ++ [event] }
  | .registered file source => { c with sources := c.sources.insert file source }
  | .reported diagnostic => { c with diagnostics := c.diagnostics ++ [diagnostic] }
  | .announced severity message =>
    { c with announcements := c.announcements ++ [(severity, message)] }
  | .crashed message context => { c with crashes := c.crashes ++ [(message, context)] }
  | .printed _ => c

/-- The collection with more things. -/
def addAll (c : Collection) (outputs : List Output) : Collection :=
  outputs.foldl add c

/-- The diagnostics of a severity. -/
def ofSeverity (c : Collection) (severity : Severity) : List Diagnostic :=
  c.diagnostics.filter fun d => d.severity == severity

/-- A diagnostic as it is shown without colours. -/
def render (c : Collection) (d : Diagnostic) : String :=
  d.render ((c.sources.get? d.file).bind fun source => Text.sourceLine? source d.line) false

end Collection

end ImpFront
