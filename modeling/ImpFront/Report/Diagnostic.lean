/-
  ImpFront.Report.Diagnostic
  ──────────────────────────
  **SHOWING A MESSAGE AT ITS PLACE.**

  A diagnostic is a message about some columns of a line.  It is shown with
  the line itself, less its indentation, and with carets under the columns:

      main.imp:3:9 error: cannot assign value of type String …
         3 | x = "hi"
           |   ^

  Where the line is not at hand only the first row is shown.
-/
import ImpFront.Position
import ImpFront.Text.Lines

namespace ImpFront

/-! ## §1. Severities and their colours. -/

/-- How grave a message is. -/
inductive Severity where
  | error | warning | note
  deriving Repr, DecidableEq

namespace Severity

/-- The word for a severity. -/
def label : Severity → String
  | .error => "error"
  | .warning => "warning"
  | .note => "note"

/-- The number of the colour of a severity: red, yellow, cyan. -/
def colour : Severity → String
  | .error => "31"
  | .warning => "33"
  | .note => "36"

/-- The text in bold and in the colour of the severity, if colours are wanted. -/
def paint (severity : Severity) (colored : Bool) (text : String) : String :=
  if colored then "\x1b[1;" ++ severity.colour ++ "m" ++ text ++ "\x1b[0m" else text

end Severity

/-! ## §2. Diagnostics. -/

/-- A message about some columns of a line. -/
structure Diagnostic where
  /-- How grave it is. -/
  severity : Severity
  /-- The file. -/
  file : String
  /-- The line, from 1. -/
  line : Nat
  /-- The first column, from 1. -/
  column : Nat
  /-- The number of columns. -/
  length : Nat
  /-- What is said about them. -/
  message : String
  deriving Repr, DecidableEq

/-- A run of one character. -/
def repeated (n : Nat) (c : Char) : String :=
  String.ofList (List.replicate n c)

/-- A number in at least four columns, behind blanks. -/
def lineNumber (n : Nat) : String :=
  let digits := toString n
  repeated (4 - digits.length) ' ' ++ digits

/-- A line of a file behind its number. -/
def numbered (n : Nat) (line : String) : String :=
  lineNumber n ++ " | " ++ line

namespace Diagnostic

/-- A diagnostic about a place. -/
def on (severity : Severity) (file : String) (position : Position) (length : Nat)
    (message : String) : Diagnostic :=
  ⟨severity, file, position.line, position.column, length, message⟩

/-- The place, the severity and the message. -/
def header (d : Diagnostic) (colored : Bool) : String :=
  let label := d.severity.paint colored d.severity.label
  s!"{d.file}:{d.line}:{d.column} {label}: {d.message}"

/-- The line without the blanks around it. -/
def sourceRow (d : Diagnostic) (line : List Char) : String :=
  numbered d.line (String.ofList (Text.trimEnd (Text.trimStart line)))

/-- How far the carets stand from the left edge of the line as it is shown:
their column less the indentation that is not shown. -/
def caretOffset (d : Diagnostic) (line : List Char) : Nat :=
  d.column - 1 - (line.length - (Text.trimStart line).length)

/-- The carets, at least one. -/
def caretRow (d : Diagnostic) (line : List Char) (colored : Bool) : String :=
  repeated 4 ' ' ++ " | " ++ repeated (d.caretOffset line) ' '
    ++ d.severity.paint colored (repeated (max 1 d.length) '^')

/-- The diagnostic in one row, or in three if the line is at hand. -/
def render (d : Diagnostic) (line : Option String) (colored : Bool) : String :=
  match line with
  | none => d.header colored
  | some line =>
    d.header colored ++ "\n" ++ d.sourceRow line.toList ++ "\n" ++ d.caretRow line.toList colored

end Diagnostic

end ImpFront
