/-
  ImpFront.Main
  ─────────────
  The compiler as a program: it reads the files that its arguments name,
  runs, and writes what the run leaves behind.
-/
import ImpFront.CommandLine

namespace ImpFront

/-- The number of an error of the system, which may come as its negative. -/
def errorNumber (code : UInt32) : Nat :=
  min code.toNat (4294967296 - code.toNat)

/-- The reason behind an error of the system. -/
def readFailure : IO.Error → ReadFailure
  | .noFileOrDirectory .. => .missing
  | error@(.inappropriateType _ code _) | error@(.invalidArgument _ code _) =>
    match errorNumber code with
    | 20 => .notDirectory
    | 21 => .isDirectory
    | 36 => .nameTooLong
    | _ => .other (toString error)
  | error => .other (toString error)

/-- The text of a file, or why it cannot be read. -/
def readText (file : String) : IO (Except ReadFailure String) := do
  try
    let bytes ← IO.FS.readBinFile file
    match String.fromUTF8? bytes with
    | some text => return .ok text
    | none => return .error .notText
  catch error => return .error (readFailure error)

/-- The files that the arguments name, with their texts. -/
def readAll (arguments : List String) : IO (List (String × Except ReadFailure String)) := do
  match CommandLine.request arguments with
  | .check _ files => files.mapM fun file => return (file, ← readText file)
  | _ => return []

end ImpFront

open ImpFront in
/-- Check the files that the arguments name. -/
def main (arguments : List String) : IO UInt32 := do
  let texts ← readAll arguments
  let outcome := CommandLine.run arguments fun file =>
    (texts.lookup file).getD (.error .missing)
  (← IO.getStdout).putStr outcome.out
  (← IO.getStderr).putStr outcome.err
  return outcome.code.toUInt32
