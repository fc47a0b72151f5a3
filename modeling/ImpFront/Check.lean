/-
  ImpFront.Check
  ──────────────
  **CHECKING A FILE.**

  The text of a file is cut into tokens and its tokens are read.  All
  unreadable characters are reported together; after that only the first
  error is.  Warnings come before the error, and both before what was asked
  for of the finished tree.
-/
import ImpFront.Grammar.File
import ImpFront.Report.Output
import ImpFront.Token.Scanner
import ImpFront.Tree.Outline

namespace ImpFront

/-! ## §1. Why a file fails. -/

/-- Why a file cannot be read. -/
inductive ReadFailure where
  /-- There is no such file. -/
  | missing
  /-- It is a directory. -/
  | isDirectory
  /-- Its path leads through something that is no directory. -/
  | notDirectory
  /-- A name in its path, or the path itself, is too long. -/
  | nameTooLong
  /-- Its bytes are no text. -/
  | notText
  /-- Any other reason. -/
  | other (reason : String)
  deriving Repr, DecidableEq

/-- The wording of a read failure. -/
def ReadFailure.message : ReadFailure → String
  | .missing => "No such file or directory (os error 2)"
  | .isDirectory => "Is a directory (os error 21)"
  | .notDirectory => "Not a directory (os error 20)"
  | .nameTooLong => "File name too long (os error 36)"
  | .notText => "stream did not contain valid UTF-8"
  | .other reason => reason

/-- Why a file is not accepted. -/
inductive Failure where
  /-- It cannot be read. -/
  | unreadable (file : String) (reason : ReadFailure)
  /-- So many of its characters begin no token. -/
  | lexical (file : String) (count : Nat)
  /-- Its tokens are against the rules. -/
  | rejected (file : String) (error : Error)
  deriving Repr, DecidableEq

/-- The wording of a failure. -/
def Failure.message : Failure → String
  | .unreadable file reason => "could not read '" ++ file ++ "': " ++ reason.message
  | .lexical file count => s!"{count} lexer error(s) while analyzing '{file}'"
  | .rejected file error => file ++ ": " ++ error.cause.message

/-! ## §2. Checking. -/

/-- What is wanted of a check beside its verdict. -/
structure CheckOptions where
  /-- Print the tokens. -/
  dumpTokens : Bool
  /-- Print the tree. -/
  dumpTree : Bool
  deriving Repr, DecidableEq

/-- The line before a line, the line, and the line after it, with numbers. -/
def contextLines (source : String) (line : Nat) : List String :=
  (List.range' (line - 1) (line + 2 - (line - 1))).filterMap fun n =>
    (Text.sourceLine? source n).map (numbered n)

/-- A token in a row: its place, its kind, and its text in quotes. -/
def Token.row (token : Token) : String :=
  let value := Text.quote token.value
  s!"{token.position.line}:{token.position.column}\t{token.kind.name}\t{value}"

/-- What an error of reading gives out.  One that is the compiler's own fault
is no fault of the file, and is shown as a crash. -/
def rejection (file source : String) (error : Error) : List Output :=
  if error.cause.stage = .internal then
    let position := error.position
    let message := s!"{error.cause.message} at {file}:{position.line}:{position.column}"
    [.crashed message (contextLines source position.line)]
  else Output.ofError file error

/-- Read the tokens of a file and say what comes of it. -/
def checkTokens (options : CheckOptions) (file source : String) (tokens : List Token) :
    Except Failure Program × List Output :=
  let (result, parser) := parse file tokens
  let before := parser.journal.toList.map Output.noted
    ++ parser.warnings.map (Output.ofWarning file)
  match result with
  | .error error => (.error (.rejected file error), before ++ rejection file source error)
  | .ok program =>
    let tree := if options.dumpTree then [Output.printed program.dump] else []
    (.ok program, before ++ tree)

/-- Check the text of a file. -/
def checkSource (options : CheckOptions) (file source : String) :
    Except Failure Program × List Output :=
  let start := [Output.noted (.checking file), .registered file source]
  match tokenize source with
  | .error errors =>
    let failure := Failure.lexical file errors.length
    (.error failure,
      start ++ errors.flatMap (Output.ofError file) ++ [.announced .error failure.message])
  | .ok tokens =>
    let counted := [Output.noted (.tokenized (tokens.length - 1)),
      .noted (.counted file tokens.length)]
    let dump := if options.dumpTokens then tokens.map fun t => Output.printed t.row else []
    let (result, outputs) := checkTokens options file source tokens
    (result, start ++ counted ++ dump ++ outputs)

/-- Check a file whose text is still to be read. -/
def checkFile (options : CheckOptions) (read : String → Except ReadFailure String)
    (file : String) : Except Failure Program × List Output :=
  match read file with
  | .ok source => checkSource options file source
  | .error reason =>
    let failure := Failure.unreadable file reason
    (.error failure, [.announced .error failure.message])

end ImpFront
