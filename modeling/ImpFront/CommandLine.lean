/-
  ImpFront.CommandLine
  ────────────────────
  **THE COMMAND LINE.**

  Arguments are taken from left to right.  One that begins with a hyphen
  holds flags, each of which may be given once; any other is a file, and so
  is every one behind a double hyphen.  Asking for the version or for help
  ends the reading at once, and so does the first argument that is wrong.

  The files are checked one after the other, and the run succeeds if all of
  them are accepted.
-/
import ImpFront.Check
import ImpFront.Report.Terminal

namespace ImpFront.CommandLine

/-! ## §1. Arguments. -/

/-- A switch of the command line. -/
inductive Flag where
  | verbose | dumpTokens | dumpTree | plain
  deriving Repr, DecidableEq

/-- What is asked for. -/
inductive Request where
  /-- The version of the compiler. -/
  | version
  /-- How the compiler is used. -/
  | help
  /-- Nothing that can be done. -/
  | misuse
  /-- To check files. -/
  | check (flags : List Flag) (files : List String)
  deriving Repr, DecidableEq

/-- What a flag asks for: a switch, or an answer at once. -/
inductive Meaning where
  | switch (flag : Flag)
  | answer (request : Request)
  deriving Repr, DecidableEq

/-- The meaning of a flag in words. -/
def meaningOfWord? : String → Option Meaning
  | "verbose" => some (.switch .verbose)
  | "dump-tokens" => some (.switch .dumpTokens)
  | "dump-ast" => some (.switch .dumpTree)
  | "no-color" => some (.switch .plain)
  | "version" => some (.answer .version)
  | "help" => some (.answer .help)
  | _ => none

/-- The meaning of a flag of one letter. -/
def meaningOfLetter? : Char → Option Meaning
  | 'v' => some (.switch .verbose)
  | 'V' => some (.answer .version)
  | 'h' => some (.answer .help)
  | _ => none

/-- The flags with more of them, or what their meanings ask for at once.  A
flag without a meaning and one given twice are wrong. -/
def addFlags (flags : List Flag) : List (Option Meaning) → Except Request (List Flag)
  | [] => .ok flags
  | none :: _ => .error .misuse
  | some (.answer request) :: _ => .error request
  | some (.switch flag) :: rest =>
    if flag ∈ flags then .error .misuse else addFlags (flags ++ [flag]) rest

/-- The meanings of the flags of an argument, if it holds flags. -/
def meanings? (argument : String) : Option (List (Option Meaning)) :=
  match argument.toList with
  | '-' :: '-' :: word => some [meaningOfWord? (String.ofList word)]
  | '-' :: c :: letters => some ((c :: letters).map meaningOfLetter?)
  | _ => none

/-- What the arguments ask for, behind some flags and files. -/
def requestAfter (flags : List Flag) (files : List String) : List String → Request
  | [] => if files.isEmpty then .misuse else .check flags files
  | "--" :: rest =>
    let files := files ++ rest
    if files.isEmpty || rest.contains "" then .misuse else .check flags files
  | argument :: rest =>
    match meanings? argument with
    | none =>
      if argument.isEmpty then .misuse else requestAfter flags (files ++ [argument]) rest
    | some meanings =>
      match addFlags flags meanings with
      | .error request => request
      | .ok flags => requestAfter flags files rest

/-- What the arguments ask for. -/
def request (arguments : List String) : Request :=
  requestAfter [] [] arguments

/-! ## §2. Runs. -/

/-- What a run leaves behind. -/
structure Outcome where
  /-- The exit code: 0 for success, 1 for a file that is not accepted, 2 for
  arguments that make no sense. -/
  code : Nat
  /-- The text on the first stream. -/
  out : String
  /-- The text on the second stream. -/
  err : String
  deriving Repr, DecidableEq

/-- The name of the compiler and its version. -/
def versionText : String := compilerName ++ " 0.1.0\n"

/-- How the compiler is used. -/
def usageText : String := "Usage: " ++ compilerName ++ " [OPTIONS] <FILE>...\n"

/-- The last event of a file. -/
def verdict (file : String) (result : Except Failure Program) : Event :=
  match result with
  | .ok _ => .accepted file
  | .error failure => .refused failure.message

/-- Check files one after the other: whether all are accepted, and what was
given out. -/
def checkFiles (options : CheckOptions) (read : String → Except ReadFailure String) :
    List String → Bool × List Output
  | [] => (true, [])
  | file :: files =>
    let (result, outputs) := checkFile options read file
    let (rest, more) := checkFiles options read files
    (result.isOk && rest, outputs ++ .noted (verdict file result) :: more)

/-- A run of the compiler on some arguments. -/
def run (arguments : List String) (read : String → Except ReadFailure String) : Outcome :=
  match request arguments with
  | .version => ⟨0, versionText, ""⟩
  | .help => ⟨0, usageText, ""⟩
  | .misuse => ⟨2, "", usageText⟩
  | .check flags files =>
    let options := ⟨flags.contains .dumpTokens, flags.contains .dumpTree⟩
    let (accepted, outputs) := checkFiles options read files
    let terminal := Terminal.fresh (!flags.contains .plain) (flags.contains .verbose)
    let shown := terminal.writeAll (fun file => (read file).toOption) outputs
    ⟨if accepted then 0 else 1, shown.out, shown.err⟩

end ImpFront.CommandLine
