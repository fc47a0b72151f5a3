/-
  ImpFront.Grammar.Parser
  ───────────────────────
  **THE STATE OF READING.**

  A parser is a cursor, the scopes at it, the number of open blocks, and what
  was remarked on the way.  A `Parse` is a step on parsers that returns a
  value or an error; an error keeps the parser as the step left it.

  The steps of this module are those that every rule of the grammar is made
  of: looking, taking a token, skipping, and acting on the scopes.
-/
import ImpFront.Grammar.Lookahead
import ImpFront.Journal

namespace ImpFront

/-! ## §1. Parsers. -/

/-- The state of reading. -/
structure Parser where
  /-- The place in the tokens. -/
  cursor : Cursor
  /-- The names at that place. -/
  scopes : Scopes
  /-- The number of open blocks. -/
  blockDepth : Nat
  /-- The warnings so far. -/
  warnings : List Note
  /-- The journal so far. -/
  journal : Array Event

namespace Parser

/-- The parser at the first of some tokens. -/
def ofTokens (tokens : List Token) : Parser :=
  ⟨.ofTokens tokens, .empty, 0, [], #[]⟩

/-- The token at the cursor. -/
def current (p : Parser) : Token :=
  p.cursor.current

/-- The parser with one more event in its journal. -/
def record (p : Parser) (event : Event) : Parser :=
  { p with journal := p.journal.push event }

/-- A statement may end here: at a separator, at the end of the file, or,
inside a block, at a closing brace. -/
def atStatementEnd (p : Parser) : Bool :=
  match p.current.kind with
  | .newline | .semicolon | .eof => true
  | .closeCurly => 0 < p.blockDepth
  | _ => false

/-- The error of a token that is not the expected one. -/
def unexpected (p : Parser) (expected : String) : Error :=
  .blame (.unexpected expected p.current.describe) p.current

end Parser

/-- A step of reading. -/
abbrev Parse (α : Type) := EStateM Error Parser α

namespace Parse

/-! ## §2. Tokens. -/

/-- The token at the cursor. -/
def current : Parse Token := do
  return (← get).current

/-- The kind of the token at the cursor. -/
def currentKind : Parse Kind := do
  return (← get).current.kind

/-- The token `n` places ahead. -/
def peek (n : Nat) : Parse Token := do
  return (← get).cursor.peek n

/-- A bound on the rounds of a loop that uses up a token in each. -/
def budget : Parse Nat := do
  return (← get).cursor.remaining + 1

/-- A loop that used up its bound. -/
def stall {α : Type} : Parse α := do
  throw (.blame .stalled (← current))

/-- Take the token at the cursor. -/
def advance : Parse Token := fun p =>
  .ok p.current { p with cursor := p.cursor.advance }

/-- Move `n` tokens back. -/
def rewind (n : Nat) : Parse Unit :=
  modify fun p => { p with cursor := p.cursor.rewind n }

/-- Refuse the token at the cursor. -/
def unexpected {α : Type} (expected : String) : Parse α := do
  throw ((← get).unexpected expected)

/-- Take a token of the given kind. -/
def expect (kind : Kind) : Parse Token := do
  if (← currentKind) = kind then advance else unexpected kind.describe

/-- Pass over tokens whose kinds pass a test, and count them. -/
def skip (test : Kind → Bool) : Parse Nat := fun p =>
  .ok (p.cursor.run test).length { p with cursor := p.cursor.skip test }

/-- Pass over line ends. -/
def skipNewlines : Parse Nat :=
  skip (· == .newline)

/-- Pass over separators. -/
def skipTerminators : Parse Nat :=
  skip Kind.isTerminator

/-- A statement may end here. -/
def atStatementEnd : Parse Bool := do
  return (← get).atStatementEnd

/-! ## §3. Blocks, warnings and the journal. -/

/-- One more block is open. -/
def enterBlock : Parse Unit :=
  modify fun p => { p with blockDepth := p.blockDepth + 1 }

/-- One block less is open. -/
def exitBlock : Parse Unit :=
  modify fun p => { p with blockDepth := p.blockDepth - 1 }

/-- Note an event. -/
def record (event : Event) : Parse Unit :=
  modify fun p => p.record event

/-- Give a warning. -/
def warn (note : Note) : Parse Unit := do
  record (.warned note.message)
  modify fun p => { p with warnings := p.warnings ++ [note] }

/-! ## §4. Scopes. -/

/-- The names at the cursor. -/
def scopes : Parse Scopes := do
  return (← get).scopes

/-- Act on the scopes.  An error of theirs is explained by the parser. -/
def onScopes {ε α : Type} (explain : Parser → ε → Error) (act : EStateM ε Scopes α) :
    Parse α := fun p =>
  match act p.scopes with
  | .ok a scopes => .ok a { p with scopes }
  | .error e scopes => .error (explain p e) { p with scopes }

/-- The error of a frame that is not the innermost one, which no text can
bring about. -/
def exitError (p : Parser) (error : FrameError) : Error :=
  .blame (.internal error.message) p.current

/-- The error of a frame that cannot be opened at a token.  A function within
a function is the fault of the text. -/
def enterError (place : Token) (p : Parser) : FrameError → Error
  | .alreadyInFunction => .blame .nestedFunction place
  | error => exitError p error

/-- Open a frame at a token. -/
def enterScope (kind : FrameKind) (place : Token) : Parse Unit := do
  let depth := (← scopes).frames.length
  onScopes (enterError place) (Scopes.enter kind)
  record (.entered kind depth)

/-- Leave the innermost frame. -/
def exitScope (kind : FrameKind) : Parse Unit := do
  onScopes exitError (Scopes.exit kind)
  record (.exited kind (← scopes).frames.length)

/-- Define a name. -/
def define (symbol : Symbol) : Parse Unit := do
  let before ← scopes
  onScopes (fun _ error => error) (Scopes.define symbol)
  if before.settles symbol then record (.settled symbol.key)
  record (.defined symbol.key before.level)

/-- Take a binding back. -/
def delete (name : String) : Parse Unit :=
  modify fun p => { p with scopes := (p.scopes.delete name).2 }

/-- Note a call of a name. -/
def mark (token : Token) : Parse Unit := do
  let before ← scopes
  if before.isNewReference token then record (.referenced token.value before.level)
  modify fun p => { p with scopes := p.scopes.mark token }

end Parse

end ImpFront
