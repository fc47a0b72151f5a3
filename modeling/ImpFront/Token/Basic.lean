/-
  ImpFront.Token.Basic
  ────────────────────
  **TOKENS.**

  A token is a kind, the text it was cut from, and the place of that text.
  String and character tokens keep their quotes.
-/
import ImpFront.Position
import ImpFront.Text.Quoted
import ImpFront.Token.Kind

namespace ImpFront

/-- One token of a source text. -/
structure Token where
  /-- What sort of token it is. -/
  kind : Kind
  /-- The text of the token, as written. -/
  value : String
  /-- Where the text starts. -/
  position : Position
  deriving Repr, DecidableEq, Inhabited

namespace Token

/-- The number of columns to underline, at least one. -/
def length (token : Token) : Nat :=
  max 1 token.value.toList.length

/-- The words for a token in a report: its kind, and its text where the kind
alone does not tell. -/
def describe (token : Token) : String :=
  if token.kind.carriesValue then token.kind.describe ++ " " ++ token.value
  else if token.kind.isOperator then token.kind.describe ++ " '" ++ token.value ++ "'"
  else token.kind.describe

/-- A line about the token for a reader of the compiler's own output. -/
def display (token : Token) : String :=
  let value := if token.kind.carriesValue then ", " ++ Text.quote token.value else ""
  let line := toString token.position.line
  let column := toString token.position.column
  s!"Token({token.kind.name}{value}, line={line}, column={column})"

/-- The kind of a word with a meaning of its own. -/
def reserved? : String → Option Kind
  | "if" => some .kwIf
  | "else" => some .kwElse
  | "while" => some .kwWhile
  | "break" => some .kwBreak
  | "continue" => some .kwContinue
  | "func" => some .kwFunc
  | "return" => some .kwReturn
  | "var" => some .kwVar
  | "true" => some .boolean
  | "false" => some .boolean
  | "null" => some .null
  | _ => none

/-- The attribute that declares a function defined elsewhere. -/
def importAttribute : String := "@import_symbol"

theorem length_pos (token : Token) : 0 < token.length := by
  simp only [length]
  omega

end Token

end ImpFront
