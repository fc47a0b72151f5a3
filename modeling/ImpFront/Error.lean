/-
  ImpFront.Error
  ──────────────
  **WHY A SOURCE TEXT IS REFUSED.**

  An error is a cause and the place to blame, with notes on other places.
  The cause decides everything that can be said about it: the wording, the
  stage of the work that found it, and the advice, where there is any.
-/
import ImpFront.Token.Basic

namespace ImpFront

/-! ## §1. Causes. -/

/-- The stage of the work that refuses a text. -/
inductive Stage where
  /-- A character begins no token. -/
  | lexical
  /-- The tokens do not form a sentence. -/
  | syntactic
  /-- A name or a type is used against the rules. -/
  | semantic
  /-- The compiler lost track of its own work. -/
  | internal
  deriving Repr, DecidableEq

/-- Why a text is refused. -/
inductive Cause where
  /-- A character that begins no token. -/
  | unreadable (character : Char)
  /-- A token other than the one the sentence needs. -/
  | unexpected (expected found : String)
  /-- A keyword that begins no statement. -/
  | unexpectedKeyword (keyword : String)
  /-- Two statements without a separator. -/
  | expectedTerminator (found : String)
  /-- An attribute value that goes on. -/
  | expectedAttributeTerminator (found : String)
  /-- A token that begins no expression. -/
  | expectedExpression (found : String)
  /-- A second definition of a visible name. -/
  | alreadyDefined (name : String)
  /-- A name without a visible definition. -/
  | notDefined (name : String)
  /-- A name that was called before it was defined as a variable. -/
  | requiredFunction (name : String)
  /-- A definition under a condition. -/
  | conditionalDefinition
  /-- A function inside a function. -/
  | nestedFunction
  /-- A value of another type than its variable. -/
  | typeMismatch (expected received : String)
  /-- A binary operator on types it does not join. -/
  | illegalOperation (operator left right : String)
  /-- A unary operator on a type it does not take. -/
  | illegalUnaryOperation (operator operand : String)
  /-- A function named without a call. -/
  | functionAsValue (name : String)
  /-- A call of something else than a function. -/
  | notAFunction (name : String)
  /-- An assignment to a name that is not visible. -/
  | assignToUndeclared (name : String)
  /-- A signature behind another attribute than the importing one. -/
  | symbolOutsideImport (found : String)
  /-- An imported parameter that is not a type name. -/
  | expectedArgumentType (found : String)
  /-- An attribute below the first statement. -/
  | attributeOrder
  /-- A step of the compiler that should not have been possible. -/
  | internal (message : String)
  /-- Reading went on without using up its tokens. -/
  | stalled
  deriving Repr, DecidableEq

namespace Cause

/-- The wording of a cause. -/
def message : Cause → String
  | .unreadable character => "undefined token: " ++ String.singleton character
  | .unexpected expected found => "expected " ++ expected ++ ", got " ++ found
  | .unexpectedKeyword keyword => "unexpected keyword '" ++ keyword ++ "'"
  | .expectedTerminator found => "expected newline or semicolon, got " ++ found
  | .expectedAttributeTerminator found =>
    "expected newline or semicolon after attribute value, got " ++ found
  | .expectedExpression found => "expected expression, got " ++ found
  | .alreadyDefined name => "'" ++ name ++ "' is already defined"
  | .notDefined name => "'" ++ name ++ "' is not defined"
  | .requiredFunction name => "'" ++ name ++ "' is required to be a function"
  | .conditionalDefinition => "cannot define variable or function conditionally"
  | .nestedFunction => "cannot define function inside another function"
  | .typeMismatch expected received =>
    "cannot assign value of type " ++ received ++ " to variable of type " ++ expected
  | .illegalOperation operator left right =>
    "illegal operation ('" ++ operator ++ "') on types '" ++ left ++ "' and '" ++ right ++ "'"
  | .illegalUnaryOperation operator operand =>
    "illegal unary operation ('" ++ operator ++ "') on type '" ++ operand ++ "'"
  | .functionAsValue name =>
    "expected fixed value or variable name, got function '" ++ name ++ "'"
  | .notAFunction name => "'" ++ name ++ "' is not a function"
  | .assignToUndeclared name => "tried to assign to undeclared variable '" ++ name ++ "'"
  | .symbolOutsideImport found =>
    "symbol definition is only allowed for imported symbols (attribute '@import_symbol'), not '"
      ++ found ++ "'"
  | .expectedArgumentType found => "in imported symbol, expected argument type, got " ++ found
  | .attributeOrder => "attributes must be at the beginning of the file"
  | .internal message => "internal compiler error: " ++ message
  | .stalled => "internal compiler error: parsing makes no progress"

/-- The stage that finds a cause. -/
def stage : Cause → Stage
  | .unreadable _ => .lexical
  | .unexpected _ _ | .unexpectedKeyword _ | .expectedTerminator _
  | .expectedAttributeTerminator _ | .expectedExpression _ => .syntactic
  | .internal _ | .stalled => .internal
  | _ => .semantic

/-- Advice on how to mend the text. -/
def tip? : Cause → Option String
  | .expectedTerminator _ => some "Separate statements with a newline or a semicolon"
  | .requiredFunction name =>
    some ("`" ++ name
      ++ "` is called before its definition, so it has to be defined with `func`")
  | .conditionalDefinition => some "Declare the name before the `if` and assign to it inside"
  | .nestedFunction => some "Move the inner function to the top level of the file"
  | .functionAsValue name => some ("Did you mean to call it: `" ++ name ++ "()`?")
  | .assignToUndeclared name => some ("Declare it first: `var " ++ name ++ ": <type>`")
  | .attributeOrder => some "Move every attribute above the first statement"
  | _ => none

end Cause

/-! ## §2. Errors and notes. -/

/-- A remark about a place. -/
structure Note where
  /-- What is remarked. -/
  message : String
  /-- The place. -/
  position : Position
  /-- The number of columns it takes. -/
  length : Nat
  deriving Repr, DecidableEq

/-- A remark about a token. -/
def Note.on (message : String) (token : Token) : Note :=
  ⟨message, token.position, token.length⟩

/-- Why a text is refused, and where. -/
structure Error where
  /-- The reason. -/
  cause : Cause
  /-- The place to blame. -/
  position : Position
  /-- The number of columns it takes. -/
  length : Nat
  /-- Remarks about other places. -/
  notes : List Note
  deriving Repr, DecidableEq

namespace Error

/-- A cause blamed on a token. -/
def blame (cause : Cause) (token : Token) : Error :=
  ⟨cause, token.position, token.length, []⟩

/-- The error with one more remark. -/
def withNote (error : Error) (note : Note) : Error :=
  { error with notes := error.notes ++ [note] }

/-- The wording of the error with its advice in parentheses. -/
def report (error : Error) : String :=
  match error.cause.tip? with
  | some tip => error.cause.message ++ " (" ++ tip ++ ")"
  | none => error.cause.message

end Error

end ImpFront
