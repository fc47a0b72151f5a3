/-
  ImpFront.Journal
  ────────────────
  **THE JOURNAL.**

  What the compiler notes about its own work while it checks a file.  An
  event says what happened; its level, its topic and its wording follow from
  that.
-/
import ImpFront.Scope.Basic

namespace ImpFront

/-- How much an event matters, least first. -/
inductive Level where
  | trace | debug | info
  deriving Repr, DecidableEq

/-- The name of a level. -/
def Level.name : Level → String
  | .trace => "TRACE"
  | .debug => "DEBUG"
  | .info => "INFO"

/-- Something worth noting. -/
inductive Event where
  /-- Work on a file begins. -/
  | checking (file : String)
  /-- A text was cut into so many tokens. -/
  | tokenized (count : Nat)
  /-- A file has so many tokens, with the one at its end. -/
  | counted (file : String) (count : Nat)
  /-- The tokens of a file are about to be read. -/
  | reading (file : String)
  /-- The tokens of a file were read. -/
  | finished (file : String) (attributes statements : Nat)
  /-- A frame was opened when so many were open. -/
  | entered (frame : FrameKind) (depth : Nat)
  /-- A frame was left and so many are still open. -/
  | exited (frame : FrameKind) (depth : Nat)
  /-- A name was called that is not visible. -/
  | referenced (name : String) (level : Nat)
  /-- A waiting call was answered. -/
  | settled (name : String)
  /-- A name was bound. -/
  | defined (name : String) (level : Nat)
  /-- A warning was given. -/
  | warned (message : String)
  /-- A function was read. -/
  | function (name : String) (parameters : Nat)
  /-- A function was imported. -/
  | imported (name : String)
  /-- A call got its type from a definition further down. -/
  | typedAhead (name : String) (type : Option BaseType)
  /-- An attribute of the file was read. -/
  | appended (name : String)
  /-- A file was found to be right. -/
  | accepted (file : String)
  /-- A file was refused, for this reason. -/
  | refused (reason : String)
  deriving Repr, DecidableEq

namespace Event

/-- How much an event matters. -/
def level : Event → Level
  | .checking _ | .reading _ | .accepted _ => .info
  | .tokenized _ | .entered _ _ | .exited _ _ | .appended _ => .trace
  | _ => .debug

/-- The part of the compiler that an event belongs to. -/
def topic : Event → String
  | .checking _ | .counted _ _ => "implang::driver"
  | .tokenized _ => "implang::lexer::lexer"
  | .reading _ | .finished _ _ _ | .warned _ => "implang::parser::parser"
  | .entered _ _ | .exited _ _ | .referenced _ _ | .settled _ | .defined _ _ =>
    "implang::resolver::resolver"
  | .function _ _ | .imported _ => "implang::parser::stmt"
  | .typedAhead _ _ => "implang::parser::expr"
  | .appended _ => "implang::ast::ast"
  | .accepted _ | .refused _ => "impc"

/-- The wording of an event. -/
def message : Event → String
  | .checking file => s!"checking {file}"
  | .tokenized count => s!"tokenized {count} tokens"
  | .counted file count => s!"{count} token(s) in {file}"
  | .reading file => s!"parsing {file}"
  | .finished file attributes statements =>
    s!"{file}: parsed {attributes} attribute(s) and {statements} statement(s)"
  | .entered frame depth => s!"entering {frame.name} scope (depth {depth})"
  | .exited frame depth => s!"left {frame.name} scope (depth {depth})"
  | .referenced name level => s!"'{name}' referenced before definition (level {level})"
  | .settled name => s!"forward reference to '{name}' resolved"
  | .defined name level => s!"defining '{name}' at level {level}"
  | .warned message => s!"warning: {message}"
  | .function name parameters => s!"function '{name}' with {parameters} parameter(s)"
  | .imported name => s!"imported symbol '{name}'"
  | .typedAhead name type =>
    let type := BaseType.describe type
    s!"forward call to '{name}' typed as {type}"
  | .appended name => s!"appending attribute {name}"
  | .accepted file => s!"{file}: ok"
  | .refused reason => reason

/-- A text with every line but the first moved in by four columns. -/
def indentRest (text : String) : String :=
  String.ofList (text.toList.flatMap fun c =>
    if c = '\n' then ['\n', ' ', ' ', ' ', ' '] else [c])

/-- An event as it is shown: its level in five columns, its topic, and its
wording, whose further lines are moved in. -/
def line (event : Event) : String :=
  let level := event.level.name
  let padding := if level.length < 5 then " " else ""
  s!"[{level}{padding} {event.topic}] " ++ indentRest event.message

end Event

end ImpFront
