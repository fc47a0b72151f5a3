/-
  ImpFront.Scope.Basic
  ────────────────────
  **SCOPES.**

  Which names are visible at a place of a file: the global ones, those of the
  function that is being read, and, for names that were called before their
  definition, where they were called and at which level they still have to be
  defined.

      enter, exit   — open a frame; leave the innermost one
      define        — bind a name in the open function, or globally
      mark          — note a call of a name that is not visible
      delete        — take a binding back
      unresolved?   — the error of a file that ends with calls unanswered

  Operations that can fail keep the state they leave behind, so that it can
  be said what an error changes.
-/
import ImpFront.Error
import ImpFront.Scope.Symbol
import ImpFront.Scope.Table

namespace ImpFront

/-! ## §1. Frames. -/

/-- The sort of a frame. -/
inductive FrameKind where
  | function | conditional | loop | attribute
  deriving Repr, DecidableEq

/-- The name of a sort of frame in messages. -/
def FrameKind.name : FrameKind → String
  | .function => "function"
  | .conditional => "conditional"
  | .loop => "loop"
  | .attribute => "attribute"

/-- An open construct.  Only a function has names of its own. -/
inductive Frame where
  | function (locals : Table Symbol)
  | conditional | loop | attribute

namespace Frame

/-- The sort of a frame. -/
def kind : Frame → FrameKind
  | .function _ => .function
  | .conditional => .conditional
  | .loop => .loop
  | .attribute => .attribute

/-- The frame of a construct that has just been opened. -/
def fresh : FrameKind → Frame
  | .function => .function .empty
  | .conditional => .conditional
  | .loop => .loop
  | .attribute => .attribute

/-- The names of a frame, if it may hold any. -/
def locals? : Frame → Option (Table Symbol)
  | .function locals => some locals
  | _ => none

/-- The binding of a name in the frame. -/
def get? (frame : Frame) (name : String) : Option Symbol :=
  frame.locals?.bind (·.get? name)

@[simp] theorem kind_fresh (kind : FrameKind) : (fresh kind).kind = kind := by
  cases kind <;> rfl

end Frame

/-- Why a frame cannot be opened or left. -/
inductive FrameError where
  /-- A function is open already. -/
  | alreadyInFunction
  /-- No frame is open. -/
  | empty (expected : FrameKind)
  /-- The innermost frame is of another sort. -/
  | mismatch (expected found : FrameKind)
  deriving Repr, DecidableEq

/-- The wording of a frame error. -/
def FrameError.message : FrameError → String
  | .alreadyInFunction => "already inside a function"
  | .empty expected => "tried to leave " ++ expected.name ++ " scope, but no scope is active"
  | .mismatch expected found =>
    "tried to leave " ++ expected.name ++ " scope, but the innermost scope is " ++ found.name

/-! ## §2. The state. -/

/-- A call of a name that was not visible. -/
structure Pending where
  /-- The shallowest level the name was called at. -/
  level : Nat
  /-- The first call at that level. -/
  token : Token
  deriving Repr, DecidableEq

/-- The names of a file at one place in it. -/
structure Scopes where
  /-- The global bindings. -/
  globals : Table Symbol
  /-- The open frames, innermost first. -/
  frames : List Frame
  /-- The calls that still wait for a definition. -/
  pending : Table Pending
  /-- The number of open functions. -/
  level : Nat

namespace Scopes

/-- The scopes at the beginning of a file. -/
def empty : Scopes := ⟨.empty, [], .empty, 0⟩

instance : Inhabited Scopes := ⟨empty⟩

/-- A function is open. -/
def inFunction (s : Scopes) : Bool :=
  0 < s.level

/-- A condition is open, at any depth. -/
def inConditional (s : Scopes) : Bool :=
  s.frames.any fun frame => frame.kind == .conditional

/-- The innermost frame is an attribute. -/
def inAttribute (s : Scopes) : Bool :=
  s.frames.head?.any fun frame => frame.kind == .attribute

/-- The binding of a name: the innermost one, then the global one. -/
def lookup? (s : Scopes) (name : String) : Option Symbol :=
  (s.frames.findSome? (·.get? name)).or (s.globals.get? name)

/-- The binding of a name that is a function. -/
def visibleFunction? (s : Scopes) (name : String) : Option Symbol :=
  (s.lookup? name).filter Symbol.isFunction

/-- The token that declares the type of a visible name. -/
def declaredType (s : Scopes) (token : Token) : Except Error Token :=
  match s.lookup? token.value with
  | some symbol => .ok symbol.declared
  | none => .error (.blame (.notDefined token.value) token)

/-- The waiting call of a name. -/
def pending? (s : Scopes) (name : String) : Option Pending :=
  s.pending.get? name

/-! ## §3. Frames open and close. -/

/-- Open a frame, unless it is a function within a function. -/
def enter (kind : FrameKind) : EStateM FrameError Scopes Unit := fun s =>
  if kind = .function && s.inFunction then .error .alreadyInFunction s
  else .ok () { s with
    frames := .fresh kind :: s.frames
    level := if kind = .function then s.level + 1 else s.level }

/-- Waiting calls wait at no deeper level than the given one. -/
def clampPending (level : Nat) (pending : Table Pending) : Table Pending :=
  pending.map fun call => { call with level := min call.level level }

/-- Leave the innermost frame, which has to be of the given sort.  What was
called inside a function and is still missing has to be defined outside. -/
def exit (kind : FrameKind) : EStateM FrameError Scopes Unit := fun s =>
  match s.frames with
  | [] => .error (.empty kind) s
  | frame :: outer =>
    if frame.kind ≠ kind then .error (.mismatch kind frame.kind) s
    else if kind = .function then .ok () { s with
      frames := outer
      level := s.level - 1
      pending := clampPending (s.level - 1) s.pending }
    else .ok () { s with frames := outer }

/-! ## §4. Names are bound and released. -/

/-- The first call of the name that nothing answers yet. -/
def isNewReference (s : Scopes) (token : Token) : Bool :=
  (s.lookup? token.value).isNone && (s.pending? token.value).isNone

/-- Note a call of a name.  A visible name needs no note, and a name that
waits already is moved to a shallower level only. -/
def mark (token : Token) (s : Scopes) : Scopes :=
  if (s.lookup? token.value).isSome then s
  else match s.pending? token.value with
    | some call =>
      if s.level < call.level then
        { s with pending := s.pending.insert token.value ⟨s.level, token⟩ }
      else s
    | none => { s with pending := s.pending.insert token.value ⟨s.level, token⟩ }

/-- The definition answers a waiting call. -/
def settles (s : Scopes) (symbol : Symbol) : Bool :=
  symbol.isFunction && (s.pending? symbol.key).any fun call => s.level ≤ call.level

/-- Nothing is defined under a condition. -/
def refuseConditional (symbol : Symbol) : EStateM Error Scopes Unit := fun s =>
  if s.inConditional then .error (.blame .conditionalDefinition symbol.name) s
  else .ok () s

/-- A waiting call of this level is answered by a function, and only by one. -/
def settle (symbol : Symbol) : EStateM Error Scopes Unit := fun s =>
  match s.pending? symbol.key with
  | some call =>
    if s.level ≤ call.level then
      if symbol.isFunction then .ok () { s with pending := s.pending.erase symbol.key }
      else
        let note := "'" ++ symbol.key
          ++ "' defined here (below the reference) as normal variable"
        .error ((Error.blame (.requiredFunction symbol.key) call.token).withNote
          (.on note symbol.name)) s
    else .ok () s
  | none => .ok () s

/-- A visible name is not bound again. -/
def refuseTaken (symbol : Symbol) : EStateM Error Scopes Unit := fun s =>
  match s.lookup? symbol.key with
  | some prior =>
    let note := "'" ++ symbol.key ++ "' defined here"
    .error ((Error.blame (.alreadyDefined symbol.key) symbol.name).withNote
      (.on note prior.name)) s
  | none => .ok () s

/-- The frames with the symbol in the innermost one that holds names. -/
def bindInFrames? (symbol : Symbol) : List Frame → Option (List Frame)
  | [] => none
  | .function locals :: outer => some (.function (locals.insert symbol.key symbol) :: outer)
  | frame :: outer => (bindInFrames? symbol outer).map (frame :: ·)

/-- Enter a symbol in the open function, or globally outside functions. -/
def bind (symbol : Symbol) (s : Scopes) : Scopes :=
  match bindInFrames? symbol s.frames with
  | some frames => { s with frames }
  | none => { s with globals := s.globals.insert symbol.key symbol }

/-- Define a name. -/
def define (symbol : Symbol) : EStateM Error Scopes Unit := do
  refuseConditional symbol
  settle symbol
  refuseTaken symbol
  modify (bind symbol)

/-- The innermost binding of a name, and the frames without it. -/
def deleteFromFrames? (name : String) : List Frame → Option (Symbol × List Frame)
  | [] => none
  | .function locals :: outer =>
    match locals.get? name with
    | some symbol => some (symbol, .function (locals.erase name) :: outer)
    | none => (deleteFromFrames? name outer).map fun found =>
      (found.1, .function locals :: found.2)
  | frame :: outer => (deleteFromFrames? name outer).map fun found =>
    (found.1, frame :: found.2)

/-- The innermost binding of a name, and the scopes without it. -/
def delete (name : String) (s : Scopes) : Option Symbol × Scopes :=
  match deleteFromFrames? name s.frames with
  | some (symbol, frames) => (some symbol, { s with frames })
  | none => (s.globals.get? name, { s with globals := s.globals.erase name })

/-! ## §5. The end of a file. -/

/-- A call among calls in the order of the file. -/
def insertInOrder (call : Pending) : List Pending → List Pending
  | [] => [call]
  | other :: rest =>
    if call.token.position.offset ≤ other.token.position.offset then call :: other :: rest
    else other :: insertInOrder call rest

/-- The calls that nothing answered, in the order of the file.  Calls at one
offset stay in the order in which they are visited. -/
def unanswered (s : Scopes) (order : Table.Traversal Pending := .entry) : List Pending :=
  (order.visit s.pending).foldr insertInOrder []

/-- The error of a file that ends here: the first unanswered call, with a
note on each later one. -/
def unresolved? (s : Scopes) (order : Table.Traversal Pending := .entry) : Option Error :=
  match s.unanswered order with
  | [] => none
  | first :: rest => some
    { Error.blame (.notDefined first.token.value) first.token with
      notes := rest.map fun call =>
        .on ("'" ++ call.token.value ++ "' is not defined") call.token }

end Scopes

end ImpFront
