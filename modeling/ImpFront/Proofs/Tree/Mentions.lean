/-
  ImpFront.Proofs.Tree.Mentions
  ─────────────────────────────
  **WHAT A TREE MENTIONS, IN ORDER.**

  Whether a tree uses its names and types well is a matter of order: what is
  bound before, and for a call also what is bound later.  So a tree is laid
  out as the list of what it mentions, from left to right, and walked through
  with a context:

      x : i32 = f(y)   ↦   evaluates (f(y)), initialises i32, binds x
      func g(a) { s }  ↦   opens, binds a, binds g, (s), completes g

  A context says which names are bound, inside the open function and outside,
  and which constructs are open.  `Always P` holds of a list of mentions if
  `P` holds of each one, in its context and with those that come later.

  Nothing here knows of tokens, of reading, or of scopes.
-/
import ImpFront.Scope.Basic
import ImpFront.Tree.Basic

namespace ImpFront

/-! ## §1. Expressions within expressions. -/

namespace Expr

mutual

/-- An expression with all expressions inside it. -/
def nodes : Expr → List Expr
  | .binary operator token left right type =>
    .binary operator token left right type :: (left.nodes ++ right.nodes)
  | .unary operator token operand type => .unary operator token operand type :: operand.nodes
  | .call name arguments returns => .call name arguments returns :: nodesOfAll arguments
  | .literal token type => [.literal token type]
  | .reference name type => [.reference name type]

/-- All expressions inside some expressions. -/
def nodesOfAll : List Expr → List Expr
  | [] => []
  | e :: rest => e.nodes ++ nodesOfAll rest

end

theorem mem_nodes_self (e : Expr) : e ∈ e.nodes := by
  cases e <;> simp [nodes]

end Expr

/-! ## §2. Mentions. -/

/-- One thing that a tree says about names and types. -/
inductive Mention where
  /-- A construct begins. -/
  | opens (kind : FrameKind)
  /-- A construct other than a function ends. -/
  | closes (kind : FrameKind)
  /-- A name is bound where it stands. -/
  | binds (symbol : Symbol)
  /-- The body of a function ends, and its name is bound outside. -/
  | completes (symbol : Symbol)
  /-- A value is asked for. -/
  | evaluates (value : Expr)
  /-- A value is the first one of a variable of this type. -/
  | initialises (type : Token) (value : Expr)
  /-- A value is given to a variable. -/
  | assigns (name : Token) (value : Expr)

/-- The bindings of the parameters that have a name. -/
def parameterSymbols (parameters : List Parameter) : List Symbol :=
  parameters.filterMap fun parameter =>
    parameter.name.map fun name => ⟨name, parameter.type, .parameter⟩

/-- What an attribute mentions. -/
def Attribute.mentions (attached : Attribute) : List Mention :=
  match attached.value with
  | none => []
  | some (.expression value) => [.opens .attribute, .evaluates value, .closes .attribute]
  | some (.imported signature) =>
    [.opens .attribute, .binds signature.symbol, .closes .attribute]

mutual

/-- What a statement mentions. -/
def Stmt.mentions : Stmt → List Mention
  | .function signature body =>
    .opens .function :: ((parameterSymbols signature.parameters).map .binds
      ++ .binds signature.symbol :: (mentionsOfAll body ++ [.completes signature.symbol]))
  | .declare name type none => [.binds ⟨name, type, .variable⟩]
  | .declare name type (some value) =>
    [.evaluates value, .initialises type value, .binds ⟨name, type, .variable⟩]
  | .conditional condition body otherwise =>
    .evaluates condition :: .opens .conditional
      :: (mentionsOfAll body ++ .closes .conditional :: otherwise.mentions)
  | .repeatWhile condition body =>
    .evaluates condition :: .opens .loop :: (mentionsOfAll body ++ [.closes .loop])
  | .leaveLoop _ | .nextRound _ => []
  | .giveBack _ value => [.evaluates value]
  | .assign name value => [.evaluates value, .assigns name value]
  | .attribute attached => attached.mentions
  | .expression value => [.evaluates value]

/-- What the rest of a chain of conditions mentions. -/
def Otherwise.mentions : Otherwise → List Mention
  | .nothing => []
  | .block body => .opens .conditional :: (mentionsOfAll body ++ [.closes .conditional])
  | .chain condition body otherwise =>
    .opens .conditional :: .evaluates condition :: .opens .conditional
      :: (mentionsOfAll body
        ++ .closes .conditional :: (otherwise.mentions ++ [.closes .conditional]))

/-- What some statements mention. -/
def mentionsOfAll : List Stmt → List Mention
  | [] => []
  | s :: rest => s.mentions ++ mentionsOfAll rest

end

namespace Program

/-- The statements of a file in the order of the file, attributes included. -/
def clauses (program : Program) : List Stmt :=
  program.attributes.map .attribute ++ program.statements

/-- What a file mentions: its attributes, then its statements. -/
def mentions (program : Program) : List Mention :=
  mentionsOfAll program.clauses

theorem clauses_append {program longer : Program} {stmt : Stmt}
    (h : program.append stmt = .ok longer) : longer.clauses = program.clauses ++ [stmt] := by
  unfold append at h
  split at h
  · split at h
    · next first =>
        obtain rfl := Except.ok.inj h
        have none : program.statements = [] := List.isEmpty_iff.1 first
        simp [clauses, none]
    · cases h
  · obtain rfl := Except.ok.inj h
    simp [clauses]

end Program

/-! ## §3. Contexts. -/

/-- What is known at one place of a tree. -/
structure Context where
  /-- The names bound outside functions. -/
  globals : String → Option Symbol
  /-- The names bound in the open function, if one is open. -/
  locals : Option (String → Option Symbol)
  /-- The open constructs, innermost first. -/
  frames : List FrameKind

namespace Context

/-- The beginning of a file. -/
def start : Context := ⟨fun _ => none, none, []⟩

/-- The binding of a name. -/
def lookup? (c : Context) (name : String) : Option Symbol :=
  (c.locals.bind fun locals => locals name).or (c.globals name)

/-- The place is in the value of an attribute. -/
def inAttribute (c : Context) : Bool :=
  c.frames.head?.any fun kind => kind == .attribute

/-- Names with one more bound. -/
def extend (symbol : Symbol) (names : String → Option Symbol) : String → Option Symbol :=
  fun name => if name = symbol.key then some symbol else names name

/-- The context behind a mention. -/
def after (c : Context) : Mention → Context
  | .opens kind =>
    { c with
      locals := if kind = .function then some fun _ => none else c.locals
      frames := kind :: c.frames }
  | .closes _ => { c with frames := c.frames.tail }
  | .binds symbol =>
    match c.locals with
    | some locals => { c with locals := some (extend symbol locals) }
    | none => { c with globals := extend symbol c.globals }
  | .completes symbol => ⟨extend symbol c.globals, none, c.frames.tail⟩
  | .evaluates _ | .initialises _ _ | .assigns _ _ => c

end Context

/-- Each mention has a property, in its context and with those that come
later. -/
def Always (P : Context → Mention → List Mention → Prop) : Context → List Mention → Prop
  | _, [] => True
  | c, mention :: later => P c mention later ∧ Always P (c.after mention) later

theorem Always.imp {P Q : Context → Mention → List Mention → Prop}
    (himp : ∀ c mention later, Always P c (mention :: later) → Q c mention later)
    {c : Context} {mentions : List Mention} (h : Always P c mentions) : Always Q c mentions := by
  induction mentions generalizing c with
  | nil => trivial
  | cons mention later ih => exact ⟨himp c mention later h, ih h.2⟩

/-! ## §4. What comes later. -/

/-- The mention binds a function to the name. -/
def Symbol.names (symbol : Symbol) (name : String) : Bool :=
  symbol.isFunction && symbol.key == name

/-- The next function of a name that is bound before the open function ends. -/
def localAhead? (name : String) : List Mention → Option Symbol
  | [] => none
  | .completes _ :: _ => none
  | .binds symbol :: later => if symbol.names name then some symbol else localAhead? name later
  | _ :: later => localAhead? name later

/-- The next function of a name that is bound outside functions.  `inside`
tells whether a function is open. -/
def globalAhead? (name : String) : Bool → List Mention → Option Symbol
  | _, [] => none
  | _, .opens .function :: later => globalAhead? name true later
  | _, .completes symbol :: later =>
    if symbol.names name then some symbol else globalAhead? name false later
  | inside, .binds symbol :: later =>
    if !inside && symbol.names name then some symbol else globalAhead? name inside later
  | inside, _ :: later => globalAhead? name inside later

/-- The next function of a name that is declared, wherever that is. -/
def firstAhead? (name : String) : List Mention → Option Symbol
  | [] => none
  | .binds symbol :: later => if symbol.names name then some symbol else firstAhead? name later
  | _ :: later => firstAhead? name later

/-- The function that a call stands for: the visible one, and where the name
is not visible the one that is bound later in the same function, or else
outside functions. -/
def Context.callee? (c : Context) (name : String) (later : List Mention) : Option Symbol :=
  match c.lookup? name with
  | some symbol => if symbol.isFunction then some symbol else none
  | none =>
    (if c.locals.isSome then localAhead? name later else none).or
      (globalAhead? name c.locals.isSome later)

theorem Context.callee?_of_lookup? {c : Context} {name : String} {symbol : Symbol}
    (h : c.lookup? name = some symbol) (function : symbol.isFunction = true)
    (later : List Mention) : c.callee? name later = some symbol := by
  unfold callee?
  rw [h]
  exact if_pos function

end ImpFront
