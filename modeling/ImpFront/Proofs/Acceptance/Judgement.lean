/-
  ImpFront.Proofs.Acceptance.Judgement
  ────────────────────────────────────
  **WHEN A TREE USES NAMES AND TYPES WELL.**

  Three properties of a file, each said of every mention in its context and
  with what comes later:

    • `WellScoped` — what is bound was free, what is used is bound, and what
      is called is a function, perhaps one that comes later,
    • `WellTyped` — every type in the tree is the one its parts ask for,
    • `AgreesWithCallees`, `TypedAhead` — where the type of a call is from.

  The last two differ for calls in front of their function.  Such a call is
  typed from the first declaration of its name further down, which need not
  be the one it is bound to, and whose parameters are passed over by looking
  for a closing parenthesis.
-/
import ImpFront.Proofs.Tree.Mentions

namespace ImpFront

/-! ## §1. Names. -/

/-- The names in one expression stand for what they have to stand for. -/
def Expr.Scoped (c : Context) (later : List Mention) : Expr → Prop
  | .reference name _ =>
    c.inAttribute = true
      ∨ ∃ symbol, c.lookup? name.value = some symbol ∧ symbol.isFunction = false
  | .call name _ _ => ∃ bound, c.callee? name.value later = some bound
  | .binary _ _ _ _ _ | .unary _ _ _ _ | .literal _ _ => True

/-- A mention is allowed in its context. -/
def Mention.Scoped (c : Context) (mention : Mention) (later : List Mention) : Prop :=
  match mention with
  | .opens kind => kind = .function → c.locals = none
  | .closes _ => True
  | .binds symbol => c.lookup? symbol.key = none ∧ .conditional ∉ c.frames
  | .completes symbol =>
    c.locals.bind (fun locals => locals symbol.key) = some symbol
      ∧ c.globals symbol.key = none ∧ .conditional ∉ c.frames
  | .evaluates value => ∀ node ∈ value.nodes, node.Scoped c later
  | .initialises _ _ => True
  | .assigns name _ => ∃ symbol, c.lookup? name.value = some symbol ∧ symbol.isFunction = false

/-- Names are bound once and used as what they are. -/
def Program.WellScoped (program : Program) : Prop :=
  Always Mention.Scoped .start program.mentions

/-! ## §2. Types. -/

/-- The type of one expression is the one its parts ask for. -/
def Expr.Typed (c : Context) : Expr → Prop
  | .binary _ _ left right type =>
    ∃ l r, left.base? = some l ∧ right.base? = some r ∧ BaseType.binary? l r = some type
  | .unary _ _ operand type => operand.base? = some type ∧ type.isNumeric = true
  | .literal token type => BaseType.ofLiteral? token.kind = some type
  | .reference name type =>
    if c.inAttribute = true ∧ (DeclaredType.builtin? name.value).isSome then
      type = .ofName name.value
    else ∃ symbol, c.lookup? name.value = some symbol ∧ type = symbol.declaredBase
  | .call _ _ _ => True

/-- The types in a mention go together. -/
def Mention.Typed (c : Context) (mention : Mention) (_later : List Mention) : Prop :=
  match mention with
  | .evaluates value => ∀ node ∈ value.nodes, node.Typed c
      ∧ (node.base? = none → ∃ name arguments, node = .call name arguments none)
  | .initialises type value => value.base? = some (.ofName type.value)
  | .assigns name value =>
    ∃ symbol, c.lookup? name.value = some symbol ∧ value.base? = some symbol.declaredBase
  | .opens _ | .closes _ | .binds _ | .completes _ => True

/-- Every type in a file is the one its parts ask for. -/
def Program.WellTyped (program : Program) : Prop :=
  Always Mention.Typed .start program.mentions

/-! ## §3. Types of calls. -/

/-- Calls have the type of the function that they stand for. -/
def Mention.Agrees (c : Context) (mention : Mention) (later : List Mention) : Prop :=
  match mention with
  | .evaluates value => ∀ name arguments returns, .call name arguments returns ∈ value.nodes →
      ∃ bound, c.callee? name.value later = some bound ∧ returns = bound.returnBase?
  | _ => True

/-- Every call in a file has the type of the function that it stands for. -/
def Program.AgreesWithCallees (program : Program) : Prop :=
  Always Mention.Agrees .start program.mentions

/-- Another parenthesis opens before the first one closes. -/
def reopens (tokens : List Token) : Bool :=
  (tokens.takeWhile fun token => token.kind ≠ .closeParen).any fun token =>
    token.kind = .openParen

/-- Among the tokens the symbol is declared, and the type is the one that
stands behind its parameters.  No type is found there if a parameter is put
in parentheses, which only those of an import can be. -/
def Declares (tokens : List Token) (symbol : Symbol) (type : Option BaseType) : Prop :=
  ∃ before opening behind,
    tokens = before ++ symbol.declared :: symbol.name :: opening :: behind
      ∧ opening.kind = .openParen
      ∧ (reopens behind = true → symbol.declared.kind = .attribute)
      ∧ type = if reopens behind then none else symbol.returnBase?

/-- Calls of visible functions have the type of the function.  The others have
the type that the first declaration of their name further down declares. -/
def Mention.Foretold (tokens : List Token) (c : Context) (mention : Mention)
    (later : List Mention) : Prop :=
  match mention with
  | .evaluates value => ∀ name arguments returns, .call name arguments returns ∈ value.nodes →
      ∃ bound, c.callee? name.value later = some bound
        ∧ (c.lookup? name.value = some bound ∧ returns = bound.returnBase?
          ∨ c.lookup? name.value = none
            ∧ ∃ first, firstAhead? name.value later = some first
              ∧ Declares tokens first returns)
  | _ => True

/-- The types of calls in a file are from visible functions, or else from the
next declaration of the name among the tokens. -/
def Program.TypedAhead (tokens : List Token) (program : Program) : Prop :=
  Always (Mention.Foretold tokens) .start program.mentions

end ImpFront
