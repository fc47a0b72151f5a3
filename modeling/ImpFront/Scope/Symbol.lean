/-
  ImpFront.Scope.Symbol
  ─────────────────────
  **WHAT A NAME STANDS FOR.**

  A symbol is a name with the token that declares its type: the type name for
  a variable or a parameter, the keyword or the importing attribute for a
  function.
-/
import ImpFront.Typing

namespace ImpFront

/-- The sort of a binding. -/
inductive SymbolKind where
  /-- A function, with the token of its return type. -/
  | function (returnType : Option Token)
  | variable
  | parameter
  deriving Repr, DecidableEq

/-- A bound name. -/
structure Symbol where
  /-- The name, where it is bound. -/
  name : Token
  /-- The token that says what the name stands for. -/
  declared : Token
  /-- The sort of the binding. -/
  kind : SymbolKind
  deriving Repr, DecidableEq

namespace Symbol

/-- The bound name as text. -/
def key (symbol : Symbol) : String :=
  symbol.name.value

/-- The name is bound to a function. -/
def isFunction (symbol : Symbol) : Bool :=
  match symbol.kind with
  | .function _ => true
  | _ => false

/-- The base type of the name. -/
def declaredBase (symbol : Symbol) : BaseType :=
  .ofDeclaration symbol.declared

/-- The base type that a call of the name returns. -/
def returnBase? (symbol : Symbol) : Option BaseType :=
  match symbol.kind with
  | .function (some token) => some (.ofName token.value)
  | _ => none

end Symbol

end ImpFront
