/-
  ImpFront.Tree.Basic
  ───────────────────
  **THE TREE OF A FILE.**

  Expressions carry the base type that was found for them while they were
  read; only a call may have none.  Statements hold their bodies as lists.
  A chain of conditions is one statement: a condition, its body, and what
  happens otherwise, which may be the next condition of the chain.
-/
import ImpFront.Error
import ImpFront.Scope.Symbol

namespace ImpFront

/-! ## §1. Expressions. -/

/-- An expression.  Each node holds the token that reports about it point at. -/
inductive Expr where
  /-- `left operator right`.  In a compound assignment the token is that of
  the assignment and the operator the one it stands for. -/
  | binary (operator : Kind) (token : Token) (left right : Expr) (type : BaseType)
  /-- `operator operand`. -/
  | unary (operator : Kind) (token : Token) (operand : Expr) (type : BaseType)
  /-- `name(arguments)`, with the type it returns, where that is known. -/
  | call (name : Token) (arguments : List Expr) (returns : Option BaseType)
  /-- A literal as written. -/
  | literal (token : Token) (type : BaseType)
  /-- A name that stands for a value. -/
  | reference (name : Token) (type : BaseType)

namespace Expr

/-- The base type of an expression. -/
def base? : Expr → Option BaseType
  | .binary _ _ _ _ type | .unary _ _ _ type | .literal _ type | .reference _ type => some type
  | .call _ _ returns => returns

/-- The token that reports about an expression point at. -/
def token : Expr → Token
  | .binary _ token _ _ _ | .unary _ token _ _ | .literal token _ => token
  | .call name _ _ | .reference name _ => name

end Expr

/-! ## §2. Declarations. -/

/-- A parameter.  Those of an imported function have no name. -/
structure Parameter where
  /-- The name, in a function that has a body. -/
  name : Option Token
  /-- The name of the type. -/
  type : Token
  deriving Repr, DecidableEq

/-- What is known of a function without its body. -/
structure Signature where
  /-- The keyword, or the attribute that imports the function. -/
  keyword : Token
  /-- The name of the function. -/
  name : Token
  /-- The parameters, in order. -/
  parameters : List Parameter
  /-- The name of the type it returns. -/
  returns : Option Token
  deriving Repr, DecidableEq

namespace Signature

/-- The function is defined elsewhere. -/
def isImport (signature : Signature) : Bool :=
  signature.keyword.kind == .attribute

/-- The base type that a call returns. -/
def returnBase? (signature : Signature) : Option BaseType :=
  signature.returns.map fun token => .ofName token.value

/-- The binding of the function's name. -/
def symbol (signature : Signature) : Symbol :=
  ⟨signature.name, signature.keyword, .function signature.returns⟩

@[simp] theorem returnBase?_symbol (signature : Signature) :
    signature.symbol.returnBase? = signature.returnBase? := by
  unfold Symbol.returnBase? symbol returnBase?
  cases signature.returns <;> rfl

end Signature

/-- What stands behind an attribute. -/
inductive AttributeValue where
  /-- A value. -/
  | expression (value : Expr)
  /-- The signature of a function defined elsewhere. -/
  | imported (signature : Signature)

/-- An attribute of the file. -/
structure Attribute where
  /-- The attribute itself, with its at sign. -/
  token : Token
  /-- What stands behind it. -/
  value : Option AttributeValue

/-! ## §3. Statements. -/

mutual

/-- A statement. -/
inductive Stmt where
  /-- A function with its body. -/
  | function (signature : Signature) (body : List Stmt)
  /-- A variable, with its first value if it has one. -/
  | declare (name type : Token) (value : Option Expr)
  /-- A condition, its body, and the rest of the chain. -/
  | conditional (condition : Expr) (body : List Stmt) (otherwise : Otherwise)
  /-- A body that is repeated while a condition holds. -/
  | repeatWhile (condition : Expr) (body : List Stmt)
  /-- The end of a loop. -/
  | leaveLoop (keyword : Token)
  /-- The next round of a loop. -/
  | nextRound (keyword : Token)
  /-- The end of a function, with its value. -/
  | giveBack (keyword : Token) (value : Expr)
  /-- A new value for a variable. -/
  | assign (name : Token) (value : Expr)
  /-- An attribute. -/
  | attribute (attached : Attribute)
  /-- An expression for its effects. -/
  | expression (value : Expr)

/-- What happens when a condition does not hold. -/
inductive Otherwise where
  /-- Nothing. -/
  | nothing
  /-- A body. -/
  | block (body : List Stmt)
  /-- The next condition of the chain. -/
  | chain (condition : Expr) (body : List Stmt) (otherwise : Otherwise)

end

/-! ## §4. Files. -/

/-- A file: its attributes, then its statements. -/
structure Program where
  /-- The attributes, in order. -/
  attributes : List Attribute
  /-- The statements, in order. -/
  statements : List Stmt

namespace Program

/-- The file without content. -/
def empty : Program := ⟨[], []⟩

instance : Inhabited Program := ⟨empty⟩

/-- Attributes may still follow: no statement has been read. -/
def takesAttributes (program : Program) : Bool :=
  program.statements.isEmpty

/-- The file with one more statement.  An attribute is refused once a
statement of another sort has been read. -/
def append (program : Program) : Stmt → Except Error Program
  | .attribute attached =>
    if program.takesAttributes then
      .ok { program with attributes := program.attributes ++ [attached] }
    else .error (.blame .attributeOrder attached.token)
  | stmt => .ok { program with statements := program.statements ++ [stmt] }

end Program

end ImpFront
