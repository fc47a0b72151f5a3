/-
  ImpFront.Grammar.Expression
  ───────────────────────────
  **READING EXPRESSIONS.**

  An expression is an operand and then, as long as the next operator binds
  tighter than the surroundings, that operator and its right operand.

      expr limit  =  operand, then (operator, expr) while it binds tighter

  The rules take the reader of expressions as an argument.  It is tied to
  itself in `exprWithin`, which descends at most as deep as its bound; the
  tokens ahead are a bound that is never met, since every descent has taken a
  token.
-/
import ImpFront.Grammar.Parser
import ImpFront.Grammar.Rules
import ImpFront.Tree.Basic

namespace ImpFront

open Parse

namespace Expression

/-! ## §1. Operands. -/

/-- A literal. -/
def literal : Parse Expr := do
  let token ← current
  match BaseType.ofLiteral? token.kind with
  | none => unexpected "literal"
  | some type =>
    let _ ← advance
    return .literal token type

/-- A unary operator and its operand, which is a number. -/
def unary (expr : Precedence → Parse Expr) : Parse Expr := do
  let operator ← advance
  let operand ← expr .unary
  match operand.base?.bind BaseType.unary? with
  | none =>
    let found := BaseType.describe operand.base?
    throw (.blame (.illegalUnaryOperation operator.value found) operator)
  | some type => return .unary operator.kind operator operand type

/-- An expression in parentheses, which leave no trace in the tree. -/
def grouping (expr : Precedence → Parse Expr) : Parse Expr := do
  let _ ← advance
  let inner ← expr .lowest
  let _ ← expect .closeParen
  return inner

/-- The base type behind a visible name. -/
def visibleType (name : Token) : Parse BaseType := do
  match (← scopes).declaredType name with
  | .ok declared => return .ofDeclaration declared
  | .error error => throw error

/-- A name that stands for a value.  In the value of an attribute a built-in
type stands for itself and a function may be named; anywhere else a function
has to be called. -/
def reference : Parse Expr := do
  let name ← advance
  if (← scopes).inAttribute then
    match DeclaredType.builtin? name.value with
    | some type => return .reference name type.base
    | none => return .reference name (← visibleType name)
  else
    let type ← visibleType name
    if type = .function then throw (.blame (.functionAsValue name.value) name)
    else return .reference name type

/-! ## §2. Calls. -/

/-- The arguments of a call up to and with the closing parenthesis, in at
most so many rounds. -/
def argumentsWithin (expr : Precedence → Parse Expr) : Nat → Parse (List Expr)
  | 0 => stall
  | rounds + 1 => do
    match ← currentKind with
    | .closeParen =>
      let _ ← advance
      return []
    | .eof => unexpected Kind.closeParen.describe
    | _ =>
      let argument ← expr .lowest
      if (← currentKind) = .comma then
        let _ ← advance
      let _ ← skipNewlines
      let rest ← argumentsWithin expr rounds
      return argument :: rest

/-- The arguments of a call up to and with the closing parenthesis. -/
def arguments (expr : Precedence → Parse Expr) : Parse (List Expr) := do
  let _ ← skipNewlines
  argumentsWithin expr (← budget)

/-- The callee may be called: it is a function, or not visible yet, in which
case the call waits for its definition. -/
def callee (name : Token) : Parse Unit := do
  if ((← scopes).lookup? name.value).any fun symbol => !symbol.isFunction then
    throw (.blame (.notAFunction name.value) name)
  mark name

/-- A name and its arguments.  The name is looked up only if it is to be
called, not if it is declared here. -/
def application (expr : Precedence → Parse Expr) (called : Bool) :
    Parse (Token × List Expr) := do
  let name ← expect .identifier
  let _ ← expect .openParen
  if called then callee name
  return (name, ← arguments expr)

/-- The type that a call returns: that of the visible function, or else the
one that its declaration further down gives. -/
def returnType (name : Token) : Parse (Option BaseType) := do
  match (← scopes).visibleFunction? name.value with
  | some symbol => return symbol.returnBase?
  | none =>
    let type := (← get).cursor.returnTypeAhead? name.value
    record (.typedAhead name.value type)
    return type

/-- A call. -/
def call (expr : Precedence → Parse Expr) : Parse Expr := do
  let (name, arguments) ← application expr true
  return .call name arguments (← returnType name)

/-- A name: a call if a parenthesis follows, a reference otherwise. -/
def identifier (expr : Precedence → Parse Expr) : Parse Expr := do
  if (← peek 1).kind = .openParen then call expr else reference

/-- The operand of a rule. -/
def operand (expr : Precedence → Parse Expr) : OperandRule → Parse Expr
  | .unary => unary expr
  | .grouping => grouping expr
  | .literal => literal
  | .identifier => identifier expr

/-! ## §3. Operators. -/

/-- A binary operator and its right operand, behind the left one. -/
def binary (expr : Precedence → Parse Expr) (left : Expr) (precedence : Precedence) :
    Parse Expr := do
  let operator ← advance
  let right ← expr precedence
  let type := do BaseType.binary? (← left.base?) (← right.base?)
  match type with
  | none =>
    let found := BaseType.describe left.base?
    let other := BaseType.describe right.base?
    throw (.blame (.illegalOperation operator.value found other) operator)
  | some type => return .binary operator.kind operator left right type

/-- The operators behind an operand that bind tighter than `limit`, in at
most so many rounds. -/
def operatorsWithin (g : Grammar) (expr : Precedence → Parse Expr) (limit : Precedence) :
    Nat → Expr → Parse Expr
  | 0, _ => stall
  | rounds + 1, left => do
    match g.precedence? (← currentKind) with
    | none => return left
    | some next =>
      if next.rank ≤ limit.rank then return left
      else operatorsWithin g expr limit rounds (← binary expr left next)

/-- The operators behind an operand that bind tighter than `limit`. -/
def operators (g : Grammar) (expr : Precedence → Parse Expr) (limit : Precedence)
    (left : Expr) : Parse Expr := do
  operatorsWithin g expr limit (← budget) left

end Expression

/-! ## §4. Expressions. -/

namespace Grammar

/-- An expression that ends before an operator which binds no tighter than `limit`,
of at most such a depth. -/
def exprWithin (g : Grammar) : Nat → Precedence → Parse Expr
  | 0, _ => stall
  | depth + 1, limit => do
    match g.operandRule? (← currentKind) with
    | none =>
      let token ← current
      throw (.blame (.expectedExpression token.describe) token)
    | some rule =>
      let left ← Expression.operand (exprWithin g depth) rule
      Expression.operators g (exprWithin g depth) limit left

/-- An expression that ends before an operator which binds no tighter than
`limit`. -/
def expr (g : Grammar) (limit : Precedence) : Parse Expr := do
  exprWithin g (← budget) limit

/-- The operand of a rule, whatever the token at the cursor. -/
def operand (g : Grammar) (rule : OperandRule) : Parse Expr :=
  Expression.operand g.expr rule

end Grammar

end ImpFront
