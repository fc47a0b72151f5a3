/-
  ImpFront.Grammar.Statement
  ──────────────────────────
  **READING STATEMENTS.**

  The first token of a statement tells how it goes on, and behind it a place
  must come where a statement may end.  Names are bound as soon as they are
  read: parameters one by one, a function once without its body, so that the
  body can call it, and once more behind it.

  The rules take the reader of statements as an argument, which is tied to
  itself in `statementWithin` as that of expressions is.
-/
import ImpFront.Grammar.Expression

namespace ImpFront

open Parse

namespace Statement

/-! ## §1. Blocks. -/

/-- The statements of a block up to its closing brace, in at most so many
rounds. -/
def bodyWithin (statement : Parse Stmt) : Nat → Parse (List Stmt)
  | 0 => stall
  | rounds + 1 => do
    match ← currentKind with
    | .closeCurly => return []
    | .eof => unexpected Kind.closeCurly.describe
    | _ =>
      let first ← statement
      let _ ← skipTerminators
      let rest ← bodyWithin statement rounds
      return first :: rest

/-- Statements between braces. -/
def block (statement : Parse Stmt) : Parse (List Stmt) := do
  let _ ← expect .openCurly
  enterBlock
  let _ ← skipTerminators
  let body ← bodyWithin statement (← budget)
  exitBlock
  let _ ← expect .closeCurly
  return body

/-- A block in a frame of its own, opened at a token. -/
def framed (statement : Parse Stmt) (kind : FrameKind) (place : Token) :
    Parse (List Stmt) := do
  enterScope kind place
  let body ← block statement
  exitScope kind
  return body

/-! ## §2. Conditions and loops. -/

/-- A chain of conditions, of at most such a length.  Line ends behind a body
are given back unless the chain goes on behind them. -/
def chainWithin (g : Grammar) (statement : Parse Stmt) :
    Nat → Parse (Expr × List Stmt × Otherwise)
  | 0 => stall
  | rounds + 1 => do
    let keyword ← advance
    let condition ← g.expr .lowest
    let _ ← skipNewlines
    let body ← framed statement .conditional keyword
    let skipped ← skipNewlines
    if (← currentKind) = .kwElse then
      let keyword ← advance
      let _ ← skipNewlines
      enterScope .conditional keyword
      let otherwise ← if (← currentKind) = .kwIf then do
          let (condition, body, otherwise) ← chainWithin g statement rounds
          pure (Otherwise.chain condition body otherwise)
        else do
          pure (Otherwise.block (← block statement))
      exitScope .conditional
      return (condition, body, otherwise)
    else
      rewind skipped
      return (condition, body, .nothing)

/-- A chain of conditions. -/
def conditional (g : Grammar) (statement : Parse Stmt) : Parse Stmt := do
  let (condition, body, otherwise) ← chainWithin g statement (← budget)
  return .conditional condition body otherwise

/-- A loop. -/
def repeatWhile (g : Grammar) (statement : Parse Stmt) : Parse Stmt := do
  let keyword ← advance
  let condition ← g.expr .lowest
  let _ ← skipNewlines
  let body ← framed statement .loop keyword
  return .repeatWhile condition body

/-! ## §3. Functions. -/

/-- The parameters of a function up to and with the closing parenthesis, each
bound as it is read, in at most so many rounds. -/
def parametersWithin : Nat → Parse (List Parameter)
  | 0 => stall
  | rounds + 1 => do
    if (← currentKind) = .closeParen then
      let _ ← advance
      return []
    else
      let name ← expect .identifier
      let _ ← expect .colon
      let type ← expect .identifier
      define ⟨name, type, .parameter⟩
      if (← currentKind) = .comma then
        let _ ← advance
      let _ ← skipNewlines
      let rest ← parametersWithin rounds
      return ⟨some name, type⟩ :: rest

/-- The parameters of a function up to and with the closing parenthesis. -/
def parameters : Parse (List Parameter) := do
  let _ ← skipNewlines
  parametersWithin (← budget)

/-- An arrow and a type, if there is an arrow. -/
def returnType : Parse (Option Token) := do
  if (← currentKind) = .arrow then
    let _ ← advance
    return some (← expect .identifier)
  else return none

/-- A function.  Its name is bound inside it for the sake of its body, and
outside it for the rest of the file. -/
def function (statement : Parse Stmt) : Parse Stmt := do
  let keyword ← advance
  let name ← expect .identifier
  let _ ← expect .openParen
  enterScope .function keyword
  let parameters ← parameters
  let returns ← returnType
  let _ ← skipNewlines
  let signature : Signature := ⟨keyword, name, parameters, returns⟩
  define signature.symbol
  let body ← block statement
  exitScope .function
  delete name.value
  define signature.symbol
  record (.function name.value parameters.length)
  return .function signature body

/-- The end of a function.  Without a value it gives back the null literal,
placed at the keyword. -/
def giveBack (g : Grammar) : Parse Stmt := do
  let keyword ← advance
  if ← atStatementEnd then
    return .giveBack keyword (.literal ⟨.null, "null", keyword.position⟩ .null)
  else return .giveBack keyword (← g.expr .lowest)

/-! ## §4. Variables. -/

/-- The literal that a value is, perhaps behind a minus sign. -/
def literal? : Expr → Option (Bool × Token)
  | .literal token _ => some (false, token)
  | .unary .minus _ (.literal token _) _ => some (true, token)
  | _ => none

/-- The range of an integer type in words. -/
def rangeText (type : DeclaredType) : String :=
  match type.bounds? with
  | some (least, largest) => s!" ({least}..={largest})"
  | none => ""

/-- The warning about a literal that does not fit its type. -/
def rangeWarning? (type : DeclaredType) (value : Expr) : Option Note := do
  let (negative, token) ← literal? value
  let excluded := match token.kind with
    | .integer =>
      let word := Text.integerWord token.value.toList
      type.excludes (if negative then -word else word)
    | .float => type.overflowsAt (Text.decimal? token.value.toList)
    | _ => false
  let sign := if negative then "-" else ""
  let message := s!"literal {sign}{token.value} is out of range for type '{type.name}'"
    ++ rangeText type
  let length := token.length + if negative then 1 else 0
  if excluded then some ⟨message, value.token.position, length⟩ else none

/-- A value has the base type that its place asks for, or the operator in
front of it is to blame. -/
def expectType (expected : BaseType) (value : Expr) (operator : Token) : Parse Unit := do
  unless value.base? = some expected do
    let received := BaseType.describe value.base?
    throw (.blame (.typeMismatch expected.name received) operator)

/-- A variable, with its first value if an assignment sign follows. -/
def declare (g : Grammar) : Parse Stmt := do
  let _ ← advance
  let name ← expect .identifier
  let _ ← expect .colon
  let type ← expect .identifier
  if ← atStatementEnd then
    define ⟨name, type, .variable⟩
    return .declare name type none
  else if (← currentKind) = .assign then
    let operator ← advance
    let value ← g.expr .lowest
    let declared := DeclaredType.ofName type.value
    expectType declared.base value operator
    match rangeWarning? declared value with
    | some note => warn note
    | none => pure ()
    define ⟨name, type, .variable⟩
    return .declare name type (some value)
  else unexpected "newline, semicolon or assignment"

/-- The value that a compound assignment gives to a variable: the operator it
stands for, applied to the variable and the value read. -/
def compoundValue (operator : Token) (name : Token) (type : BaseType) (value : Expr) :
    Parse Expr := do
  match operator.kind.compoundOperator? with
  | none => return value
  | some applied =>
    match BaseType.binary? type type with
    | none => throw (.blame (.illegalOperation operator.value type.name type.name) operator)
    | some result => return .binary applied operator (.reference name type) value result

/-- A new value for a variable. -/
def assign (g : Grammar) : Parse Stmt := do
  let name ← advance
  let operator ← advance
  let value ← g.expr .lowest
  match (← scopes).lookup? name.value with
  | none => throw (.blame (.assignToUndeclared name.value) name)
  | some symbol =>
    let expected := symbol.declaredBase
    expectType expected value operator
    return .assign name (← compoundValue operator name expected value)

/-- An expression for its effects. -/
def expression (g : Grammar) : Parse Stmt := do
  return .expression (← g.expr .lowest)

/-- An assignment if an assigning token comes next, an expression otherwise. -/
def identifier (g : Grammar) : Parse Stmt := do
  if (← peek 1).kind.isAssignment then assign g else expression g

/-! ## §5. Attributes. -/

/-- The parameter that an argument of an imported function declares. -/
def importedParameter (argument : Expr) : Except Error Parameter :=
  match argument with
  | .reference name _ => .ok ⟨none, name⟩
  | other => .error (.blame (.expectedArgumentType other.token.value) other.token)

/-- The signature of a function that is defined elsewhere. -/
def imported (g : Grammar) (keyword : Token) : Parse Signature := do
  if keyword.value ≠ Token.importAttribute then
    throw (.blame (.symbolOutsideImport keyword.value) keyword)
  let (name, arguments) ← Expression.application g.expr false
  match arguments.mapM importedParameter with
  | .error error => throw error
  | .ok parameters =>
    let returns ← returnType
    let signature : Signature := ⟨keyword, name, parameters, returns⟩
    define signature.symbol
    record (.imported name.value)
    return signature

/-- The value of an attribute: a signature if it looks like a call, an
expression otherwise. -/
def attributeValue (g : Grammar) (keyword : Token) : Parse AttributeValue := do
  if (← currentKind) = .identifier && (← peek 1).kind = .openParen then
    return .imported (← imported g keyword)
  else return .expression (← g.expr .lowest)

/-- The value of an attribute goes to the end of its line. -/
def attributeEnd : Parse Unit := do
  let token ← current
  match token.kind with
  | .newline | .semicolon | .eof => return ()
  | _ => throw (.blame (.expectedAttributeTerminator token.describe) token)

/-- An attribute, with its value if it has one. -/
def attributed (g : Grammar) : Parse Stmt := do
  let keyword ← advance
  if ← atStatementEnd then return .attribute ⟨keyword, none⟩
  else
    enterScope .attribute keyword
    let value ← attributeValue g keyword
    attributeEnd
    exitScope .attribute
    return .attribute ⟨keyword, some value⟩

/-! ## §6. Any statement. -/

/-- The statement of a rule, whatever the token at the cursor. -/
def ofRule (g : Grammar) (statement : Parse Stmt) : StatementRule → Parse Stmt
  | .conditional => conditional g statement
  | .repeatWhile => repeatWhile g statement
  | .leaveLoop => return .leaveLoop (← advance)
  | .nextRound => return .nextRound (← advance)
  | .function => function statement
  | .giveBack => giveBack g
  | .declare => declare g
  | .identifier => identifier g
  | .expression => expression g
  | .attribute => attributed g
  | .any => statement

/-- The error of a token that begins no statement. -/
def noStatement (token : Token) : Error :=
  if token.kind.isKeyword then .blame (.unexpectedKeyword token.value) token
  else .blame (.unexpected "statement" token.describe) token

/-- A statement may end at the cursor. -/
def terminated : Parse Unit := do
  unless ← atStatementEnd do
    let token ← current
    throw (.blame (.expectedTerminator token.describe) token)

end Statement

namespace Grammar

/-- A statement, of at most such a depth. -/
def statementWithin (g : Grammar) : Nat → Parse Stmt
  | 0 => stall
  | depth + 1 => do
    let token ← current
    match g.statementRule? token.kind with
    | none => throw (Statement.noStatement token)
    | some rule =>
      let stmt ← Statement.ofRule g (statementWithin g depth) rule
      Statement.terminated
      return stmt

/-- A statement. -/
def statement (g : Grammar) : Parse Stmt := do
  statementWithin g (← budget)

/-- Statements between braces. -/
def block (g : Grammar) : Parse (List Stmt) :=
  Statement.block g.statement

/-- The statement of a rule, whatever the token at the cursor. -/
def statementOf (g : Grammar) (rule : StatementRule) : Parse Stmt :=
  Statement.ofRule g g.statement rule

end Grammar

end ImpFront
