/-
  ImpFront.Proofs.Grammar.Recursion
  ─────────────────────────────────
  **THE GRAMMAR WITHOUT BOUNDS.**

  Each loop of the grammar is named here together with what one of its rounds
  does, and the readers are shown to be solutions of the recursion that the
  rules describe, in which no bound occurs:

      loop  =  if it ends here then its end, else one round and then loop

  A solution that always comes to an end is what a reader without bounds
  computes, so the bounds are an aid of the definitions and nothing else.
-/
import ImpFront.Proofs.Grammar.Bounds

namespace ImpFront

open Parse

/-! ## §1. Loops and their rounds. -/

namespace Statement

/-- The parameters of a function from one of them on. -/
def parameterList : Parse (List Parameter) := do
  parametersWithin (← budget)

/-- One parameter, with the comma and the line ends behind it. -/
def parameterRound : Parse Parameter := do
  let name ← expect .identifier
  let _ ← expect .colon
  let type ← expect .identifier
  define ⟨name, type, .parameter⟩
  if (← currentKind) = .comma then
    let _ ← advance
  let _ ← skipNewlines
  return ⟨some name, type⟩

end Statement

namespace Grammar

/-- The arguments of a call from one of them on. -/
def argumentList (g : Grammar) : Parse (List Expr) := do
  Expression.argumentsWithin g.expr (← budget)

/-- One argument, with the comma and the line ends behind it. -/
def argumentRound (g : Grammar) : Parse Expr := do
  let argument ← g.expr .lowest
  if (← currentKind) = .comma then
    let _ ← advance
  let _ ← skipNewlines
  return argument

/-- The operators behind an operand that bind tighter than `limit`. -/
def operators (g : Grammar) : Precedence → Expr → Parse Expr :=
  Expression.operators g g.expr

/-- One operator and its right operand. -/
def operatorRound (g : Grammar) : Expr → Precedence → Parse Expr :=
  Expression.binary g.expr

/-- The statements of a block from one of them on. -/
def body (g : Grammar) : Parse (List Stmt) := do
  Statement.bodyWithin g.statement (← budget)

/-- One statement of a block, with the separators behind it. -/
def bodyRound (g : Grammar) : Parse Stmt := do
  let stmt ← g.statement
  let _ ← skipTerminators
  return stmt

/-- A chain of conditions. -/
def chain (g : Grammar) : Parse (Expr × List Stmt × Otherwise) := do
  Statement.chainWithin g g.statement (← budget)

/-- One condition of a chain and its body. -/
def link (g : Grammar) : Parse (Expr × List Stmt) := do
  let keyword ← advance
  let condition ← g.expr .lowest
  let _ ← skipNewlines
  return (condition, ← Statement.framed g.statement .conditional keyword)

/-- The statements of a file behind those read so far. -/
def statements (g : Grammar) (before : Program) : Parse Program := do
  g.statementsWithin (← budget) before

/-- One statement of a file. -/
def statementRound (g : Grammar) (before : Program) : Parse Program := do
  let stmt ← g.statement
  match before.append stmt with
  | .error error => throw error
  | .ok longer =>
    match stmt with
    | .attribute attached => record (.appended attached.token.value)
    | _ => pure ()
    return longer

/-! ## §2. The recursion. -/

/-- The readers of a grammar solve the recursion of its rules. -/
structure Recursive (g : Grammar) : Prop where
  /-- An expression is an operand with operators behind it. -/
  expr : ∀ limit, g.expr limit = do
    match g.operandRule? (← currentKind) with
    | none =>
      let token ← current
      throw (.blame (.expectedExpression token.describe) token)
    | some rule => g.operators limit (← g.operand rule)
  /-- Operators are taken as long as they bind tighter. -/
  operators : ∀ limit left, g.operators limit left = do
    match g.precedence? (← currentKind) with
    | none => return left
    | some next =>
      if next.rank ≤ limit.rank then return left
      else g.operators limit (← g.operatorRound left next)
  /-- Arguments end at the closing parenthesis. -/
  arguments : g.argumentList = do
    match ← currentKind with
    | .closeParen =>
      let _ ← advance
      return []
    | .eof => unexpected Kind.closeParen.describe
    | _ =>
      let argument ← g.argumentRound
      return argument :: (← g.argumentList)
  /-- Parameters end at the closing parenthesis. -/
  parameters : Statement.parameterList = do
    if (← currentKind) = .closeParen then
      let _ ← advance
      return []
    else
      let parameter ← Statement.parameterRound
      return parameter :: (← Statement.parameterList)
  /-- A statement goes on as its first token tells, to where it may end. -/
  statement : g.statement = do
    let token ← current
    match g.statementRule? token.kind with
    | none => throw (Statement.noStatement token)
    | some rule =>
      let stmt ← g.statementOf rule
      Statement.terminated
      return stmt
  /-- Statements of a block end at the closing brace. -/
  body : g.body = do
    match ← currentKind with
    | .closeCurly => return []
    | .eof => unexpected Kind.closeCurly.describe
    | _ =>
      let first ← g.bodyRound
      return first :: (← g.body)
  /-- Line ends behind a body are given back unless the chain goes on. -/
  chain : g.chain = do
    let (condition, body) ← g.link
    let skipped ← skipNewlines
    if (← currentKind) = .kwElse then
      let keyword ← advance
      let _ ← skipNewlines
      enterScope .conditional keyword
      let otherwise ← if (← currentKind) = .kwIf then do
          let (condition, body, otherwise) ← g.chain
          pure (Otherwise.chain condition body otherwise)
        else do
          pure (Otherwise.block (← g.block))
      exitScope .conditional
      return (condition, body, otherwise)
    else
      rewind skipped
      return (condition, body, .nothing)
  /-- Statements of a file end at an end token. -/
  statements : ∀ before, g.statements before = do
    let _ ← skipTerminators
    if (← currentKind) = .eof then return before
    else g.statements (← g.statementRound before)

variable {g : Grammar}

/-- **The readers solve the recursion of the rules, in which no bound occurs.** -/
theorem recursive (hg : g.Productive) : g.Recursive where
  expr limit := by
    refine (bounded_exprWithin hg limit).eq fun depth => .bind (.refl _) fun kind => ?_
    have inner := agrees_expr hg depth
    cases g.operandRule? kind with
    | none => exact .refl _
    | some rule =>
        exact .bind (Expression.agrees_operand inner rule) fun left =>
          Expression.agrees_operators g inner limit left
  operators limit left := by
    refine (bounded_operatorsWithin hg limit left).eq fun rounds => .bind (.refl _) fun kind => ?_
    cases g.precedence? kind with
    | none => exact .refl _
    | some next =>
        dsimp only
        split
        · exact .refl _
        · exact .bind (.refl _) fun longer =>
            (bounded_operatorsWithin hg limit longer).agrees rounds
  arguments := by
    refine (bounded_argumentsWithin hg).eq fun rounds => .bind (.refl _) fun kind => ?_
    have rest : Agrees (Expression.argumentsWithin g.expr rounds) g.argumentList :=
      (bounded_argumentsWithin hg).agrees rounds
    split
    · exact .refl _
    · exact .refl _
    · simp only [argumentRound, bind_assoc]
      refine .bind (.refl _) fun argument => .bind (.refl _) fun next => ?_
      split
      · simp only [bind_assoc, pure_bind]
        exact .bind (.refl _) fun _ => .bind (.refl _) fun _ => .bind rest fun _ => .refl _
      · simp only [bind_assoc, pure_bind]
        exact .bind (.refl _) fun _ => .bind rest fun _ => .refl _
  parameters := by
    refine Statement.bounded_parametersWithin.eq fun rounds => .bind (.refl _) fun kind => ?_
    have rest : Agrees (Statement.parametersWithin rounds) Statement.parameterList :=
      Statement.bounded_parametersWithin.agrees rounds
    split
    · exact .refl _
    · simp only [Statement.parameterRound, bind_assoc]
      refine .bind (.refl _) fun name => .bind (.refl _) fun _ => ?_
      refine .bind (.refl _) fun type => .bind (.refl _) fun _ => .bind (.refl _) fun next => ?_
      split
      · simp only [bind_assoc, pure_bind]
        exact .bind (.refl _) fun _ => .bind (.refl _) fun _ => .bind rest fun _ => .refl _
      · simp only [bind_assoc, pure_bind]
        exact .bind (.refl _) fun _ => .bind rest fun _ => .refl _
  statement := by
    refine (bounded_statementWithin hg).eq fun depth => .bind (.refl _) fun token => ?_
    cases g.statementRule? token.kind with
    | none => exact .refl _
    | some rule =>
        exact .bind (Statement.agrees_ofRule (agrees_statement hg depth) rule) fun _ => .refl _
  body := by
    refine (bounded_bodyWithin hg).eq fun rounds => .bind (.refl _) fun kind => ?_
    have rest : Agrees (Statement.bodyWithin g.statement rounds) g.body :=
      (bounded_bodyWithin hg).agrees rounds
    split
    · exact .refl _
    · exact .refl _
    · simp only [bodyRound, bind_assoc, pure_bind]
      exact .bind (.refl _) fun _ => .bind (.refl _) fun _ => .bind rest fun _ => .refl _
  chain := by
    refine (bounded_chainWithin hg).eq fun rounds => ?_
    have rest : Agrees (Statement.chainWithin g g.statement rounds) g.chain :=
      (bounded_chainWithin hg).agrees rounds
    simp only [link, bind_assoc, pure_bind]
    refine .bind (.refl _) fun keyword => .bind (.refl _) fun condition => ?_
    refine .bind (.refl _) fun _ => .bind (.refl _) fun body => ?_
    refine .bind (.refl _) fun skipped => .bind (.refl _) fun kind => ?_
    split
    · refine .bind (.refl _) fun keyword => .bind (.refl _) fun _ => ?_
      refine .bind (.refl _) fun _ => .bind (.refl _) fun kind => ?_
      split
      · exact .bind rest fun _ => .refl _
      · exact .refl _
    · exact .refl _
  statements before := by
    refine (bounded_statementsWithin hg before).eq fun rounds => ?_
    refine .bind (.refl _) fun _ => .bind (.refl _) fun kind => ?_
    split
    · exact .refl _
    · simp only [statementRound, bind_assoc]
      refine .bind (.refl _) fun stmt => ?_
      cases before.append stmt with
      | error error => exact .refl _
      | ok longer =>
          have rest : Agrees (g.statementsWithin rounds longer) (g.statements longer) :=
            (bounded_statementsWithin hg longer).agrees rounds
          cases stmt with
          | «attribute» attached => exact .bind (.refl _) fun _ => rest
          | _ => exact rest

end Grammar

end ImpFront
