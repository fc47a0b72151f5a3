/-
  ImpFront.Grammar.Rules
  ──────────────────────
  **THE RULES OF THE GRAMMAR.**

  Three tables, each keyed by the kind of a token: how a statement goes on
  that begins with it, how an operand does, and how tightly it binds as a
  binary operator.  `standard` is the grammar of the language; tables can be
  changed, and `bare` has nothing in them.
-/
import ImpFront.Token.Kind

namespace ImpFront

/-! ## §1. Precedence. -/

/-- How tightly an operator binds, loosest first. -/
inductive Precedence where
  /-- Looser than every operator. -/
  | lowest
  | logical | bitwise | comparison | additive | multiplicative | power
  /-- The operand of a unary operator. -/
  | unary
  | primary
  deriving Repr, DecidableEq

namespace Precedence

/-- The place of a precedence in the order. -/
def rank : Precedence → Nat
  | .lowest => 0
  | .logical => 1
  | .bitwise => 2
  | .comparison => 3
  | .additive => 4
  | .multiplicative => 5
  | .power => 6
  | .unary => 7
  | .primary => 8

end Precedence

/-! ## §2. Ways to go on. -/

/-- How an operand goes on. -/
inductive OperandRule where
  /-- An operator and its operand. -/
  | unary
  /-- An expression in parentheses. -/
  | grouping
  /-- A literal. -/
  | literal
  /-- A name, or a call. -/
  | identifier
  deriving Repr, DecidableEq

/-- How a statement goes on. -/
inductive StatementRule where
  /-- A condition. -/
  | conditional
  /-- A loop. -/
  | repeatWhile
  /-- The end of a loop. -/
  | leaveLoop
  /-- The next round of a loop. -/
  | nextRound
  /-- The declaration of a function. -/
  | function
  /-- The end of a function. -/
  | giveBack
  /-- The declaration of a variable. -/
  | declare
  /-- An assignment or an expression. -/
  | identifier
  /-- An expression. -/
  | expression
  /-- An attribute. -/
  | attribute
  /-- A statement of any sort. -/
  | any
  deriving Repr, DecidableEq

/-! ## §3. Grammars. -/

/-- The tables of a grammar. -/
structure Grammar where
  /-- How a statement goes on that begins with a token of this kind. -/
  statementRule? : Kind → Option StatementRule
  /-- How an operand goes on that begins with a token of this kind. -/
  operandRule? : Kind → Option OperandRule
  /-- How tightly a token of this kind binds as a binary operator. -/
  precedence? : Kind → Option Precedence

namespace Grammar

/-- The grammar without rules. -/
def bare : Grammar := ⟨fun _ => none, fun _ => none, fun _ => none⟩

instance : Inhabited Grammar := ⟨bare⟩

/-- The grammar in which a kind is a binary operator. -/
def withOperator (g : Grammar) (kind : Kind) (precedence : Precedence) : Grammar :=
  { g with precedence? := fun k => if k = kind then some precedence else g.precedence? k }

/-- The grammar in which a kind begins an operand. -/
def withOperand (g : Grammar) (kind : Kind) (rule : OperandRule) : Grammar :=
  { g with operandRule? := fun k => if k = kind then some rule else g.operandRule? k }

/-- The grammar in which a kind begins a statement. -/
def withStatement (g : Grammar) (kind : Kind) (rule : StatementRule) : Grammar :=
  { g with statementRule? := fun k => if k = kind then some rule else g.statementRule? k }

/-- How tightly the binary operators of the language bind. -/
def standardPrecedence? : Kind → Option Precedence
  | .and | .or | .xor => some .logical
  | .bitAnd | .bitOr | .shiftLeft | .shiftRight => some .bitwise
  | .equals | .notEquals | .less | .greater | .lessEquals | .greaterEquals => some .comparison
  | .plus | .minus => some .additive
  | .multiply | .divide | .modulo => some .multiplicative
  | .power => some .power
  | _ => none

/-- What begins an operand of the language. -/
def standardOperand? : Kind → Option OperandRule
  | .integer | .float | .string | .char | .boolean | .null => some .literal
  | .identifier => some .identifier
  | .openParen => some .grouping
  | .plus | .minus | .not | .bitNot => some .unary
  | _ => none

/-- What begins a statement of the language. -/
def standardStatement? : Kind → Option StatementRule
  | .kwIf => some .conditional
  | .kwWhile => some .repeatWhile
  | .kwBreak => some .leaveLoop
  | .kwContinue => some .nextRound
  | .kwFunc => some .function
  | .kwReturn => some .giveBack
  | .kwVar => some .declare
  | .identifier => some .identifier
  | .attribute => some .attribute
  | .openParen => some .expression
  | _ => none

/-- The grammar of the language. -/
def standard : Grammar := ⟨standardStatement?, standardOperand?, standardPrecedence?⟩

end Grammar

end ImpFront
