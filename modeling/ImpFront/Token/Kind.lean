/-
  ImpFront.Token.Kind
  ───────────────────
  **THE KINDS OF TOKENS.**

  Everything that can be asked of a token before its text is looked at: its
  name, the words a report uses for it, whether it ends a statement, assigns,
  is a keyword, and which operator a compound assignment stands for.
-/

namespace ImpFront

/-! ## §1. The kinds. -/

/-- The kind of a token. -/
inductive Kind where
  -- Layout
  | eof | newline
  -- Names and literals
  | identifier | attribute | integer | float | string | char | boolean | null
  | arrow
  -- Comparison
  | equals | notEquals | less | greater | lessEquals | greaterEquals
  -- Assignment, plain and compound
  | assign | plusAssign | minusAssign | multiplyAssign | divideAssign | powerAssign
  | moduloAssign | andAssign | orAssign | xorAssign | bitAndAssign | bitOrAssign
  | shiftLeftAssign | shiftRightAssign
  -- Arithmetic
  | plus | minus | multiply | divide | power | modulo
  -- Logic
  | and | or | xor | not
  -- Bits
  | bitAnd | bitOr | bitNot | shiftLeft | shiftRight
  -- Brackets
  | openParen | closeParen | openCurly | closeCurly | openBracket | closeBracket
  -- Separators
  | comma | semicolon | colon
  -- Keywords
  | kwIf | kwElse | kwWhile | kwBreak | kwContinue | kwFunc | kwReturn | kwVar
  deriving Repr, DecidableEq, Inhabited

namespace Kind

/-- Every kind, in the order of the definition. -/
def all : List Kind :=
  [.eof, .newline, .identifier, .attribute, .integer, .float, .string, .char, .boolean,
   .null, .arrow, .equals, .notEquals, .less, .greater, .lessEquals, .greaterEquals,
   .assign, .plusAssign, .minusAssign, .multiplyAssign, .divideAssign, .powerAssign,
   .moduloAssign, .andAssign, .orAssign, .xorAssign, .bitAndAssign, .bitOrAssign,
   .shiftLeftAssign, .shiftRightAssign, .plus, .minus, .multiply, .divide, .power,
   .modulo, .and, .or, .xor, .not, .bitAnd, .bitOr, .bitNot, .shiftLeft, .shiftRight,
   .openParen, .closeParen, .openCurly, .closeCurly, .openBracket, .closeBracket, .comma,
   .semicolon, .colon, .kwIf, .kwElse, .kwWhile, .kwBreak, .kwContinue, .kwFunc,
   .kwReturn, .kwVar]

theorem mem_all (kind : Kind) : kind ∈ all := by
  cases kind <;> decide

/-! ## §2. Names. -/

/-- The name of a kind, as dumps and logs write it. -/
def name : Kind → String
  | .eof => "EOF"
  | .newline => "Newline"
  | .identifier => "Identifier"
  | .attribute => "Attribute"
  | .integer => "Integer"
  | .float => "Float"
  | .string => "String"
  | .char => "Char"
  | .boolean => "Boolean"
  | .null => "Null"
  | .arrow => "Arrow"
  | .equals => "Equals"
  | .notEquals => "NotEquals"
  | .less => "Less"
  | .greater => "Greater"
  | .lessEquals => "LessEquals"
  | .greaterEquals => "GreaterEquals"
  | .assign => "Assign"
  | .plusAssign => "PlusAssign"
  | .minusAssign => "MinusAssign"
  | .multiplyAssign => "MultiplyAssign"
  | .divideAssign => "DivideAssign"
  | .powerAssign => "PowerAssign"
  | .moduloAssign => "ModuloAssign"
  | .andAssign => "AndAssign"
  | .orAssign => "OrAssign"
  | .xorAssign => "XorAssign"
  | .bitAndAssign => "BitwiseAndAssign"
  | .bitOrAssign => "BitwiseOrAssign"
  | .shiftLeftAssign => "BitwiseLeftShiftAssign"
  | .shiftRightAssign => "BitwiseRightShiftAssign"
  | .plus => "Plus"
  | .minus => "Minus"
  | .multiply => "Multiply"
  | .divide => "Divide"
  | .power => "Power"
  | .modulo => "Modulo"
  | .and => "And"
  | .or => "Or"
  | .xor => "Xor"
  | .not => "Not"
  | .bitAnd => "BitwiseAnd"
  | .bitOr => "BitwiseOr"
  | .bitNot => "BitwiseNot"
  | .shiftLeft => "BitwiseLeftShift"
  | .shiftRight => "BitwiseRightShift"
  | .openParen => "OpenParen"
  | .closeParen => "CloseParen"
  | .openCurly => "OpenCurly"
  | .closeCurly => "CloseCurly"
  | .openBracket => "OpenBracket"
  | .closeBracket => "CloseBracket"
  | .comma => "Comma"
  | .semicolon => "Semicolon"
  | .colon => "Colon"
  | .kwIf => "If"
  | .kwElse => "Else"
  | .kwWhile => "While"
  | .kwBreak => "Break"
  | .kwContinue => "Continue"
  | .kwFunc => "Func"
  | .kwReturn => "Return"
  | .kwVar => "Var"

/-- The kind of a name. -/
def ofName? (name : String) : Option Kind :=
  all.find? fun kind => kind.name == name

/-! ## §3. Classes. -/

/-- The word is reserved for the shape of statements. -/
def isKeyword : Kind → Bool
  | .kwIf | .kwElse | .kwWhile | .kwBreak | .kwContinue | .kwFunc | .kwReturn | .kwVar => true
  | _ => false

/-- The text of the token is worth repeating to the reader of a report. -/
def carriesValue : Kind → Bool
  | .identifier | .attribute | .integer | .float | .string | .char => true
  | kind => kind.isKeyword

/-- The binary operator that a compound assignment applies. -/
def compoundOperator? : Kind → Option Kind
  | .plusAssign => some .plus
  | .minusAssign => some .minus
  | .multiplyAssign => some .multiply
  | .divideAssign => some .divide
  | .powerAssign => some .power
  | .moduloAssign => some .modulo
  | .andAssign => some .and
  | .orAssign => some .or
  | .xorAssign => some .xor
  | .bitAndAssign => some .bitAnd
  | .bitOrAssign => some .bitOr
  | .shiftLeftAssign => some .shiftLeft
  | .shiftRightAssign => some .shiftRight
  | _ => none

/-- The token assigns, plainly or with an operator. -/
def isAssignment (kind : Kind) : Bool :=
  kind.compoundOperator?.isSome || kind == .assign

/-- The token separates two statements. -/
def isTerminator : Kind → Bool
  | .newline | .semicolon => true
  | _ => false

/-! ## §4. Words for reports. -/

/-- The words for a kind: a phrase for what has one, else its class. -/
def describe : Kind → String
  | .eof => "end of file"
  | .newline => "newline"
  | .identifier => "identifier"
  | .attribute => "attribute"
  | .integer => "integer"
  | .float => "float"
  | .string => "string"
  | .char => "char"
  | .boolean => "boolean"
  | .null => "null"
  | .arrow => "arrow"
  | .assign => "assignment operator"
  | .openParen => "opening parenthesis"
  | .closeParen => "closing parenthesis"
  | .openCurly => "opening brace"
  | .closeCurly => "closing brace"
  | .openBracket => "opening bracket"
  | .closeBracket => "closing bracket"
  | .comma => "comma"
  | .semicolon => "semicolon"
  | .colon => "colon"
  | kind =>
    if kind.isKeyword then "keyword"
    else if kind.isAssignment then "compound assignment"
    else "operator"

/-- The kind has no phrase of its own, so that its text has to name it. -/
def isOperator (kind : Kind) : Bool :=
  kind.describe == "operator" || kind.describe == "compound assignment"

end Kind

end ImpFront
