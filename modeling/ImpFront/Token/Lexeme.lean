/-
  ImpFront.Token.Lexeme
  ─────────────────────
  **LEXEMES AND THEIR RULES.**

  A shape is a set of texts, given by how far a member reaches from the
  start of what is left to read.  The rules list the shapes in order of
  priority, each with what its lexeme becomes: a token of a fixed kind, a
  word that may be reserved, or nothing.

      lexeme? cs = some (rule, n)  →  0 < n

  Longer operators stand above those that begin them, so the first rule that
  matches is also the one that reaches furthest.
-/
import ImpFront.Token.Kind
import ImpFront.Text.Numeral

namespace ImpFront

open Text (isDigit)

/-! ## §1. Characters of words. -/

/-- An ASCII letter. -/
def isLetter (c : Char) : Bool :=
  ('a' ≤ c && c ≤ 'z') || ('A' ≤ c && c ≤ 'Z')

/-- A character that may begin a word. -/
def isWordStart (c : Char) : Bool :=
  isLetter c || c == '_'

/-- A character that may continue a word. -/
def isWordPart (c : Char) : Bool :=
  isWordStart c || isDigit c

/-! ## §2. Shapes. -/

/-- A set of lexemes. -/
inductive Shape where
  /-- An at sign, a letter, and letters, digits and underscores. -/
  | attribute
  /-- Names joined by points. -/
  | word
  /-- Digits with a point before the last run of them. -/
  | decimal
  /-- Digits. -/
  | integer
  /-- Anything between two double quotes on one line. -/
  | string
  /-- One character, or a backslash and one character, in single quotes. -/
  | character
  /-- A number sign and the rest of its line. -/
  | comment
  /-- Blanks within a line. -/
  | blanks
  /-- One fixed text. -/
  | exactly (lexeme : List Char)
  deriving Repr, DecidableEq

namespace Shape

/-- How far a word goes on: through its own characters, and through each
point that another name follows. -/
def wordLength : List Char → Nat
  | [] => 0
  | c :: rest =>
    if isWordPart c then wordLength rest + 1
    else if c = '.' && (rest.head?.any isWordStart) then wordLength rest + 1
    else 0

/-- The number of characters before the first double quote of the line. -/
def quoteDistance? : List Char → Option Nat
  | [] => none
  | c :: rest =>
    if c = '\x22' then some 0
    else if c = '\n' then none
    else (quoteDistance? rest).map (· + 1)

/-- A blank that may stand between two tokens of a line. -/
def isSeparator (c : Char) : Bool :=
  c == ' ' || c == '\t' || c == '\r' || c == '\x0c'

/-- The length of a run, unless it is empty. -/
def runLength? (p : Char → Bool) (cs : List Char) : Option Nat :=
  match (cs.takeWhile p).length with
  | 0 => none
  | n + 1 => some (n + 1)

/-- The length of the lexeme of this shape that the text begins with. -/
def measure? : Shape → List Char → Option Nat
  | .attribute, '@' :: c :: rest =>
    if isLetter c then some ((rest.takeWhile isWordPart).length + 2) else none
  | .word, c :: rest =>
    if isWordStart c then some (wordLength rest + 1) else none
  | .decimal, cs =>
    match cs.dropWhile isDigit with
    | '.' :: rest =>
      (runLength? isDigit rest).map fun n => (cs.takeWhile isDigit).length + 1 + n
    | _ => none
  | .integer, cs => runLength? isDigit cs
  | .string, '\x22' :: rest => (quoteDistance? rest).map (· + 2)
  | .character, '\x27' :: '\\' :: c :: '\x27' :: _ => if c = '\n' then none else some 4
  | .character, '\x27' :: c :: '\x27' :: _ =>
    if c = '\\' || c = '\x27' then none else some 3
  | .comment, '#' :: rest => some ((rest.takeWhile (· != '\n')).length + 1)
  | .blanks, cs => runLength? isSeparator cs
  | .exactly lexeme, cs =>
    if !lexeme.isEmpty && lexeme.isPrefixOf cs then some lexeme.length else none
  | _, _ => none

theorem runLength?_pos {p : Char → Bool} {cs : List Char} {n : Nat}
    (h : runLength? p cs = some n) : 0 < n := by
  unfold runLength? at h
  split at h
  · contradiction
  · cases h
    omega

/-- A lexeme has at least one character. -/
theorem measure?_pos {shape : Shape} {cs : List Char} {n : Nat}
    (h : shape.measure? cs = some n) : 0 < n := by
  unfold measure? at h
  split at h
  all_goals first
    | exact runLength?_pos h
    | contradiction
    | skip
  · split at h <;> grind
  · split at h <;> grind
  · split at h
    · obtain ⟨m, _, rfl⟩ := Option.map_eq_some_iff.1 h
      omega
    · contradiction
  · obtain ⟨m, _, rfl⟩ := Option.map_eq_some_iff.1 h
    omega
  · split at h <;> grind
  · split at h <;> grind
  · grind
  · split at h
    · next hl =>
      cases h
      simp only [Bool.and_eq_true, Bool.not_eq_true', List.isEmpty_eq_false_iff] at hl
      exact List.length_pos_iff.2 hl.1
    · contradiction

end Shape

/-! ## §3. Rules. -/

/-- What becomes of a lexeme. -/
inductive Yield where
  /-- A token of this kind. -/
  | token (kind : Kind)
  /-- A token whose kind depends on whether the word is reserved. -/
  | word
  /-- Nothing: the lexeme only separates. -/
  | nothing
  deriving Repr, DecidableEq

/-- A shape and what becomes of its lexemes. -/
structure Rule where
  /-- Which texts the rule accepts. -/
  shape : Shape
  /-- What they become. -/
  yields : Yield
  deriving Repr, DecidableEq

namespace Rule

/-- The rule of one fixed text. -/
def fixed (lexeme : String) (kind : Kind) : Rule :=
  ⟨.exactly lexeme.toList, .token kind⟩

/-- The rules, in order of priority. -/
def all : List Rule :=
  [ ⟨.attribute, .token .attribute⟩,
    ⟨.word, .word⟩,
    ⟨.decimal, .token .float⟩,
    ⟨.integer, .token .integer⟩,
    ⟨.string, .token .string⟩,
    ⟨.character, .token .char⟩,
    fixed "->" .arrow,
    ⟨.comment, .nothing⟩,
    fixed "\n" .newline,
    ⟨.blanks, .nothing⟩,
    fixed "&&=" .andAssign, fixed "||=" .orAssign, fixed "^^=" .xorAssign,
    fixed "<<=" .shiftLeftAssign, fixed ">>=" .shiftRightAssign,
    fixed "==" .equals, fixed "!=" .notEquals, fixed "<=" .lessEquals,
    fixed ">=" .greaterEquals, fixed "+=" .plusAssign, fixed "-=" .minusAssign,
    fixed "*=" .multiplyAssign, fixed "/=" .divideAssign, fixed "^=" .powerAssign,
    fixed "%=" .moduloAssign, fixed "&=" .bitAndAssign, fixed "|=" .bitOrAssign,
    fixed "&&" .and, fixed "||" .or, fixed "^^" .xor,
    fixed "<<" .shiftLeft, fixed ">>" .shiftRight,
    fixed "<" .less, fixed ">" .greater, fixed "=" .assign, fixed "+" .plus,
    fixed "-" .minus, fixed "*" .multiply, fixed "/" .divide, fixed "^" .power,
    fixed "%" .modulo, fixed "!" .not, fixed "&" .bitAnd, fixed "|" .bitOr,
    fixed "~" .bitNot,
    fixed "(" .openParen, fixed ")" .closeParen, fixed "\x7b" .openCurly,
    fixed "\x7d" .closeCurly, fixed "[" .openBracket, fixed "]" .closeBracket,
    fixed "," .comma, fixed ";" .semicolon, fixed ":" .colon ]

end Rule

/-- The first rule that matches at the start of the text, with the length of
its lexeme. -/
def lexeme? (cs : List Char) : Option (Rule × Nat) :=
  Rule.all.findSome? fun rule => (rule.shape.measure? cs).map fun n => (rule, n)

theorem lexeme?_pos {cs : List Char} {rule : Rule} {n : Nat}
    (h : lexeme? cs = some (rule, n)) : 0 < n := by
  obtain ⟨candidate, _, hc⟩ := List.exists_of_findSome?_eq_some h
  obtain ⟨m, hm, he⟩ := Option.map_eq_some_iff.1 hc
  cases he
  exact Shape.measure?_pos hm

end ImpFront
