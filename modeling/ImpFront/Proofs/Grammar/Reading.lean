/-
  ImpFront.Proofs.Grammar.Reading
  ───────────────────────────────
  **THE GRAMMAR AS A RELATION.**

  `Reads phrase p q`: from `p` on the tokens form the phrase, and `q` is the
  parser behind it.  There is one constructor for each way in which a rule of
  the grammar can succeed, and each says all that the rule has found out: the
  kinds of the tokens it took, what it did to the scopes, and the phrases it
  is made of.

  The journal has no influence on reading, so the parsers here keep none.

      parse file tokens = (.ok program, p)
        →  Reads (.file program.clauses) (Parser.ofTokens tokens) p.silent

  Whatever holds of every accepted file is then proved by one induction over
  `Reads`, with the grammar's own cases and without the sequencing of steps.
-/
import ImpFront.Grammar.File

namespace ImpFront

namespace Cursor

theorem current_advance (c : Cursor) : c.advance.current = c.peek 1 := by
  unfold advance current peek
  split
  · next h => simp [h]
  · next h => simp [h]

private theorem rewind_over (tokens : List Token) (c : Cursor) :
    rewind { c with behind := tokens ++ c.behind } tokens.length
      = { c with ahead := tokens.reverse ++ c.ahead } := by
  induction tokens generalizing c with
  | nil => rfl
  | cons token rest ih =>
      show rewind { c with behind := rest ++ c.behind, ahead := token :: c.ahead } rest.length = _
      rw [ih { c with ahead := token :: c.ahead }]
      simp

/-- To go back over a run of tokens undoes passing over it. -/
theorem rewind_skip (c : Cursor) (p : Kind → Bool) :
    (c.skip p).rewind (c.run p).length = c := by
  have := rewind_over (c.run p).reverse
    { c with ahead := c.ahead.dropWhile fun token => p token.kind }
  rw [List.length_reverse, List.reverse_reverse] at this
  rw [skip, this, run, List.takeWhile_append_dropWhile]

end Cursor

/-! ## §1. Parsers without a journal. -/

namespace Parser

/-- The parser without its journal. -/
def silent (p : Parser) : Parser :=
  { p with journal := #[] }

/-- The parser one token on. -/
def next (p : Parser) : Parser :=
  { p with cursor := p.cursor.advance }

/-- The parser behind the tokens ahead whose kinds pass a test. -/
def past (test : Kind → Bool) (p : Parser) : Parser :=
  { p with cursor := p.cursor.skip test }

/-- The parser behind the line ends ahead. -/
def pastLines (p : Parser) : Parser :=
  p.past (· == .newline)

/-- The parser behind the separators ahead. -/
def pastSeparators (p : Parser) : Parser :=
  p.past Kind.isTerminator

/-- The parser behind the comma ahead, if there is one. -/
def pastComma (p : Parser) : Parser :=
  if p.current.kind = .comma then p.next else p

/-- The parser with other scopes. -/
def withScopes (scopes : Scopes) (p : Parser) : Parser :=
  { p with scopes }

/-- The parser with one more block open. -/
def inBlock (p : Parser) : Parser :=
  { p with blockDepth := p.blockDepth + 1 }

/-- The parser with one block less open. -/
def outOfBlock (p : Parser) : Parser :=
  { p with blockDepth := p.blockDepth - 1 }

/-- The parser with a warning more, if there is one. -/
def warned (note : Option Note) (p : Parser) : Parser :=
  { p with warnings := p.warnings ++ note.toList }

@[simp] theorem scopes_silent (p : Parser) : p.silent.scopes = p.scopes := rfl

@[simp] theorem scopes_next (p : Parser) : p.next.scopes = p.scopes := rfl

@[simp] theorem scopes_pastLines (p : Parser) : p.pastLines.scopes = p.scopes := rfl

@[simp] theorem scopes_pastSeparators (p : Parser) : p.pastSeparators.scopes = p.scopes := rfl

@[simp] theorem scopes_pastComma (p : Parser) : p.pastComma.scopes = p.scopes := by
  unfold pastComma
  split <;> rfl

@[simp] theorem scopes_withScopes (s : Scopes) (p : Parser) : (p.withScopes s).scopes = s := rfl

@[simp] theorem scopes_inBlock (p : Parser) : p.inBlock.scopes = p.scopes := rfl

@[simp] theorem scopes_outOfBlock (p : Parser) : p.outOfBlock.scopes = p.scopes := rfl

@[simp] theorem scopes_warned (note : Option Note) (p : Parser) :
    (p.warned note).scopes = p.scopes := rfl

theorem silent_record (event : Event) (p : Parser) : (p.record event).silent = p.silent := rfl

theorem silent_pastLines (p : Parser) : p.pastLines.silent = p.silent.pastLines := rfl

theorem silent_pastComma (p : Parser) : p.pastComma.silent = p.silent.pastComma := by
  have : p.silent.current = p.current := rfl
  unfold pastComma
  rw [this]
  split <;> rfl

/-- The kind of the token at the cursor. -/
def kind (p : Parser) : Kind :=
  p.current.kind

/-- Scopes and journal have no influence on the tokens ahead. -/
theorem kind_eq_of_silent {p q : Parser} {s : Scopes}
    (h : q.silent = p.silent.withScopes s) : q.kind = p.kind := by
  have same : q.cursor = p.cursor := (congrArg cursor h :)
  unfold kind current
  rw [same]

/-- A name and an opening parenthesis come next. -/
def atApplication (p : Parser) : Bool :=
  p.kind = .identifier && p.next.kind = .openParen

/-- The type that a call returns: that of the visible function, or else the
one that its declaration further down gives. -/
def callType (p : Parser) (name : String) : Option BaseType :=
  match p.scopes.visibleFunction? name with
  | some symbol => symbol.returnBase?
  | none => p.cursor.returnTypeAhead? name

/-- The value of an attribute may end here. -/
def atAttributeEnd (p : Parser) : Bool :=
  match p.kind with
  | .newline | .semicolon | .eof => true
  | _ => false

end Parser

/-! ## §2. Phrases. -/

/-- What can be read, with the tree that is made of it. -/
inductive Phrase where
  /-- An operand. -/
  | operand (e : Expr)
  /-- The operators behind `left` that bind tighter than `limit`. -/
  | operators (limit : Precedence) (left e : Expr)
  /-- An expression that ends before an operator no tighter than `limit`. -/
  | expr (limit : Precedence) (e : Expr)
  /-- The arguments of a call, up to and with the closing parenthesis. -/
  | arguments (es : List Expr)
  /-- The parameters of a function, up to and with the closing parenthesis. -/
  | parameters (ps : List Parameter)
  /-- An arrow and a type, if there is an arrow. -/
  | returns (type : Option Token)
  /-- A statement without its end. -/
  | clause (s : Stmt)
  /-- A statement. -/
  | statement (s : Stmt)
  /-- The statements of a block, up to its closing brace. -/
  | body (ss : List Stmt)
  /-- A block. -/
  | block (ss : List Stmt)
  /-- A block in a frame of its own, that of a condition or a loop. -/
  | framed (kind : FrameKind) (ss : List Stmt)
  /-- A chain of conditions. -/
  | chain (condition : Expr) (ss : List Stmt) (otherwise : Otherwise)
  /-- The statements of a file, up to its end. -/
  | file (ss : List Stmt)

/-- The phrase is an expression or a part of one. -/
def Phrase.isExpression : Phrase → Bool
  | .operand _ | .operators _ _ _ | .expr _ _ | .arguments _ => true
  | _ => false

/-! ## §3. Reading. -/

open Grammar (standardOperand? standardPrecedence?)

/-- The tokens from one parser to another form a phrase. -/
inductive Reads : Phrase → Parser → Parser → Prop where
  -- Operands
  | literal {p type} :
      BaseType.ofLiteral? p.kind = some type →
      Reads (.operand (.literal p.current type)) p p.next
  | unary {p q operand type} :
      standardOperand? p.kind = some .unary →
      Reads (.expr .unary operand) p.next q →
      operand.base?.bind BaseType.unary? = some type →
      Reads (.operand (.unary p.kind p.current operand type)) p q
  | grouping {p q e} :
      p.kind = .openParen →
      Reads (.expr .lowest e) p.next q →
      q.kind = .closeParen →
      Reads (.operand e) p q.next
  | builtin {p type} :
      p.kind = .identifier → p.atApplication = false →
      p.scopes.inAttribute = true →
      DeclaredType.builtin? p.current.value = some type →
      Reads (.operand (.reference p.current type.base)) p p.next
  | attached {p symbol} :
      p.kind = .identifier → p.atApplication = false →
      p.scopes.inAttribute = true →
      DeclaredType.builtin? p.current.value = none →
      p.scopes.lookup? p.current.value = some symbol →
      Reads (.operand (.reference p.current symbol.declaredBase)) p p.next
  | reference {p symbol} :
      p.kind = .identifier → p.atApplication = false →
      p.scopes.inAttribute = false →
      p.scopes.lookup? p.current.value = some symbol →
      symbol.declaredBase ≠ .function →
      Reads (.operand (.reference p.current symbol.declaredBase)) p p.next
  | call {p q es} :
      p.atApplication = true →
      (∀ symbol, p.scopes.lookup? p.current.value = some symbol → symbol.isFunction = true) →
      Reads (.arguments es) (p.next.next.withScopes (p.scopes.mark p.current)).pastLines q →
      Reads (.operand (.call p.current es (q.callType p.current.value))) p q
  -- Arguments
  | noArgument {p} :
      p.kind = .closeParen →
      Reads (.arguments []) p p.next
  | argument {p q r e es} :
      p.kind ≠ .closeParen → p.kind ≠ .eof →
      Reads (.expr .lowest e) p q →
      Reads (.arguments es) q.pastComma.pastLines r →
      Reads (.arguments (e :: es)) p r
  -- Operators
  | noOperator {p limit e} :
      (∀ next, standardPrecedence? p.kind = some next → next.rank ≤ limit.rank) →
      Reads (.operators limit e e) p p
  | operator {p q r limit next left right e type} :
      standardPrecedence? p.kind = some next → limit.rank < next.rank →
      Reads (.expr next right) p.next q →
      (do BaseType.binary? (← left.base?) (← right.base?)) = some type →
      Reads (.operators limit (.binary p.kind p.current left right type) e) q r →
      Reads (.operators limit left e) p r
  | expr {p q r limit left e} :
      Reads (.operand left) p q →
      Reads (.operators limit left e) q r →
      Reads (.expr limit e) p r
  -- Functions
  | noParameter {p} :
      p.kind = .closeParen →
      Reads (.parameters []) p p.next
  | parameter {p q s ps} :
      p.kind = .identifier → p.next.kind = .colon → p.next.next.kind = .identifier →
      Scopes.define ⟨p.current, p.next.next.current, .parameter⟩ p.scopes = .ok () s →
      Reads (.parameters ps) (p.next.next.next.withScopes s).pastComma.pastLines q →
      Reads (.parameters (⟨some p.current, p.next.next.current⟩ :: ps)) p q
  | noReturn {p} :
      p.kind ≠ .arrow →
      Reads (.returns none) p p
  | returns {p} :
      p.kind = .arrow → p.next.kind = .identifier →
      Reads (.returns (some p.next.current)) p p.next.next
  | function {p q r u ps type body s t v w} :
      p.kind = .kwFunc → p.next.kind = .identifier → p.next.next.kind = .openParen →
      Scopes.enter .function p.scopes = .ok () s →
      Reads (.parameters ps) (p.next.next.next.withScopes s).pastLines q →
      Reads (.returns type) q r →
      Scopes.define (Signature.symbol ⟨p.current, p.next.current, ps, type⟩) r.scopes
        = .ok () t →
      Reads (.block body) (r.pastLines.withScopes t) u →
      Scopes.exit .function u.scopes = .ok () v →
      Scopes.define (Signature.symbol ⟨p.current, p.next.current, ps, type⟩)
        (v.delete p.next.current.value).2 = .ok () w →
      Reads (.clause (.function ⟨p.current, p.next.current, ps, type⟩ body)) p (u.withScopes w)
  -- Conditions and loops
  | conditional {p q condition body otherwise} :
      Reads (.chain condition body otherwise) p q →
      Reads (.clause (.conditional condition body otherwise)) p q
  | lastLink {p q r condition body} :
      p.kind = .kwIf →
      Reads (.expr .lowest condition) p.next q →
      Reads (.framed .conditional body) q.pastLines r →
      r.pastLines.kind ≠ .kwElse →
      Reads (.chain condition body .nothing) p r
  | elseLink {p q r u condition body body'} :
      p.kind = .kwIf →
      Reads (.expr .lowest condition) p.next q →
      Reads (.framed .conditional body) q.pastLines r →
      r.pastLines.kind = .kwElse →
      r.pastLines.next.pastLines.kind ≠ .kwIf →
      Reads (.framed .conditional body') r.pastLines.next.pastLines u →
      Reads (.chain condition body (.block body')) p u
  | nextLink {p q r u condition body condition' body' otherwise s t} :
      p.kind = .kwIf →
      Reads (.expr .lowest condition) p.next q →
      Reads (.framed .conditional body) q.pastLines r →
      r.pastLines.kind = .kwElse →
      r.pastLines.next.pastLines.kind = .kwIf →
      Scopes.enter .conditional r.scopes = .ok () s →
      Reads (.chain condition' body' otherwise)
        (r.pastLines.next.pastLines.withScopes s) u →
      Scopes.exit .conditional u.scopes = .ok () t →
      Reads (.chain condition body (.chain condition' body' otherwise)) p (u.withScopes t)
  | repeatWhile {p q r condition body} :
      p.kind = .kwWhile →
      Reads (.expr .lowest condition) p.next q →
      Reads (.framed .loop body) q.pastLines r →
      Reads (.clause (.repeatWhile condition body)) p r
  | leaveLoop {p} :
      p.kind = .kwBreak →
      Reads (.clause (.leaveLoop p.current)) p p.next
  | nextRound {p} :
      p.kind = .kwContinue →
      Reads (.clause (.nextRound p.current)) p p.next
  | giveNothingBack {p} :
      p.kind = .kwReturn → p.next.atStatementEnd = true →
      Reads (.clause (.giveBack p.current
        (.literal ⟨.null, "null", p.current.position⟩ .null))) p p.next
  | giveBack {p q value} :
      p.kind = .kwReturn → p.next.atStatementEnd = false →
      Reads (.expr .lowest value) p.next q →
      Reads (.clause (.giveBack p.current value)) p q
  -- Variables
  | declare {p s} :
      p.kind = .kwVar → p.next.kind = .identifier → p.next.next.kind = .colon →
      p.next.next.next.kind = .identifier →
      p.next.next.next.next.atStatementEnd = true →
      Scopes.define ⟨p.next.current, p.next.next.next.current, .variable⟩ p.scopes = .ok () s →
      Reads (.clause (.declare p.next.current p.next.next.next.current none)) p
        (p.next.next.next.next.withScopes s)
  | initialise {p q value s} :
      p.kind = .kwVar → p.next.kind = .identifier → p.next.next.kind = .colon →
      p.next.next.next.kind = .identifier →
      p.next.next.next.next.kind = .assign →
      Reads (.expr .lowest value) p.next.next.next.next.next q →
      value.base? = some (.ofName p.next.next.next.current.value) →
      Scopes.define ⟨p.next.current, p.next.next.next.current, .variable⟩ q.scopes = .ok () s →
      Reads (.clause (.declare p.next.current p.next.next.next.current (some value))) p
        ((q.warned (Statement.rangeWarning?
          (.ofName p.next.next.next.current.value) value)).withScopes s)
  | assign {p q value symbol} :
      p.kind = .identifier → p.next.kind = .assign →
      Reads (.expr .lowest value) p.next.next q →
      q.scopes.lookup? p.current.value = some symbol →
      value.base? = some symbol.declaredBase →
      Reads (.clause (.assign p.current value)) p q
  | compound {p q value symbol operator type} :
      p.kind = .identifier → p.next.kind.compoundOperator? = some operator →
      Reads (.expr .lowest value) p.next.next q →
      q.scopes.lookup? p.current.value = some symbol →
      value.base? = some symbol.declaredBase →
      BaseType.binary? symbol.declaredBase symbol.declaredBase = some type →
      Reads (.clause (.assign p.current (.binary operator p.next.current
        (.reference p.current symbol.declaredBase) value type))) p q
  | expression {p q value} :
      p.kind = .identifier ∧ p.next.kind.isAssignment = false ∨ p.kind = .openParen →
      Reads (.expr .lowest value) p q →
      Reads (.clause (.expression value)) p q
  -- Attributes
  | bareAttribute {p} :
      p.kind = .attribute → p.next.atStatementEnd = true →
      Reads (.clause (.attribute ⟨p.current, none⟩)) p p.next
  | attributeValue {p q value s t} :
      p.kind = .attribute → p.next.atStatementEnd = false →
      Scopes.enter .attribute p.scopes = .ok () s →
      p.next.atApplication = false →
      Reads (.expr .lowest value) (p.next.withScopes s) q →
      q.atAttributeEnd = true →
      Scopes.exit .attribute q.scopes = .ok () t →
      Reads (.clause (.attribute ⟨p.current, some (.expression value)⟩)) p (q.withScopes t)
  | imported {p q r es ps type s t u} :
      p.kind = .attribute → p.next.atStatementEnd = false →
      Scopes.enter .attribute p.scopes = .ok () s →
      p.next.atApplication = true →
      p.current.value = Token.importAttribute →
      Reads (.arguments es) (p.next.next.next.withScopes s).pastLines q →
      es.mapM Statement.importedParameter = .ok ps →
      Reads (.returns type) q r →
      Scopes.define (Signature.symbol ⟨p.current, p.next.current, ps, type⟩) r.scopes
        = .ok () t →
      r.atAttributeEnd = true →
      Scopes.exit .attribute t = .ok () u →
      Reads (.clause (.attribute ⟨p.current,
        some (.imported ⟨p.current, p.next.current, ps, type⟩)⟩)) p (r.withScopes u)
  -- Statements and blocks
  | statement {p q s} :
      Reads (.clause s) p q →
      q.atStatementEnd = true →
      Reads (.statement s) p q
  | emptyBody {p} :
      p.kind = .closeCurly →
      Reads (.body []) p p
  | body {p q r s ss} :
      p.kind ≠ .closeCurly → p.kind ≠ .eof →
      Reads (.statement s) p q →
      Reads (.body ss) q.pastSeparators r →
      Reads (.body (s :: ss)) p r
  | block {p q ss} :
      p.kind = .openCurly →
      Reads (.body ss) p.next.inBlock.pastSeparators q →
      q.kind = .closeCurly →
      Reads (.block ss) p q.outOfBlock.next
  | framed {p q kind ss s t} :
      kind = .conditional ∨ kind = .loop →
      Scopes.enter kind p.scopes = .ok () s →
      Reads (.block ss) (p.withScopes s) q →
      Scopes.exit kind q.scopes = .ok () t →
      Reads (.framed kind ss) p (q.withScopes t)
  | emptyFile {p} :
      p.pastSeparators.kind = .eof →
      Reads (.file []) p p.pastSeparators
  | file {p q r s ss} :
      p.pastSeparators.kind ≠ .eof →
      Reads (.statement s) p.pastSeparators q →
      Reads (.file ss) q r →
      Reads (.file (s :: ss)) p r

end ImpFront
