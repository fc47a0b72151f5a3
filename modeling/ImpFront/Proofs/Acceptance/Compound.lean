/-
  ImpFront.Proofs.Acceptance.Compound
  ───────────────────────────────────
  **A COMPOUND ASSIGNMENT IS ITS LONG FORM.**

  In front of a compound assignment the reader might as well have met the
  assignment that it stands for, with the value in parentheses:

      x += value         ─→    the assignment of `x + value` to `x`
      x = x + ( value )  ─→    the same

  There are thirteen such signs, each written as its operator with an equals
sign behind it.

  The two are checked in another order.  The short form looks the variable up
  behind the value, the long one in front of it and once more at the end; but
  an expression only notes calls, so that every look finds the same.

  The value itself is read in front of other tokens in the long form.  Two
  parsers are beside each other if they have the same tokens ahead, except
  that for one of them a closing parenthesis comes in between somewhere.  Over
  an expression that ends in front of it they stay beside each other.
-/
import ImpFront.Proofs.Acceptance.Completeness
import ImpFront.Proofs.Acceptance.Facing
import ImpFront.Proofs.Acceptance.Progress
import ImpFront.Proofs.Acceptance.Spelling
import ImpFront.Proofs.Acceptance.Warnings
import ImpFront.Proofs.Grammar.Completeness
import ImpFront.Proofs.Grammar.Foretelling
import ImpFront.Proofs.Grammar.Pairing
import ImpFront.Proofs.Grammar.Visiting
import ImpFront.Proofs.Tree.Placeless

namespace ImpFront

open Cursor (Over)
open Grammar (standardOperand? standardPrecedence?)

/-! ## §1. Compound signs. -/

/-- The text is a lexeme of its own, by the rule of just that text. -/
def Lexes (text : String) (kind : Kind) : Prop :=
  lexeme? text.toList = some (.fixed text kind, text.length)

instance (text : String) (kind : Kind) : Decidable (Lexes text kind) :=
  inferInstanceAs (Decidable (_ = _))

theorem Lexes.unique {text : String} {kind kind' : Kind} (h : Lexes text kind)
    (h' : Lexes text kind') : kind = kind' := by
  have same : Rule.fixed text kind = Rule.fixed text kind' :=
    congrArg Prod.fst (Option.some.inj (h.symm.trans h'))
  exact Yield.token.inj (congrArg Rule.yields same)

/-- The operators that a compound sign is made of. -/
def compoundTexts : List String :=
  ["+", "-", "*", "/", "^", "%", "&&", "||", "^^", "&", "|", "<<", ">>"]

/-- The sign is written as one of these operators with an equals sign behind
it, and `applied` is that operator. -/
def Kind.Compounds (sign applied : Kind) : Prop :=
  ∃ text ∈ compoundTexts, Lexes text applied ∧ Lexes (text ++ "=") sign

/-- **What a compound sign applies** is the operator that it is written with. -/
theorem Kind.compounds_iff {sign applied : Kind} :
    sign.Compounds applied ↔ sign.compoundOperator? = some applied := by
  refine ⟨?_, fun h => ?_⟩
  · rintro ⟨text, htext, happlied, hsign⟩
    have paired : ∀ text ∈ compoundTexts, ∃ sign ∈ [Kind.plusAssign, .minusAssign,
        .multiplyAssign, .divideAssign, .powerAssign, .moduloAssign, .andAssign, .orAssign,
        .xorAssign, .bitAndAssign, .bitOrAssign, .shiftLeftAssign, .shiftRightAssign],
        Lexes (text ++ "=") sign ∧ ∃ applied ∈ sign.compoundOperator?, Lexes text applied := by
      decide +kernel
    obtain ⟨sign', -, hsign', applied', known, happlied'⟩ := paired text htext
    obtain rfl := hsign.unique hsign'
    obtain rfl := happlied.unique happlied'
    exact known
  · unfold Kind.Compounds
    cases sign <;> first | contradiction | (cases h; decide +kernel)

/-! ## §2. Parsers beside each other. -/

/-- The parsers have the same tokens ahead up to `rest`, in front of which the
second one has a closing parenthesis. -/
structure Parser.Beside (closing : Token) (rest between : List Token) (p p' : Parser) : Prop where
  closes : closing.kind = .closeParen
  faces : p.Faces (between ++ rest)
  faces' : p'.Faces (between ++ closing :: rest)
  scopes : p'.scopes = p.scopes
  calm : p.cursor.Calm
  calm' : p'.cursor.Calm
  ahead : ∀ name, p'.cursor.returnTypeAhead? name = p.cursor.returnTypeAhead? name

namespace Parser.Beside

variable {closing : Token} {rest between : List Token} {p p' : Parser}

/-- The token is the same, unless the parenthesis has been reached. -/
theorem kind (h : p.Beside closing rest between p') : p'.kind = p.kind ∨ p'.kind = .closeParen := by
  cases between with
  | nil => exact .inr (h.faces'.kind.trans h.closes)
  | cons token between => exact .inl (h.faces'.kind.trans h.faces.kind.symm)

theorem next {token : Token} (h : p.Beside closing rest (token :: between) p')
    (quiet : p.current.Quiet) (inner : p.kind ≠ .eof) :
    p.next.Beside closing rest between p'.next := by
  obtain rfl := h.faces.current
  have same : p'.current = p.current := h.faces'.current
  refine ⟨h.closes, h.faces.next inner, h.faces'.next inner, h.scopes, ?_, ?_, fun name => ?_⟩
  · exact Cursor.calm_advance quiet
  · exact Cursor.calm_advance (show p'.current.Quiet by rwa [same])
  · have left := Cursor.returnTypeAhead?_advance h.calm name
    have right := Cursor.returnTypeAhead?_advance h.calm' name
    exact right.trans ((h.ahead name).trans left.symm)

/-- Calls have the same types. -/
theorem callType (h : p.Beside closing rest between p') (name : String) :
    p'.callType name = p.callType name := by
  unfold Parser.callType
  rw [h.scopes, h.ahead]

/-- **Parsers beside each other are paired,** with the same trees. -/
theorem pairing (closing : Token) (rest : List Token) :
    Pairing True rest fun p p' => ∃ between, p.Beside closing rest between p' where
  kind := fun ⟨_, h⟩ => h.kind
  scopes := fun ⟨_, h⟩ => h.scopes
  withScopes := fun _ ⟨between, h⟩ =>
    ⟨between, h.closes, h.faces, h.faces', rfl, h.calm, h.calm', h.ahead⟩
  step := by
    rintro p p' ⟨between, h⟩ quiet inner still
    rw [h.faces.eq_cons inner still] at h
    exact ⟨h.faces'.current, _, h.next (Token.quiet_of_kind rfl quiet) inner⟩
  types := fun ⟨_, h⟩ name _ typed => (h.callType name).trans typed
  exactly := fun _ _ _ ⟨_, h⟩ => h.callType

end Parser.Beside

/-- **A value that ends in front of `rest` is read beside, too**, with the same
tree, and the parsers behind it are beside each other. -/
theorem Reads.beside {closing : Token} {rest : List Token} {limit : Precedence} {e : Expr}
    {p q : Parser} (h : Reads (.expr limit e) p q) (still : rest <:+ q.cursor.rest)
    {between : List Token} {p' : Parser} (beside : p.Beside closing rest between p') :
    ∃ more q', Reads (.expr limit e) p' q' ∧ q.Beside closing rest more q' := by
  obtain ⟨q', ⟨more, behind⟩, e', stands, read⟩ :=
    h.readFrom (Parser.Beside.pairing closing rest) rfl still ⟨between, beside⟩
  rw [stands.same trivial] at read
  exact ⟨more, q', read, behind⟩

/-! ## §3. The two forms. -/

theorem Reads.final {phrase : Phrase} {p q : Parser} (h : Reads phrase p q) :
    q.cursor.final = p.cursor.final := by
  have tokens := q.cursor.getLast?_tokens
  rw [h.tokens, p.cursor.getLast?_tokens] at tokens
  exact (Option.some.inj tokens).symm

/-- **What the short form finds out:** a value of the type of the variable,
which an operator takes on both sides. -/
theorem Reads.of_compound {p q : Parser} {s : Stmt} {applied : Kind} (h : Reads (.clause s) p q)
    (name : p.kind = .identifier) (sign : p.next.kind.compoundOperator? = some applied) :
    ∃ value symbol, Reads (.expr .lowest value) p.next.next q
      ∧ q.scopes.lookup? p.current.value = some symbol
      ∧ value.base? = some symbol.declaredBase
      ∧ BaseType.binary? symbol.declaredBase symbol.declaredBase = some symbol.declaredBase
      ∧ s = .assign p.current (.binary applied p.next.current
        (.reference p.current symbol.declaredBase) value symbol.declaredBase) := by
  cases h with
  | @compound _ _ value symbol operator type _ known read visible typed joined =>
      obtain rfl := Option.some.inj (known.symm.trans sign)
      obtain rfl := BaseType.eq_of_binary?_self joined
      exact ⟨value, symbol, read, visible, typed, joined, rfl⟩
  | assign _ plain =>
      rw [plain] at sign
      cases sign
  | expression begins =>
      rcases begins with ⟨-, other⟩ | other
      · simp [Kind.isAssignment, sign] at other
      · rw [name] at other
        cases other
  | conditional link =>
      cases link with
      | _ keyword => rw [name] at keyword; cases keyword
  | _ keyword => rw [name] at keyword; cases keyword

/-- No operator stands where a statement may end. -/
theorem Parser.standardPrecedence?_of_atStatementEnd {p : Parser} (h : p.atStatementEnd = true) :
    standardPrecedence? p.kind = none := by
  unfold Parser.atStatementEnd at h
  unfold Parser.kind
  generalize p.current.kind = kind at h
  cases kind <;> first | rfl | cases h

theorem Reads.noMore {p : Parser} (h : standardPrecedence? p.kind = none) (limit : Precedence)
    (e : Expr) : Reads (.operators limit e e) p p := by
  refine .noOperator fun next known => ?_
  rw [h] at known
  cases known

/-- **What the long form asks for** is no more than that. -/
theorem Reads.longForm {p r : Parser} {value : Expr} {symbol : Symbol} {next : Precedence}
    (target : p.kind = .identifier) (sign : p.next.kind = .assign)
    (operand : p.next.next.kind = .identifier)
    (same : p.next.next.current.value = p.current.value)
    (operator : standardPrecedence? p.next.next.next.kind = some next)
    (opening : p.next.next.next.next.kind = .openParen)
    (outside : p.scopes.inAttribute = false)
    (visible : p.scopes.lookup? p.current.value = some symbol)
    (read : Reads (.expr .lowest value) p.next.next.next.next.next r)
    (closing : r.kind = .closeParen) (ending : r.next.atStatementEnd = true)
    (visible' : r.scopes.lookup? p.current.value = some symbol)
    (typed : value.base? = some symbol.declaredBase)
    (joined : BaseType.binary? symbol.declaredBase symbol.declaredBase = some symbol.declaredBase) :
    Reads (.statement (.assign p.current (.binary p.next.next.next.kind p.next.next.next.current
      (.reference p.next.next.current symbol.declaredBase) value symbol.declaredBase)))
      p r.next := by
  have last := Parser.standardPrecedence?_of_atStatementEnd ending
  have alone : p.next.next.atApplication = false := by
    have other : p.next.next.next.kind ≠ .openParen := by
      intro other
      rw [other] at operator
      cases operator
    simp [Parser.atApplication, other]
  have variable' : symbol.declaredBase ≠ .function := by
    intro function
    rw [function] at joined
    cases joined
  have left : Reads (.operand (.reference p.next.next.current symbol.declaredBase)) p.next.next
      p.next.next.next :=
    .reference operand alone outside (by rwa [same]) variable'
  have right : Reads (.expr next value) p.next.next.next.next r.next :=
    .expr (.grouping opening read closing) (.noMore last next value)
  have bases : (do BaseType.binary? (← (Expr.reference p.next.next.current
      symbol.declaredBase).base?) (← value.base?)) = some symbol.declaredBase := by
    rw [typed]
    exact joined
  have whole := Reads.operator operator (Precedence.lowest_lt_of_operator operator) right bases
    (.noMore last .lowest _)
  exact .statement (.assign target sign (.expr left whole) visible' rfl) ending

/-! ## §4. One form for the other. -/

/-- The parser with other tokens ahead. -/
def Parser.facing (tokens : List Token) (p : Parser) : Parser :=
  { p with cursor := { p.cursor with ahead := tokens } }

/-- The operators of compound assignments are binary operators. -/
theorem Kind.standardPrecedence?_of_compoundOperator? {kind applied : Kind}
    (h : kind.compoundOperator? = some applied) : (standardPrecedence? applied).isSome := by
  cases kind <;> first | contradiction | (cases h; rfl)

/-- **Two parsers that face a value are beside each other** if a parenthesis
closes it for one of them. -/
theorem Parser.beside_of_ahead {p p' : Parser} {closing before before' : Token}
    {spelled rest : List Token} (closes : closing.kind = .closeParen)
    (ahead : p.cursor.ahead = spelled ++ rest)
    (ahead' : p'.cursor.ahead = spelled ++ closing :: rest)
    (final : p'.cursor.final = p.cursor.final) (scopes : p'.scopes = p.scopes)
    (quiet : ∀ token ∈ spelled, token.Quiet)
    (behind : p.cursor.behind.head? = some before) (before_quiet : before.Quiet)
    (behind' : p'.cursor.behind.head? = some before') (before_quiet' : before'.Quiet) :
    p.Beside closing (rest ++ [p.cursor.final]) spelled p' where
  closes := closes
  faces := by
    unfold Parser.Faces Cursor.rest
    rw [ahead, List.append_assoc]
  faces' := by
    unfold Parser.Faces Cursor.rest
    rw [ahead', final, List.append_assoc, List.cons_append]
  scopes := scopes
  calm := by
    unfold Cursor.Calm
    rw [behind, Option.any_some, show before.announcesFunction = false from before_quiet]
    exact fun announced => nomatch announced
  calm' := by
    unfold Cursor.Calm
    rw [behind', Option.any_some, show before'.announcesFunction = false from before_quiet']
    exact fun announced => nomatch announced
  ahead name := by
    unfold Cursor.returnTypeAhead?
    rw [behind, behind', returnTypeAhead?_of_quiet before_quiet,
      returnTypeAhead?_of_quiet before_quiet', ahead, ahead', final, List.append_assoc,
      List.append_assoc, returnTypeAhead?_append quiet, returnTypeAhead?_append quiet,
      List.cons_append, returnTypeAhead?_cons (Token.quiet_of_kind closes (by decide))]

/-- Where no more is left behind, none was between. -/
theorem Parser.Beside.faces_rest {closing : Token} {rest between : List Token} {p p' : Parser}
    (h : p.Beside closing rest between p') (behind : p.Faces rest) :
    p'.Faces (closing :: rest) := by
  have none : between = [] := by
    have faces : between ++ rest = rest := h.faces.symm.trans behind
    exact List.append_left_eq_self.1 faces
  simpa [none] using h.faces'

section

variable {tokens spelled rest : List Token} {p q : Parser} {s : Stmt} {applied : Kind}
  {name sign : Token}

/-- **Where the short form is read, the long form is.** -/
theorem Reads.long_of_short {target assign operand operator opening closing : Token}
    (h : Reads (.statement s) (p.facing (name :: sign :: (spelled ++ rest))) q)
    (exactly : q.cursor.ahead = rest) (regular : Scopes.Regular p.scopes)
    (outside : p.scopes.inAttribute = false)
    (named : name.kind = .identifier) (compound : sign.kind.compoundOperator? = some applied)
    (target_name : target.placeless = name.placeless) (assigns : assign.kind = .assign)
    (operand_name : operand.placeless = name.placeless) (applies : operator.kind = applied)
    (opens : opening.kind = .openParen) (closes : closing.kind = .closeParen) :
    ∃ value type r,
      s = .assign name (.binary applied sign (.reference name type) value type)
        ∧ Reads (.statement (.assign target (.binary applied operator (.reference operand type)
            value type)))
          (p.facing (target :: assign :: operand :: operator :: opening
            :: (spelled ++ closing :: rest))) r
        ∧ r.cursor.ahead = rest ∧ r.scopes = q.scopes ∧ r.blockDepth = q.blockDepth
        ∧ r.warnings = q.warnings
        ∧ (p.scopes.lookup? name.value).map Symbol.declaredBase = some type := by
  obtain ⟨kind, text⟩ := Token.placeless_eq_iff.1 target_name
  obtain ⟨kind', text'⟩ := Token.placeless_eq_iff.1 operand_name
  obtain rfl := applies
  obtain ⟨tier, listed⟩ := Option.isSome_iff_exists.1
    (Kind.standardPrecedence?_of_compoundOperator? compound)
  cases h with
  | statement clause ending =>
      obtain ⟨value, symbol, read, visible, typed, joined, rfl⟩ := clause.of_compound named compound
      generalize hshort : (p.facing (name :: sign :: (spelled ++ rest))).next.next = short at read
      generalize hlong : (p.facing (target :: assign :: operand :: operator :: opening
        :: (spelled ++ closing :: rest))).next.next.next.next.next = long
      have scopes : short.scopes = p.scopes := by rw [← hshort]; rfl
      -- the tokens of the value announce no function
      have quiet : ∀ token ∈ spelled, token.Quiet := by
        obtain ⟨passed, split, quiet⟩ := (read.quiet rfl).ahead
        have split : spelled ++ rest = passed ++ q.cursor.ahead := by rw [← split, ← hshort]; rfl
        rw [exactly] at split
        rwa [List.append_cancel_right split]
      have beside : short.Beside closing (rest ++ [short.cursor.final]) spelled long := by
        subst hshort hlong
        refine Parser.beside_of_ahead closes rfl rfl rfl rfl quiet rfl ?_ rfl ?_
        · exact Token.quiet_of_kind rfl (Kind.quiet_of_listed compound rfl rfl)
        · exact Token.quiet_of_kind opens (by decide)
      have faces : q.Faces (rest ++ [short.cursor.final]) := by
        rw [← read.final, ← exactly]
        rfl
      obtain ⟨_, r, read', aside⟩ := read.beside
        (by rw [show q.cursor.rest = _ from faces]) beside
      have closed := aside.faces_rest faces
      have behind := closed.next (by rw [closes]; decide)
      have depth : r.next.blockDepth = q.blockDepth := by
        show r.blockDepth = _
        rw [read'.blockDepth, read.blockDepth, ← hshort, ← hlong]
        rfl
      have ending' : r.next.atStatementEnd = true := by
        have current : r.next.current = q.current :=
          Option.some.inj (behind.head?.symm.trans faces.head?)
        unfold Parser.atStatementEnd at ending ⊢
        rwa [current, depth]
      -- an expression only notes calls, so that the variable is visible throughout
      have marks := (read.marks rfl (by rwa [scopes])).2
      have visible' : p.scopes.lookup? name.value = some symbol := by
        rw [← scopes, ← marks.lookup?]
        exact visible
      have long := Reads.longForm (p := p.facing (target :: assign :: operand :: operator :: opening
        :: (spelled ++ closing :: rest))) (kind.trans named) assigns (kind'.trans named)
        (text'.trans text.symm) listed opens outside (text ▸ visible') (hlong ▸ read')
        (closed.kind.trans closes) ending'
        (by rw [aside.scopes]; exact text ▸ visible) typed joined
      refine ⟨value, symbol.declaredBase, r.next, rfl, long, (List.append_inj' behind rfl).1,
        aside.scopes, depth, ?_, ?_⟩
      · show r.warnings = _
        rw [read'.warnings, read.warnings, ← hshort, ← hlong]
        rfl
      · rw [visible']
        rfl

/-- **A compound assignment is its long form.**  Wherever reading comes by and
a statement is read from `name sign value`, with one of the thirteen compound
signs, it is read from `target assign operand operator ( value )` in front of
the same tokens as well, with the operator that the sign is written with, and
all that comes of it is the same. -/
theorem longForm_of_compound (target assign operand operator opening closing : Token)
    (visited : Visits tokens .statement p.silent)
    (ahead : p.cursor.ahead = name :: sign :: (spelled ++ rest))
    (named : name.kind = .identifier) (compound : sign.kind.Compounds applied)
    (accepted : Grammar.standard.statement p = .ok s q) (exactly : q.cursor.ahead = rest)
    (target_name : target.placeless = name.placeless) (assigns : assign.kind = .assign)
    (operand_name : operand.placeless = name.placeless) (applies : operator.kind = applied)
    (opens : opening.kind = .openParen) (closes : closing.kind = .closeParen) :
    ∃ value type q',
      s = .assign name (.binary applied sign (.reference name type) value type)
        ∧ Grammar.standard.statement (p.facing (target :: assign :: operand :: operator :: opening
            :: (spelled ++ closing :: rest)))
          = .ok (.assign target (.binary applied operator (.reference operand type) value type)) q'
        ∧ q'.cursor.ahead = rest ∧ q'.scopes = q.scopes ∧ q'.blockDepth = q.blockDepth
        ∧ q'.warnings = q.warnings
        ∧ (p.scopes.lookup? name.value).map Symbol.declaredBase = some type := by
  have short : Reads (.statement s) (p.silent.facing (name :: sign :: (spelled ++ rest)))
      q.silent := by
    have read := Grammar.reads_statement accepted
    rw [← ahead]
    exact read
  obtain ⟨value, type, r, same, long, behind, scopes, depth, warnings, declared⟩ :=
    short.long_of_short exactly visited.proper.regular visited.inAttribute named
      (Kind.compounds_iff.1 compound) target_name assigns operand_name applies opens closes
  obtain ⟨journal, accepted'⟩ := long.reached p.journal
  exact ⟨value, type, r.logged journal, same, accepted', behind, scopes, depth, warnings, declared⟩

end

/-! ### A function that is called before its declaration -/

/-- `var x: i32; x *= g(1); func g(y: i32) -> i32 { return y }`. -/
def multiplied : List Token :=
  [word 0 .kwVar "var", word 4 .identifier "x", word 5 .colon ":", word 7 .identifier "i32",
    word 10 .semicolon ";", word 12 .identifier "x", word 14 .multiplyAssign "*=",
    word 17 .identifier "g", word 18 .openParen "(", word 19 .integer "1",
    word 20 .closeParen ")", word 21 .semicolon ";", word 23 .kwFunc "func",
    word 28 .identifier "g", word 29 .openParen "(", word 30 .identifier "y", word 31 .colon ":",
    word 33 .identifier "i32", word 36 .closeParen ")", word 38 .arrow "->",
    word 41 .identifier "i32", word 45 .openCurly "\x7b", word 47 .kwReturn "return",
    word 54 .identifier "y", word 56 .closeCurly "\x7d"]

/-- The parser behind the declaration of the variable. -/
def behindVariable : Parser :=
  (Parser.ofTokens multiplied).next.next.next.next.withScopes
    (Scopes.empty.bind ⟨word 4 .identifier "x", word 7 .identifier "i32", .variable⟩)

theorem visits_behindVariable : Visits multiplied .statement behindVariable.pastSeparators := by
  have clause : Reads (.clause (.declare (word 4 .identifier "x") (word 7 .identifier "i32") none))
      (Parser.ofTokens multiplied).pastSeparators behindVariable :=
    .declare (p := (Parser.ofTokens multiplied).pastSeparators) rfl rfl rfl rfl rfl rfl
  exact .first (.behind .start (by decide) (.statement clause rfl)) (by decide)

/-- The tokens of the call, and those behind the statement. -/
def calledWithOne : List Token :=
  [word 17 .identifier "g", word 18 .openParen "(", word 19 .integer "1", word 20 .closeParen ")"]

/-- The step ends well in front of these tokens. -/
def endsBefore {α : Type} (tokens : List Token) (x : Parse α) (p : Parser) : Bool :=
  match x p with
  | .ok _ q => q.cursor.ahead == tokens
  | .error _ _ => false

theorem exists_of_endsBefore {α : Type} {tokens : List Token} {x : Parse α} {p : Parser}
    (h : endsBefore tokens x p = true) : ∃ a q, x p = .ok a q ∧ q.cursor.ahead = tokens := by
  unfold endsBefore at h
  split at h
  · exact ⟨_, _, ‹_›, beq_iff_eq.1 h⟩
  · contradiction

theorem endsBefore_multiplied :
    endsBefore (multiplied.drop 11) Grammar.standard.statement behindVariable.pastSeparators
      = true := by
  decide +kernel

/-- `x = x * (g(1))` is read there as well, with the type of a number. -/
theorem longForm_of_compound_multiplied :
    ∃ value q', Grammar.standard.statement (behindVariable.pastSeparators.facing
          (word 60 .identifier "x" :: word 62 .assign "=" :: word 64 .identifier "x"
            :: word 66 .multiply "*" :: word 68 .openParen "("
            :: (calledWithOne ++ word 80 .closeParen ")" :: multiplied.drop 11)))
        = .ok (.assign (word 60 .identifier "x") (.binary .multiply (word 66 .multiply "*")
          (.reference (word 64 .identifier "x") .integer) value .integer)) q'
      ∧ q'.cursor.ahead = multiplied.drop 11 := by
  have ahead : behindVariable.pastSeparators.cursor.ahead = word 12 .identifier "x"
      :: word 14 .multiplyAssign "*=" :: (calledWithOne ++ multiplied.drop 11) := rfl
  have compound : Kind.Compounds .multiplyAssign .multiply := ⟨"*", by decide, rfl, rfl⟩
  obtain ⟨s, q, accepted, exactly⟩ := exists_of_endsBefore endsBefore_multiplied
  obtain ⟨value, type, q', -, accepted', behind, -, -, -, declared⟩ :=
    longForm_of_compound (word 60 .identifier "x") (word 62 .assign "=") (word 64 .identifier "x")
      (word 66 .multiply "*") (word 68 .openParen "(") (word 80 .closeParen ")")
      (p := behindVariable.pastSeparators) visits_behindVariable ahead rfl compound accepted exactly
      rfl rfl rfl rfl rfl rfl
  obtain rfl : BaseType.integer = type := Option.some.inj declared
  exact ⟨value, q', accepted', behind⟩

end ImpFront
