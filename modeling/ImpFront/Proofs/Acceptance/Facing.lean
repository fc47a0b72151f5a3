/-
  ImpFront.Proofs.Acceptance.Facing
  ─────────────────────────────────
  **A PARSER IN FRONT OF A PRINTED EXPRESSION.**

  A parser faces the tokens that are left to be read.  If these are a printed
  expression and what may follow one, and if each expression in it is legible
  there, the expression is read, and the parser faces what follows:

      p.Faces (e.print ++ rest)  →  ∃ q, Reads (.expr .lowest e) p q ∧ q.Faces rest

  Whether an expression is legible depends on a context and on the types that
  are read ahead.  Neither changes while an expression is read, so that they
  are fixed from the start.
-/
import ImpFront.Proofs.Acceptance.Judgement
import ImpFront.Proofs.Grammar.Keeping
import ImpFront.Proofs.Grammar.Lookahead
import ImpFront.Proofs.Tree.Printing

namespace ImpFront

open Cursor (Over)
open Grammar (standardPrecedence?)
open Scopes (Regular Marks)

/-! ## §1. The tokens ahead. -/

/-- To skip begins with a step if the first token is to be skipped. -/
theorem Cursor.skip_of_pos {c : Cursor} {test : Kind → Bool}
    (h : test c.current.kind = true) : c.skip test = c.advance.skip test := by
  obtain ⟨behind, ahead, final, final_kind⟩ := c
  cases ahead with
  | nil => rfl
  | cons token tokens =>
      have first : test token.kind = true := h
      simp [skip, run, advance, first]

namespace Parser

/-- These are the tokens from the cursor on, the final one included. -/
def Faces (p : Parser) (tokens : List Token) : Prop :=
  p.cursor.rest = tokens

namespace Faces

variable {p : Parser} {token : Token} {rest : List Token}

theorem head? (h : p.Faces rest) : rest.head? = some p.current := by
  rw [← h]
  exact p.cursor.head?_rest

theorem current (h : p.Faces (token :: rest)) : p.current = token :=
  (Option.some.inj h.head?).symm

theorem kind (h : p.Faces (token :: rest)) : p.kind = token.kind := by
  rw [Parser.kind, h.current]

theorem next (h : p.Faces (token :: rest)) (inner : token.kind ≠ .eof) : p.next.Faces rest := by
  have tokens : p.cursor.rest = p.current :: p.next.cursor.rest :=
    Cursor.rest_eq_cons (show p.kind ≠ .eof by rwa [h.kind])
  exact (List.cons.inj (tokens.symm.trans h)).2

/-- Nothing is passed in front of a token that is not to be passed. -/
theorem past {test : Kind → Bool} (h : p.Faces (token :: rest))
    (other : test token.kind = false) : p.past test = p := by
  have same : p.cursor.skip test = p.cursor := by
    refine Cursor.skip_of_not ?_
    show test p.kind = false
    rw [h.kind]
    exact other
  unfold Parser.past
  rw [same]

/-- One token is passed if no other one follows that is to be passed. -/
theorem past_next {test : Kind → Bool} {first : Token} (h : p.Faces (first :: token :: rest))
    (inner : first.kind ≠ .eof) (passed : test first.kind = true)
    (other : test token.kind = false) : p.past test = p.next := by
  have step : p.cursor.skip test = p.cursor.advance.skip test := by
    refine Cursor.skip_of_pos ?_
    show test p.kind = true
    rw [h.kind]
    exact passed
  have behind := (h.next inner).past other
  unfold Parser.past at behind ⊢
  rw [step]
  exact behind

theorem pastLines (h : p.Faces (token :: rest)) (other : token.kind ≠ .newline) :
    p.pastLines = p :=
  h.past (by simpa using other)

theorem past_of_head {test : Kind → Bool} (h : p.Faces rest)
    (other : ∀ token, rest.head? = some token → test token.kind = false) : p.past test = p := by
  cases rest with
  | nil => cases h.head?
  | cons token rest => exact h.past (other token rfl)

theorem pastLines_of_head (h : p.Faces rest)
    (other : ∀ token, rest.head? = some token → token.kind ≠ .newline) : p.pastLines = p :=
  h.past_of_head fun token ht => by simpa using other token ht

/-- A comma is passed where there is one. -/
theorem pastComma {α : Type} {more : List α} (h : p.Faces (separator .comma more ++ rest))
    (other : ∀ token, rest.head? = some token → token.kind ≠ .comma ∧ token.kind ≠ .newline) :
    p.pastComma.pastLines.Faces rest := by
  -- behind the comma there is a token, which is no line end
  have lines : ∀ q : Parser, q.Faces rest → q.pastLines.Faces rest := by
    intro q hq
    rwa [hq.pastLines_of_head fun token ht => (other token ht).2]
  cases more with
  | nil =>
      have h : p.Faces rest := h
      have absent : ¬p.current.kind = .comma := (other p.current h.head?).1
      rw [Parser.pastComma, if_neg absent]
      exact lines p h
  | cons =>
      have comma : p.current.kind = .comma := kind h
      rw [Parser.pastComma, if_pos comma]
      exact lines p.next (next h (by decide))

end Faces

end Parser

/-- An expression may end in front of the tokens. -/
def EndsExpression (rest : List Token) : Prop :=
  ∀ token, rest.head? = some token →
    standardPrecedence? token.kind = none ∧ token.kind ≠ .openParen

theorem endsExpression_sign {kind : Kind}
    (h : standardPrecedence? kind = none ∧ kind ≠ .openParen) (rest : List Token) :
    EndsExpression (kind.sign :: rest) := by
  intro token ht
  obtain rfl := Option.some.inj ht
  exact h

/-- Every binary operator binds tighter than nothing. -/
theorem Precedence.lowest_lt_of_operator {kind : Kind} {precedence : Precedence}
    (h : standardPrecedence? kind = some precedence) :
    Precedence.lowest.rank < precedence.rank := by
  cases kind <;> cases h <;> decide

/-! ## §2. Legible expressions. -/

/-- The name in an expression may stand there, and a call has the type of the
visible function, or else the one that is read ahead. -/
def Expr.Meant (c : Context) (ahead : String → Option BaseType) : Expr → Prop
  | .reference _ type => c.inAttribute = true ∨ type ≠ .function
  | .call name _ returns =>
    (∀ symbol, c.lookup? name.value = some symbol →
        symbol.isFunction = true ∧ returns = symbol.returnBase?)
      ∧ (c.lookup? name.value = none → returns = ahead name.value)
  | .binary _ _ _ _ _ | .unary _ _ _ _ | .literal _ _ => True

/-- One expression can be read back where its parts can. -/
structure Expr.Legible (c : Context) (ahead : String → Option BaseType) (e : Expr) : Prop where
  fitting : e.Fitting
  typed : e.Typed c
  meant : e.Meant c ahead

/-- Where the parser stands the context is this one, and these types are read
ahead. -/
structure Parser.Offers (c : Context) (ahead : String → Option BaseType) (p : Parser) :
    Prop where
  regular : Regular p.scopes
  context : p.scopes.context = c
  calm : p.cursor.Calm
  ahead : ∀ name, p.cursor.returnTypeAhead? name = ahead name

namespace Parser.Offers

variable {c : Context} {ahead : String → Option BaseType} {p q : Parser} {phrase : Phrase}

theorem across (h : p.Offers c ahead) (passed : Over Token.Quiet p.cursor q.cursor)
    (regular : Regular q.scopes) (context : q.scopes.context = p.scopes.context) :
    q.Offers c ahead where
  regular := regular
  context := context.trans h.context
  calm := (passed.calm h.calm).1
  ahead name := ((passed.calm h.calm).2 name).trans (h.ahead name)

theorem next (h : p.Offers c ahead) (quiet : p.current.Quiet) : p.next.Offers c ahead :=
  h.across (.one quiet) h.regular rfl

theorem behind (h : p.Offers c ahead) (read : Reads phrase p q)
    (expression : phrase.isExpression = true) : q.Offers c ahead := by
  obtain ⟨regular, marks⟩ := read.marks expression h.regular
  exact h.across (read.quiet (Phrase.isQuiet_of_isExpression expression)) regular marks.context

theorem separated (h : p.Offers c ahead) : p.pastComma.pastLines.Offers c ahead := by
  refine h.across ((quiet_pastComma p).trans (quiet_pastLines p.pastComma)) ?_ ?_
  · simpa using h.regular
  · simp

theorem marked (h : p.Offers c ahead) (name : Token) :
    (p.withScopes (p.scopes.mark name)).Offers c ahead :=
  h.across (.refl _) (h.regular.mark name) (Marks.mark h.regular name).context

/-- A call has the type that is read for it. -/
theorem callType (h : q.Offers c ahead) {name : Token} {arguments : List Expr}
    {returns : Option BaseType} (meant : (Expr.call name arguments returns).Meant c ahead) :
    q.callType name.value = returns := by
  obtain ⟨visible, hidden⟩ := meant
  rw [← h.context, Scopes.lookup?_context h.regular] at visible hidden
  unfold Parser.callType Scopes.visibleFunction?
  cases hl : q.scopes.lookup? name.value with
  | none =>
      rw [hidden hl]
      exact h.ahead name.value
  | some symbol =>
      obtain ⟨function, type⟩ := visible symbol hl
      rw [Option.filter_some, if_pos function]
      exact type.symm

end Parser.Offers

/-! ## §3. Reading printed expressions. -/

section Expressions

variable {c : Context} {ahead : String → Option BaseType} {p q : Parser} {e : Expr}
  {rest : List Token}

/-- An operand alone is an expression. -/
theorem Reads.alone (h : Reads (.operand e) p q) (there : q.Faces rest)
    (ending : EndsExpression rest) (limit : Precedence) : Reads (.expr limit e) p q := by
  refine .expr h (.noOperator fun next hn => ?_)
  have stop : standardPrecedence? q.kind = none := (ending q.current there.head?).1
  rw [stop] at hn
  cases hn

/-- A name that is no call is read as a value. -/
theorem Expr.reads_reference {name : Token} {type : BaseType}
    (legible : (Expr.reference name type).Legible c ahead) (offers : p.Offers c ahead)
    (faces : p.Faces (name :: rest)) (ending : EndsExpression rest) :
    Reads (.operand (.reference name type)) p p.next := by
  obtain ⟨fitting, typed, meant⟩ := legible
  obtain rfl := faces.current
  have name : p.kind = .identifier := fitting
  have there := faces.next (show p.kind ≠ .eof by rw [name]; decide)
  have alone : p.atApplication = false := by
    have other : p.next.kind ≠ .openParen := (ending p.next.current there.head?).2
    simp [Parser.atApplication, other]
  have attached : c.inAttribute = p.scopes.inAttribute := by
    rw [← offers.context, Scopes.inAttribute_context]
  have lookup : c.lookup? p.current.value = p.scopes.lookup? p.current.value := by
    rw [← offers.context, Scopes.lookup?_context offers.regular]
  rw [Expr.Typed, attached, lookup] at typed
  rw [Expr.Meant, attached] at meant
  cases outside : p.scopes.inAttribute with
  | false =>
      rw [outside] at typed meant
      rw [if_neg (by simp)] at typed
      obtain ⟨symbol, hl, rfl⟩ := typed
      exact .reference name alone outside hl (meant.resolve_left Bool.false_ne_true)
  | true =>
      rw [outside] at typed
      cases hb : DeclaredType.builtin? p.current.value with
      | none =>
          rw [if_neg (by simp [hb])] at typed
          obtain ⟨symbol, hl, rfl⟩ := typed
          exact .attached name alone outside hb hl
      | some type =>
          rw [if_pos (by simp [hb])] at typed
          have base : BaseType.ofName p.current.value = type.base := by
            unfold BaseType.ofName DeclaredType.ofName
            rw [hb]
            rfl
          rw [typed, base]
          exact .builtin name alone outside hb

/-- What is in parentheses is read as an operand. -/
theorem Expr.reads_inParens
    (h : ∀ {p : Parser} {rest : List Token}, p.Offers c ahead → p.Faces (e.print ++ rest) →
      EndsExpression rest → ∃ q, Reads (.expr .lowest e) p q ∧ q.Faces rest)
    (offers : p.Offers c ahead) (faces : p.Faces (inParens e.print ++ rest)) :
    ∃ q, Reads (.operand e) p q ∧ q.Faces rest := by
  rw [inParens_append] at faces
  have opening : p.current.Quiet := Token.quiet_of_kind faces.kind (by decide)
  obtain ⟨q, hq, there⟩ := h (offers.next opening) (faces.next (by decide))
    (endsExpression_sign (by decide) rest)
  exact ⟨q.next, .grouping faces.kind hq there.kind, there.next (by decide)⟩

/-- Arguments begin with an expression or with the closing parenthesis. -/
theorem Expr.head?_printArguments {es : List Expr} {token : Token}
    (h : ∀ node ∈ nodesOfAll es, node.Fitting)
    (ht : (printArguments es ++ rest).head? = some token) :
    token.kind ≠ .comma ∧ token.kind ≠ .newline := by
  cases es with
  | nil =>
      obtain rfl := Option.some.inj ht
      decide
  | cons e more =>
      obtain ⟨first, tokens, same, operand⟩ :=
        Expr.print_eq_cons (List.forall_mem_append.1 h).1
      rw [printArguments, same] at ht
      obtain rfl := Option.some.inj ht
      constructor <;> intro other <;> rw [other] at operand <;> cases operand

theorem endsExpression_separator (es : List Expr) :
    EndsExpression (separator .comma es ++ (Expr.printArguments es ++ rest)) := by
  cases es with
  | nil => exact endsExpression_sign (by decide) _
  | cons => exact endsExpression_sign (by decide) _

end Expressions

section

variable {c : Context} {ahead : String → Option BaseType}

mutual

/-- **A printed expression is read.** -/
theorem Expr.reads : ∀ {e : Expr} {p : Parser} {rest : List Token},
    (∀ node ∈ e.nodes, node.Legible c ahead) → p.Offers c ahead →
      p.Faces (e.print ++ rest) → EndsExpression rest →
      ∃ q, Reads (.expr .lowest e) p q ∧ q.Faces rest
  | .binary operator token left right type, p, rest, legible, offers, faces, ending => by
      obtain ⟨⟨⟨rfl, listed⟩, ⟨l, r, hl, hr, typed⟩, -⟩, parts⟩ := List.forall_mem_cons.1 legible
      obtain ⟨legibleLeft, legibleRight⟩ := List.forall_mem_append.1 parts
      obtain ⟨next, sign⟩ := Option.isSome_iff_exists.1 listed
      rw [Expr.print, List.append_assoc, List.cons_append] at faces
      obtain ⟨q, first, there⟩ := Expr.reads_inParens (Expr.reads legibleLeft) offers faces
      obtain rfl := there.current
      have quiet : q.current.Quiet := Token.quiet_of_kind rfl (Kind.quiet_of_listed sign rfl rfl)
      have inner : q.current.kind ≠ .eof := by
        intro same
        rw [same] at sign
        cases sign
      have tight := Precedence.lowest_lt_of_operator sign
      obtain ⟨u, second, finish⟩ := Expr.reads_inParens (Expr.reads legibleRight)
        ((offers.behind first rfl).next quiet) (there.next inner)
      have joined : (do BaseType.binary? (← left.base?) (← right.base?)) = some type := by
        rw [hl, hr]
        exact typed
      refine ⟨u, .expr first (.operator sign tight (second.alone finish ending next) joined ?_),
        finish⟩
      refine .noOperator fun next hn => ?_
      have stop : standardPrecedence? u.kind = none := (ending u.current finish.head?).1
      rw [stop] at hn
      cases hn
  | .unary operator token operand type, p, rest, legible, offers, faces, ending => by
      obtain ⟨⟨⟨rfl, rule⟩, ⟨base, numeric⟩, -⟩, parts⟩ := List.forall_mem_cons.1 legible
      rw [Expr.print, List.cons_append] at faces
      obtain rfl := faces.current
      have quiet : p.current.Quiet := Token.quiet_of_kind rfl (Kind.quiet_of_listed rule rfl rfl)
      have inner : p.current.kind ≠ .eof := by
        intro same
        rw [same] at rule
        cases rule
      obtain ⟨q, hq, there⟩ := Expr.reads_inParens (Expr.reads parts) (offers.next quiet)
        (faces.next inner)
      have typed : operand.base?.bind BaseType.unary? = some type := by
        rw [base]
        exact if_pos numeric
      exact ⟨q, (Reads.unary rule (hq.alone there ending .unary) typed).alone there ending _,
        there⟩
  | .call name arguments returns, p, rest, legible, offers, faces, ending => by
      obtain ⟨⟨fitting, -, meant⟩, parts⟩ := List.forall_mem_cons.1 legible
      rw [Expr.print, List.cons_append, List.cons_append] at faces
      obtain rfl := faces.current
      have name : p.kind = .identifier := fitting
      have opened := faces.next (show p.kind ≠ .eof by rw [name]; decide)
      have opening : p.next.kind = .openParen := opened.kind
      have here : p.atApplication = true := by simp [Parser.atApplication, name, opening]
      have callable : ∀ symbol, p.scopes.lookup? p.current.value = some symbol →
          symbol.isFunction = true := by
        intro symbol hl
        rw [← Scopes.lookup?_context offers.regular, offers.context] at hl
        exact (meant.1 symbol hl).1
      have inside : (p.next.next.withScopes (p.scopes.mark p.current)).Offers c ahead :=
        ((offers.next (Token.quiet_of_kind name (by decide))).next
          (Token.quiet_of_kind opening (by decide))).marked p.current
      have there : (p.next.next.withScopes (p.scopes.mark p.current)).Faces
          (Expr.printArguments arguments ++ rest) := opened.next (by decide)
      have lines : (p.next.next.withScopes (p.scopes.mark p.current)).pastLines
          = p.next.next.withScopes (p.scopes.mark p.current) :=
        there.pastLines_of_head fun _ ht =>
          (Expr.head?_printArguments (fun node hn => (parts node hn).fitting) ht).2
      obtain ⟨q, ha, finish⟩ := Expr.reads_arguments parts inside there
      rw [← lines] at ha
      have call := Reads.call here callable ha
      rw [(offers.behind call rfl).callType meant] at call
      exact ⟨q, call.alone finish ending _, finish⟩
  | .literal token type, p, rest, legible, offers, faces, ending => by
      obtain ⟨-, typed, -⟩ := legible _ (List.mem_singleton.2 rfl)
      have faces : p.Faces (token :: rest) := faces
      obtain rfl := faces.current
      have typed : BaseType.ofLiteral? p.kind = some type := typed
      have inner : p.current.kind ≠ .eof := by
        intro same
        rw [Parser.kind, same] at typed
        cases typed
      have there := faces.next inner
      exact ⟨p.next, (Reads.literal typed).alone there ending _, there⟩
  | .reference name type, p, rest, legible, offers, faces, ending => by
      have legible := legible _ (List.mem_singleton.2 rfl)
      have faces : p.Faces (name :: rest) := faces
      have fitting : name.kind = .identifier := legible.fitting
      have there := faces.next (by rw [fitting]; decide)
      exact ⟨p.next, (Expr.reads_reference legible offers faces ending).alone there ending _,
        there⟩

/-- **Printed arguments are read.** -/
theorem Expr.reads_arguments : ∀ {es : List Expr} {p : Parser} {rest : List Token},
    (∀ node ∈ Expr.nodesOfAll es, node.Legible c ahead) → p.Offers c ahead →
      p.Faces (Expr.printArguments es ++ rest) →
      ∃ q, Reads (.arguments es) p q ∧ q.Faces rest
  | [], p, rest, _, _, faces => ⟨p.next, .noArgument (Parser.Faces.kind faces),
      Parser.Faces.next faces (by decide)⟩
  | e :: more, p, rest, legible, offers, faces => by
      obtain ⟨legibleFirst, legibleMore⟩ := List.forall_mem_append.1 legible
      obtain ⟨token, tokens, same, operand⟩ :=
        Expr.print_eq_cons fun node hn => (legibleFirst node hn).fitting
      rw [Expr.printArguments, List.append_assoc, List.append_assoc] at faces
      have first : p.kind = token.kind := by
        rw [same] at faces
        exact faces.kind
      obtain ⟨q, he, there⟩ := Expr.reads legibleFirst offers faces (endsExpression_separator more)
      obtain ⟨r, ha, finish⟩ := Expr.reads_arguments legibleMore (offers.behind he rfl).separated
        (there.pastComma fun _ => Expr.head?_printArguments fun node hn =>
          (legibleMore node hn).fitting)
      refine ⟨r, .argument ?_ ?_ he ha, finish⟩
      · intro closing
        rw [← first, closing] at operand
        cases operand
      · intro final
        rw [← first, final] at operand
        cases operand

end

end

end ImpFront
