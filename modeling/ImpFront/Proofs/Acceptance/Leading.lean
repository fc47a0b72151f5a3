/-
  ImpFront.Proofs.Acceptance.Leading
  ──────────────────────────────────
  **ATTRIBUTES IN FRONT OF ANY REST.**

  A file begins with attributes, and then comes a rest:

      @first            ┐
      @second f(1)      ├ front
      ────────────────  ┘
      …                   rest

  The attributes are read up to the last separator of the front, whatever the
  rest is, and leave the same scopes.  Only the type of a call may depend on
  it: that of a function which is declared in the rest.  Where a rest foretells
  every type that another one does, the attributes which are read in front of
  that one are read in front of it.
-/
import ImpFront.Proofs.Acceptance.Foresight
import ImpFront.Proofs.Grammar.Completeness
import ImpFront.Proofs.Grammar.Foretelling
import ImpFront.Proofs.Grammar.Pairing
import ImpFront.Proofs.Grammar.Visiting

namespace ImpFront

/-! ## §1. What a rest foretells. -/

/-- Each type that is read ahead in the first rest is read ahead in the
second. -/
structure Foresees (later later' : List Token) : Prop where
  /-- From the rest itself on, behind a token that announces nothing. -/
  ahead : ∀ name type, ∀ previous : Token, previous.Quiet →
    returnTypeAhead? name (some previous) later = some type →
    returnTypeAhead? name (some previous) later' = some type
  /-- Behind a parenthesis that is open in front of it. -/
  behind : ∀ type, typeBehindParameters? later = some type →
    typeBehindParameters? later' = some type

namespace Foresees

variable {closing : Token} {later later' : List Token} {type : BaseType}

/-- A separator in front of the rests makes no difference to what stands behind
the parameters. -/
theorem behind_append (h : Foresees later later') (ends : closing.kind.isTerminator = true)
    {before : List Token}
    (typed : typeBehindParameters? (before ++ closing :: later) = some type) :
    typeBehindParameters? (before ++ closing :: later') = some type := by
  have separates : closing.kind ≠ .closeParen ∧ closing.kind ≠ .arrow :=
    ⟨Kind.ne_of_isTerminator ends rfl, Kind.ne_of_isTerminator ends rfl⟩
  induction before with
  | nil =>
      rw [List.nil_append, typeBehindParameters?_cons separates.1] at typed ⊢
      exact h.behind type typed
  | cons token more ih =>
      by_cases close : token.kind = .closeParen
      · -- an arrow and a type stand in front of the separator, or there is none
        cases more with
        | nil => cases later <;> simp [typeBehindParameters?, close, separates.2] at typed
        | cons arrow more =>
            cases more <;> simpa [typeBehindParameters?, close] using typed
      · rw [List.cons_append, typeBehindParameters?_cons close] at typed ⊢
        exact ih typed

/-- The same holds of what is read ahead from any place in front of the
separator. -/
theorem ahead_append (h : Foresees later later') (ends : closing.kind.isTerminator = true)
    {name : String} {before : List Token} {previous : Option Token}
    (typed : returnTypeAhead? name previous (before ++ closing :: later) = some type) :
    returnTypeAhead? name previous (before ++ closing :: later') = some type := by
  induction before generalizing previous with
  | nil =>
      have other : closing.kind ≠ .identifier := Kind.ne_of_isTerminator ends rfl
      have behind : ∀ rest, returnTypeAhead? name previous (closing :: rest)
          = returnTypeAhead? name (some closing) rest := by
        intro rest
        simp [returnTypeAhead?, other]
      rw [List.nil_append, behind] at typed ⊢
      exact h.ahead name type closing (Token.quiet_of_isTerminator ends) typed
  | cons token more ih =>
      have same : (more ++ closing :: later).head? = (more ++ closing :: later').head? := by
        cases more <;> rfl
      rw [List.cons_append, returnTypeAhead?, same] at typed
      rw [List.cons_append, returnTypeAhead?]
      split
      · next here =>
        rw [if_pos here] at typed
        exact h.behind_append ends typed
      · next elsewhere =>
        rw [if_neg elsewhere] at typed
        exact ih typed

end Foresees

/-! ## §2. Parsers in front of two rests. -/

/-- The parsers have the same tokens ahead up to a separator, and then two
rests. -/
structure Parser.Swapped (closing : Token) (later later' between : List Token)
    (p p' : Parser) : Prop where
  faces : p.Faces (between ++ closing :: later)
  faces' : p'.Faces (between ++ closing :: later')
  behind : p'.cursor.behind = p.cursor.behind
  scopes : p'.scopes = p.scopes
  depth : p'.blockDepth = p.blockDepth

theorem Cursor.behind_advance {c : Cursor} (inner : c.current.kind ≠ .eof) :
    c.advance.behind = c.current :: c.behind := by
  unfold current peek at inner ⊢
  unfold advance
  split
  · next none =>
    rw [none] at inner
    exact absurd c.final_kind inner
  · next token rest ahead => simp [ahead]

namespace Parser.Swapped

variable {closing : Token} {later later' between : List Token} {p p' : Parser}

theorem current (h : p.Swapped closing later later' between p') : p'.current = p.current := by
  cases between with
  | nil => exact h.faces'.current.trans h.faces.current.symm
  | cons token between => exact h.faces'.current.trans h.faces.current.symm

theorem kind (h : p.Swapped closing later later' between p') : p'.kind = p.kind := by
  rw [Parser.kind, h.current, Parser.kind]

theorem atStatementEnd (h : p.Swapped closing later later' between p') :
    p'.atStatementEnd = p.atStatementEnd := by
  unfold Parser.atStatementEnd
  rw [h.current, h.depth]

theorem atAttributeEnd (h : p.Swapped closing later later' between p') :
    p'.atAttributeEnd = p.atAttributeEnd := by
  unfold Parser.atAttributeEnd
  rw [h.kind]

theorem withScopes (h : p.Swapped closing later later' between p') (s : Scopes) :
    (p.withScopes s).Swapped closing later later' between (p'.withScopes s) :=
  ⟨h.faces, h.faces', h.behind, rfl, h.depth⟩

/-- A token in front of the separator can be passed. -/
theorem step (h : p.Swapped closing later later' between p') (inner : p.kind ≠ .eof)
    (still : closing :: later <:+ p.next.cursor.rest) :
    p.next.Swapped closing later later' between.tail p'.next := by
  have same := h.current
  have split := h.faces.eq_cons inner still
  have inner' : p'.kind ≠ .eof := by rwa [h.kind]
  obtain ⟨faces, faces', behind, scopes, depth⟩ := h
  rw [split] at faces faces'
  refine ⟨faces.next inner, faces'.next (by rwa [Parser.kind, same] at inner'), ?_, scopes, depth⟩
  have left : p.next.cursor.behind = p.current :: p.cursor.behind :=
    Cursor.behind_advance inner
  have right : p'.next.cursor.behind = p'.current :: p'.cursor.behind :=
    Cursor.behind_advance inner'
  rw [left, right, same, behind]

/-- **Parsers in front of two rests are paired,** if the second one foretells
what the first one does. -/
theorem pairing (ends : closing.kind.isTerminator = true) (foresees : Foresees later later') :
    Pairing False (closing :: later) fun p p' =>
      ∃ between, p.Swapped closing later later' between p' where
  kind := fun ⟨_, h⟩ => .inl h.kind
  scopes := fun ⟨_, h⟩ => h.scopes
  withScopes := fun s ⟨between, h⟩ => ⟨between, h.withScopes s⟩
  step := fun ⟨_, h⟩ _ inner still => ⟨h.current, _, h.step inner still⟩
  types := by
    rintro p p' ⟨between, h⟩ name type typed
    unfold Parser.callType at typed ⊢
    rw [h.scopes]
    split
    · next symbol visible =>
      rw [visible] at typed
      exact typed
    · next hidden =>
      rw [hidden] at typed
      have typed : returnTypeAhead? name p.cursor.behind.head? p.cursor.rest = some type := typed
      show returnTypeAhead? name p'.cursor.behind.head? p'.cursor.rest = some type
      rw [h.behind, show p'.cursor.rest = _ from h.faces']
      rw [show p.cursor.rest = _ from h.faces] at typed
      exact foresees.ahead_append ends typed
  exactly := False.elim

end Parser.Swapped

/-! ## §3. An attribute in front of two rests. -/

/-- An expression passes its first token. -/
theorem Reads.isSuffix_next {limit : Precedence} {e : Expr} {p q : Parser}
    (h : Reads (.expr limit e) p q) : q.cursor.rest <:+ p.next.cursor.rest := by
  cases h with
  | expr operand more =>
      refine more.isSuffix.trans ?_
      cases operand with
      | literal | builtin | attached | reference => exact List.suffix_rfl
      | unary _ inside => exact inside.isSuffix
      | @grouping _ r _ _ inside => exact r.isSuffix_next.trans inside.isSuffix
      | call _ _ arguments =>
          have lines := arguments.isSuffix.trans (Parser.isSuffix_pastLines _)
          exact lines.trans p.next.isSuffix_next

/-- Expressions that stand for types stand for the same ones. -/
theorem importedParameters_of_standFor {es es' : List Expr} {ps : List Parameter}
    (stand : List.Forall₂ (Expr.StandsFor False) es es')
    (h : es.mapM Statement.importedParameter = .ok ps) :
    es'.mapM Statement.importedParameter = .ok ps := by
  induction stand generalizing ps with
  | nil => exact h
  | @cons e e' es es' stands _ ih =>
      rw [List.mapM_cons] at h ⊢
      cases he : Statement.importedParameter e with
      | error => rw [he] at h; cases h
      | ok parameter =>
          cases hes : es.mapM Statement.importedParameter with
          | error => rw [he, hes] at h; cases h
          | ok later =>
              rw [he, hes] at h
              rw [stands.parameter parameter he, ih hes]
              exact h

section

variable {closing : Token} {later later' between : List Token} {p p' q : Parser}
  {attached : Attribute}

/-- The type behind an arrow is read in front of both rests. -/
theorem Reads.returns_swapped {type : Option Token} (h : Reads (.returns type) p q)
    (still : closing :: later <:+ q.cursor.rest)
    (swapped : p.Swapped closing later later' between p') :
    ∃ more q', Reads (.returns type) p' q' ∧ q.Swapped closing later later' more q' := by
  cases h with
  | noReturn other =>
      exact ⟨between, p', .noReturn (by rwa [swapped.kind]), swapped⟩
  | returns arrow name =>
      have onward := swapped.step (by rw [arrow]; decide) (still.trans p.next.isSuffix_next)
      have finish := onward.step (by rw [name]; decide) still
      have read := Reads.returns (p := p') (by rwa [swapped.kind]) (by rwa [onward.kind])
      rw [onward.current] at read
      exact ⟨_, _, read, finish⟩

/-- **An attribute in front of a separator is read in front of both rests**,
and the parsers behind it have the two rests ahead. -/
theorem Reads.attribute_swapped (h : Reads (.statement (.attribute attached)) p q)
    (ends : closing.kind.isTerminator = true) (foresees : Foresees later later')
    (still : closing :: later <:+ q.cursor.rest)
    (swapped : p.Swapped closing later later' between p') :
    ∃ attached' more q', Reads (.statement (.attribute attached')) p' q'
      ∧ q.Swapped closing later later' more q' := by
  have pairing := Parser.Swapped.pairing ends foresees
  cases h with
  | statement clause ending =>
    cases clause with
    | bareAttribute keyword stop =>
        have onward := swapped.step (by rw [keyword]; decide) still
        have read := Reads.bareAttribute (p := p') (by rwa [swapped.kind])
          (by rwa [onward.atStatementEnd])
        exact ⟨_, _, _, .statement read (by rwa [onward.atStatementEnd]), onward⟩
    | @attributeValue _ q value s t keyword more he alone inside stop hx =>
        have onward := swapped.step (by rw [keyword]; decide) (still.trans inside.isSuffix)
        obtain ⟨q', ⟨more', behind⟩, value', -, read⟩ :=
          inside.readFrom pairing rfl still ⟨_, onward.withScopes s⟩
        have alone' : p'.next.atApplication = false := by
          by_cases name : p.next.kind = .identifier
          · have onward' := onward.step (by rw [name]; decide) (still.trans inside.isSuffix_next)
            have here := pairing.atApplication (p := p.next) ⟨_, onward'⟩ alone name
            exact here
          · have other : p'.next.kind ≠ .identifier := by rwa [onward.kind]
            simp [Parser.atApplication, other]
        have whole := Reads.attributeValue (p := p') (by rwa [swapped.kind])
          (by rwa [onward.atStatementEnd]) (by rwa [swapped.scopes]) alone' read
          (by rwa [behind.atAttributeEnd]) (by rwa [behind.scopes])
        have finish := behind.withScopes t
        exact ⟨_, _, _, .statement whole (by rwa [finish.atStatementEnd]), finish⟩
    | @imported _ q r es ps type s t u keyword more he here known inside same returns hd stop hx =>
        obtain ⟨name, opening⟩ := Parser.kind_of_atApplication here
        have stillq := still.trans returns.isSuffix
        have stilll := stillq.trans inside.isSuffix
        have still3 := stilll.trans (Parser.isSuffix_pastLines _)
        have still2 := still3.trans p.next.next.isSuffix_next
        have still1 := still2.trans p.next.isSuffix_next
        have first := swapped.step (by rw [keyword]; decide) still1
        have second := first.step (by rw [name]; decide) still2
        have third := second.step (by rw [opening]; decide) still3
        have head := pairing.pastLines ⟨_, third.withScopes s⟩ stilll
        obtain ⟨q', ⟨_, behind⟩, es', stand, read⟩ := inside.readFrom pairing rfl stillq head
        obtain ⟨_, r', reads, finish⟩ := returns.returns_swapped still behind
        have here' : p'.next.atApplication = true := by
          unfold Parser.atApplication
          rw [first.kind, second.kind]
          exact here
        have whole := Reads.imported (p := p') (by rwa [swapped.kind])
          (by rwa [first.atStatementEnd]) (by rwa [swapped.scopes]) here'
          (by rwa [swapped.current]) read (importedParameters_of_standFor stand same) reads
          (by rwa [swapped.current, first.current, finish.scopes])
          (by rwa [finish.atAttributeEnd]) hx
        have finish := finish.withScopes u
        exact ⟨_, _, _, .statement whole (by rwa [finish.atStatementEnd]), finish⟩

end

/-! ## §4. The front of a file. -/

/-- Reading the file comes over these attributes, and to the parser behind
them. -/
inductive Leads (tokens : List Token) : List Attribute → Parser → Prop where
  | start : Leads tokens [] (.ofTokens tokens)
  | behind {attributes p q attached} :
      Leads tokens attributes p → p.pastSeparators.kind ≠ .eof →
      Reads (.statement (.attribute attached)) p.pastSeparators q →
      Leads tokens (attributes ++ [attached]) q

/-- The tokens `front` in front of `rest` are these attributes, each with a
separator behind it.  The parser stands behind the last attribute. -/
structure Front (front rest : List Token) (attributes : List Attribute) (p : Parser) : Prop where
  leads : Leads (front ++ rest) attributes p
  /-- Only separators of the front are left, and some if there are attributes. -/
  gap : ∃ gap : List Token, (∀ token ∈ gap, token.kind.isTerminator = true)
    ∧ p.Faces (gap ++ rest) ∧ (gap = [] → attributes = [])

theorem Leads.visits {tokens : List Token} {attributes : List Attribute} {p : Parser}
    (h : Leads tokens attributes p) : Visits tokens .file p := by
  induction h with
  | start => exact .start
  | behind _ inner read ih => exact .behind ih inner read

/-- Without attributes there is nothing to be read. -/
theorem Leads.eq_start {tokens : List Token} {p : Parser} (h : Leads tokens [] p) :
    p = .ofTokens tokens := by
  generalize hnone : ([] : List Attribute) = none at h
  cases h with
  | start => rfl
  | behind => exact absurd hnone.symm (List.append_ne_nil_of_right_ne_nil _ (by simp))

theorem Leads.tokens {tokens : List Token} {attributes : List Attribute} {p : Parser}
    (h : Leads tokens attributes p) (closed : Closed tokens) :
    p.cursor.behind.reverse ++ p.cursor.rest = tokens := by
  have split : ∀ c : Cursor, c.tokens = c.behind.reverse ++ c.rest := by
    simp [Cursor.tokens, Cursor.rest]
  rw [← split]
  induction h with
  | start => exact Cursor.tokens_ofTokens closed
  | behind _ _ read ih => rw [read.tokens, Parser.tokens_pastSeparators, ih]

/-- What is read behind the attributes is read from the start with them. -/
theorem Leads.reads {tokens : List Token} {attributes : List Attribute} {p q : Parser}
    {ss : List Stmt} (h : Leads tokens attributes p) (behind : Reads (.file ss) p q) :
    Reads (.file (attributes.map .attribute ++ ss)) (.ofTokens tokens) q := by
  induction h generalizing ss with
  | start => exact behind
  | behind _ inner read ih =>
      have before := ih (.file inner read behind)
      simpa using before

/-- Whoever reads the whole file comes by the parser behind the attributes. -/
theorem Leads.split {tokens : List Token} {attributes : List Attribute} {p q : Parser}
    {ss : List Stmt} (h : Leads tokens attributes p)
    (whole : Reads (.file ss) (.ofTokens tokens) q) :
    ∃ later, ss = attributes.map .attribute ++ later ∧ Reads (.file later) p q := by
  induction h with
  | start => exact ⟨ss, rfl, whole⟩
  | behind _ inner read ih =>
      obtain ⟨later, rfl, behind⟩ := ih
      cases behind with
      | emptyFile final => exact absurd final inner
      | file _ first rest =>
        obtain ⟨rfl, rfl⟩ := read.statement_unique first
        exact ⟨_, by simp, rest⟩

/-- At its beginning a file that closes with an end token lies ahead. -/
theorem Parser.faces_ofTokens {tokens : List Token} (closed : Closed tokens) :
    (Parser.ofTokens tokens).Faces tokens := by
  have whole := Cursor.tokens_ofTokens closed
  unfold Cursor.tokens at whole
  rwa [Cursor.behind_ofTokens, List.reverse_nil, List.nil_append] at whole

theorem Closed.append {tokens : List Token} (closed : Closed tokens) (front : List Token) :
    Closed (front ++ tokens) := by
  obtain ⟨final, hlast, ending⟩ := closed
  have hlast : tokens.getLast? = some final := hlast
  refine ⟨final, ?_, ending⟩
  rw [List.getLast?_append, hlast]
  rfl

section

variable {front rest rest' : List Token} {attributes : List Attribute} {p : Parser}

/-- Attributes lead to the same place in front of two rests. -/
theorem Leads.swapped {closing : Token} {later later' between tokens tokens' : List Token}
    (h : Leads tokens attributes p) (ends : closing.kind.isTerminator = true)
    (foresees : Foresees later later')
    (start : (Parser.ofTokens tokens).Swapped closing later later' between (.ofTokens tokens'))
    (still : closing :: later <:+ p.cursor.rest) :
    ∃ attributes' more p', Leads tokens' attributes' p'
      ∧ p.Swapped closing later later' more p' := by
  induction h with
  | start => exact ⟨[], between, _, .start, start⟩
  | @behind _ p q _ _ inner read ih =>
      have stills := still.trans read.isSuffix
      obtain ⟨attributes', _, p', leads, swapped⟩ := ih (stills.trans (p.isSuffix_past _))
      have pairing := Parser.Swapped.pairing ends foresees
      obtain ⟨_, passed⟩ := pairing.pastSeparators ⟨_, swapped⟩ stills
      obtain ⟨attached', _, q', read', behind⟩ :=
        read.attribute_swapped ends foresees still passed
      have inner' : p'.pastSeparators.kind ≠ .eof := by
        rw [show p'.pastSeparators.kind = p.pastSeparators.kind from passed.kind]
        exact inner
      exact ⟨attributes' ++ [attached'], _, q', .behind leads inner' read', behind⟩

/-- **A front of attributes is one in front of every rest that foretells as
much**, with the same scopes behind it. -/
theorem Front.swapped (h : Front front rest attributes p) (closed : Closed rest)
    (closed' : Closed rest') (foresees : Foresees rest rest') :
    ∃ attributes' p', Front front rest' attributes' p' ∧ p'.scopes = p.scopes := by
  obtain ⟨leads, gap, separators, faces, some⟩ := h
  have start : (Parser.ofTokens (front ++ rest)).Faces (front ++ rest) :=
    Parser.faces_ofTokens (closed.append front)
  have start' : (Parser.ofTokens (front ++ rest')).Faces (front ++ rest') :=
    Parser.faces_ofTokens (closed'.append front)
  obtain ⟨passed, split⟩ : ∃ passed, passed ++ gap = front := by
    have whole := leads.tokens (closed.append front)
    rw [show p.cursor.rest = _ from faces, ← List.append_assoc] at whole
    exact ⟨_, List.append_cancel_right whole⟩
  rcases List.eq_nil_or_concat gap with rfl | ⟨init, closing, rfl⟩
  · -- without a separator there is nothing in front at all
    obtain rfl := some rfl
    have none : p = .ofTokens (front ++ rest) := leads.eq_start
    rw [none] at faces
    have empty : front = [] := List.append_left_eq_self.1 (start.symm.trans faces)
    subst empty
    exact ⟨[], .ofTokens rest', ⟨.start, [], separators, start', fun _ => rfl⟩, by rw [none]; rfl⟩
  · have ends : closing.kind.isTerminator = true := separators closing (by simp)
    rw [List.concat_eq_append] at split faces separators
    have swapped : (Parser.ofTokens (front ++ rest)).Swapped closing rest rest' (passed ++ init)
        (.ofTokens (front ++ rest')) := by
      rw [← split] at start start' ⊢
      refine ⟨by simpa using start, by simpa using start', ?_, rfl, rfl⟩
      exact (Cursor.behind_ofTokens _).trans (Cursor.behind_ofTokens _).symm
    have faces : p.Faces (init ++ closing :: rest) := by simpa using faces
    have still : closing :: rest <:+ p.cursor.rest := by
      rw [show p.cursor.rest = _ from faces]
      exact List.suffix_append _ _
    obtain ⟨attributes', more, p', leads', there⟩ := leads.swapped ends foresees swapped still
    have same : more = init := by
      have both : more ++ closing :: rest = init ++ closing :: rest := there.faces.symm.trans faces
      exact List.append_cancel_right both
    rw [same] at there
    refine ⟨attributes', p', ⟨leads', init ++ [closing], separators, ?_, by simp⟩, there.scopes⟩
    simpa using there.faces'

end

/-! ## §5. Where an attribute ends. -/

/-- There is a token behind the cursor, and it is no separator. -/
def Parser.Solid (p : Parser) : Prop :=
  ∃ last, p.cursor.behind.head? = some last ∧ last.kind.isTerminator = false

theorem Parser.solid_next {p : Parser} (inner : p.kind ≠ .eof)
    (other : p.kind.isTerminator = false) : p.next.Solid :=
  ⟨p.current, Cursor.head?_behind_advance inner, other⟩

theorem Parser.solid_next_of_kind {p : Parser} {kind : Kind} (h : p.kind = kind)
    (inner : kind ≠ .eof) (other : kind.isTerminator = false) : p.next.Solid :=
  Parser.solid_next (by rwa [h]) (by rwa [h])

/-- A table that knows neither separators nor the end of a file knows only kinds
of solid tokens. -/
theorem Parser.solid_next_of_listed {p : Parser} {α : Type} {table : Kind → Option α} {entry : α}
    (h : table p.kind = some entry) (newline : table .newline = none)
    (semicolon : table .semicolon = none) (eof : table .eof = none) : p.next.Solid := by
  refine Parser.solid_next ?_ ?_
  · intro final
    rw [final, eof] at h
    cases h
  · rw [Bool.eq_false_iff]
    intro separates
    rcases Kind.isTerminator_iff.1 separates with kind | kind
    · rw [kind, newline] at h
      cases h
    · rw [kind, semicolon] at h
      cases h

/-- Arguments end with a parenthesis. -/
theorem Reads.solid_arguments {es : List Expr} {p q : Parser} (h : Reads (.arguments es) p q) :
    q.Solid := by
  generalize hphrase : Phrase.arguments es = phrase at h
  induction h generalizing es with
  | noArgument closing => exact Parser.solid_next_of_kind closing (by decide) rfl
  | argument _ _ _ _ _ ih => exact ih rfl
  | _ => cases hphrase

/-- No separator is the last token of an expression. -/
theorem Reads.solid {phrase : Phrase} {p q : Parser} (h : Reads phrase p q)
    (expression : phrase.isExpression = true) (solid : p.Solid) : q.Solid := by
  induction h with
  | literal known => exact Parser.solid_next_of_listed known rfl rfl rfl
  | unary sign _ _ ih => exact ih rfl (Parser.solid_next_of_listed sign rfl rfl rfl)
  | grouping _ _ closing => exact Parser.solid_next_of_kind closing (by decide) rfl
  | builtin name | attached name | reference name =>
      exact Parser.solid_next_of_kind name (by decide) rfl
  | call _ _ arguments => exact arguments.solid_arguments
  | noArgument closing => exact Parser.solid_next_of_kind closing (by decide) rfl
  | argument _ _ _ more => exact more.solid_arguments
  | noOperator => exact solid
  | operator sign _ _ _ _ ihright ihmore =>
      exact ihmore rfl (ihright rfl (Parser.solid_next_of_listed sign rfl rfl rfl))
  | expr _ _ ihoperand ihmore => exact ihmore rfl (ihoperand rfl solid)
  | _ => cases expression

/-- No separator is the last token of an attribute. -/
theorem Reads.solid_attribute {attached : Attribute} {p q : Parser}
    (h : Reads (.statement (.attribute attached)) p q) : q.Solid := by
  cases h with
  | statement clause _ =>
    cases clause with
    | bareAttribute keyword _ => exact Parser.solid_next_of_kind keyword (by decide) rfl
    | @attributeValue _ q _ _ _ keyword _ _ _ value _ _ =>
        have inside : q.Solid := value.solid rfl (Parser.solid_next_of_kind keyword (by decide) rfl)
        exact inside
    | @imported _ q r _ _ _ _ _ _ _ _ _ _ _ arguments _ returns _ _ _ =>
        have inside : r.Solid := by
          cases returns with
          | noReturn => exact arguments.solid_arguments
          | returns _ name => exact Parser.solid_next_of_kind name (by decide) rfl
        exact inside

/-- Nothing has been read, or the last token is no separator. -/
theorem Leads.solid {tokens : List Token} {attributes : List Attribute} {p : Parser}
    (h : Leads tokens attributes p) :
    (attributes = [] ∧ p.cursor.behind.reverse = [])
      ∨ ∃ last, p.cursor.behind.reverse.getLast? = some last ∧ last.kind.isTerminator = false := by
  cases h with
  | start => exact .inl ⟨rfl, congrArg List.reverse (Cursor.behind_ofTokens tokens)⟩
  | behind _ _ read =>
      obtain ⟨last, hlast, solid⟩ := read.solid_attribute
      exact .inr ⟨last, by rw [List.getLast?_reverse, hlast], solid⟩

/-- A file of attributes leads through them to the separators at its end. -/
theorem Leads.of_reads {tokens : List Token} {attributes later : List Attribute} {p q : Parser}
    (h : Leads tokens attributes p) (read : Reads (.file (later.map .attribute)) p q) :
    ∃ r, Leads tokens (attributes ++ later) r ∧ r.pastSeparators = q := by
  induction later generalizing attributes p with
  | nil =>
      cases read with
      | emptyFile => exact ⟨p, by rwa [List.append_nil], rfl⟩
  | cons attached later ih =>
      cases read with
      | file inner first more =>
          obtain ⟨r, leads, ending⟩ := ih (.behind h inner first) more
          exact ⟨r, by simpa using leads, ending⟩

end ImpFront
