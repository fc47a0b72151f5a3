/-
  ImpFront.Proofs.Acceptance.Completeness
  ───────────────────────────────────────
  **WELL-FORMED FILES ARE ACCEPTED, AND READ BACK.**

  Let the tokens of a tree be of the right kinds, its names and types used
  well, and no name both called in front of its function and bound as a
  variable.  Then its printed form is accepted, and what is read is the tree:

      (parse file program.print).1 = .ok program

  The induction is over the tree.  A statement is taken off the front of what
  a parser awaits, whatever follows it; a body takes off one statement after
  the other, and a file does the same.
-/
import ImpFront.Proofs.Acceptance.Awaiting
import ImpFront.Proofs.Acceptance.Deciding
import ImpFront.Proofs.Grammar.Completeness

namespace ImpFront

open Grammar (standardStatement?)
open Scopes (Regular Kept Stands)

/-! ## §1. Open blocks. -/

namespace Parser

variable (p : Parser)

@[simp] theorem blockDepth_next : p.next.blockDepth = p.blockDepth := rfl

@[simp] theorem blockDepth_pastLines : p.pastLines.blockDepth = p.blockDepth := rfl

@[simp] theorem blockDepth_pastSeparators : p.pastSeparators.blockDepth = p.blockDepth := rfl

@[simp] theorem blockDepth_pastComma : p.pastComma.blockDepth = p.blockDepth := by
  unfold pastComma
  split <;> rfl

@[simp] theorem blockDepth_withScopes (s : Scopes) :
    (p.withScopes s).blockDepth = p.blockDepth := rfl

@[simp] theorem blockDepth_inBlock : p.inBlock.blockDepth = p.blockDepth + 1 := rfl

@[simp] theorem blockDepth_outOfBlock : p.outOfBlock.blockDepth = p.blockDepth - 1 := rfl

@[simp] theorem blockDepth_warned (note : Option Note) :
    (p.warned note).blockDepth = p.blockDepth := rfl

end Parser

/-- **Every phrase closes the blocks that it opens.** -/
theorem Reads.blockDepth {phrase : Phrase} {p q : Parser} (h : Reads phrase p q) :
    q.blockDepth = p.blockDepth := by
  induction h <;> simp_all

theorem Link.blockDepth {condition : Expr} {body : List Stmt} {p q : Parser}
    (h : Link condition body p q) : q.blockDepth = p.blockDepth := by
  obtain ⟨-, r, hc, hb⟩ := h
  exact hb.blockDepth.trans hc.blockDepth

/-! ## §2. Functions. -/

section

variable {whole : List Mention} {later : List Mention} {p : Parser} {rest : List Token}

/-- Behind the parenthesis of an open function its parameters and its return
type are read, and then its name is bound. -/
theorem reads_signature {parameters : List Parameter} {returns : Option Token} {symbol : Symbol}
    (hps : ∀ parameter ∈ parameters, parameter.Named)
    (hr : ∀ type, returns = some type → type.kind = .identifier) (sorted : symbol.Sorted)
    (faces : p.Faces (printParameters parameters ++ (printReturns returns ++ rest)))
    (stands : Stands whole p.scopes
      ((parameterSymbols parameters).map .binds ++ .binds symbol :: later))
    (inside : p.scopes.inFunction = true)
    (stop : ∀ token, rest.head? = some token → token.kind ≠ .arrow) :
    ∃ q r s, Reads (.parameters parameters) p.pastLines q ∧ Reads (.returns returns) q r
      ∧ Scopes.define symbol r.scopes = .ok () s ∧ r.Faces rest ∧ Stands whole s later
      ∧ s.context.Within (some symbol.key) ∧ Kept p.scopes s := by
  have lines : p.pastLines = p :=
    faces.pastLines_of_head fun _ ht => (head?_printParameters hps ht).2
  obtain ⟨q, hp, there, bound⟩ := reads_parameters hps faces stands
  obtain ⟨r, ht, there, same⟩ := reads_returns there hr stop
  have kept : Kept p.scopes r.scopes := same ▸ hp.kept rfl stands.proper
  rw [← same] at bound
  obtain ⟨s, hd, own⟩ := bound.binds sorted
  have within : s.context.Within (some symbol.key) := by
    have open_ : r.scopes.context.locals.isSome = true := by
      rw [Scopes.isSome_locals_context, Scopes.inFunction, kept.level]
      exact inside
    rw [Scopes.context_define kept.proper.regular hd]
    exact Context.within_binds open_ symbol
  rw [← lines] at hp
  exact ⟨q, r, s, hp, ht, hd, there, own, within, kept.trans (Kept.define kept.proper sorted hd)⟩

/-- **A function is read** if its body is. -/
theorem Parser.Awaits.function {signature : Signature} {body : List Stmt}
    (keyword : signature.keyword.kind = .kwFunc) (formed : signature.Formed Parameter.Named)
    (hb : BodyIsRead whole (some signature.name.value) body) (inside : FormedAll true body)
    (h : p.Awaits whole none ((Stmt.function signature body).print ++ rest)
      ((Stmt.function signature body).mentions ++ later))
    (foretells : Foretells none rest later) (ending : Ends p.blockDepth rest) :
    ∃ q, Reads (.clause (.function signature body)) p q ∧ q.Awaits whole none rest later := by
  obtain ⟨head, name, parameters, returns⟩ := signature
  obtain ⟨hn, hps, hr⟩ := formed
  have faces : p.Faces (head :: name :: Kind.openParen.sign :: (printParameters parameters
      ++ (printReturns returns ++ (inBraces (printAll body) ++ rest)))) := by
    simpa [Stmt.print, Signature.print] using h.faces
  have stands : Stands whole p.scopes (.opens .function
      :: ((parameterSymbols parameters).map .binds
        ++ .binds (Signature.symbol ⟨head, name, parameters, returns⟩)
          :: (mentionsOfAll body
            ++ .completes (Signature.symbol ⟨head, name, parameters, returns⟩) :: later))) := by
    simpa [Stmt.mentions] using h.stands
  obtain rfl := faces.current
  have keyword : p.kind = .kwFunc := keyword
  have second := faces.next (show p.kind ≠ .eof by rw [keyword]; decide)
  obtain rfl := second.current
  have hn : p.next.kind = .identifier := hn
  have third := second.next (show p.next.kind ≠ .eof by rw [hn]; decide)
  -- the parameters and the name are bound in a new frame
  obtain ⟨s, he, inner⟩ := stands.opens
  have opened : s.inFunction = true ∧ s.frames.map Frame.kind
      = .function :: p.scopes.frames.map Frame.kind := by
    obtain ⟨-, rfl⟩ := Scopes.enter_ok_iff.1 he
    exact ⟨by simp [Scopes.opened, Scopes.inFunction], rfl⟩
  have sorted : (Signature.symbol ⟨p.current, p.next.current, parameters, returns⟩).Sorted :=
    Signature.sorted_symbol (.inl keyword)
  have there : (p.next.next.next.withScopes s).Faces (printParameters parameters
      ++ (printReturns returns ++ (inBraces (printAll body) ++ rest))) := third.next (by decide)
  obtain ⟨q, r, t, hp, ht, hd, there, own, within, kept⟩ :=
    reads_signature hps hr sorted there inner opened.1 (by simp)
  -- the body
  have brace : r.kind = .openCurly := by
    rw [inBraces_append] at there
    exact there.kind
  have awaits : (r.withScopes t).Awaits whole (some p.next.current.value)
      (inBraces (printAll body) ++ rest) (mentionsOfAll body
        ++ .completes (Signature.symbol ⟨p.current, p.next.current, parameters, returns⟩)
          :: later) :=
    ⟨there, Cursor.calm_of_kind (show r.kind ≠ .identifier by rw [brace]; decide), own, within⟩
  obtain ⟨u, hblock, finish⟩ := awaits.block hb inside
    (foretells.completes (Signature.symbol ⟨p.current, p.next.current, parameters, returns⟩))
  rw [← there.pastLines_inBraces] at hblock
  -- behind the body the name is bound outside
  have frames : u.scopes.context.frames = .function :: p.scopes.context.frames :=
    ((hblock.kept rfl own.proper).kinds.trans kept.kinds).trans opened.2
  obtain ⟨v, w, hx, hw, context, stands⟩ := finish.stands.completes rfl sorted frames
  refine ⟨u.withScopes w, .function keyword hn third.kind he hp ht hd hblock hx hw,
    finish.faces, ending.calm finish.faces, stands, ?_⟩
  show w.context.locals = none
  rw [context]
  rfl

end

/-! ## §3. Statements. -/

section

variable {whole : List Mention} {own : Option String} {p : Parser} {rest : List Token}
  {later : List Mention}

/-- A variable without a value is read. -/
theorem Parser.Awaits.declare {name type : Token} (hn : name.kind = .identifier)
    (ht : type.kind = .identifier)
    (h : p.Awaits whole own (Kind.kwVar.sign :: name :: Kind.colon.sign :: type :: rest)
      (.binds ⟨name, type, .variable⟩ :: later)) (ending : Ends p.blockDepth rest) :
    ∃ q, Reads (.clause (.declare name type none)) p q ∧ q.Awaits whole own rest later := by
  have second := h.sign (by decide) (by decide)
  obtain rfl := second.faces.current
  have third := second.name hn
  have fourth := third.sign (by decide) (by decide)
  obtain rfl := fourth.faces.current
  have there := fourth.name ht
  have ending : Ends p.next.next.next.next.blockDepth rest := ending
  obtain ⟨s, hd, finish⟩ := there.binds (Symbol.sorted_of_identifier ht rfl)
  exact ⟨_, .declare h.faces.kind hn third.faces.kind ht (ending.atStatementEnd there.faces) hd,
    finish⟩

/-- A variable with its first value is read. -/
theorem Parser.Awaits.initialise {name type : Token} {value : Expr}
    (hn : name.kind = .identifier) (ht : type.kind = .identifier) (hv : value.Formed)
    (h : p.Awaits whole own (Kind.kwVar.sign :: name :: Kind.colon.sign :: type
        :: Kind.assign.sign :: (value.print ++ rest))
      (.evaluates value :: .initialises type value :: .binds ⟨name, type, .variable⟩ :: later))
    (foretells : Foretells own rest later) (ending : EndsExpression rest) :
    ∃ q, Reads (.clause (.declare name type (some value))) p q
      ∧ q.Awaits whole own rest later := by
  have second := h.sign (by decide) (by decide)
  obtain rfl := second.faces.current
  have third := second.name hn
  have fourth := third.sign (by decide) (by decide)
  obtain rfl := fourth.faces.current
  have fifth := fourth.name ht
  have behind := (foretells.mention (.binds ⟨p.next.current, p.next.next.next.current, .variable⟩)
    rfl).mention (.initialises p.next.next.next.current value) rfl
  obtain ⟨q, read, there⟩ := (fifth.sign (by decide) (by decide)).value hv ending behind
  have fits : value.base? = some (.ofName p.next.next.next.current.value) :=
    there.stands.lawful.1.typed
  have bound : q.Awaits whole own rest _ :=
    ⟨there.faces, there.calm, there.stands.initialises, there.within⟩
  obtain ⟨s, hd, finish⟩ := bound.binds (Symbol.sorted_of_identifier ht rfl)
  exact ⟨_, .initialise h.faces.kind hn third.faces.kind ht fifth.faces.kind read fits hd,
    finish.faces, finish.calm, finish.stands, finish.within⟩

/-- A new value of a variable is read. -/
theorem Parser.Awaits.assign {name : Token} {value : Expr} (hn : name.kind = .identifier)
    (hv : value.Formed)
    (h : p.Awaits whole own (name :: Kind.assign.sign :: (value.print ++ rest))
      (.evaluates value :: .assigns name value :: later))
    (foretells : Foretells own rest later) (ending : EndsExpression rest) :
    ∃ q, Reads (.clause (.assign name value)) p q ∧ q.Awaits whole own rest later := by
  have second := h.name hn
  obtain rfl := h.faces.current
  obtain ⟨q, read, there⟩ := (second.sign (by decide) (by decide)).value hv ending
    (foretells.mention (.assigns p.current value) rfl)
  obtain ⟨symbol, hl, fits⟩ := there.stands.lawful.1.typed
  rw [Scopes.lookup?_context there.stands.proper.regular] at hl
  exact ⟨q, .assign hn second.faces.kind read hl fits, there.faces, there.calm,
    there.stands.assigns, there.within⟩

/-- The end of a function is read with its value. -/
theorem Parser.Awaits.giveBack {keyword : Token} {value : Expr}
    (hk : keyword.kind = .kwReturn) (hv : value.Formed)
    (h : p.Awaits whole own (keyword :: (value.print ++ rest)) (.evaluates value :: later))
    (foretells : Foretells own rest later) (ending : EndsExpression rest) :
    ∃ q, Reads (.clause (.giveBack keyword value)) p q ∧ q.Awaits whole own rest later := by
  have second := h.next (by rw [hk]; decide) (Token.quiet_of_kind hk (by decide))
  obtain rfl := h.faces.current
  have more : p.next.atStatementEnd = false := by
    obtain ⟨first, tokens, same, operand⟩ := Expr.print_eq_cons hv
    have faces := second.faces
    rw [same] at faces
    unfold Parser.atStatementEnd
    rw [faces.current]
    revert operand
    cases first.kind <;> intro operand <;> first | rfl | cases operand
  obtain ⟨q, read, there⟩ := second.value hv ending foretells
  exact ⟨q, .giveBack hk more read, there⟩

/-- A loop is read if its body is. -/
theorem Parser.Awaits.repeatWhile {condition : Expr} {body : List Stmt}
    (hb : BodyIsRead whole own body) (hc : condition.Formed) (formed : FormedAll own.isSome body)
    (h : p.Awaits whole own
      (Kind.kwWhile.sign :: (condition.print ++ (inBraces (printAll body) ++ rest)))
      (.evaluates condition :: .opens .loop :: (mentionsOfAll body ++ .closes .loop :: later)))
    (foretells : Foretells own rest later) :
    ∃ q, Reads (.clause (.repeatWhile condition body)) p q ∧ q.Awaits whole own rest later := by
  obtain ⟨q, read, there⟩ := (h.sign (by decide) (by decide)).value hc
    (endsExpression_inBraces _ _) (foretells.framed .loop (by decide) (foretells_all formed))
  obtain ⟨r, behind, finish⟩ := there.framed (.inr rfl) hb formed foretells
  rw [← there.faces.pastLines_inBraces] at behind
  exact ⟨r, .repeatWhile h.faces.kind read behind, finish⟩

end

/-! ## §4. Lists of statements. -/

section Separators

variable {whole : List Mention} {own : Option String} {p : Parser} {more : List Stmt}
  {last : List Token} {later : List Mention} {depth : Nat}

/-- A statement ends in front of the next one, or where the list ends. -/
theorem Ends.separator (h : ∀ s ∈ more, StartsStatement s.print) (ending : Ends depth last) :
    Ends depth (ImpFront.separator .newline more ++ (printAll more ++ last)) := by
  cases more with
  | nil => exact ending
  | cons s more =>
      obtain ⟨token, rest, same, start⟩ := h s List.mem_cons_self
      rw [printAll, same]
      exact .line start

/-- Behind a statement the parser goes on to the next one. -/
theorem Parser.Awaits.pastSeparators (h : ∀ s ∈ more, StartsStatement s.print)
    (stop : ∀ token, last.head? = some token → token.kind.isTerminator = false)
    (awaits : p.Awaits whole own (separator .newline more ++ (printAll more ++ last)) later) :
    p.pastSeparators.Awaits whole own (printAll more ++ last) later := by
  cases more with
  | nil =>
      have awaits : p.Awaits whole own last later := awaits
      have there : p.pastSeparators = p := awaits.faces.past_of_head stop
      rw [there]
      exact awaits
  | cons s more =>
      obtain ⟨token, rest, same, start⟩ := h s List.mem_cons_self
      have there : p.pastSeparators = p.next := by
        have faces := awaits.faces
        rw [printAll, same] at faces
        exact faces.past_next (by decide) rfl (Kind.isTerminator_of_standardStatement? start)
      rw [there]
      exact Parser.Awaits.sign awaits (by decide) (by decide)

theorem Parser.Faces.startsStatement {tokens : List Token} (h : p.Faces (tokens ++ last))
    (start : StartsStatement tokens) : (standardStatement? p.kind).isSome := by
  obtain ⟨token, rest, same, start⟩ := start
  rw [same] at h
  rwa [Parser.Faces.kind h]

end Separators

/-! ## §5. Trees. -/

section

variable {whole : List Mention}

mutual

/-- **A printed statement is read.** -/
theorem Stmt.reads : ∀ {s : Stmt} {own : Option String} {p : Parser} {rest : List Token}
    {later : List Mention}, s.Formed own.isSome →
      p.Awaits whole own (s.print ++ rest) (s.mentions ++ later) → Foretells own rest later →
      Ends p.blockDepth rest → ∃ q, Reads (.clause s) p q ∧ q.Awaits whole own rest later
  -- a function stands outside functions, and its body inside the one of its name
  | .function signature body, none, _, _, _, ⟨_, keyword, formed, hb⟩, h, foretells, ending =>
      h.function keyword formed (@reads_body body (some signature.name.value) hb) hb
        foretells ending
  | .function _ _, some _, _, _, _, formed, _, _, _ => nomatch formed.1
  | .declare name type none, _, _, _, _, ⟨hn, ht⟩, h, _, ending => h.declare hn ht ending
  | .declare name type (some value), own, p, rest, later, ⟨hn, ht, hv⟩, h, foretells, ending =>
      Parser.Awaits.initialise hn ht hv h foretells ending.expression
  | .conditional condition body otherwise, own, p, rest, later, ⟨hc, hb, ho⟩, h, foretells,
    ending => by
      have h : p.Awaits whole own
          (Kind.kwIf.sign :: (condition.print
            ++ (inBraces (printAll body) ++ (otherwise.print ++ rest))))
          (.evaluates condition :: .opens .conditional :: (mentionsOfAll body
            ++ .closes .conditional :: (otherwise.mentions ++ later))) := by
        simpa [Stmt.print, Stmt.mentions] using h
      obtain ⟨q, link, there⟩ := h.link (reads_body hb) hc hb (Otherwise.foretells ho foretells)
      have ending : Ends q.blockDepth rest := by rwa [link.blockDepth]
      obtain ⟨r, chain, finish⟩ := Otherwise.reads ho link there foretells ending
      exact ⟨r, .conditional chain, finish⟩
  | .repeatWhile condition body, own, p, rest, later, ⟨hc, hb⟩, h, foretells, _ => by
      have h : p.Awaits whole own
          (Kind.kwWhile.sign :: (condition.print ++ (inBraces (printAll body) ++ rest)))
          (.evaluates condition :: .opens .loop
            :: (mentionsOfAll body ++ .closes .loop :: later)) := by
        simpa [Stmt.print, Stmt.mentions] using h
      exact h.repeatWhile (reads_body hb) hc hb foretells
  | .leaveLoop keyword, own, p, rest, later, hk, h, _, _ => by
      have hk : keyword.kind = .kwBreak := hk
      have h : p.Awaits whole own (keyword :: rest) later := h
      obtain rfl := h.faces.current
      exact ⟨p.next, .leaveLoop hk, h.next (by rw [hk]; decide)
        (Token.quiet_of_kind hk (by decide))⟩
  | .nextRound keyword, own, p, rest, later, hk, h, _, _ => by
      have hk : keyword.kind = .kwContinue := hk
      have h : p.Awaits whole own (keyword :: rest) later := h
      obtain rfl := h.faces.current
      exact ⟨p.next, .nextRound hk, h.next (by rw [hk]; decide)
        (Token.quiet_of_kind hk (by decide))⟩
  | .giveBack keyword value, _, _, _, _, ⟨hk, hv⟩, h, foretells, ending =>
      Parser.Awaits.giveBack hk hv h foretells ending.expression
  | .assign name value, _, _, _, _, ⟨hn, hv⟩, h, foretells, ending =>
      Parser.Awaits.assign hn hv h foretells ending.expression
  | .attribute _, _, _, _, _, formed, _, _, _ => nomatch formed
  | .expression value, own, p, rest, later, hv, h, foretells, ending => by
      have h : p.Awaits whole own (inParens value.print ++ rest) (.evaluates value :: later) := h
      have opening : p.kind = .openParen := by
        have faces := h.faces
        rw [inParens_append] at faces
        exact faces.kind
      obtain ⟨q, read, finish⟩ := h.grouped hv ending.expression foretells
      exact ⟨q, .expression (.inr opening) read, finish⟩

/-- **The printed rest of a chain of conditions is read.** -/
theorem Otherwise.reads : ∀ {otherwise : Otherwise} {own : Option String} {condition : Expr}
    {body : List Stmt} {p q : Parser} {rest : List Token} {later : List Mention},
      otherwise.Formed own.isSome → Link condition body p q →
      q.Awaits whole own (otherwise.print ++ rest) (otherwise.mentions ++ later) →
      Foretells own rest later → Ends q.blockDepth rest →
      ∃ r, Reads (.chain condition body otherwise) p r ∧ r.Awaits whole own rest later
  | .nothing, _, _, _, _, q, _, _, _, ⟨first, _, second, third⟩, h, _, ending =>
      ⟨q, .lastLink first second third (ending.ne_else h.faces), h⟩
  | .block last, own, _, _, p, q, rest, later, hb, ⟨first, _, second, third⟩, h, foretells, _ => by
      have h : q.Awaits whole own (Kind.kwElse.sign :: (inBraces (printAll last) ++ rest))
          (.opens .conditional :: (mentionsOfAll last ++ .closes .conditional :: later)) := by
        simpa [Otherwise.print, Otherwise.mentions] using h
      have lines : q.pastLines = q := h.faces.pastLines (by decide)
      have inner := h.sign (by decide) (by decide)
      have braces : q.next.pastLines = q.next := inner.faces.pastLines_inBraces
      have brace : q.next.kind = .openCurly := by
        have faces := inner.faces
        rw [inBraces_append] at faces
        exact faces.kind
      obtain ⟨r, read, finish⟩ := inner.framed (.inl rfl) (reads_body hb) hb foretells
      refine ⟨r, .elseLink first second third ?_ ?_ ?_, finish⟩
      · rw [lines]
        exact h.faces.kind
      · rw [lines, braces, brace]
        decide
      · rwa [lines, braces]
  | .chain condition body otherwise, own, _, _, p, q, rest, later, ⟨hc, hb, ho⟩,
    ⟨first, _, second, third⟩, h, foretells, ending => by
      have h : q.Awaits whole own
          (Kind.kwElse.sign :: Kind.kwIf.sign :: (condition.print
            ++ (inBraces (printAll body) ++ (otherwise.print ++ rest))))
          (.opens .conditional :: .evaluates condition :: .opens .conditional
            :: (mentionsOfAll body ++ .closes .conditional
              :: (otherwise.mentions ++ .closes .conditional :: later))) := by
        simpa [Otherwise.print, Otherwise.mentions] using h
      have lines : q.pastLines = q := h.faces.pastLines (by decide)
      have inner := h.sign (by decide) (by decide)
      have another : q.next.pastLines = q.next := inner.faces.pastLines (by decide)
      -- the next condition stands in a frame of its own
      obtain ⟨s, he, frames, inner⟩ := inner.opens (by decide)
      have behind := foretells.mention (.closes .conditional) rfl
      obtain ⟨u, link, there⟩ := inner.link (reads_body hb) hc hb
        (Otherwise.foretells ho behind)
      have ending : Ends u.blockDepth rest := by rwa [link.blockDepth]
      obtain ⟨v, chain, there⟩ := Otherwise.reads ho link there behind ending
      have same : v.scopes.context.frames = .conditional :: q.next.scopes.context.frames :=
        (chain.kept rfl inner.stands.proper).kinds.trans frames
      obtain ⟨t, hx, finish⟩ := there.closes (by decide) same
      refine ⟨v.withScopes t, .nextLink first second third ?_ ?_ he ?_ hx, finish⟩
      · rw [lines]
        exact h.faces.kind
      · rw [lines, another]
        exact inner.faces.kind
      · rwa [lines, another]

/-- **Printed statements in braces are read.** -/
theorem reads_body : ∀ {ss : List Stmt} {own : Option String}, FormedAll own.isSome ss →
    BodyIsRead whole own ss
  | [], _, _ => fun p _ _ h _ _ => ⟨p, .emptyBody h.faces.kind, h⟩
  | s :: more, own, ⟨hs, hm⟩ => by
      intro p rest later h foretells open_
      have h : p.Awaits whole own
          (s.print ++ (separator .newline more
            ++ (printAll more ++ Kind.closeCurly.sign :: rest)))
          (s.mentions ++ (mentionsOfAll more ++ later)) := by
        simpa [printAll, mentionsOfAll] using h
      -- behind the first statement all is foretold, and there it ends
      have behind := (foretells_all hm foretells).tokens
        (quiet_separator .newline (by decide) more)
      have ending := Ends.separator (startsStatement_all hm) (@Ends.block p.blockDepth rest open_)
      have start := h.faces.startsStatement (Stmt.startsStatement hs)
      obtain ⟨q, read, there⟩ := Stmt.reads hs h behind ending
      have depth : q.blockDepth = p.blockDepth := read.blockDepth
      rw [← depth] at ending open_
      have next := there.pastSeparators (startsStatement_all hm) (by simp [Kind.isTerminator])
      obtain ⟨r, reads, finish⟩ := reads_body hm _ _ _ next foretells open_
      refine ⟨r, .body ?_ ?_ (.statement read (ending.atStatementEnd there.faces)) reads, finish⟩
      · intro closing
        rw [closing] at start
        cases start
      · intro final
        rw [final] at start
        cases start

end

end

/-! ## §6. Attributes. -/

/-- Built-in types that are written as arguments. -/
def typeArguments (parameters : List Parameter) : List Expr :=
  parameters.map fun parameter => .reference parameter.type (.ofName parameter.type.value)

section Imports

variable {ps : List Parameter}

theorem printArguments_typeArguments (h : ∀ parameter ∈ ps, parameter.Builtin) :
    Expr.printArguments (typeArguments ps) = printParameters ps := by
  induction ps with
  | nil => rfl
  | cons parameter more ih =>
      obtain ⟨⟨nameless, -, -⟩, h⟩ := List.forall_mem_cons.1 h
      have separators : separator .comma (typeArguments more) = separator .comma more := by
        cases more <;> rfl
      have first : parameter.print = [parameter.type] := by
        rw [Parameter.print, nameless]
      show [parameter.type] ++ (separator .comma (typeArguments more)
        ++ Expr.printArguments (typeArguments more)) = _
      rw [separators, ih h, printParameters, first]

/-- Types that are written as arguments are read as parameters. -/
theorem importedParameters_typeArguments (h : ∀ parameter ∈ ps, parameter.Builtin) :
    (typeArguments ps).mapM Statement.importedParameter = .ok ps := by
  induction ps with
  | nil => rfl
  | cons parameter more ih =>
      obtain ⟨⟨nameless, -, -⟩, builtin⟩ := List.forall_mem_cons.1 h
      obtain ⟨_, type⟩ := parameter
      obtain rfl : _ = none := nameless
      have behind : (more.map fun parameter => Expr.reference parameter.type
          (.ofName parameter.type.value)).mapM Statement.importedParameter = .ok more :=
        ih builtin
      simp only [typeArguments, List.map_cons, List.mapM_cons, behind]
      rfl

theorem isReference_typeArguments (ps : List Parameter) :
    ∀ e ∈ typeArguments ps, e.isReference = true := by
  intro e he
  obtain ⟨parameter, -, rfl⟩ := List.mem_map.1 he
  rfl

/-- In an attribute built-in types are legible. -/
theorem legible_typeArguments (h : ∀ parameter ∈ ps, parameter.Builtin) {c : Context}
    (attached : c.inAttribute = true) (ahead : String → Option BaseType) :
    ∀ node ∈ Expr.nodesOfAll (typeArguments ps), node.Legible c ahead := by
  induction ps with
  | nil => exact List.forall_mem_nil _
  | cons parameter more ih =>
      obtain ⟨⟨-, name, builtin⟩, h⟩ := List.forall_mem_cons.1 h
      refine List.forall_mem_cons.2 ⟨⟨name, ?_, .inl attached⟩, ih h⟩
      rw [Expr.Typed, if_pos ⟨attached, builtin⟩]

end Imports

section

variable {whole later : List Mention} {p : Parser} {rest : List Token}

theorem Parser.atStatementEnd_of_kind {kind : Kind} (h : p.kind = kind)
    (other : kind ∉ [.newline, .semicolon, .eof, .closeCurly]) : p.atStatementEnd = false := by
  unfold Parser.atStatementEnd
  rw [show p.current.kind = kind from h]
  revert other
  cases kind <;> intro other <;> first | rfl | simp at other

/-- An expression behind an attribute is read. -/
theorem Parser.Awaits.attributeValue {keyword : Token} {value : Expr}
    (hk : keyword.kind = .attribute) (hv : value.Formed)
    (h : p.Awaits whole none (keyword :: (inParens value.print ++ rest))
      (.opens .attribute :: .evaluates value :: .closes .attribute :: later))
    (foretells : Foretells none rest later) (ending : Ends 0 rest) :
    ∃ q, Reads (.clause (.attribute ⟨keyword, some (.expression value)⟩)) p q
      ∧ q.Awaits whole none rest later := by
  have faces := h.faces.next (by rw [hk]; decide)
  obtain rfl := h.faces.current
  have opening : p.next.kind = .openParen := by
    rw [inParens_append] at faces
    exact faces.kind
  have calm : p.next.cursor.Calm :=
    Cursor.calm_of_kind (show p.next.kind ≠ .identifier by rw [opening]; decide)
  have second : p.next.Awaits whole none (inParens value.print ++ rest) _ :=
    ⟨faces, calm, h.stands, h.within⟩
  obtain ⟨s, he, frames, inner⟩ := second.opens (by decide)
  obtain ⟨q, read, there⟩ := inner.grouped hv ending.expression
    (foretells.mention (.closes .attribute) rfl)
  have same : q.scopes.context.frames = .attribute :: p.next.scopes.context.frames :=
    (read.kept_expression rfl inner.stands.proper).kinds.trans frames
  obtain ⟨t, hx, finish⟩ := there.closes (by decide) same
  have alone : p.next.atApplication = false := by simp [Parser.atApplication, opening]
  exact ⟨q.withScopes t, .attributeValue hk (Parser.atStatementEnd_of_kind opening (by decide)) he
    alone read (ending.atAttributeEnd there.faces) hx, finish⟩

/-- Built-in types are read as arguments, and nothing is called. -/
theorem reads_typeArguments {ps : List Parameter} (h : ∀ parameter ∈ ps, parameter.Builtin)
    (faces : p.Faces (printParameters ps ++ rest)) (regular : Regular p.scopes)
    (attached : p.scopes.context.inAttribute = true) (calm : p.cursor.Calm) :
    ∃ q, Reads (.arguments (typeArguments ps)) p.pastLines q ∧ q.Faces rest
      ∧ q.scopes = p.scopes := by
  rw [← printArguments_typeArguments h] at faces
  have legible := legible_typeArguments h attached fun name =>
    p.cursor.returnTypeAhead? name
  have lines : p.pastLines = p := faces.pastLines_of_head fun _ ht =>
    (Expr.head?_printArguments (fun node hm => (legible node hm).fitting) ht).2
  obtain ⟨q, read, there⟩ :=
    Expr.reads_arguments legible ⟨regular, rfl, calm, fun _ => rfl⟩ faces
  obtain ⟨_, rfl, marked⟩ := read.marked rfl
  rw [Expr.calleesOfAll_of_isReference (isReference_typeArguments ps)] at marked
  rw [← lines] at read
  exact ⟨q, read, there, marked⟩

/-- The import of a function is read. -/
theorem Parser.Awaits.imported {signature : Signature}
    (hk : signature.keyword.kind = .attribute)
    (known : signature.keyword.value = Token.importAttribute)
    (formed : signature.Formed Parameter.Builtin)
    (h : p.Awaits whole none (signature.print ++ rest)
      (.opens .attribute :: .binds signature.symbol :: .closes .attribute :: later))
    (ending : Ends 0 rest) :
    ∃ q, Reads (.clause (.attribute ⟨signature.keyword, some (.imported signature)⟩)) p q
      ∧ q.Awaits whole none rest later := by
  obtain ⟨head, name, parameters, returns⟩ := signature
  obtain ⟨hn, hps, hr⟩ := formed
  have faces : p.Faces (head :: name :: Kind.openParen.sign
      :: (printParameters parameters ++ (printReturns returns ++ rest))) := by
    simpa [Signature.print] using h.faces
  obtain rfl := faces.current
  have hk : p.kind = .attribute := hk
  have second := faces.next (show p.kind ≠ .eof by rw [hk]; decide)
  obtain rfl := second.current
  have hn : p.next.kind = .identifier := hn
  have third := second.next (show p.next.kind ≠ .eof by rw [hn]; decide)
  have opening : p.next.next.kind = .openParen := third.kind
  -- the types are read as arguments in the frame of the attribute
  obtain ⟨s, he, inner⟩ := h.stands.opens
  have opened : s.context.frames = .attribute :: p.scopes.context.frames := by
    rw [(Mention.Acts.opens he).context h.stands.proper.regular]
    rfl
  have attached : s.context.inAttribute = true := by
    rw [Context.inAttribute, opened]
    rfl
  obtain ⟨q, arguments, there, unchanged⟩ := reads_typeArguments (p := p.next.next.next.withScopes s)
    hps (third.next (by decide)) inner.proper.regular attached
    (Cursor.calm_advance (Token.quiet_of_kind opening (by decide)))
  obtain ⟨r, type, there, same⟩ := reads_returns there hr ending.ne_arrow
  -- the name is bound there, and the frame is closed behind it
  have sorted : (Signature.symbol ⟨p.current, p.next.current, parameters, returns⟩).Sorted :=
    Signature.sorted_symbol (.inr hk)
  obtain ⟨t, hd, bound⟩ := inner.binds sorted
  have kept := Kept.define inner.proper sorted hd
  obtain ⟨u, hx, finish⟩ := bound.closes (by decide) (kept.kinds.trans opened)
  have within : u.context.Within none :=
    ((h.within.opens (by decide) h.stands.proper.regular he).kept kept).closes (by decide)
      bound.proper.regular hx
  rw [← show r.scopes = s from same.trans unchanged] at hd
  have application : p.next.atApplication = true := by simp [Parser.atApplication, hn, opening]
  exact ⟨r.withScopes u, .imported hk (Parser.atStatementEnd_of_kind hn (by decide)) he
    application known arguments (importedParameters_typeArguments hps) type hd
    (ending.atAttributeEnd there) hx, there, ending.calm there, finish, within⟩

/-- **A printed attribute is read.** -/
theorem Attribute.reads {attached : Attribute} (formed : attached.Formed)
    (h : p.Awaits whole none (attached.print ++ rest) (attached.mentions ++ later))
    (foretells : Foretells none rest later) (bottom : p.blockDepth = 0) (ending : Ends 0 rest) :
    ∃ q, Reads (.clause (.attribute attached)) p q ∧ q.Awaits whole none rest later := by
  obtain ⟨hk, value⟩ := formed
  obtain ⟨keyword, found⟩ := attached
  have hk : keyword.kind = .attribute := hk
  match found, value with
  | none, _ =>
      have h : p.Awaits whole none (keyword :: rest) later := h
      have faces := h.faces.next (by rw [hk]; decide)
      obtain rfl := h.faces.current
      have last : Ends p.next.blockDepth rest := by rwa [Parser.blockDepth_next, bottom]
      exact ⟨p.next, .bareAttribute hk (last.atStatementEnd faces), faces, last.calm faces,
        h.stands, h.within⟩
  | some (.expression value), hv =>
      exact Parser.Awaits.attributeValue hk hv h foretells ending
  | some (.imported signature), ⟨same, known, formed⟩ =>
      obtain rfl : signature.keyword = keyword := same
      exact Parser.Awaits.imported hk known formed h ending

end

/-! ## §7. Files. -/

section

variable {whole : List Mention}

/-- A statement of a file is read. -/
theorem Stmt.reads_outside {s : Stmt} {p : Parser} {rest : List Token} {later : List Mention}
    (formed : s.FormedOutside) (h : p.Awaits whole none (s.print ++ rest) (s.mentions ++ later))
    (foretells : Foretells none rest later) (bottom : p.blockDepth = 0)
    (ending : Ends 0 rest) :
    ∃ q, Reads (.clause s) p q ∧ q.Awaits whole none rest later := by
  cases s with
  | «attribute» attached => exact Attribute.reads formed h foretells bottom ending
  | _ =>
      exact Stmt.reads (show Stmt.Formed false _ from formed) h foretells
        (by rwa [bottom])

/-- **The printed statements of a file are read.** -/
theorem reads_file : ∀ {ss : List Stmt} {p : Parser}, (∀ s ∈ ss, s.FormedOutside) →
    p.blockDepth = 0 →
    p.pastSeparators.Awaits whole none (printAll ss ++ [Kind.eof.sign]) (mentionsOfAll ss) →
    ∃ q, Reads (.file ss) p q ∧ Stands whole q.scopes [] ∧ q.scopes.inFunction = false
  | [], p, _, _, h => by
      have outside := congrArg Option.isSome (show p.scopes.context.locals = none from h.within)
      rw [Scopes.isSome_locals_context] at outside
      exact ⟨p.pastSeparators, .emptyFile h.faces.kind, h.stands, outside⟩
  | s :: more, p, formed, bottom, h => by
      obtain ⟨hs, hm⟩ := List.forall_mem_cons.1 formed
      have h : p.pastSeparators.Awaits whole none
          (s.print ++ (separator .newline more ++ (printAll more ++ [Kind.eof.sign])))
          (s.mentions ++ mentionsOfAll more) := by
        simpa [printAll, mentionsOfAll] using h
      have behind := (foretells_file hm).tokens (quiet_separator .newline (by decide) more)
      have starts : ∀ s ∈ more, StartsStatement s.print := fun s hs =>
        Stmt.startsStatement_outside (hm s hs)
      have ending : Ends 0 _ := Ends.separator starts .file
      obtain ⟨q, read, there⟩ := Stmt.reads_outside hs h behind bottom ending
      have depth : q.blockDepth = 0 := read.blockDepth.trans bottom
      have next := there.pastSeparators starts (by simp [Kind.isTerminator])
      obtain ⟨r, reads, finish⟩ := reads_file hm depth next
      rw [← depth] at ending
      refine ⟨r, .file ?_ (.statement read (ending.atStatementEnd there.faces)) reads, finish⟩
      have start := h.faces.startsStatement (Stmt.startsStatement_outside hs)
      intro final
      rw [final] at start
      cases start

end

theorem Cursor.ofTokens_concat (tokens : List Token) {final : Token} (h : final.kind = .eof) :
    Cursor.ofTokens (tokens ++ [final]) = ⟨[], tokens, final, h⟩ := by
  simp [Cursor.ofTokens, h]

/-- At the beginning of a printed file the file is awaited. -/
theorem Program.Formed.awaits {program : Program} (formed : program.Formed)
    (stands : Stands program.mentions .empty program.mentions) :
    (Parser.ofTokens program.print).pastSeparators.Awaits program.mentions none program.print
      program.mentions := by
  have cursor : (Parser.ofTokens program.print).cursor
      = ⟨[], printAll program.clauses, Kind.eof.sign, rfl⟩ := Cursor.ofTokens_concat _ rfl
  have faces : (Parser.ofTokens program.print).Faces program.print := by
    unfold Parser.Faces
    rw [cursor]
    rfl
  have separators : (Parser.ofTokens program.print).pastSeparators
      = Parser.ofTokens program.print :=
    faces.past_of_head fun _ => isTerminator_head?_printAll
      (fun s hs => Stmt.startsStatement_outside (formed.clauses s hs)) (by simp [Kind.isTerminator])
  rw [separators]
  refine ⟨faces, ?_, stands, rfl⟩
  rw [cursor]
  exact nofun

/-- **PARSING UNDOES PRINTING.**  A file of the right tokens whose names and
types are used well, and in which no name that is called in front of its
function is a variable too, is accepted in its printed form, and the tree that
is read is the tree that was printed. -/
theorem parse_print {program : Program} (formed : program.Formed)
    (allowed : program.WellScoped) (typed : program.WellTyped)
    (agrees : program.AgreesWithCallees) (apart : program.KeepsApart) (file : String) :
    (parse file program.print).1 = .ok program := by
  have stands : Stands program.mentions .empty program.mentions :=
    .start apart (.lawful allowed typed agrees)
  obtain ⟨q, read, finish, outside⟩ := reads_file formed.clauses rfl (formed.awaits stands)
  have plain : ∀ s ∈ program.statements, s.isAttribute = false := by
    intro s hs
    have inner := formed.statements s hs
    cases s with
    | «attribute» => cases inner
    | _ => rfl
  have answered : q.scopes.unresolved? = none :=
    Scopes.unresolved?_eq_none_iff.2 (finish.pending?_eq_none outside)
  exact accepted_of_reads read plain answered file

/-- A token of a file whose positions are of no account. -/
def unplaced (kind : Kind) (text : String) : Token :=
  ⟨kind, text, ⟨0, 0, 0⟩⟩

/-- Two functions that call each other, and one that is imported:

    @import_symbol print(i32)
    func even(n: i32) -> i32 { var m: i32 = (n) - (1), return odd(m) }
    func odd(n: i32) -> i32 {
      while n { n = even(n), break }
      if n { (print(n)) } else { }
      return n }
-/
def evenOdd : Program where
  attributes :=
    [⟨unplaced .attribute Token.importAttribute, some (.imported
      ⟨unplaced .attribute Token.importAttribute, unplaced .identifier "print",
        [⟨none, unplaced .identifier "i32"⟩], none⟩)⟩]
  statements :=
    [.function ⟨unplaced .kwFunc "func", unplaced .identifier "even",
        [⟨some (unplaced .identifier "n"), unplaced .identifier "i32"⟩],
        some (unplaced .identifier "i32")⟩
      [.declare (unplaced .identifier "m") (unplaced .identifier "i32")
          (some (.binary .minus (unplaced .minus "-") n
            (.literal (unplaced .integer "1") .integer) .integer)),
        .giveBack (unplaced .kwReturn "return") (.call (unplaced .identifier "odd")
          [.reference (unplaced .identifier "m") .integer] (some .integer))],
    .function ⟨unplaced .kwFunc "func", unplaced .identifier "odd",
        [⟨some (unplaced .identifier "n"), unplaced .identifier "i32"⟩],
        some (unplaced .identifier "i32")⟩
      [.repeatWhile n
          [.assign (unplaced .identifier "n")
              (.call (unplaced .identifier "even") [n] (some .integer)),
            .leaveLoop (unplaced .kwBreak "break")],
        .conditional n [.expression (.call (unplaced .identifier "print") [n] none)] (.block []),
        .giveBack (unplaced .kwReturn "return") n]]
where
  n : Expr := .reference (unplaced .identifier "n") .integer

theorem parse_print_evenOdd :
    (evenOdd.Formed ∧ evenOdd.WellScoped ∧ evenOdd.WellTyped ∧ evenOdd.AgreesWithCallees
      ∧ evenOdd.KeepsApart) ∧ (parse "even.imp" evenOdd.print).1 = .ok evenOdd := by
  have formed : evenOdd.Formed := by decide +kernel
  have allowed : evenOdd.WellScoped := by decide +kernel
  have typed : evenOdd.WellTyped := by decide +kernel
  have agrees : evenOdd.AgreesWithCallees := by decide +kernel
  have apart : evenOdd.KeepsApart := by decide +kernel
  exact ⟨⟨formed, allowed, typed, agrees, apart⟩,
    parse_print formed allowed typed agrees apart "even.imp"⟩

end ImpFront
