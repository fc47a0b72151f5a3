/-
  ImpFront.Proofs.Acceptance.Awaiting
  ───────────────────────────────────
  **WHAT A PARSER AWAITS IS READ.**

  A parser awaits tokens and mentions if it faces the tokens and its scopes
  stand in front of the mentions:

      p.Awaits whole own tokens later

  Each piece that statements are made of has one lemma here: it takes its
  tokens and its mentions off the front of what is awaited.  What follows a
  piece is left open, but has to be foretold where the piece has calls in it.
-/
import ImpFront.Proofs.Acceptance.Facing
import ImpFront.Proofs.Acceptance.Reserved
import ImpFront.Proofs.Acceptance.Standing
import ImpFront.Proofs.Grammar.Foretelling

namespace ImpFront

open Grammar (standardStatement?)
open Scopes (Regular Kept Stands)

/-! ## §1. The open function. -/

namespace Context

/-- The open function is the one of this name, and none is open if there is no
name. -/
def Within (own : Option String) (c : Context) : Prop :=
  match own with
  | none => c.locals = none
  | some key => ∃ locals symbol, c.locals = some locals ∧ locals key = some symbol

variable {own : Option String} {c : Context}

theorem Within.isSome (h : c.Within own) : c.locals.isSome = own.isSome := by
  cases own with
  | none => exact congrArg Option.isSome h
  | some key =>
      obtain ⟨locals, symbol, hl, -⟩ := h
      rw [hl]
      rfl

/-- A hidden name is not that of the open function. -/
theorem Within.ne_of_hidden (h : c.Within own) {name : String} (hidden : c.lookup? name = none) :
    own ≠ some name := by
  rintro rfl
  obtain ⟨locals, symbol, hl, hk⟩ := h
  simp [lookup?, hl, hk] at hidden

/-- In a function that is open its name is bound. -/
theorem within_binds (h : c.locals.isSome = true) (symbol : Symbol) :
    (c.after (.binds symbol)).Within (some symbol.key) := by
  obtain ⟨locals, hl⟩ := Option.isSome_iff_exists.1 h
  refine ⟨extend symbol locals, symbol, ?_, if_pos rfl⟩
  simp [after, hl]

theorem Within.kept {s t : Scopes} (h : s.context.Within own) (kept : Kept s t) :
    t.context.Within own := by
  have inside : t.inFunction = s.inFunction := by
    rw [Scopes.inFunction, Scopes.inFunction, kept.level]
  cases own with
  | none =>
      have outside := congrArg Option.isSome (show s.context.locals = none from h)
      rw [Scopes.isSome_locals_context, ← inside, ← Scopes.isSome_locals_context] at outside
      exact Option.isNone_iff_eq_none.1 (by simpa using outside)
  | some key =>
      obtain ⟨locals, symbol, hl, hk⟩ := h
      have open_ : s.inFunction = true := by
        rw [← Scopes.isSome_locals_context, hl]
        rfl
      have same : s.context.locals = some s.local? := if_pos open_
      obtain rfl := Option.some.inj (same.symm.trans hl)
      exact ⟨t.local?, symbol, if_pos (inside.trans open_), kept.locals hk⟩

theorem Within.opens {kind : FrameKind} {s t : Scopes} (h : s.context.Within own)
    (hn : kind ≠ .function) (hs : Regular s) (he : Scopes.enter kind s = .ok () t) :
    t.context.Within own := by
  rw [(Mention.Acts.opens he).context hs]
  cases own <;> simpa [Within, after, hn] using h

theorem Within.closes {kind : FrameKind} {s t : Scopes} (h : s.context.Within own)
    (hn : kind ≠ .function) (hs : Regular s) (hx : Scopes.exit kind s = .ok () t) :
    t.context.Within own := by
  rw [(Mention.Acts.closes hn hx).context hs]
  exact h

end Context

/-! ## §2. Values in front of lawful mentions. -/

/-- **Values that are lawful are legible** where the types of the calls ahead
are foretold. -/
theorem Scopes.Stands.legible {s : Scopes} {whole later : List Mention} {value : Expr}
    {own : Option String} {rest : List Token} (h : Stands whole s (.evaluates value :: later))
    (formed : value.Formed) (within : s.context.Within own) (foretells : Foretells own rest later) :
    ∀ node ∈ value.nodes,
      node.Legible s.context fun name => returnTypeAhead? name none rest := by
  intro node hn
  have typed := (h.lawful.1.typed node hn).1
  have allowed := h.lawful.1.allowed node hn
  refine ⟨formed node hn, typed, ?_⟩
  cases node with
  | reference name type =>
      by_cases attached : s.context.inAttribute = true
      · exact .inl attached
      · right
        obtain ⟨symbol, hl, value⟩ := allowed.resolve_left attached
        rw [Expr.Typed, if_neg fun here => attached here.1] at typed
        obtain ⟨other, found, rfl⟩ := typed
        obtain rfl := Option.some.inj (hl.symm.trans found)
        rw [Scopes.lookup?_context h.proper.regular] at hl
        intro same
        rw [(h.proper.sorted hl).1 same] at value
        cases value
  | call name arguments returns =>
      obtain ⟨bound, hb, rfl⟩ := h.lawful.1.agrees name arguments returns hn
      refine ⟨fun symbol hl => ?_, fun hl => ?_⟩
      · rw [Context.callee?, hl] at hb
        by_cases function : symbol.isFunction = true
        · have hb : (if symbol.isFunction = true then some symbol else none) = some bound := hb
          rw [if_pos function] at hb
          obtain rfl := Option.some.inj hb
          exact ⟨function, rfl⟩
        · have hb : (if symbol.isFunction = true then some symbol else none) = some bound := hb
          rw [if_neg function] at hb
          cases hb
      -- the function of a hidden name is bound outside, and there it is foretold
      · obtain ⟨near, far⟩ := foretells name.value (within.ne_of_hidden hl)
        rw [Context.callee?, hl, within.isSome] at hb
        have nowhere : (if own.isSome = true then localAhead? name.value later else none)
            = none := by
          split
          · next inside => exact near inside
          · rfl
        have hb : (if own.isSome = true then localAhead? name.value later else none).or
            (globalAhead? name.value own.isSome later) = some bound := hb
        rw [nowhere, Option.none_or] at hb
        rw [hb] at far
        exact far
  | _ => trivial

/-- Where there is calm, what is in front of the cursor does not matter. -/
theorem Cursor.Calm.returnTypeAhead?_eq {c : Cursor} (h : c.Calm) (name : String) :
    c.returnTypeAhead? name = ImpFront.returnTypeAhead? name none c.rest := by
  cases ha : c.ahead with
  | nil =>
      have final : c.rest = [c.final] := by simp [rest, ha]
      show ImpFront.returnTypeAhead? name c.behind.head? c.rest = _
      rw [final]
      simp [ImpFront.returnTypeAhead?, c.final_kind]
  | cons token tokens =>
      have tail : c.rest = token :: (tokens ++ [c.final]) := by simp [rest, ha]
      rw [← Cursor.returnTypeAhead?_advance h, tail, ImpFront.returnTypeAhead?]
      simp [Cursor.returnTypeAhead?, advance, ha]

/-! ## §3. Awaiting. -/

/-- The parser faces the tokens, and its scopes stand in front of the
mentions. -/
structure Parser.Awaits (whole : List Mention) (own : Option String) (p : Parser)
    (tokens : List Token) (later : List Mention) : Prop where
  faces : p.Faces tokens
  calm : p.cursor.Calm
  stands : Stands whole p.scopes later
  within : p.scopes.context.Within own

namespace Parser.Awaits

variable {whole later : List Mention} {own : Option String} {p : Parser} {token : Token}
  {rest : List Token}

theorem next (h : p.Awaits whole own (token :: rest) later) (inner : token.kind ≠ .eof)
    (quiet : token.Quiet) : p.next.Awaits whole own rest later where
  faces := h.faces.next inner
  calm := Cursor.calm_advance (show p.current.Quiet from h.faces.current.symm ▸ quiet)
  stands := h.stands
  within := h.within

theorem sign {kind : Kind} (h : p.Awaits whole own (kind.sign :: rest) later)
    (inner : kind ≠ .eof) (quiet : kind ≠ .kwFunc ∧ kind ≠ .attribute) :
    p.next.Awaits whole own rest later :=
  h.next inner (quiet_sign kind quiet)

theorem name (h : p.Awaits whole own (token :: rest) later) (hk : token.kind = .identifier) :
    p.next.Awaits whole own rest later :=
  h.next (by rw [hk]; decide) (Token.quiet_of_kind hk (by decide))

/-- **A value is read.** -/
theorem value {value : Expr}
    (h : p.Awaits whole own (value.print ++ rest) (.evaluates value :: later))
    (formed : value.Formed) (ending : EndsExpression rest) (foretells : Foretells own rest later) :
    ∃ q, Reads (.expr .lowest value) p q ∧ q.Awaits whole own rest later := by
  have ahead : ∀ name, p.cursor.returnTypeAhead? name = returnTypeAhead? name none rest := by
    intro name
    rw [h.calm.returnTypeAhead?_eq, show p.cursor.rest = value.print ++ rest from h.faces,
      returnTypeAhead?_append (Expr.quiet_print formed)]
  obtain ⟨q, read, there⟩ := Expr.reads (h.stands.legible formed h.within foretells)
    ⟨h.stands.proper.regular, rfl, h.calm, ahead⟩ h.faces ending
  obtain ⟨_, rfl, marked⟩ := read.marked rfl
  refine ⟨q, read, there, ((read.quiet rfl).calm h.calm).1, ?_, ?_⟩
  · rw [marked]
    exact h.stands.evaluates
  · exact h.within.kept (read.kept_expression rfl h.stands.proper)

/-- **A value in parentheses is read.** -/
theorem grouped {value : Expr}
    (h : p.Awaits whole own (inParens value.print ++ rest) (.evaluates value :: later))
    (formed : value.Formed) (ending : EndsExpression rest) (foretells : Foretells own rest later) :
    ∃ q, Reads (.expr .lowest value) p q ∧ q.Awaits whole own rest later := by
  rw [inParens_append] at h
  obtain ⟨q, read, there⟩ := (h.sign (by decide) (by decide)).value formed
    (endsExpression_sign (by decide) rest) (foretells.sign .closeParen (by decide))
  have finish := there.sign (by decide) (by decide)
  exact ⟨q.next, (Reads.grouping h.faces.kind read there.faces.kind).alone finish.faces ending _,
    finish⟩

/-! ### Frames and bindings -/

theorem opens {kind : FrameKind} {tokens : List Token}
    (h : p.Awaits whole own tokens (.opens kind :: later)) (hn : kind ≠ .function) :
    ∃ s, Scopes.enter kind p.scopes = .ok () s
      ∧ s.context.frames = kind :: p.scopes.context.frames
      ∧ (p.withScopes s).Awaits whole own tokens later := by
  obtain ⟨s, he, stands⟩ := h.stands.opens
  have frames : s.context.frames = kind :: p.scopes.context.frames := by
    rw [(Mention.Acts.opens he).context h.stands.proper.regular]
    rfl
  exact ⟨s, he, frames, h.faces, h.calm, stands,
    h.within.opens hn h.stands.proper.regular he⟩

theorem closes {kind : FrameKind} {outer : List FrameKind} {tokens : List Token}
    (h : p.Awaits whole own tokens (.closes kind :: later)) (hn : kind ≠ .function)
    (frames : p.scopes.context.frames = kind :: outer) :
    ∃ s, Scopes.exit kind p.scopes = .ok () s
      ∧ (p.withScopes s).Awaits whole own tokens later := by
  obtain ⟨s, hx, stands⟩ := h.stands.closes hn frames
  exact ⟨s, hx, h.faces, h.calm, stands, h.within.closes hn h.stands.proper.regular hx⟩

theorem binds {symbol : Symbol} {tokens : List Token}
    (h : p.Awaits whole own tokens (.binds symbol :: later)) (sorted : symbol.Sorted) :
    ∃ s, Scopes.define symbol p.scopes = .ok () s
      ∧ (p.withScopes s).Awaits whole own tokens later := by
  obtain ⟨s, hd, stands⟩ := h.stands.binds sorted
  exact ⟨s, hd, h.faces, h.calm, stands,
    h.within.kept (Kept.define h.stands.proper sorted hd)⟩

end Parser.Awaits

/-! ## §4. Ends of statements. -/

/-- Tokens in front of which a printed statement ends, with so many blocks
open. -/
inductive Ends (depth : Nat) : List Token → Prop where
  | line {token rest} : (standardStatement? token.kind).isSome →
      Ends depth (Kind.newline.sign :: token :: rest)
  | block {rest} : 0 < depth → Ends depth (Kind.closeCurly.sign :: rest)
  | file : Ends depth [Kind.eof.sign]

namespace Ends

variable {depth : Nat} {p : Parser} {rest : List Token}

theorem expression (h : Ends depth rest) : EndsExpression rest := by
  cases h <;> exact endsExpression_sign (by decide) _

/-- The first token is a sign of one of three kinds. -/
theorem kind (h : Ends depth rest) (faces : p.Faces rest) :
    p.kind = .newline ∨ p.kind = .eof ∨ p.kind = .closeCurly ∧ 0 < depth := by
  cases h with
  | line => exact .inl faces.kind
  | block open_ => exact .inr (.inr ⟨faces.kind, open_⟩)
  | file => exact .inr (.inl faces.kind)

theorem atStatementEnd (h : Ends p.blockDepth rest) (faces : p.Faces rest) :
    p.atStatementEnd = true := by
  unfold Parser.atStatementEnd
  rcases h.kind faces with hk | hk | ⟨hk, open_⟩
  · rw [show p.current.kind = _ from hk]
  · rw [show p.current.kind = _ from hk]
  · rw [show p.current.kind = _ from hk]
    exact decide_eq_true open_

theorem atAttributeEnd (h : Ends 0 rest) (faces : p.Faces rest) : p.atAttributeEnd = true := by
  unfold Parser.atAttributeEnd
  rcases h.kind faces with hk | hk | ⟨-, open_⟩
  · rw [hk]
  · rw [hk]
  · cases open_

theorem calm (h : Ends depth rest) (faces : p.Faces rest) : p.cursor.Calm := by
  refine Cursor.calm_of_kind ?_
  show p.kind ≠ .identifier
  rcases h.kind faces with hk | hk | ⟨hk, -⟩ <;> rw [hk] <;> decide

theorem ne_arrow (h : Ends depth rest) (token : Token) (ht : rest.head? = some token) :
    token.kind ≠ .arrow := by
  cases h <;> (obtain rfl := Option.some.inj ht; decide)

/-- No chain of conditions goes on behind the end. -/
theorem ne_else (h : Ends depth rest) (faces : p.Faces rest) : p.pastLines.kind ≠ .kwElse := by
  cases h with
  | @line token _ first =>
      have other : token.kind ≠ .newline := by
        intro same
        rw [same] at first
        cases first
      have lines : p.pastLines = p.next := faces.past_next (by decide) rfl (by simpa using other)
      rw [lines, (faces.next (by decide)).kind]
      intro same
      rw [same] at first
      cases first
  | block =>
      rw [faces.pastLines (by decide), faces.kind]
      decide
  | file =>
      rw [faces.pastLines (by decide), faces.kind]
      decide

end Ends

/-! ## §5. Signatures. -/

section Signatures

variable {whole later : List Mention} {p : Parser} {rest : List Token}

/-- A printed return type is read. -/
theorem reads_returns {returns : Option Token} (faces : p.Faces (printReturns returns ++ rest))
    (formed : ∀ type, returns = some type → type.kind = .identifier)
    (stop : ∀ token, rest.head? = some token → token.kind ≠ .arrow) :
    ∃ q, Reads (.returns returns) p q ∧ q.Faces rest ∧ q.scopes = p.scopes := by
  cases returns with
  | none =>
      have faces : p.Faces rest := faces
      exact ⟨p, .noReturn (stop p.current faces.head?), faces, rfl⟩
  | some type =>
      have faces : p.Faces (Kind.arrow.sign :: type :: rest) := faces
      have hk : type.kind = .identifier := formed type rfl
      have there := faces.next (by decide)
      obtain rfl := there.current
      exact ⟨p.next.next, .returns faces.kind hk,
        there.next (show p.next.current.kind ≠ .eof by rw [hk]; decide), rfl⟩

/-- Parameters begin with a name or with the closing parenthesis. -/
theorem head?_printParameters {ps : List Parameter} (h : ∀ p ∈ ps, p.Named) {token : Token}
    (ht : (printParameters ps ++ rest).head? = some token) :
    token.kind ≠ .comma ∧ token.kind ≠ .newline := by
  cases ps with
  | nil =>
      obtain rfl := Option.some.inj ht
      decide
  | cons parameter more =>
      obtain ⟨⟨name, same, hn⟩, -⟩ := h parameter List.mem_cons_self
      rw [printParameters, Parameter.print, same] at ht
      obtain rfl := Option.some.inj ht
      rw [hn]
      decide

/-- **Printed parameters are read**, and each is bound. -/
theorem reads_parameters {ps : List Parameter}
    (h : ∀ parameter ∈ ps, parameter.Named) (faces : p.Faces (printParameters ps ++ rest))
    (stands : Stands whole p.scopes ((parameterSymbols ps).map .binds ++ later)) :
    ∃ q, Reads (.parameters ps) p q ∧ q.Faces rest ∧ Stands whole q.scopes later := by
  induction ps generalizing p with
  | nil => exact ⟨p.next, .noParameter (Parser.Faces.kind faces),
      Parser.Faces.next faces (by decide), stands⟩
  | cons parameter more ih =>
      obtain ⟨⟨⟨name, same, hn⟩, ht⟩, named⟩ := List.forall_mem_cons.1 h
      obtain ⟨_, type⟩ := parameter
      obtain rfl : _ = some name := same
      have faces : p.Faces (name :: Kind.colon.sign :: type
          :: (separator .comma more ++ (printParameters more ++ rest))) := by
        simpa [printParameters, Parameter.print] using faces
      have stands : Stands whole p.scopes (.binds ⟨name, type, .parameter⟩
          :: ((parameterSymbols more).map .binds ++ later)) := stands
      obtain rfl := faces.current
      have hn : p.kind = .identifier := hn
      have second := faces.next (show p.kind ≠ .eof by rw [hn]; decide)
      have third := second.next (by decide)
      obtain rfl := third.current
      have ht : p.next.next.kind = .identifier := ht
      have behind := third.next (show p.next.next.kind ≠ .eof by rw [ht]; decide)
      obtain ⟨s, hd, stands⟩ := stands.binds (Symbol.sorted_of_identifier ht rfl)
      have there : (p.next.next.next.withScopes s).pastComma.pastLines.Faces
          (printParameters more ++ rest) :=
        Parser.Faces.pastComma behind fun _ => head?_printParameters named
      have stands : Stands whole (p.next.next.next.withScopes s).pastComma.pastLines.scopes
          ((parameterSymbols more).map .binds ++ later) := by simpa using stands
      obtain ⟨q, read, finish, stands⟩ := ih named there stands
      exact ⟨q, .parameter hn second.kind ht hd read, finish, stands⟩

end Signatures

/-! ## §6. Blocks. -/

/-- Wherever the body is awaited in braces, it is read. -/
def BodyIsRead (whole : List Mention) (own : Option String) (body : List Stmt) : Prop :=
  ∀ (p : Parser) (rest : List Token) (later : List Mention),
    p.Awaits whole own (printAll body ++ Kind.closeCurly.sign :: rest)
      (mentionsOfAll body ++ later) →
    Foretells own (Kind.closeCurly.sign :: rest) later → 0 < p.blockDepth →
    ∃ q, Reads (.body body) p q ∧ q.Awaits whole own (Kind.closeCurly.sign :: rest) later

/-- A condition and the body behind it have been read. -/
def Link (condition : Expr) (body : List Stmt) (p q : Parser) : Prop :=
  p.kind = .kwIf ∧ ∃ r, Reads (.expr .lowest condition) p.next r
    ∧ Reads (.framed .conditional body) r.pastLines q

section Blocks

variable {whole later : List Mention} {own : Option String} {body : List Stmt} {p : Parser}
  {rest : List Token} {inside : Bool}

/-- **A block is read** if its body is. -/
theorem Parser.Awaits.block (hb : BodyIsRead whole own body) (formed : FormedAll inside body)
    (h : p.Awaits whole own (inBraces (printAll body) ++ rest) (mentionsOfAll body ++ later))
    (foretells : Foretells own (Kind.closeCurly.sign :: rest) later) :
    ∃ q, Reads (.block body) p q ∧ q.Awaits whole own rest later := by
  rw [inBraces_append] at h
  have inner := h.sign (by decide) (by decide)
  have inner : p.next.inBlock.Awaits whole own (printAll body ++ Kind.closeCurly.sign :: rest)
      (mentionsOfAll body ++ later) := ⟨inner.faces, inner.calm, inner.stands, inner.within⟩
  have separators : p.next.inBlock.pastSeparators = p.next.inBlock :=
    inner.faces.past_of_head fun _ =>
      isTerminator_head?_printAll (startsStatement_all formed) (by simp [Kind.isTerminator])
  obtain ⟨q, read, there⟩ := hb _ _ _ inner foretells (Nat.succ_pos p.blockDepth)
  rw [← separators] at read
  have finish := there.sign (by decide) (by decide)
  exact ⟨q.outOfBlock.next, .block h.faces.kind read there.faces.kind, finish.faces, finish.calm,
    finish.stands, finish.within⟩

/-- **A block in a frame is read** if its body is. -/
theorem Parser.Awaits.framed {kind : FrameKind} (hk : kind = .conditional ∨ kind = .loop)
    (hb : BodyIsRead whole own body) (formed : FormedAll inside body)
    (h : p.Awaits whole own (inBraces (printAll body) ++ rest)
      (.opens kind :: (mentionsOfAll body ++ .closes kind :: later)))
    (foretells : Foretells own rest later) :
    ∃ q, Reads (.framed kind body) p q ∧ q.Awaits whole own rest later := by
  have hn : kind ≠ .function := by rcases hk with rfl | rfl <;> decide
  obtain ⟨s, he, frames, inner⟩ := h.opens hn
  obtain ⟨q, read, there⟩ := inner.block hb formed
    ((foretells.mention (.closes kind) rfl).sign .closeCurly (by decide))
  have same : q.scopes.context.frames = kind :: p.scopes.context.frames :=
    (read.kept rfl inner.stands.proper).kinds.trans frames
  obtain ⟨t, hx, finish⟩ := there.closes hn same
  exact ⟨q.withScopes t, .framed hk he read hx, finish⟩

theorem endsExpression_inBraces (tokens rest : List Token) :
    EndsExpression (inBraces tokens ++ rest) := by
  rw [inBraces_append]
  exact endsExpression_sign (by decide) _

theorem Parser.Faces.pastLines_inBraces {tokens : List Token}
    (h : p.Faces (inBraces tokens ++ rest)) : p.pastLines = p := by
  rw [inBraces_append] at h
  exact h.pastLines (by decide)

/-- **A condition and its body are read.** -/
theorem Parser.Awaits.link {condition : Expr} (hb : BodyIsRead whole own body)
    (hc : condition.Formed) (formed : FormedAll own.isSome body)
    (h : p.Awaits whole own
      (Kind.kwIf.sign :: (condition.print ++ (inBraces (printAll body) ++ rest)))
      (.evaluates condition :: .opens .conditional
        :: (mentionsOfAll body ++ .closes .conditional :: later)))
    (foretells : Foretells own rest later) :
    ∃ q, Link condition body p q ∧ q.Awaits whole own rest later := by
  have behind := foretells.framed .conditional (by decide) (foretells_all formed)
  obtain ⟨q, first, there⟩ := (h.sign (by decide) (by decide)).value hc
    (endsExpression_inBraces _ _) behind
  obtain ⟨r, second, finish⟩ := there.framed (.inl rfl) hb formed foretells
  rw [← there.faces.pastLines_inBraces] at second
  exact ⟨r, ⟨h.faces.kind, q, first, second⟩, finish⟩

end Blocks

end ImpFront
