/-
  ImpFront.Proofs.Grammar.Lockstep
  ────────────────────────────────
  **TWO FILES READ SIDE BY SIDE.**

  Besides tokens, a lockstep says which places of two files stand for each
  other, and that places which do so lead on to places which do so.  Parsers
  are alike if they stand at such places, with scopes that are alike.

      alike before  →  in step: both end well, and are alike,
                       or both fail, with errors that are alike

  Bounds are read off the tokens ahead, of which the files may have different
  numbers.  So two readers may have different bounds, and an outcome of a bound
  that is used up is in step with any other.
-/
import ImpFront.Proofs.Grammar.Bounds
import ImpFront.Proofs.Scope.Likeness

namespace ImpFront

open Parse

/-! ## §1. Places. -/

/-- Which tokens, and which places between them, of two files stand for each
other. -/
structure Lockstep extends Likeness where
  /-- The places are alike. -/
  cursor : Cursor → Cursor → Prop
  /-- The tokens there are alike. -/
  current : ∀ {c d}, cursor c d → token c.current d.current
  /-- A token other than a line end can be taken in both. -/
  advance : ∀ {c d}, cursor c d → c.current.kind ≠ .newline → cursor c.advance d.advance
  /-- Line ends can be passed over in both. -/
  lines : ∀ {c d}, cursor c d → cursor (c.skip (· == .newline)) (d.skip (· == .newline))
  /-- Separators can be passed over in both. -/
  separators : ∀ {c d}, cursor c d → cursor (c.skip Kind.isTerminator) (d.skip Kind.isTerminator)
  /-- Functions further down are declared alike. -/
  ahead : ∀ {c d} (name : String), cursor c d →
    c.returnTypeAhead? name = d.returnTypeAhead? name

/-- The texts of the warnings so far. -/
def Parser.told (p : Parser) : List String :=
  p.warnings.map Note.message

namespace Lockstep

variable (R : Lockstep)

/-- Two parsers at places that are alike, with scopes that are alike. -/
structure LikeParser (p q : Parser) : Prop where
  /-- The places. -/
  cursor : R.cursor p.cursor q.cursor
  /-- The names. -/
  scopes : R.LikeScopes p.scopes q.scopes
  /-- The number of open blocks. -/
  blockDepth : p.blockDepth = q.blockDepth
  /-- The warnings, up to their places. -/
  told : p.told = q.told

variable {R}

namespace LikeParser

variable {p q : Parser}

theorem current (h : R.LikeParser p q) : R.token p.current q.current :=
  R.current h.cursor

theorem kind (h : R.LikeParser p q) : p.kind = q.kind :=
  R.kind h.current

theorem atStatementEnd (h : R.LikeParser p q) : p.atStatementEnd = q.atStatementEnd := by
  unfold Parser.atStatementEnd
  rw [R.kind h.current, h.blockDepth]

/-! ### Moving -/

theorem next (h : R.LikeParser p q) (inline : p.kind ≠ .newline) :
    R.LikeParser p.next q.next :=
  ⟨R.advance h.cursor inline, h.scopes, h.blockDepth, h.told⟩

theorem pastLines (h : R.LikeParser p q) : R.LikeParser p.pastLines q.pastLines :=
  ⟨R.lines h.cursor, h.scopes, h.blockDepth, h.told⟩

theorem pastSeparators (h : R.LikeParser p q) :
    R.LikeParser p.pastSeparators q.pastSeparators :=
  ⟨R.separators h.cursor, h.scopes, h.blockDepth, h.told⟩

theorem pastComma (h : R.LikeParser p q) : R.LikeParser p.pastComma q.pastComma := by
  unfold Parser.pastComma
  rw [← R.kind h.current]
  split
  · next comma => exact h.next (show p.current.kind ≠ .newline by rw [comma]; decide)
  · exact h

/-- What comes behind the next token is of one kind, too. -/
theorem peek (h : R.LikeParser p q) (inline : p.kind ≠ .newline) :
    (p.cursor.peek 1).kind = (q.cursor.peek 1).kind := by
  rw [← Cursor.current_advance, ← Cursor.current_advance]
  exact (h.next inline).kind

/-! ### Scopes, blocks and warnings -/

theorem withScopes (h : R.LikeParser p q) {s t : Scopes} (hs : R.LikeScopes s t) :
    R.LikeParser (p.withScopes s) (q.withScopes t) :=
  ⟨h.cursor, hs, h.blockDepth, h.told⟩

theorem record (h : R.LikeParser p q) (event event' : Event) :
    R.LikeParser (p.record event) (q.record event') :=
  ⟨h.cursor, h.scopes, h.blockDepth, h.told⟩

theorem inBlock (h : R.LikeParser p q) : R.LikeParser p.inBlock q.inBlock :=
  ⟨h.cursor, h.scopes, congrArg (· + 1) h.blockDepth, h.told⟩

theorem outOfBlock (h : R.LikeParser p q) : R.LikeParser p.outOfBlock q.outOfBlock :=
  ⟨h.cursor, h.scopes, congrArg (· - 1) h.blockDepth, h.told⟩

theorem warned (h : R.LikeParser p q) {note note' : Option Note}
    (same : note.map Note.message = note'.map Note.message) :
    R.LikeParser (p.warned note) (q.warned note') := by
  refine ⟨h.cursor, h.scopes, h.blockDepth, ?_⟩
  have texts (r : Parser) (note : Option Note) :
      (r.warned note).told = r.told ++ (note.map Note.message).toList := by
    cases note <;> simp [Parser.told, Parser.warned]
  rw [texts, texts, h.told, same]

end LikeParser

/-! ## §2. Outcomes. -/

/-- Two outcomes of readers: both end well, or both fail alike, unless a bound
has been used up. -/
inductive InStep (R : Lockstep) {α : Type} (V : α → α → Prop) :
    EStateM.Result Error Parser α → EStateM.Result Error Parser α → Prop
  | ok {a a' : α} {p q : Parser} (value : V a a') (parsers : R.LikeParser p q) :
      InStep R V (.ok a p) (.ok a' q)
  | error {e e' : Error} {p q : Parser} (errors : R.LikeError e e') (told : p.told = q.told) :
      InStep R V (.error e p) (.error e' q)
  | left {r r' : EStateM.Result Error Parser α} (stalls : Stalls r) : InStep R V r r'
  | right {r r' : EStateM.Result Error Parser α} (stalls : Stalls r') : InStep R V r r'

/-- Values of which nothing is asked. -/
def Any {α : Type} (_ _ : α) : Prop :=
  True

section

variable {α β : Type} {U : α → α → Prop} {V : β → β → Prop} {x x' : Parse α} {p q : Parser}

theorem Stalls.bind {f : α → Parse β} (h : Stalls (x p)) : Stalls ((x >>= f) p) := by
  rw [bind_apply]
  cases hx : x p with
  | ok a t => exact (hx ▸ h : Stalls (.ok a t)).elim
  | error e t => exact (hx ▸ h : Stalls (.error e t))

/-- **What goes on in step from outcomes that are in step stays so.** -/
theorem InStep.bind {f f' : α → Parse β} (hx : R.InStep U (x p) (x' q))
    (hf : ∀ a a' r s, U a a' → R.LikeParser r s → R.InStep V (f a r) (f' a' s)) :
    R.InStep V ((x >>= f) p) ((x' >>= f') q) := by
  generalize hr : x p = outcome at hx
  generalize hs : x' q = outcome' at hx
  cases hx with
  | ok value parsers =>
      rw [bind_apply, bind_apply, hr, hs]
      exact hf _ _ _ _ value parsers
  | error errors told =>
      rw [bind_apply, bind_apply, hr, hs]
      exact .error errors told
  | left stalls => exact .left (Stalls.bind (hr ▸ stalls))
  | right stalls => exact .right (Stalls.bind (hs ▸ stalls))

theorem InStep.of_eq {r r' u u' : EStateM.Result Error Parser α} (left : u = r) (right : u' = r')
    (h : R.InStep U r r') : R.InStep U u u' := by
  rwa [left, right]

theorem inStep_pure {a a' : α} (h : R.LikeParser p q) (value : U a a') :
    R.InStep U ((pure a : Parse α) p) ((pure a' : Parse α) q) :=
  .ok value h

theorem inStep_throw {e e' : Error} (h : R.LikeParser p q) (errors : R.LikeError e e') :
    R.InStep U ((throw e : Parse α) p) ((throw e' : Parse α) q) :=
  .error errors h.told

theorem inStep_stall (r : EStateM.Result Error Parser α) :
    R.InStep U ((stall : Parse α) p) r :=
  .left rfl

theorem inStep_stall' (r : EStateM.Result Error Parser α) :
    R.InStep U r ((stall : Parse α) q) :=
  .right rfl

end

/-! ## §3. Steps. -/

section

variable {p q : Parser}

theorem inStep_unexpected {α : Type} {U : α → α → Prop} (h : R.LikeParser p q)
    (expected : String) :
    R.InStep U ((unexpected expected : Parse α) p) ((unexpected expected : Parse α) q) := by
  have alike : R.LikeError (p.unexpected expected) (q.unexpected expected) := by
    unfold Parser.unexpected
    rw [← R.describe h.current]
    exact R.likeError_blame h.current _
  exact inStep_throw h alike

theorem inStep_expect {kind : Kind} (h : R.LikeParser p q) (inline : kind ≠ .newline) :
    R.InStep (fun s t => R.token s t ∧ s.kind = kind) (expect kind p) (expect kind q) := by
  show R.InStep _ ((if p.kind = kind then Parse.advance else unexpected kind.describe) p)
    ((if q.kind = kind then Parse.advance else unexpected kind.describe) q)
  rw [← h.kind]
  split
  · next same => exact .ok ⟨h.current, same⟩ (h.next (same ▸ inline))
  · exact inStep_unexpected h _

theorem inStep_onScopes {ε : Type} {E : ε → ε → Prop} {explain explain' : Parser → ε → Error}
    {act act' : EStateM ε Scopes Unit} (h : R.LikeParser p q)
    (acts : R.LikeAct E (act p.scopes) (act' q.scopes))
    (explained : ∀ e e', E e e' → R.LikeError (explain p e) (explain' q e')) :
    R.InStep Any (onScopes explain act p) (onScopes explain' act' q) := by
  unfold onScopes
  generalize act p.scopes = outcome at acts
  generalize act' q.scopes = outcome' at acts
  cases acts with
  | ok scopes => exact .ok trivial (h.withScopes scopes)
  | error errors => exact .error (explained _ _ errors) h.told

theorem likeError_exit (h : R.LikeParser p q) (error : FrameError) :
    R.LikeError (exitError p error) (exitError q error) :=
  R.likeError_blame h.current _

theorem inStep_enterScope {kind : FrameKind} {place place' : Token} (h : R.LikeParser p q)
    (places : R.token place place') :
    R.InStep Any (enterScope kind place p) (enterScope kind place' q) := by
  unfold enterScope
  rw [scopes_bind, scopes_bind]
  refine .bind (inStep_onScopes h (h.scopes.enter kind) ?_) fun _ _ r s _ hr => ?_
  · rintro error _ rfl
    cases error with
    | alreadyInFunction => exact R.likeError_blame places _
    | _ => exact likeError_exit h _
  · exact .ok trivial (hr.record _ _)

theorem inStep_exitScope (h : R.LikeParser p q) (kind : FrameKind) :
    R.InStep Any (exitScope kind p) (exitScope kind q) := by
  unfold exitScope
  refine .bind (inStep_onScopes h (h.scopes.exit kind) ?_) fun _ _ r s _ hr => ?_
  · rintro error _ rfl
    exact likeError_exit h _
  · rw [scopes_bind, scopes_bind]
    exact .ok trivial (hr.record _ _)

theorem inStep_define {symbol symbol' : Symbol} (h : R.LikeParser p q)
    (symbols : R.LikeSymbol symbol symbol') :
    R.InStep Any (define symbol p) (define symbol' q) := by
  unfold define
  rw [scopes_bind, scopes_bind, ← h.scopes.settles symbols]
  refine .bind (inStep_onScopes h (h.scopes.define symbols) fun _ _ errors => errors)
    fun _ _ r s _ hr => ?_
  split
  · exact .ok trivial ((hr.record _ _).record _ _)
  · exact .ok trivial (hr.record _ _)

theorem inStep_mark {token token' : Token} (h : R.LikeParser p q) (tokens : R.token token token')
    (name : token.kind = .identifier) : R.InStep Any (mark token p) (mark token' q) := by
  have marked := h.scopes.mark tokens name
  unfold mark
  rw [scopes_bind, scopes_bind, ← h.scopes.isNewReference tokens]
  split
  · exact .ok trivial ((h.record _ _).withScopes marked)
  · exact .ok trivial (h.withScopes marked)

theorem likeParser_deleted (h : R.LikeParser p q) (name : String) :
    R.LikeParser (p.withScopes (p.scopes.delete name).2)
      (q.withScopes (q.scopes.delete name).2) :=
  h.withScopes (h.scopes.delete name)

end

end Lockstep

end ImpFront
