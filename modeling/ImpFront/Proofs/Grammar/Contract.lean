/-
  ImpFront.Proofs.Grammar.Contract
  ────────────────────────────────
  **WHAT A STEP MAY DO.**

  Every step of reading keeps to one contract, whether it ends well or badly:

      ends well   — the tokens are the same, at least `k` of them have been
                    taken, and the constructs that are open are known
      ends badly  — the tokens are the same, and only a reader whose bound
                    was too low can have lost track of its own work

  Frames that an error leaves open do not matter, since no step goes on behind
  an error.  `Meets` says that an outcome keeps to the contract; it goes
  through a sequence from front to back, as the steps themselves do.
-/
import ImpFront.Proofs.Grammar.Reading
import ImpFront.Proofs.Outcome
import ImpFront.Proofs.Scope.Laws

namespace ImpFront

/-! ## §1. What is open. -/

/-- The constructs that are open at a place. -/
structure Layout where
  /-- The sorts of the frames, innermost first. -/
  kinds : List FrameKind
  /-- The number of open functions. -/
  level : Nat
  /-- The number of open blocks. -/
  blocks : Nat
  deriving Repr, DecidableEq

namespace Layout

/-- One more frame is open. -/
def opened (kind : FrameKind) (l : Layout) : Layout :=
  ⟨kind :: l.kinds, if kind = .function then l.level + 1 else l.level, l.blocks⟩

/-- One more block is open. -/
def inBlock (l : Layout) : Layout :=
  { l with blocks := l.blocks + 1 }

end Layout

namespace Parser

/-- The constructs that are open at a parser. -/
def layout (p : Parser) : Layout :=
  ⟨p.scopes.frames.map Frame.kind, p.scopes.level, p.blockDepth⟩

/-- The number of tokens that are used up by taking one: none at the end. -/
def stride (p : Parser) : Nat :=
  if p.kind = .eof then 0 else 1

theorem stride_le_one (p : Parser) : p.stride ≤ 1 := by
  unfold stride
  split <;> omega

theorem stride_of_ne_eof (p : Parser) (h : p.kind ≠ .eof) : p.stride = 1 := by
  simp [stride, h]

end Parser

/-! ## §2. The contract. -/

/-- From `p` to `q` at least `k` tokens have been taken, and at `q` the
constructs of `l` are open. -/
structure Past (k : Nat) (l : Layout) (p q : Parser) : Prop where
  /-- The tokens are the same. -/
  tokens : q.cursor.tokens = p.cursor.tokens
  /-- So many fewer are ahead. -/
  remaining : q.cursor.remaining + k ≤ p.cursor.remaining
  /-- What is open. -/
  layout : q.layout = l

/-- An error on the way from `p` to `q`.  A bound `n` that lies above the
number of tokens ahead of `p` excludes that reading has lost track. -/
structure Tame (n : Nat) (p : Parser) (e : Error) (q : Parser) : Prop where
  /-- The tokens are the same. -/
  tokens : q.cursor.tokens = p.cursor.tokens
  /-- To lose track takes as many tokens as the bound. -/
  bound : e.cause.stage = .internal → n ≤ p.cursor.remaining

/-- An outcome behind `p` keeps to the contract. -/
def Meets {α : Type} (k : Nat) (l : Layout) (n : Nat) (p : Parser) :
    EStateM.Result Error Parser α → Prop
  | .ok _ q => Past k l p q
  | .error e q => Tame n p e q

/-- A step keeps to the contract and leaves open what was open. -/
def Keeps {α : Type} (k n : Nat) (x : Parse α) (p : Parser) : Prop :=
  Meets k p.layout n p (x p)

namespace Past

variable {i j k : Nat} {l m : Layout} {p q r : Parser}

theorem refl (p : Parser) : Past 0 p.layout p p :=
  ⟨rfl, Nat.le_refl _, rfl⟩

theorem trans (h : Past j l p q) (h' : Past k m q r) : Past (j + k) m p r :=
  ⟨h'.tokens.trans h.tokens, by have := h.remaining; have := h'.remaining; omega, h'.layout⟩

theorem weaken (h : Past j l p q) (hk : k ≤ j) : Past k l p q :=
  ⟨h.tokens, by have := h.remaining; omega, h.layout⟩

/-! ### Tokens -/

theorem next (h : Past j l p q) : Past (j + q.stride) l p q.next := by
  refine ⟨?_, ?_, h.layout⟩
  · exact (Cursor.tokens_advance q.cursor).trans h.tokens
  · have fewer : q.next.cursor.remaining = q.cursor.remaining - 1 := q.cursor.remaining_advance
    have := h.remaining
    unfold Parser.stride
    split
    · omega
    · next hk =>
      have : 0 < q.cursor.remaining := q.cursor.remaining_pos_of_current hk
      omega

theorem onward (h : Past j l p q) : Past j l p q.next :=
  h.next.weaken (Nat.le_add_right ..)

theorem take (h : Past j l p q) (hk : q.kind ≠ .eof) : Past (j + 1) l p q.next :=
  q.stride_of_ne_eof hk ▸ h.next

theorem past (h : Past j l p q) (test : Kind → Bool) : Past j l p (q.past test) := by
  refine ⟨(Cursor.tokens_skip q.cursor test).trans h.tokens, ?_, h.layout⟩
  have fewer : (q.past test).cursor.remaining ≤ q.cursor.remaining :=
    q.cursor.remaining_skip_le test
  have := h.remaining
  omega

theorem pastLines (h : Past j l p q) : Past j l p q.pastLines :=
  h.past _

theorem pastSeparators (h : Past j l p q) : Past j l p q.pastSeparators :=
  h.past _

theorem pastComma (h : Past j l p q) : Past j l p q.pastComma := by
  unfold Parser.pastComma
  split
  · exact h.onward
  · exact h

/-! ### Scopes and blocks -/

theorem withScopes (h : Past j l p q) {s : Scopes}
    (kinds : s.frames.map Frame.kind = q.scopes.frames.map Frame.kind)
    (level : s.level = q.scopes.level) : Past j l p (q.withScopes s) := by
  refine ⟨h.tokens, h.remaining, Eq.trans ?_ h.layout⟩
  show Layout.mk (s.frames.map Frame.kind) s.level q.blockDepth = q.layout
  rw [kinds, level]
  rfl

theorem record (h : Past j l p q) (event : Event) : Past j l p (q.record event) :=
  ⟨h.tokens, h.remaining, h.layout⟩

theorem warned (h : Past j l p q) (note : Option Note) : Past j l p (q.warned note) :=
  ⟨h.tokens, h.remaining, h.layout⟩

theorem inBlock (h : Past j l p q) : Past j l.inBlock p q.inBlock := by
  refine ⟨h.tokens, h.remaining, ?_⟩
  rw [← h.layout]
  rfl

theorem outOfBlock (h : Past j l.inBlock p q) : Past j l p q.outOfBlock := by
  refine ⟨h.tokens, h.remaining, ?_⟩
  have inside := h.layout
  simp only [Parser.layout, Layout.inBlock, Layout.mk.injEq] at inside
  obtain ⟨hk, hl, hb⟩ := inside
  simp [Parser.layout, Parser.outOfBlock, hk, hl, hb]

end Past

theorem Tame.behind {i n : Nat} {l : Layout} {p q r : Parser} {e : Error}
    (h : Tame n q e r) {j : Nat} (hp : Past j l p q) (hi : i ≤ n + j) : Tame i p e r :=
  ⟨h.tokens.trans hp.tokens, fun lost => by
    have := h.bound lost
    have := hp.remaining
    omega⟩

/-! ## §3. Sequences. -/

section

variable {α β : Type} {i j k n : Nat} {l m : Layout} {p q : Parser}

theorem Meets.weaken {r : EStateM.Result Error Parser α} (h : Meets j l n p r)
    (hk : k ≤ j) (hi : i ≤ n) : Meets k l i p r := by
  cases r with
  | ok a q => exact Past.weaken h hk
  | error e q => exact Tame.behind h (.refl p) hi

/-- What comes behind a step starts where the step has led. -/
theorem Meets.bind {x : Parse α} {f : α → Parse β} (hx : Meets j l n p (x q))
    (hf : ∀ a r, Past j l p r → Meets k m n p (f a r)) : Meets k m n p ((x >>= f) q) := by
  rw [bind_apply]
  cases h : x q with
  | ok a r =>
      rw [h] at hx
      exact hf a r hx
  | error e r =>
      rw [h] at hx
      exact hx

theorem meets_pure (h : Past j l p q) (a : α) : Meets j l n p ((pure a : Parse α) q) :=
  h

section

variable {x : Parse α}

theorem Keeps.past (h : Keeps k n x p) {a : α} (hx : x p = .ok a q) : Past k p.layout p q := by
  unfold Keeps at h
  rwa [hx] at h

theorem Keeps.tame (h : Keeps k n x p) {e : Error} (hx : x p = .error e q) : Tame n p e q := by
  unfold Keeps at h
  rwa [hx] at h

theorem keeps_of (good : ∀ a q, x p = .ok a q → Past k p.layout p q)
    (bad : ∀ e q, x p = .error e q → Tame n p e q) : Keeps k n x p := by
  unfold Keeps
  cases hx : x p with
  | ok a q => exact good a q hx
  | error e q => exact bad e q hx

/-- A step that is itself a reader, behind others.  The tokens taken so far
raise the bound. -/
theorem Keeps.behind (hx : Keeps k n x q) (hp : Past j l p q) (hi : i ≤ n + j) :
    Meets (j + k) l i p (x q) := by
  cases h : x q with
  | ok a r => exact hp.layout ▸ hp.trans (hx.past h)
  | error e r => exact (hx.tame h).behind hp hi

theorem Keeps.weaken (h : Keeps j n x p) (hk : k ≤ j) (hi : i ≤ n) : Keeps k i x p :=
  Meets.weaken h hk hi

/-- A bound above the number of tokens ahead excludes nothing but itself. -/
theorem Keeps.of_budget (h : Keeps k (min (p.cursor.remaining + 1) n) x p) : Keeps k n x p := by
  refine keeps_of (fun a q hx => h.past hx) fun e q hx => ?_
  have tame := h.tame hx
  refine ⟨tame.tokens, fun lost => ?_⟩
  have := tame.bound lost
  omega

end

/-! ## §4. Looking. -/

theorem current_bind (f : Token → Parse α) : (Parse.current >>= f) q = f q.current q := rfl

theorem currentKind_bind (f : Kind → Parse α) : (Parse.currentKind >>= f) q = f q.kind q := rfl

theorem peek_bind (k : Nat) (f : Token → Parse α) :
    (Parse.peek k >>= f) q = f (q.cursor.peek k) q := rfl

theorem budget_bind (f : Nat → Parse α) :
    (Parse.budget >>= f) q = f (q.cursor.remaining + 1) q := rfl

theorem scopes_bind (f : Scopes → Parse α) : (Parse.scopes >>= f) q = f q.scopes q := rfl

theorem atStatementEnd_bind (f : Bool → Parse α) :
    (Parse.atStatementEnd >>= f) q = f q.atStatementEnd q := rfl

/-! ## §5. Steps that always go well. -/

theorem advance_bind (f : Token → Parse α) :
    (Parse.advance >>= f) q = f q.current q.next := rfl

theorem skipNewlines_bind (f : Nat → Parse α) :
    (Parse.skipNewlines >>= f) q
      = f (q.cursor.run (· == .newline)).length q.pastLines := rfl

theorem skipTerminators_bind (f : Nat → Parse α) :
    (Parse.skipTerminators >>= f) q
      = f (q.cursor.run Kind.isTerminator).length q.pastSeparators := rfl

theorem optionalComma_bind (x : Parse α) :
    (if q.kind = .comma then (do let _ ← Parse.advance; x) else x) q = x q.pastComma := by
  unfold Parser.pastComma
  show _ = x (if q.kind = .comma then q.next else q)
  split <;> rfl

/-- Line ends that are passed over can be given back. -/
theorem rewind_pastLines (q : Parser) :
    { q.pastLines with
      cursor := q.pastLines.cursor.rewind (q.cursor.run (· == .newline)).length } = q :=
  congrArg (fun cursor => { q with cursor }) (q.cursor.rewind_skip _)

theorem rewind_bind (f : Unit → Parse α) (k : Nat) :
    (Parse.rewind k >>= f) q = f () { q with cursor := q.cursor.rewind k } := rfl

theorem enterBlock_bind (f : Unit → Parse α) : (Parse.enterBlock >>= f) q = f () q.inBlock := rfl

theorem exitBlock_bind (f : Unit → Parse α) : (Parse.exitBlock >>= f) q = f () q.outOfBlock := rfl

theorem record_bind (event : Event) (f : Unit → Parse α) :
    (Parse.record event >>= f) q = f () (q.record event) := rfl

theorem delete_bind (name : String) (f : Unit → Parse α) :
    (Parse.delete name >>= f) q = f () (q.withScopes (q.scopes.delete name).2) := rfl

theorem Past.deleted (h : Past j l p q) (name : String) :
    Past j l p (q.withScopes (q.scopes.delete name).2) :=
  h.withScopes (Scopes.map_kind_delete name) (Scopes.level_delete name)

theorem Past.marked (h : Past j l p q) (token : Token) :
    Past j l p (q.withScopes (q.scopes.mark token)) :=
  h.withScopes (by rw [Scopes.frames_mark]) (Scopes.level_mark token)

/-! ## §6. Steps that can fail. -/

/-- An error of the text is always allowed. -/
theorem meets_throw {e : Error} (h : Past j l p q) (he : e.cause.stage ≠ .internal) :
    Meets k m n p ((throw e : Parse α) q) :=
  ⟨h.tokens, fun lost => (he lost).elim⟩

theorem meets_unexpected (h : Past j l p q) (expected : String) :
    Meets k m n p ((Parse.unexpected expected : Parse α) q) :=
  meets_throw h (e := q.unexpected expected) nofun

theorem meets_expect {kind : Kind} (h : Past j l p q) (hk : kind ≠ .eof) :
    Meets (j + 1) l n p (Parse.expect kind q) := by
  show Meets (j + 1) l n p
    ((if q.kind = kind then Parse.advance else Parse.unexpected kind.describe) q)
  split
  · next same =>
    exact h.take (by rw [same]; exact hk)
  · exact meets_unexpected h _

/-- A bound of no rounds is used up at once. -/
theorem meets_stall (h : Past j l p q) (hn : n = 0) : Meets k m n p ((Parse.stall : Parse α) q) :=
  ⟨h.tokens, fun _ => hn ▸ Nat.zero_le _⟩

/-! ## §7. Acting on the scopes. -/

theorem meets_onScopes {ε : Type} {explain : Parser → ε → Error} {act : EStateM ε Scopes α}
    (h : Past j l p q)
    (good : ∀ a s, act q.scopes = .ok a s → Past k m p (q.withScopes s))
    (bad : ∀ e s, act q.scopes = .error e s → (explain q e).cause.stage ≠ .internal) :
    Meets k m n p (Parse.onScopes explain act q) := by
  unfold Parse.onScopes
  cases ha : act q.scopes with
  | ok a s => exact good a s ha
  | error e s => exact ⟨h.tokens, fun lost => (bad e s ha lost).elim⟩

/-- A frame that is opened lies innermost.  Only a function within a function
is refused, which is the fault of the text. -/
theorem meets_enterScope {kind : FrameKind} {place : Token} (h : Past j l p q) :
    Meets j (l.opened kind) n p (Parse.enterScope kind place q) := by
  unfold Parse.enterScope
  rw [scopes_bind]
  refine Meets.bind (j := j) (l := l.opened kind) (meets_onScopes h ?_ ?_) ?_
  · intro a s hs
    obtain ⟨-, rfl⟩ := Scopes.enter_ok_iff.1 hs
    refine ⟨h.tokens, h.remaining, ?_⟩
    rw [← h.layout]
    simp [Parser.layout, Parser.withScopes, Scopes.opened, Layout.opened]
  · intro e s he
    have nested : (Parse.enterError place q e).cause.stage = .semantic := by
      rw [Scopes.enter_error_eq he]
      rfl
    rw [nested]
    decide
  · intro _ r hr
    exact hr.record _

/-- Where a frame lies innermost it can be left. -/
theorem meets_exitScope {kind : FrameKind} (h : Past j (l.opened kind) p q) :
    Meets j l n p (Parse.exitScope kind q) := by
  obtain ⟨frame, outer, hf, hk, hkinds, hlevel, hb⟩ :
      ∃ frame outer, q.scopes.frames = frame :: outer ∧ frame.kind = kind
        ∧ outer.map Frame.kind = l.kinds
        ∧ q.scopes.level = (l.opened kind).level ∧ q.blockDepth = l.blocks := by
    have inside := h.layout
    simp only [Parser.layout, Layout.opened, Layout.mk.injEq] at inside
    obtain ⟨hkinds, hl, hb⟩ := inside
    obtain ⟨frame, outer, hf, hk, houter⟩ := List.map_eq_cons_iff.1 hkinds
    exact ⟨frame, outer, hf, hk, houter, hl, hb⟩
  have leaves : Scopes.exit kind q.scopes = .ok () (q.scopes.closed kind outer) :=
    Scopes.exit_ok_iff.2 ⟨frame, outer, hf, hk, rfl⟩
  unfold Parse.exitScope
  refine Meets.bind (j := j) (l := l) (meets_onScopes h ?_ ?_) ?_
  · intro a s hs
    rw [leaves] at hs
    cases hs
    refine ⟨h.tokens, h.remaining, ?_⟩
    simp only [Layout.opened] at hlevel
    by_cases hfun : kind = .function
    · simp [Parser.layout, Parser.withScopes, Scopes.closed, hfun, hkinds, hlevel, hb]
    · simp [Parser.layout, Parser.withScopes, Scopes.closed, hfun, hkinds, hlevel, hb]
  · intro e s he
    rw [leaves] at he
    cases he
  · intro _ r hr
    rw [scopes_bind]
    exact hr.record _

theorem meets_define {symbol : Symbol} (h : Past j l p q) :
    Meets j l n p (Parse.define symbol q) := by
  unfold Parse.define
  rw [scopes_bind]
  refine Meets.bind (j := j) (l := l) (meets_onScopes h ?_ ?_) ?_
  · intro a s hs
    obtain ⟨-, -, -, rfl⟩ := Scopes.define_ok_iff.1 hs
    exact h.withScopes (by simp) (by simp)
  · intro e s he
    rw [Scopes.define_error_stage he]
    decide
  · intro _ r hr
    split
    · exact (hr.record _).record _
    · exact hr.record _

theorem meets_mark {token : Token} (h : Past j l p q) :
    Meets j l n p (Parse.mark token q) := by
  unfold Parse.mark
  rw [scopes_bind]
  split
  · exact (h.record _).marked token
  · exact h.marked token

end

end ImpFront
