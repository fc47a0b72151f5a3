/-
  ImpFront.Proofs.Grammar.Steps
  ─────────────────────────────
  **THE STEPS OF READING, WHEN THEY SUCCEED.**

  One equivalence for each step that the rules of the grammar are made of: the
  value it gives and the parser it leaves.  With them a rule that succeeded is
  taken apart by `simp`, down to the phrases it has read.

  At the end the same for a whole file, which is accepted or refused as its
  reader ends well or badly.
-/
import ImpFront.Proofs.Grammar.Reading
import ImpFront.Proofs.Outcome

namespace ImpFront

namespace Parse

variable {p q : Parser}

/-! ## §1. Tokens. -/

theorem current_ok_iff {token : Token} :
    current p = .ok token q ↔ p.current = token ∧ p = q := by
  simp only [current, bind_ok_iff, get_ok_iff, pure_ok_iff, exists_and_left, and_assoc,
    exists_eq_left']

theorem currentKind_ok_iff {kind : Kind} :
    currentKind p = .ok kind q ↔ p.kind = kind ∧ p = q := by
  simp only [currentKind, bind_ok_iff, get_ok_iff, pure_ok_iff, exists_and_left, and_assoc,
    exists_eq_left', Parser.kind]

theorem peek_ok_iff {n : Nat} {token : Token} :
    peek n p = .ok token q ↔ p.cursor.peek n = token ∧ p = q := by
  simp only [peek, bind_ok_iff, get_ok_iff, pure_ok_iff, exists_and_left, and_assoc,
    exists_eq_left']

theorem budget_ok_iff {n : Nat} :
    budget p = .ok n q ↔ p.cursor.remaining + 1 = n ∧ p = q := by
  simp only [budget, bind_ok_iff, get_ok_iff, pure_ok_iff, exists_and_left, and_assoc,
    exists_eq_left']

theorem stall_ok_iff {α : Type} {a : α} : stall p = .ok a q ↔ False := by
  simp [stall, bind_ok_iff, throw_ok_iff]

theorem advance_ok_iff {token : Token} :
    advance p = .ok token q ↔ p.current = token ∧ p.next = q := by
  simp [advance, Parser.next]

theorem rewind_ok_iff {n : Nat} {a : Unit} :
    rewind n p = .ok a q ↔ { p with cursor := p.cursor.rewind n } = q := by
  simp only [rewind, modify_ok_iff]

theorem unexpected_ok_iff {α : Type} {expected : String} {a : α} :
    unexpected expected p = .ok a q ↔ False := by
  simp [unexpected, bind_ok_iff, throw_ok_iff]

theorem expect_ok_iff {kind : Kind} {token : Token} :
    expect kind p = .ok token q ↔ p.kind = kind ∧ p.current = token ∧ p.next = q := by
  simp only [expect, bind_ok_iff, currentKind_ok_iff, exists_and_left, and_assoc,
    exists_eq_left']
  by_cases h : p.kind = kind
  · simp [h, advance_ok_iff]
  · simp [h, unexpected_ok_iff]

/-- A comma that may stand in front of a step. -/
theorem optionalComma_ok_iff {α : Type} {x : Parse α} {a : α} :
    (if p.kind = .comma then (do let _ ← advance; x) else x) p = .ok a q
      ↔ x p.pastComma = .ok a q := by
  unfold Parser.pastComma
  by_cases h : p.kind = .comma
  · have : p.current.kind = .comma := h
    simp [h, this, bind_ok_iff, advance_ok_iff, and_assoc]
  · have : ¬p.current.kind = .comma := h
    simp [h, this]

theorem skipNewlines_ok_iff {n : Nat} :
    skipNewlines p = .ok n q
      ↔ (p.cursor.run (· == .newline)).length = n ∧ p.pastLines = q := by
  simp [skipNewlines, skip, Parser.pastLines, Parser.past]

theorem skipTerminators_ok_iff {n : Nat} :
    skipTerminators p = .ok n q
      ↔ (p.cursor.run Kind.isTerminator).length = n ∧ p.pastSeparators = q := by
  simp [skipTerminators, skip, Parser.pastSeparators, Parser.past]

theorem atStatementEnd_ok_iff {b : Bool} :
    atStatementEnd p = .ok b q ↔ p.atStatementEnd = b ∧ p = q := by
  simp only [atStatementEnd, bind_ok_iff, get_ok_iff, pure_ok_iff, exists_and_left, and_assoc,
    exists_eq_left']

/-! ## §2. Blocks, warnings and the journal. -/

theorem enterBlock_ok_iff {a : Unit} : enterBlock p = .ok a q ↔ p.inBlock = q := by
  simp only [enterBlock, modify_ok_iff, Parser.inBlock]

theorem exitBlock_ok_iff {a : Unit} : exitBlock p = .ok a q ↔ p.outOfBlock = q := by
  simp only [exitBlock, modify_ok_iff, Parser.outOfBlock]

theorem record_ok_iff {event : Event} {a : Unit} :
    record event p = .ok a q ↔ p.record event = q := by
  simp only [record, modify_ok_iff]

theorem warn_ok_iff {note : Note} {a : Unit} :
    warn note p = .ok a q
      ↔ (p.record (.warned note.message)).warned (some note) = q := by
  simp only [warn, bind_ok_iff, record_ok_iff, modify_ok_iff, Parser.warned]
  simp

/-! ## §3. Scopes. -/

theorem scopes_ok_iff {s : Scopes} : scopes p = .ok s q ↔ p.scopes = s ∧ p = q := by
  simp only [scopes, bind_ok_iff, get_ok_iff, pure_ok_iff, exists_and_left, and_assoc,
    exists_eq_left']

theorem onScopes_ok_iff {ε α : Type} {explain : Parser → ε → Error}
    {act : EStateM ε Scopes α} {a : α} :
    onScopes explain act p = .ok a q
      ↔ ∃ s, act p.scopes = .ok a s ∧ p.withScopes s = q := by
  unfold onScopes Parser.withScopes
  cases act p.scopes with
  | ok b s => simp [and_assoc]
  | error e s => simp

/-- What a frame that is opened does to the parser, but for the journal. -/
theorem enterScope_ok {kind : FrameKind} {place : Token} {a : Unit}
    (h : enterScope kind place p = .ok a q) :
    ∃ s, Scopes.enter kind p.scopes = .ok () s ∧ q.silent = p.silent.withScopes s := by
  simp only [enterScope, bind_ok_iff, scopes_ok_iff, onScopes_ok_iff, record_ok_iff] at h
  obtain ⟨_, _, ⟨rfl, rfl⟩, _, _, ⟨s, hs, rfl⟩, rfl⟩ := h
  exact ⟨s, hs, rfl⟩

theorem exitScope_ok {kind : FrameKind} {a : Unit} (h : exitScope kind p = .ok a q) :
    ∃ s, Scopes.exit kind p.scopes = .ok () s ∧ q.silent = p.silent.withScopes s := by
  simp only [exitScope, bind_ok_iff, scopes_ok_iff, onScopes_ok_iff, record_ok_iff] at h
  obtain ⟨_, _, ⟨s, hs, rfl⟩, _, _, ⟨rfl, rfl⟩, rfl⟩ := h
  exact ⟨s, hs, rfl⟩

theorem define_ok {symbol : Symbol} {a : Unit} (h : define symbol p = .ok a q) :
    ∃ s, Scopes.define symbol p.scopes = .ok () s ∧ q.silent = p.silent.withScopes s := by
  simp only [define, bind_ok_iff, scopes_ok_iff, onScopes_ok_iff] at h
  obtain ⟨_, _, ⟨rfl, rfl⟩, _, _, ⟨s, hs, rfl⟩, h⟩ := h
  refine ⟨s, hs, ?_⟩
  split at h
  · simp only [bind_ok_iff, record_ok_iff] at h
    obtain ⟨_, _, rfl, rfl⟩ := h
    rfl
  · rw [← record_ok_iff.1 h]
    rfl

theorem delete_ok_iff {name : String} {a : Unit} :
    delete name p = .ok a q ↔ p.withScopes (p.scopes.delete name).2 = q := by
  simp only [delete, modify_ok_iff, Parser.withScopes]

theorem mark_ok {token : Token} {a : Unit} (h : mark token p = .ok a q) :
    q.silent = p.silent.withScopes (p.scopes.mark token) := by
  simp only [mark, bind_ok_iff, scopes_ok_iff] at h
  obtain ⟨_, _, ⟨rfl, rfl⟩, h⟩ := h
  split at h
  · simp only [bind_ok_iff, record_ok_iff, modify_ok_iff] at h
    obtain ⟨_, _, rfl, rfl⟩ := h
    rfl
  · rw [← modify_ok_iff.1 h]
    rfl

end Parse

/-! ## §4. Files. -/

section

variable {file : String} {tokens : List Token} {order : Table.Traversal Pending}
  {program : Program} {e : Error} {p : Parser}

/-- The parser that a file is read with. -/
def Parser.start (file : String) (tokens : List Token) : Parser :=
  (Parser.ofTokens tokens).record (.reading file)

theorem Grammar.program_apply (g : Grammar) (order : Table.Traversal Pending) (p : Parser) :
    g.program order p = match g.statementsWithin (p.cursor.remaining + 1) .empty p with
      | .ok program q =>
        (match q.scopes.unresolved? order with
        | some error => .error error q
        | none => .ok program q)
      | .error e q => .error e q := by
  show ((g.statementsWithin (p.cursor.remaining + 1) .empty) >>= _) p = _
  rw [bind_apply]
  cases g.statementsWithin (p.cursor.remaining + 1) .empty p with
  | error e q => rfl
  | ok program q =>
      dsimp only
      show (match q.scopes.unresolved? order with
        | some error => throw error
        | none => pure program : Parse Program) q = _
      cases q.scopes.unresolved? order <;> rfl

/-- A file is accepted if its statements are and no call is left unanswered. -/
theorem Grammar.program_ok_iff {g : Grammar} {q : Parser} :
    g.program order p = .ok program q
      ↔ g.statementsWithin (p.cursor.remaining + 1) .empty p = .ok program q
        ∧ q.scopes.unresolved? order = none := by
  rw [Grammar.program_apply]
  cases g.statementsWithin (p.cursor.remaining + 1) .empty p with
  | error e r => simp
  | ok other r =>
      dsimp only
      cases hu : r.scopes.unresolved? order with
      | some error =>
          simp only [reduceCtorEq, false_iff, EStateM.Result.ok.injEq, not_and]
          rintro ⟨-, rfl⟩
          rw [hu]
          exact Option.some_ne_none error
      | none =>
          simp only [EStateM.Result.ok.injEq]
          constructor
          · rintro ⟨rfl, rfl⟩
            exact ⟨⟨rfl, rfl⟩, hu⟩
          · rintro ⟨same, -⟩
            exact same

/-- A file is refused where its statements are, or for the calls that are left
unanswered behind them. -/
theorem Grammar.program_error_iff {g : Grammar} {q : Parser} :
    g.program order p = .error e q
      ↔ g.statementsWithin (p.cursor.remaining + 1) .empty p = .error e q
        ∨ ∃ program, g.statementsWithin (p.cursor.remaining + 1) .empty p = .ok program q
          ∧ q.scopes.unresolved? order = some e := by
  rw [Grammar.program_apply]
  cases g.statementsWithin (p.cursor.remaining + 1) .empty p with
  | error e r => simp
  | ok program r =>
      dsimp only
      cases hu : r.scopes.unresolved? order with
      | some error =>
          simp only [reduceCtorEq, false_or, EStateM.Result.ok.injEq, EStateM.Result.error.injEq]
          constructor
          · rintro ⟨rfl, rfl⟩
            exact ⟨program, ⟨rfl, rfl⟩, hu⟩
          · rintro ⟨_, ⟨rfl, rfl⟩, found⟩
            exact ⟨Option.some.inj (hu.symm.trans found), rfl⟩
      | none =>
          simp only [reduceCtorEq, false_or, EStateM.Result.ok.injEq, false_iff]
          rintro ⟨_, ⟨rfl, rfl⟩, found⟩
          rw [hu] at found
          cases found

theorem parse_error_iff :
    parse file tokens order = (.error e, p)
      ↔ Grammar.standard.program order (.start file tokens) = .error e p := by
  unfold parse
  rw [show (Parser.ofTokens tokens).record (.reading file) = .start file tokens from rfl]
  cases Grammar.standard.program order (.start file tokens) <;> simp

theorem parse_ok_iff :
    parse file tokens order = (.ok program, p)
      ↔ ∃ q, Grammar.standard.program order (.start file tokens) = .ok program q
        ∧ q.record (.finished file program.attributes.length program.statements.length) = p := by
  unfold parse
  rw [show (Parser.ofTokens tokens).record (.reading file) = .start file tokens from rfl]
  cases Grammar.standard.program order (.start file tokens) with
  | error e q => simp
  | ok other q =>
      simp only [Prod.mk.injEq, Except.ok.injEq, EStateM.Result.ok.injEq]
      constructor
      · rintro ⟨rfl, rfl⟩
        exact ⟨q, ⟨rfl, rfl⟩, rfl⟩
      · rintro ⟨_, ⟨rfl, rfl⟩, rfl⟩
        exact ⟨rfl, rfl⟩

end

end ImpFront
