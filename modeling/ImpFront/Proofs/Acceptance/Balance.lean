/-
  ImpFront.Proofs.Acceptance.Balance
  ──────────────────────────────────
  **WHAT IS OPENED IS CLOSED.**

  Every frame and every block that a reader opens it has closed when it ends
  well.  A frame is left only where it lies innermost, so that the compiler
  never loses track of its own work, whatever the tokens:

      reader ends well   →  frames, level and blocks as before
      parse ends badly   →  the fault is not the compiler's
      parse ends well    →  nothing is open, nothing waits, and the cursor
                            stands on the first end token
-/
import ImpFront.Proofs.Acceptance.Soundness
import ImpFront.Proofs.Grammar.Ending
import ImpFront.Proofs.Grammar.StatementContract

namespace ImpFront

/-! ## §1. Readers that close what they open. -/

/-- Where the step ends well the same constructs are open as before. -/
def Balanced {α : Type} (x : Parse α) : Prop :=
  ∀ p a q, x p = .ok a q → q.layout = p.layout

theorem Keeps.balanced {α : Type} {x : Parse α} {k n : Parser → Nat}
    (h : ∀ p, Keeps (k p) (n p) x p) : Balanced x :=
  fun p _ _ hx => ((h p).past hx).layout

namespace Grammar

/-- Readers of statements and expressions, and every rule and block made of
them, close what they open. -/
structure Balances (g : Grammar) (statement : Parse Stmt) (expr : Precedence → Parse Expr) :
    Prop where
  /-- A rule by itself, at whatever token it is started. -/
  rule : ∀ rule, Balanced (Statement.ofRule g statement rule)
  /-- A block. -/
  block : Balanced (Statement.block statement)
  /-- A statement. -/
  statement : Balanced statement
  /-- An expression. -/
  expr : ∀ limit, Balanced (expr limit)

variable {g : Grammar}

theorem balances (hg : g.Productive) : g.Balances g.statement g.expr where
  rule rule := Keeps.balanced (n := fun _ => 0) (keeps_statementOf hg rule)
  statement := Keeps.balanced (k := fun _ => 1) (n := fun _ => 0) (keeps_statement hg)
  block := Keeps.balanced (k := fun _ => 2) (n := fun _ => 0) fun _ =>
    Statement.keeps_block (keeps_statement hg)
  expr limit := Keeps.balanced (k := fun _ => 1) (n := fun _ => 0) (keeps_expr hg limit)

/-- So do the readers within one another, whatever depth is left to them. -/
theorem balances_within (hg : g.Productive) (depth : Nat) :
    g.Balances (g.statementWithin depth) (g.exprWithin depth) where
  rule rule := by
    by_cases h : rule = .any
    · rw [h]
      exact Keeps.balanced (k := fun _ => 1) (n := fun _ => depth) (keeps_statementWithin hg depth)
    · exact Keeps.balanced (n := fun _ => depth + 1) fun p =>
        Statement.keeps_ofRule hg (keeps_statementWithin hg depth) h
  statement := Keeps.balanced (k := fun _ => 1) (n := fun _ => depth)
    (keeps_statementWithin hg depth)
  block := Keeps.balanced (k := fun _ => 2) (n := fun _ => depth) fun _ =>
    Statement.keeps_block (keeps_statementWithin hg depth)
  expr limit := Keeps.balanced (k := fun _ => 1) (n := fun _ => depth)
    (keeps_exprWithin hg depth limit)

end Grammar

/-! ## §2. Files. -/

section

variable {file : String} {tokens : List Token} {order : Table.Traversal Pending}
  {program : Program} {e : Error} {p : Parser}

/-- Nothing that a text can do makes the compiler lose track. -/
theorem stage_ne_internal_of_refused (h : parse file tokens order = (.error e, p)) :
    e.cause.stage ≠ .internal := by
  intro lost
  have := (tame_of_refused h).bound lost
  omega

/-- An accepted file is read up to its first end token. -/
theorem findIdx?_of_accepted (h : parse file tokens order = (.ok program, p)) :
    (Cursor.ofTokens tokens).tokens.findIdx? (fun token => token.kind = .eof)
      = some p.cursor.index := by
  obtain ⟨read, -⟩ := Grammar.reads_file h
  have clear : p.cursor.Clear := (Cursor.clear_ofTokens tokens).over read.inner
  have same : p.cursor.tokens = (Cursor.ofTokens tokens).tokens := (past_of_accepted h).tokens
  rw [← same]
  exact clear.findIdx?_eq read.ending

/-- What an accepted file leaves behind: nothing is open, no call waits, and
the cursor stands on the first end token. -/
structure Parser.Finished (tokens : List Token) (p : Parser) : Prop where
  /-- No frame is open. -/
  frames : p.scopes.frames = []
  /-- No function is open. -/
  level : p.scopes.level = 0
  /-- No block is open. -/
  blockDepth : p.blockDepth = 0
  /-- No call waits for a definition. -/
  pending : ∀ name, p.scopes.pending? name = none
  /-- The tokens are those of the file. -/
  tokens : p.cursor.tokens = (Cursor.ofTokens tokens).tokens
  /-- The cursor stands on the first end token. -/
  ending : p.cursor.tokens.findIdx? (fun token => token.kind = .eof) = some p.cursor.index

theorem finished_of_accepted (h : parse file tokens order = (.ok program, p)) :
    p.Finished tokens := by
  have past := past_of_accepted h
  have nothing := past.layout
  simp only [Parser.layout, Layout.mk.injEq, List.map_eq_nil_iff] at nothing
  obtain ⟨frames, level, blocks⟩ := nothing
  obtain ⟨-, answered⟩ := Grammar.reads_file h
  exact
    { frames
      level
      blockDepth := blocks
      pending := Scopes.unresolved?_eq_none_iff.1 answered
      tokens := past.tokens
      ending := past.tokens ▸ findIdx?_of_accepted h }

end

/-! ## §3. The language. -/

/-- **What is opened is closed.**  Readers of the language, and those within
them, leave open what was open before; no text makes the compiler lose track
of its own work; an accepted file leaves nothing open and nothing waiting. -/
theorem standard_balanced :
    Grammar.standard.Balances Grammar.standard.statement Grammar.standard.expr
      ∧ (∀ depth, Grammar.standard.Balances (Grammar.standard.statementWithin depth)
          (Grammar.standard.exprWithin depth))
      ∧ (∀ file tokens order e p, parse file tokens order = (.error e, p) →
          e.cause.stage ≠ .internal)
      ∧ ∀ file tokens order program p, parse file tokens order = (.ok program, p) →
          p.Finished tokens := by
  have hg := Grammar.productive_standard
  refine ⟨Grammar.balances hg, Grammar.balances_within hg, ?_, ?_⟩
  · intro file tokens order e p h
    exact stage_ne_internal_of_refused h
  · intro file tokens order program p h
    exact finished_of_accepted h

theorem standard_balanced_calledAhead :
    (parse "" calledAhead).1 = .ok calledAheadTree
      ∧ (parse "" calledAhead).2.Finished calledAhead :=
  ⟨tree_calledAhead, standard_balanced.2.2.2 "" calledAhead _ _ _ parse_calledAhead⟩

end ImpFront
