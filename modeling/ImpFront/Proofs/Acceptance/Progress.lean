/-
  ImpFront.Proofs.Acceptance.Progress
  ───────────────────────────────────
  **READING COMES TO AN END.**

  Every reader that ends well and every round of a loop has moved the cursor
  on, which cannot go on behind the final token.  So no bound is ever used up,
  and the readers compute what the recursion of the rules describes:

      one round   →  cursor strictly further on
      any tokens  →  no reader stalls
      give back   →  cursor right behind the closing brace
      any place   →  the tokens of the file, and none behind the last
-/
import ImpFront.Proofs.Acceptance.Soundness
import ImpFront.Proofs.Grammar.Ending
import ImpFront.Proofs.Grammar.Recursion
import ImpFront.Proofs.Grammar.Visiting

namespace ImpFront

open Parse

/-! ## §1. The place of the cursor. -/

namespace Cursor

variable {c d : Cursor}

theorem index_add_remaining (c : Cursor) : c.index + c.remaining + 1 = c.tokens.length := by
  simp only [index, remaining, tokens, List.length_append, List.length_reverse,
    List.length_singleton]

/-- The cursor never goes on behind the final token, which is an end token. -/
theorem index_le (c : Cursor) : c.index ≤ c.tokens.length - 1 := by
  have := c.index_add_remaining
  omega

theorem getLast?_tokens (c : Cursor) : c.tokens.getLast? = some c.final := by
  simp [tokens]

end Cursor

/-- A step that ends well has moved the cursor on. -/
def Advances {α : Type} (x : Parse α) : Prop :=
  ∀ p a q, x p = .ok a q → p.cursor.index < q.cursor.index

theorem Past.index_lt {l : Layout} {p q : Parser} (h : Past 1 l p q) :
    p.cursor.index < q.cursor.index := by
  have before := p.cursor.index_add_remaining
  have behind := q.cursor.index_add_remaining
  rw [h.tokens] at behind
  have := h.remaining
  omega

theorem Keeps.advances {α : Type} {x : Parse α} {n : Nat} (h : ∀ p, Keeps 1 n x p) :
    Advances x :=
  fun p _ _ hx => ((h p).past hx).index_lt

/-- A closing brace has just been passed. -/
def Parser.BehindBrace (p : Parser) : Prop :=
  ∃ brace : Token, p.cursor.behind.head? = some brace ∧ brace.kind = .closeCurly

/-! ## §2. Rounds. -/

namespace Grammar

variable {g : Grammar} {n : Nat}

theorem keeps_argumentRound (hg : g.Productive) (p : Parser) : Keeps 1 n g.argumentRound p := by
  unfold Keeps argumentRound
  refine Meets.bind (keeps_expr hg .lowest p) fun argument q hq => ?_
  rw [currentKind_bind, optionalComma_bind]
  exact meets_pure hq.pastComma.pastLines _

theorem keeps_parameterRound (p : Parser) : Keeps 1 n Statement.parameterRound p := by
  unfold Keeps Statement.parameterRound
  refine Meets.bind (meets_expect (.refl p) (by decide)) fun name q hq => ?_
  refine Meets.bind (meets_expect hq (by decide)) fun _ r hr => ?_
  refine Meets.bind (meets_expect hr (by decide)) fun type s hs => ?_
  refine Meets.bind (meets_define hs) fun _ t ht => ?_
  rw [currentKind_bind, optionalComma_bind]
  exact meets_pure (ht.pastComma.pastLines.weaken (by omega)) _

theorem keeps_bodyRound (hg : g.Productive) (p : Parser) : Keeps 1 n g.bodyRound p := by
  unfold Keeps bodyRound
  refine Meets.bind (keeps_statement hg p) fun stmt q hq => ?_
  exact meets_pure hq.pastSeparators _

theorem keeps_statementRound (hg : g.Productive) (before : Program) (p : Parser) :
    Keeps 1 n (g.statementRound before) p := by
  unfold Keeps statementRound
  refine Meets.bind (keeps_statement hg p) fun stmt q hq => ?_
  cases ha : before.append stmt with
  | error error => exact meets_throw hq (by rw [append_stage ha]; decide)
  | ok longer =>
      cases stmt with
      | «attribute» attached => exact meets_pure (hq.record _) _
      | _ => exact meets_pure hq _

/-- What moves the cursor on whenever it ends well. -/
structure Advancing (g : Grammar) : Prop where
  /-- An expression. -/
  expr : ∀ limit, Advances (g.expr limit)
  /-- A statement. -/
  statement : Advances g.statement
  /-- A round of the loop over the statements of a file. -/
  statementRound : ∀ before, Advances (g.statementRound before)
  /-- A round of the loop over the statements of a block. -/
  bodyRound : Advances g.bodyRound
  /-- A round of the loop over parameters. -/
  parameterRound : Advances Statement.parameterRound
  /-- A round of the loop over arguments. -/
  argumentRound : Advances g.argumentRound
  /-- A round of the loop over operators. -/
  operatorRound : ∀ left next, Advances (g.operatorRound left next)

theorem advancing (hg : g.Productive) : g.Advancing where
  expr limit := Keeps.advances (n := 0) (keeps_expr hg limit)
  statement := Keeps.advances (n := 0) (keeps_statement hg)
  statementRound before := Keeps.advances (n := 0) (keeps_statementRound hg before)
  bodyRound := Keeps.advances (n := 0) (keeps_bodyRound hg)
  parameterRound := Keeps.advances (n := 0) keeps_parameterRound
  argumentRound := Keeps.advances (n := 0) (keeps_argumentRound hg)
  operatorRound left next := Keeps.advances (n := 0) fun _ =>
    Expression.keeps_binary (keeps_expr hg) left next

/-! ## §3. Bounds that are never used up. -/

/-- The readers solve the recursion of the rules and come to an end, whatever
the tokens and wherever they start. -/
structure Terminating (g : Grammar) : Prop where
  /-- The recursion has no bounds in it. -/
  recursive : g.Recursive
  /-- Expressions come to an end. -/
  expr : ∀ limit p, ¬Stalls (g.expr limit p)
  /-- Statements come to an end. -/
  statement : ∀ p, ¬Stalls (g.statement p)
  /-- Files come to an end. -/
  program : ∀ order p, ¬Stalls (g.program order p)

theorem terminating (hg : g.Productive) : g.Terminating where
  recursive := recursive hg
  expr limit p := (keeps_expr hg limit p).not_stalls (Nat.lt_succ_self _)
  statement p := (keeps_statement hg p).not_stalls (Nat.lt_succ_self _)
  program order p := (keeps_program hg order p).not_stalls (Nat.lt_succ_self _)

/-! ## §4. Line ends that are given back. -/

theorem behindBrace_of_block {statement : Parse Stmt} {p q : Parser} {ss : List Stmt}
    (h : Statement.block statement p = .ok ss q) : q.BehindBrace := by
  simp only [Statement.block, bind_ok_iff, expect_ok_iff, exitBlock_ok_iff, pure_ok_iff] at h
  obtain ⟨_, _, -, _, _, -, _, _, -, _, _, -, body, r, -, _, _, rfl, _, _,
    ⟨closing, -, rfl⟩, -, rfl⟩ := h
  have closing : r.outOfBlock.cursor.current.kind = .closeCurly := closing
  exact ⟨_, Cursor.head?_behind_advance (by rw [closing]; decide), closing⟩

theorem behindBrace_of_framed {statement : Parse Stmt} {kind : FrameKind} {place : Token}
    {p q : Parser} {ss : List Stmt} (h : Statement.framed statement kind place p = .ok ss q) :
    q.BehindBrace := by
  simp only [Statement.framed, bind_ok_iff, pure_ok_iff] at h
  obtain ⟨_, _, -, body, r, hb, _, _, hx, rfl, rfl⟩ := h
  obtain ⟨s, -, left⟩ := exitScope_ok hx
  -- to leave a frame does not move the cursor
  have same : _ = r.cursor := (congrArg Parser.cursor left :)
  obtain ⟨brace, behind, closing⟩ := behindBrace_of_block hb
  exact ⟨brace, same ▸ behind, closing⟩

theorem behindBrace_of_link {p q : Parser} {condition : Expr} {body : List Stmt}
    (h : g.link p = .ok (condition, body) q) : q.BehindBrace := by
  simp only [link, bind_ok_iff, pure_ok_iff] at h
  obtain ⟨_, _, -, _, _, -, _, _, -, _, _, hf, -, rfl⟩ := h
  exact behindBrace_of_framed hf

/-- A chain that does not go on ends where its last body does. -/
theorem chain_of_link (hg : g.Productive) {p q : Parser} {condition : Expr} {body : List Stmt}
    (h : g.link p = .ok (condition, body) q) (last : q.pastLines.kind ≠ .kwElse) :
    g.chain p = .ok (condition, body, .nothing) q := by
  rw [(recursive hg).chain]
  refine bind_ok_iff.2 ⟨_, q, h, ?_⟩
  dsimp only
  rw [skipNewlines_bind, currentKind_bind, if_neg last, rewind_bind, rewind_pastLines]
  rfl

end Grammar

/-! ## §5. Places in a file. -/

/-- The parser stands among the tokens, not behind the last of them, which is
an end token. -/
structure Parser.StandsAmong (p : Parser) (stream : List Token) : Prop where
  /-- The tokens are those of the parser. -/
  tokens : p.cursor.tokens = stream
  /-- The cursor is at the last one at most. -/
  index : p.cursor.index ≤ stream.length - 1
  /-- The last one is an end token. -/
  ending : ∃ last ∈ stream.getLast?, last.kind = .eof

theorem Parser.standsAmong {p : Parser} {stream : List Token} (h : p.cursor.tokens = stream) :
    p.StandsAmong stream := by
  subst h
  exact ⟨rfl, p.cursor.index_le, p.cursor.final, p.cursor.getLast?_tokens, p.cursor.final_kind⟩

theorem tokens_of_parse {file : String} {tokens : List Token} {order : Table.Traversal Pending}
    {result : Except Error Program} {p : Parser} (h : parse file tokens order = (result, p)) :
    p.cursor.tokens = (Cursor.ofTokens tokens).tokens := by
  cases result with
  | error e => exact (tame_of_refused h).tokens
  | ok program => exact (past_of_accepted h).tokens

theorem Heads.cursor_tokens {p r : Parser} {signature : Signature} (h : Heads p signature r) :
    r.cursor.tokens = p.cursor.tokens := by
  cases h with
  | intro _ _ _ _ parameters returns _ =>
      have returns := returns.tokens.trans parameters.tokens
      simpa only [Parser.cursor_withScopes, Parser.tokens_pastLines, Parser.tokens_next]
        using returns

/-- Wherever reading comes by the tokens are those of the file. -/
theorem Visits.cursor_tokens {tokens : List Token} {place : Place} {p : Parser}
    (h : Visits tokens place p) : p.cursor.tokens = (Cursor.ofTokens tokens).tokens := by
  induction h with
  | start => rfl
  | first _ _ ih => rwa [Parser.tokens_pastSeparators]
  | behind _ _ read ih => rwa [read.tokens, Parser.tokens_pastSeparators]
  | opening _ _ ih =>
      rwa [Parser.tokens_pastSeparators, Parser.cursor_inBlock, Parser.tokens_next]
  | inner _ _ _ ih => exact ih
  | behindInner _ _ _ read ih => rwa [Parser.tokens_pastSeparators, read.tokens]
  | function _ head ih => rwa [head.cursor_tokens]
  | loop _ _ condition _ ih | link _ condition _ ih =>
      rwa [Parser.cursor_withScopes, Parser.tokens_pastLines, condition.tokens,
        Parser.tokens_next]
  | conditional _ _ ih => exact ih
  | otherwise _ condition body _ _ _ ih | nextLink _ condition body _ _ _ ih =>
      rwa [Parser.cursor_withScopes, Parser.tokens_pastLines, Parser.tokens_next,
        Parser.tokens_pastLines, body.tokens, Parser.tokens_pastLines, condition.tokens,
        Parser.tokens_next]

/-! ## §6. The language. -/

/-- **Reading comes to an end.**  The readers of the language compute what its
rules describe and never stall; each of them and each round of their loops
moves the cursor on; line ends are given back only up to the closing brace;
and wherever reading comes by and wherever it stops, the cursor stands among
the tokens of the file, the last of which is an end token. -/
theorem standard_progresses :
    Grammar.standard.Terminating
      ∧ (∀ file tokens order e p, parse file tokens order = (.error e, p) →
          e.cause ≠ .stalled)
      ∧ Grammar.standard.Advancing
      ∧ (∀ p condition body q, Grammar.standard.link p = .ok (condition, body) q →
          q.BehindBrace ∧ (q.pastLines.kind ≠ .kwElse →
            Grammar.standard.chain p = .ok (condition, body, .nothing) q))
      ∧ (∀ tokens place p, Visits tokens place p → p.StandsAmong (Cursor.ofTokens tokens).tokens)
      ∧ ∀ file tokens order result p, parse file tokens order = (result, p) →
          p.StandsAmong (Cursor.ofTokens tokens).tokens := by
  have hg := Grammar.productive_standard
  refine ⟨Grammar.terminating hg, ?_, Grammar.advancing hg, ?_, ?_, ?_⟩
  · intro file tokens order e p h stalled
    have := (tame_of_refused h).bound (by rw [stalled]; rfl)
    omega
  · intro p condition body q h
    exact ⟨Grammar.behindBrace_of_link h, Grammar.chain_of_link hg h⟩
  · intro tokens place p h
    exact Parser.standsAmong h.cursor_tokens
  · intro file tokens order result p h
    exact Parser.standsAmong (tokens_of_parse h)

/-- `if true {}`, two line ends and a name. -/
def conditionAlone : List Token :=
  [word 0 .kwIf "if", word 3 .boolean "true", word 8 .openCurly "\x7b",
    word 9 .closeCurly "\x7d", word 10 .newline "\n", word 11 .newline "\n",
    word 12 .identifier "x"]

/-- The line ends behind that condition are given back. -/
theorem standard_progresses_conditionAlone :
    ∃ q, Grammar.standard.link (.ofTokens conditionAlone)
        = .ok (.literal (word 3 .boolean "true") .boolean, []) q
      ∧ q.cursor.index = 4 ∧ q.pastLines.cursor.index = 6 ∧ q.BehindBrace
      ∧ Grammar.standard.chain (.ofTokens conditionAlone)
          = .ok (.literal (word 3 .boolean "true") .boolean, [], .nothing) q := by
  obtain ⟨q, hq, last, here, ahead⟩ : ∃ q, Grammar.standard.link (.ofTokens conditionAlone)
        = .ok (.literal (word 3 .boolean "true") .boolean, []) q
      ∧ q.pastLines.kind ≠ .kwElse ∧ q.cursor.index = 4 ∧ q.pastLines.cursor.index = 6 :=
    ⟨_, rfl, by decide, rfl, rfl⟩
  obtain ⟨brace, chain⟩ := standard_progresses.2.2.2.1 _ _ _ q hq
  exact ⟨q, hq, here, ahead, brace, chain last⟩

end ImpFront
