/-
  ImpFront.Proofs.Grammar.StatementContract
  ─────────────────────────────────────────
  **READING STATEMENTS KEEPS TO THE CONTRACT.**

  One theorem for each rule of statements, from what it is given of the reader
  of inner statements: that this one takes at least one token, leaves open
  what was open, and loses track only with `n` tokens ahead or more.

      reader of inner ones with bound n  →  reader with bound n + 1

  A rule that is started at the end of the tokens takes none, so what a rule
  alone promises is the stride of the token it is started at.
-/
import ImpFront.Proofs.Grammar.ExpressionContract
import ImpFront.Proofs.Grammar.Steps

namespace ImpFront

open Parse

namespace Statement

variable {g : Grammar} {n : Nat} {p : Parser} {statement : Parse Stmt}

/-! ## §1. Blocks. -/

theorem keeps_bodyWithin (inner : ∀ q, Keeps 1 n statement q) (rounds : Nat) (p : Parser) :
    Keeps 0 (min rounds n) (bodyWithin statement rounds) p := by
  induction rounds generalizing p with
  | zero => exact meets_stall (.refl p) (Nat.zero_min n)
  | succ rounds ih =>
      unfold Keeps bodyWithin
      rw [currentKind_bind]
      by_cases closing : p.kind = .closeCurly
      · simp only [closing]
        exact meets_pure (.refl p) _
      · by_cases ending : p.kind = .eof
        · simp only [ending]
          exact meets_unexpected (.refl p) _
        · simp only
          refine Meets.bind ((inner p).behind (.refl p) (by omega)) fun first q hq => ?_
          rw [skipTerminators_bind]
          -- the statement has taken a token, so that one round less is enough
          refine Meets.bind ((ih _).behind hq.pastSeparators (by omega)) fun rest r hr => ?_
          exact meets_pure (hr.weaken (Nat.zero_le _)) _

theorem keeps_block (inner : ∀ q, Keeps 1 n statement q) : Keeps 2 n (block statement) p := by
  unfold Keeps block
  refine Meets.bind (meets_expect (.refl p) (by decide)) fun _ q hq => ?_
  rw [enterBlock_bind, skipTerminators_bind, budget_bind]
  have body := (keeps_bodyWithin inner _ q.inBlock.pastSeparators).of_budget
  refine Meets.bind (body.behind hq.inBlock.pastSeparators (Nat.le_add_right ..))
    fun ss r hr => ?_
  rw [exitBlock_bind]
  refine Meets.bind (meets_expect hr.outOfBlock (by decide)) fun _ u hu => ?_
  exact meets_pure hu _

theorem keeps_framed (inner : ∀ q, Keeps 1 n statement q) (kind : FrameKind) (place : Token) :
    Keeps 2 n (framed statement kind place) p := by
  unfold Keeps framed
  refine Meets.bind (meets_enterScope (.refl p)) fun _ q hq => ?_
  refine Meets.bind ((keeps_block inner).behind hq (Nat.le_add_right ..)) fun body r hr => ?_
  refine Meets.bind (meets_exitScope hr) fun _ u hu => ?_
  exact meets_pure (hu.weaken (Nat.le_add_left ..)) _

/-! ## §2. Conditions and loops. -/

theorem keeps_chainWithin (hg : g.Productive) (inner : ∀ q, Keeps 1 n statement q)
    (rounds : Nat) (p : Parser) :
    Keeps 1 (min rounds (n + 1)) (chainWithin g statement rounds) p := by
  induction rounds generalizing p with
  | zero => exact meets_stall (.refl p) (Nat.zero_min _)
  | succ rounds ih =>
      unfold Keeps chainWithin
      rw [advance_bind]
      have keyword := (Past.refl p).onward
      refine Meets.bind (Grammar.meets_expr hg .lowest keyword) fun condition q hq => ?_
      rw [skipNewlines_bind]
      refine Meets.bind ((keeps_framed inner .conditional _).behind hq.pastLines (by omega))
        fun body r hr => ?_
      rw [skipNewlines_bind, currentKind_bind]
      split
      · rw [advance_bind, skipNewlines_bind]
        have behindElse := hr.pastLines.onward.pastLines
        -- whatever the branch reads, the frame it was opened in lies innermost again
        have leave : ∀ (otherwise : Otherwise) t, Past 1 (p.layout.opened .conditional) p t →
            Meets 1 p.layout (min (rounds + 1) (n + 1)) p
              ((do exitScope .conditional; return (condition, body, otherwise)) t) := by
          intro otherwise t ht
          refine Meets.bind (meets_exitScope ht) fun _ u hu => ?_
          exact meets_pure hu _
        refine Meets.bind (meets_enterScope behindElse) fun _ s hs => ?_
        rw [currentKind_bind]
        split
        · refine Meets.bind ((ih s).behind hs (by omega)) fun link t ht => ?_
          exact leave _ t (ht.weaken (by omega))
        · refine Meets.bind ((keeps_block inner).behind hs (by omega)) fun block t ht => ?_
          exact leave _ t (ht.weaken (by omega))
      -- the line ends are given back, and the body was the last that was read
      · rw [rewind_bind, rewind_pastLines]
        exact meets_pure (hr.weaken (by omega)) _

theorem keeps_conditional (hg : g.Productive) (inner : ∀ q, Keeps 1 n statement q) :
    Keeps 1 (n + 1) (conditional g statement) p := by
  unfold Keeps conditional
  rw [budget_bind]
  refine Meets.bind (keeps_chainWithin hg inner _ p).of_budget fun chain q hq => ?_
  exact meets_pure hq _

theorem keeps_repeatWhile (hg : g.Productive) (inner : ∀ q, Keeps 1 n statement q) :
    Keeps 1 (n + 1) (repeatWhile g statement) p := by
  unfold Keeps repeatWhile
  rw [advance_bind]
  have keyword := (Past.refl p).onward
  refine Meets.bind (Grammar.meets_expr hg .lowest keyword) fun condition q hq => ?_
  rw [skipNewlines_bind]
  refine Meets.bind ((keeps_framed inner .loop _).behind hq.pastLines (by omega))
    fun body r hr => ?_
  exact meets_pure (hr.weaken (by omega)) _

/-! ## §3. Functions. -/

theorem keeps_parametersWithin (rounds : Nat) (p : Parser) :
    Keeps 1 rounds (parametersWithin rounds) p := by
  induction rounds generalizing p with
  | zero => exact meets_stall (.refl p) rfl
  | succ rounds ih =>
      unfold Keeps parametersWithin
      rw [currentKind_bind]
      split
      · next closing =>
        rw [advance_bind]
        exact meets_pure ((Past.refl p).take (by rw [closing]; decide)) _
      · refine Meets.bind (meets_expect (.refl p) (by decide)) fun name q hq => ?_
        refine Meets.bind (meets_expect hq (by decide)) fun _ r hr => ?_
        refine Meets.bind (meets_expect hr (by decide)) fun type s hs => ?_
        refine Meets.bind (meets_define hs) fun _ t ht => ?_
        rw [currentKind_bind, optionalComma_bind]
        dsimp only
        rw [skipNewlines_bind]
        refine Meets.bind ((ih _).behind ht.pastComma.pastLines (by omega)) fun rest u hu => ?_
        exact meets_pure (hu.weaken (by omega)) _

theorem keeps_parameters : Keeps 1 n parameters p := by
  unfold Keeps parameters
  rw [skipNewlines_bind, budget_bind]
  have reader := ((keeps_parametersWithin _ p.pastLines).weaken (Nat.le_refl _)
    (Nat.min_le_left _ n)).of_budget
  exact (reader.behind (Past.refl p).pastLines (Nat.le_refl _)).weaken (by omega) (Nat.le_refl _)

theorem keeps_returnType : Keeps 0 n returnType p := by
  unfold Keeps returnType
  rw [currentKind_bind]
  split
  · next arrow =>
    rw [advance_bind]
    have first := (Past.refl p).take (by rw [arrow]; decide)
    refine Meets.bind (meets_expect first (by decide)) fun type q hq => ?_
    exact meets_pure (hq.weaken (Nat.zero_le _)) _
  · exact meets_pure (.refl p) _

theorem keeps_function (inner : ∀ q, Keeps 1 n statement q) :
    Keeps 1 (n + 1) (function statement) p := by
  unfold Keeps function
  rw [advance_bind]
  have keyword := (Past.refl p).onward
  refine Meets.bind (meets_expect keyword (by decide)) fun name q hq => ?_
  refine Meets.bind (meets_expect hq (by decide)) fun _ r hr => ?_
  refine Meets.bind (meets_enterScope hr) fun _ s hs => ?_
  refine Meets.bind (keeps_parameters.behind hs (Nat.le_add_right ..)) fun parameters t ht => ?_
  refine Meets.bind (keeps_returnType.behind ht (Nat.le_add_right ..)) fun returns u hu => ?_
  rw [skipNewlines_bind]
  refine Meets.bind (meets_define hu.pastLines) fun _ v hv => ?_
  refine Meets.bind ((keeps_block inner).behind hv (by omega)) fun body w hw => ?_
  refine Meets.bind (meets_exitScope hw) fun _ x hx => ?_
  rw [delete_bind]
  refine Meets.bind (meets_define (hx.deleted name.value)) fun _ y hy => ?_
  rw [record_bind]
  exact meets_pure ((hy.record _).weaken (by omega)) _

theorem keeps_giveBack (hg : g.Productive) : Keeps p.stride n (giveBack g) p := by
  unfold Keeps giveBack
  rw [advance_bind, atStatementEnd_bind]
  have keyword := (Past.refl p).next
  split
  · exact meets_pure (keyword.weaken (Nat.le_add_left ..)) _
  · refine Meets.bind (Grammar.meets_expr hg .lowest keyword) fun value q hq => ?_
    exact meets_pure (hq.weaken (by omega)) _

/-! ## §4. Variables. -/

theorem keeps_expectType (expected : BaseType) (value : Expr) (operator : Token) :
    Keeps 0 n (expectType expected value operator) p := by
  unfold Keeps expectType
  split
  · exact meets_pure (.refl p) _
  · exact meets_throw (.refl p) nofun

theorem keeps_declare (hg : g.Productive) : Keeps 1 n (declare g) p := by
  unfold Keeps declare
  rw [advance_bind]
  have keyword := (Past.refl p).onward
  refine Meets.bind (meets_expect keyword (by decide)) fun name q hq => ?_
  refine Meets.bind (meets_expect hq (by decide)) fun _ r hr => ?_
  refine Meets.bind (meets_expect hr (by decide)) fun type s hs => ?_
  rw [atStatementEnd_bind]
  split
  · refine Meets.bind (meets_define hs) fun _ t ht => ?_
    exact meets_pure (ht.weaken (by omega)) _
  · rw [currentKind_bind]
    split
    · rw [advance_bind]
      have sign := hs.next
      refine Meets.bind (Grammar.meets_expr hg .lowest sign) fun value t ht => ?_
      refine Meets.bind ((keeps_expectType _ _ _).behind ht (Nat.le_add_right ..))
        fun _ u hu => ?_
      have bind : ∀ v, Past 1 p.layout p v → Meets 1 p.layout n p
          ((do define ⟨name, type, .variable⟩; return Stmt.declare name type (some value)) v) := by
        intro v hv
        refine Meets.bind (meets_define hv) fun _ w hw => ?_
        exact meets_pure hw _
      have binding := hu.weaken (k := 1) (by omega)
      cases rangeWarning? (.ofName type.value) value with
      | none => exact bind u binding
      | some note => exact bind _ ((binding.record _).warned (some note))
    · exact meets_unexpected hs _

theorem keeps_compoundValue (operator name : Token) (type : BaseType) (value : Expr) :
    Keeps 0 n (compoundValue operator name type value) p := by
  unfold Keeps compoundValue
  cases operator.kind.compoundOperator? with
  | none => exact meets_pure (.refl p) _
  | some applied =>
      cases BaseType.binary? type type with
      | none => exact meets_throw (.refl p) nofun
      | some result => exact meets_pure (.refl p) _

theorem keeps_assign (hg : g.Productive) : Keeps 1 n (assign g) p := by
  unfold Keeps assign
  rw [advance_bind, advance_bind]
  have sign := (Past.refl p).onward.onward
  refine Meets.bind (Grammar.meets_expr hg .lowest sign) fun value q hq => ?_
  rw [scopes_bind]
  cases q.scopes.lookup? p.current.value with
  | none => exact meets_throw hq nofun
  | some symbol =>
      refine Meets.bind ((keeps_expectType _ _ _).behind hq (Nat.le_add_right ..))
        fun _ r hr => ?_
      refine Meets.bind ((keeps_compoundValue _ _ _ _).behind hr (Nat.le_add_right ..))
        fun result s hs => ?_
      exact meets_pure (hs.weaken (by omega)) _

theorem keeps_expression (hg : g.Productive) : Keeps 1 n (expression g) p := by
  unfold Keeps expression
  refine Meets.bind (Grammar.keeps_expr hg .lowest p) fun value q hq => ?_
  exact meets_pure hq _

theorem keeps_identifier (hg : g.Productive) : Keeps 1 n (identifier g) p := by
  unfold Keeps identifier
  rw [peek_bind]
  split
  · exact keeps_assign hg
  · exact keeps_expression hg

/-! ## §5. Attributes. -/

private theorem importedParameter_stage {e : Expr} {error : Error}
    (h : importedParameter e = .error error) : error.cause.stage = .semantic := by
  unfold importedParameter at h
  split at h
  · cases h
  · rw [← Except.error.inj h]
    rfl

private theorem importedParameters_stage {es : List Expr} {error : Error}
    (h : es.mapM importedParameter = .error error) : error.cause.stage = .semantic := by
  induction es with
  | nil => cases h
  | cons e rest ih =>
      rw [List.mapM_cons] at h
      cases he : importedParameter e with
      | error first =>
          rw [he] at h
          cases h
          exact importedParameter_stage he
      | ok parameter =>
          cases hr : rest.mapM importedParameter with
          | error later =>
              rw [he, hr] at h
              cases h
              exact ih hr
          | ok parameters =>
              rw [he, hr] at h
              cases h

theorem keeps_imported (hg : g.Productive) (keyword : Token) :
    Keeps 1 n (imported g keyword) p := by
  unfold Keeps imported
  split
  · exact meets_throw (.refl p) nofun
  · refine Meets.bind ((Expression.keeps_application (Grammar.keeps_expr (n := n) hg) false).behind
      (.refl p) (by omega)) fun applied q hq => ?_
    dsimp only
    cases hm : applied.2.mapM importedParameter with
    | error error =>
        refine meets_throw hq ?_
        rw [importedParameters_stage hm]
        decide
    | ok parameters =>
        refine Meets.bind (keeps_returnType.behind hq (Nat.le_add_right ..))
          fun returns r hr => ?_
        refine Meets.bind (meets_define hr) fun _ s hs => ?_
        rw [record_bind]
        exact meets_pure (hs.record _) _

theorem keeps_attributeValue (hg : g.Productive) (keyword : Token) :
    Keeps 1 n (attributeValue g keyword) p := by
  unfold Keeps attributeValue
  rw [currentKind_bind, peek_bind]
  split
  · refine Meets.bind (keeps_imported hg keyword) fun signature q hq => ?_
    exact meets_pure hq _
  · refine Meets.bind (Grammar.keeps_expr hg .lowest p) fun value q hq => ?_
    exact meets_pure hq _

theorem keeps_attributeEnd : Keeps 0 n attributeEnd p := by
  unfold Keeps attributeEnd
  rw [current_bind]
  by_cases ending : p.current.kind = .newline ∨ p.current.kind = .semicolon
      ∨ p.current.kind = .eof
  · obtain e | e | e := ending
    all_goals
      simp only [e]
      exact meets_pure (.refl p) _
  · rw [not_or, not_or] at ending
    obtain ⟨newline, semicolon, eof⟩ := ending
    simp only
    exact meets_throw (.refl p) nofun

theorem keeps_attributed (hg : g.Productive) : Keeps p.stride n (attributed g) p := by
  unfold Keeps attributed
  rw [advance_bind, atStatementEnd_bind]
  have keyword := (Past.refl p).next
  split
  · exact meets_pure (keyword.weaken (Nat.le_add_left ..)) _
  · refine Meets.bind (meets_enterScope keyword) fun _ q hq => ?_
    refine Meets.bind ((keeps_attributeValue hg _).behind hq (Nat.le_add_right ..))
      fun value r hr => ?_
    refine Meets.bind (keeps_attributeEnd.behind hr (Nat.le_add_right ..)) fun _ s hs => ?_
    refine Meets.bind (meets_exitScope hs) fun _ t ht => ?_
    exact meets_pure (ht.weaken (by omega)) _

/-! ## §6. Any statement. -/

/-- A rule takes the token it is started at, and a statement within it is a
token further on. -/
theorem keeps_ofRule (hg : g.Productive) (inner : ∀ q, Keeps 1 n statement q)
    {rule : StatementRule} (hr : rule ≠ .any) :
    Keeps p.stride (n + 1) (ofRule g statement rule) p := by
  have atMost := p.stride_le_one
  cases rule with
  | conditional => exact (keeps_conditional hg inner).weaken atMost (Nat.le_refl _)
  | repeatWhile => exact (keeps_repeatWhile hg inner).weaken atMost (Nat.le_refl _)
  | leaveLoop => exact (Past.refl p).next.weaken (Nat.le_add_left ..)
  | nextRound => exact (Past.refl p).next.weaken (Nat.le_add_left ..)
  | function => exact (keeps_function inner).weaken atMost (Nat.le_refl _)
  | giveBack => exact keeps_giveBack hg
  | declare => exact (keeps_declare hg).weaken atMost (Nat.le_refl _)
  | identifier => exact (keeps_identifier hg).weaken atMost (Nat.le_refl _)
  | expression => exact (keeps_expression hg).weaken atMost (Nat.le_refl _)
  | «attribute» => exact keeps_attributed hg
  | any => exact (hr rfl).elim

theorem keeps_terminated : Keeps 0 n terminated p := by
  unfold Keeps terminated
  rw [atStatementEnd_bind]
  split
  · exact meets_pure (.refl p) _
  · rw [current_bind]
    exact meets_throw (.refl p) nofun

theorem noStatement_stage (token : Token) : (noStatement token).cause.stage = .syntactic := by
  unfold noStatement
  split <;> rfl

end Statement

/-! ## §7. Statements and files. -/

namespace Grammar

variable {g : Grammar} {n : Nat} {p : Parser}

theorem keeps_statementWithin (hg : g.Productive) (depth : Nat) (p : Parser) :
    Keeps 1 depth (g.statementWithin depth) p := by
  induction depth generalizing p with
  | zero => exact meets_stall (.refl p) rfl
  | succ depth ih =>
      unfold Keeps statementWithin
      rw [current_bind]
      cases hr : g.statementRule? p.current.kind with
      | none =>
          refine meets_throw (.refl p) ?_
          rw [Statement.noStatement_stage]
          decide
      | some rule =>
          have taken : p.stride = 1 := by
            refine p.stride_of_ne_eof fun ending => ?_
            have ending : p.current.kind = .eof := ending
            rw [ending, hg.statement] at hr
            cases hr
          have other : rule ≠ .any := fun same => hg.any _ (same ▸ hr)
          refine Meets.bind (Statement.keeps_ofRule hg ih other) fun stmt q hq => ?_
          rw [taken] at hq
          refine Meets.bind (Statement.keeps_terminated.behind hq (Nat.le_add_right ..))
            fun _ r hr => ?_
          exact meets_pure hr _

/-- **A reader of statements takes a token, or fails on account of the text.** -/
theorem keeps_statement (hg : g.Productive) (p : Parser) : Keeps 1 n g.statement p := by
  unfold Keeps statement
  rw [budget_bind]
  exact ((keeps_statementWithin hg _ p).weaken (Nat.le_refl _) (Nat.min_le_left ..)).of_budget

/-- **A rule by itself closes what it opens**, at whatever token it starts. -/
theorem keeps_statementOf (hg : g.Productive) (rule : StatementRule) (p : Parser) :
    Keeps p.stride n (g.statementOf rule) p := by
  by_cases h : rule = .any
  · rw [h]
    exact (keeps_statement hg p).weaken p.stride_le_one (Nat.le_refl _)
  · exact (Statement.keeps_ofRule hg (keeps_statement hg) h).weaken (Nat.le_refl _)
      (Nat.le_succ n)

theorem append_stage {before : Program} {stmt : Stmt} {error : Error}
    (h : before.append stmt = .error error) : error.cause.stage = .semantic := by
  unfold Program.append at h
  split at h
  · split at h
    · cases h
    · rw [← Except.error.inj h]
      rfl
  · cases h

theorem keeps_statementsWithin (hg : g.Productive) (rounds : Nat) (before : Program)
    (p : Parser) : Keeps 0 rounds (g.statementsWithin rounds before) p := by
  induction rounds generalizing p before with
  | zero => exact meets_stall (.refl p) rfl
  | succ rounds ih =>
      unfold Keeps statementsWithin
      rw [skipTerminators_bind, currentKind_bind]
      have start := (Past.refl p).pastSeparators
      split
      · exact meets_pure start _
      · refine Meets.bind ((keeps_statement hg _).behind start (Nat.le_add_right ..))
          fun stmt q hq => ?_
        cases ha : before.append stmt with
        | error error =>
            refine meets_throw hq ?_
            rw [append_stage ha]
            decide
        | ok longer =>
            have more : ∀ r, Past 1 p.layout p r →
                Meets 0 p.layout (rounds + 1) p (g.statementsWithin rounds longer r) := by
              intro r hr
              exact ((ih longer r).behind hr (Nat.le_refl _)).weaken (Nat.zero_le _)
                (Nat.le_refl _)
            have taken := hq.weaken (k := 1) (by omega)
            cases stmt with
            | «attribute» attached => exact more _ (taken.record _)
            | _ => exact more q taken

/-- **A reader of files leaves nothing open, or fails on account of the text.** -/
theorem keeps_program (hg : g.Productive) (order : Table.Traversal Pending) (p : Parser) :
    Keeps 0 n (g.program order) p := by
  unfold Keeps program
  rw [budget_bind]
  have reader := ((keeps_statementsWithin hg _ .empty p).weaken (Nat.le_refl _)
    (Nat.min_le_left _ n)).of_budget
  refine Meets.bind reader fun program q hq => ?_
  rw [scopes_bind]
  cases h : q.scopes.unresolved? order with
  | none => exact meets_pure hq _
  | some error =>
      refine meets_throw hq ?_
      rw [Scopes.unresolved?_stage h]
      decide

end Grammar

/-! ## §8. Files as a whole. -/

section

variable {file : String} {tokens : List Token} {order : Table.Traversal Pending}
  {program : Program} {e : Error} {p : Parser}

/-- What is known of every file that is refused. -/
theorem tame_of_refused (h : parse file tokens order = (.error e, p)) :
    Tame ((Parser.start file tokens).cursor.remaining + 1) (.start file tokens) e p :=
  (Grammar.keeps_program Grammar.productive_standard order _).tame (parse_error_iff.1 h)

/-- What is known of every file that is accepted. -/
theorem past_of_accepted (h : parse file tokens order = (.ok program, p)) :
    Past 0 ⟨[], 0, 0⟩ (.start file tokens) p := by
  obtain ⟨q, hq, rfl⟩ := parse_ok_iff.1 h
  have reader := Grammar.keeps_program (n := 0) Grammar.productive_standard order
    (.start file tokens)
  exact (reader.past hq).record _

end

end ImpFront
