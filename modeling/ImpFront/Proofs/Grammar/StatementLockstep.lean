/-
  ImpFront.Proofs.Grammar.StatementLockstep
  ─────────────────────────────────────────
  **READING STATEMENTS AND FILES SIDE BY SIDE.**

  One theorem for each rule of statements, from what it is given of the
  readers of inner statements on both sides.

      inner readers in step  →  rule in step

  Line ends that were passed over behind a body are given back on both sides,
  whatever their number, so that the chain ends where the body did.
-/
import ImpFront.Proofs.Grammar.ExpressionLockstep

namespace ImpFront

open Parse

namespace Lockstep

variable (R : Lockstep)

/-- Two statements that differ in their places alone. -/
structure LikeStmt (s s' : Stmt) : Prop where
  /-- Without places they are the same. -/
  placeless : s.placeless = s'.placeless
  /-- Attributes stand at tokens that are alike. -/
  attached : Option.Rel (fun a a' => R.token a.token a'.token) s.attached? s'.attached?

/-- Two chains of conditions that differ in their places alone. -/
structure LikeChain (chain chain' : Expr × List Stmt × Otherwise) : Prop where
  /-- The first condition. -/
  condition : chain.1.placeless = chain'.1.placeless
  /-- Its body. -/
  body : placelessOfAll chain.2.1 = placelessOfAll chain'.2.1
  /-- The rest of the chain. -/
  otherwise : chain.2.2.placeless = chain'.2.2.placeless

/-- Two signatures that differ in their places alone. -/
structure LikeSignature (signature signature' : Signature) : Prop where
  /-- The functions have names that are alike. -/
  name : R.token signature.name signature'.name
  /-- Without places they are the same. -/
  placeless : signature.placeless = signature'.placeless

/-- Two bodies that differ in their places alone. -/
def LikeBody (body body' : List Stmt) : Prop :=
  placelessOfAll body = placelessOfAll body'

/-- Two readers of statements are in step wherever they start alike. -/
def LikeStatements (statement statement' : Parse Stmt) : Prop :=
  ∀ p q, R.LikeParser p q → R.InStep R.LikeStmt (statement p) (statement' q)

variable {R} {g : Grammar} {statement statement' : Parse Stmt} {p q : Parser}

/-- Statements of any sort but one hold no attribute. -/
theorem likeStmt_of_plain {s s' : Stmt} (placeless : s.placeless = s'.placeless)
    (plain : s.attached? = none) : R.LikeStmt s s' := by
  refine ⟨placeless, ?_⟩
  have plain' : s'.attached? = none := by
    have same := Stmt.attached?_congr placeless
    rw [plain] at same
    exact Option.map_eq_none_iff.1 same.symm
  rw [plain, plain']
  exact .none

theorem LikeSignature.symbol {signature signature' : Signature}
    (h : R.LikeSignature signature signature') :
    R.LikeSymbol signature.symbol signature'.symbol :=
  ⟨h.name, Signature.symbol_congr h.placeless⟩

/-! ## §1. Blocks. -/

theorem inStep_bodyWithin (inner : R.LikeStatements statement statement')
    {rounds rounds' : Nat} (h : R.LikeParser p q) :
    R.InStep LikeBody (Statement.bodyWithin statement rounds p)
      (Statement.bodyWithin statement' rounds' q) := by
  induction rounds generalizing rounds' p q with
  | zero => exact inStep_stall _
  | succ rounds ih =>
      cases rounds' with
      | zero => exact inStep_stall' _
      | succ rounds' =>
          unfold Statement.bodyWithin
          rw [currentKind_bind, currentKind_bind, ← h.kind]
          by_cases closing : p.kind = .closeCurly
          · simp only [closing]
            exact inStep_pure h rfl
          · by_cases ending : p.kind = .eof
            · simp only [ending]
              exact inStep_unexpected h _
            · simp only
              refine .bind (inner p q h) fun first first' r s like hr => ?_
              rw [skipTerminators_bind, skipTerminators_bind]
              refine .bind (ih hr.pastSeparators) fun rest rest' t u more ht => ?_
              refine inStep_pure ht ?_
              show first.placeless :: placelessOfAll rest = first'.placeless :: placelessOfAll rest'
              rw [like.placeless, more]

theorem inStep_block (inner : R.LikeStatements statement statement') (h : R.LikeParser p q) :
    R.InStep LikeBody (Statement.block statement p) (Statement.block statement' q) := by
  unfold Statement.block
  refine .bind (inStep_expect h (by decide)) fun _ _ r s _ hr => ?_
  rw [enterBlock_bind, skipTerminators_bind, budget_bind,
    enterBlock_bind, skipTerminators_bind, budget_bind]
  refine .bind (inStep_bodyWithin inner hr.inBlock.pastSeparators) fun body body' t u like ht => ?_
  rw [exitBlock_bind, exitBlock_bind]
  refine .bind (inStep_expect ht.outOfBlock (by decide)) fun _ _ v w _ hv => ?_
  exact inStep_pure hv like

theorem inStep_framed (inner : R.LikeStatements statement statement') (kind : FrameKind)
    {place place' : Token} (places : R.token place place') (h : R.LikeParser p q) :
    R.InStep LikeBody (Statement.framed statement kind place p)
      (Statement.framed statement' kind place' q) := by
  unfold Statement.framed
  refine .bind (inStep_enterScope h places) fun _ _ r s _ hr => ?_
  refine .bind (inStep_block inner hr) fun body body' t u like ht => ?_
  refine .bind (inStep_exitScope ht kind) fun _ _ v w _ hv => ?_
  exact inStep_pure hv like

/-! ## §2. Conditions and loops. -/

theorem inStep_chainWithin (hg : g.Inline) (inner : R.LikeStatements statement statement')
    {rounds rounds' : Nat} (h : R.LikeParser p q) (inline : p.kind ≠ .newline) :
    R.InStep LikeChain (Statement.chainWithin g statement rounds p)
      (Statement.chainWithin g statement' rounds' q) := by
  induction rounds generalizing rounds' p q with
  | zero => exact inStep_stall _
  | succ rounds ih =>
      cases rounds' with
      | zero => exact inStep_stall' _
      | succ rounds' =>
          unfold Statement.chainWithin
          rw [advance_bind, advance_bind]
          have keyword := h.current
          refine .bind (inStep_expr hg .lowest _ _ (h.next inline))
            fun condition condition' r s likeCondition hr => ?_
          rw [skipNewlines_bind, skipNewlines_bind]
          refine .bind (inStep_framed inner .conditional keyword hr.pastLines)
            fun body body' t u likeBody ht => ?_
          rw [skipNewlines_bind, skipNewlines_bind, currentKind_bind, currentKind_bind,
            ← ht.pastLines.kind]
          split
          · next another =>
            rw [advance_bind, skipNewlines_bind, advance_bind, skipNewlines_bind]
            have atElse : t.pastLines.kind ≠ .newline := by rw [another]; decide
            -- whatever the branch reads, the frame it was opened in is left the same way
            have leave : ∀ (otherwise otherwise' : Otherwise) v w, R.LikeParser v w →
                otherwise.placeless = otherwise'.placeless →
                R.InStep LikeChain
                  ((do exitScope .conditional; return (condition, body, otherwise)) v)
                  ((do exitScope .conditional; return (condition', body', otherwise')) w) := by
              intro otherwise otherwise' v w hv like
              refine .bind (inStep_exitScope hv .conditional) fun _ _ x y _ hx => ?_
              exact inStep_pure hx ⟨likeCondition.placeless, likeBody, like⟩
            refine .bind (inStep_enterScope (ht.pastLines.next atElse).pastLines
              ht.pastLines.current) fun _ _ v w _ hv => ?_
            rw [currentKind_bind, currentKind_bind, ← hv.kind]
            split
            · next link =>
              refine .bind (ih hv (by rw [link]; decide)) fun chain chain' x y like hx => ?_
              refine leave _ _ x y hx ?_
              unfold Otherwise.placeless
              rw [like.condition, like.body, like.otherwise]
            · refine .bind (inStep_block inner hv) fun block block' x y like hx => ?_
              refine leave _ _ x y hx ?_
              unfold Otherwise.placeless
              rw [like]
          · rw [rewind_bind, rewind_pastLines, rewind_bind, rewind_pastLines]
            exact inStep_pure ht ⟨likeCondition.placeless, likeBody, rfl⟩

theorem inStep_conditional (hg : g.Inline) (inner : R.LikeStatements statement statement')
    (h : R.LikeParser p q) (inline : p.kind ≠ .newline) :
    R.InStep R.LikeStmt (Statement.conditional g statement p)
      (Statement.conditional g statement' q) := by
  unfold Statement.conditional
  rw [budget_bind, budget_bind]
  refine .bind (inStep_chainWithin hg inner h inline) fun chain chain' r s like hr => ?_
  refine inStep_pure hr (likeStmt_of_plain ?_ rfl)
  unfold Stmt.placeless
  rw [like.condition, like.body, like.otherwise]

theorem inStep_repeatWhile (hg : g.Inline) (inner : R.LikeStatements statement statement')
    (h : R.LikeParser p q) (inline : p.kind ≠ .newline) :
    R.InStep R.LikeStmt (Statement.repeatWhile g statement p)
      (Statement.repeatWhile g statement' q) := by
  unfold Statement.repeatWhile
  rw [advance_bind, advance_bind]
  have keyword := h.current
  refine .bind (inStep_expr hg .lowest _ _ (h.next inline))
    fun condition condition' r s likeCondition hr => ?_
  rw [skipNewlines_bind, skipNewlines_bind]
  refine .bind (inStep_framed inner .loop keyword hr.pastLines)
    fun body body' t u likeBody ht => ?_
  refine inStep_pure ht (likeStmt_of_plain ?_ rfl)
  unfold Stmt.placeless
  rw [likeCondition.placeless, likeBody]

/-! ## §3. Functions. -/

/-- A name in each file, and the tokens that declare the names. -/
theorem likeSymbol_of_tokens {name name' declared declared' : Token} (names : R.token name name')
    (types : R.token declared declared') (kind : SymbolKind) :
    R.LikeSymbol ⟨name, declared, kind⟩ ⟨name', declared', kind⟩ := by
  refine ⟨names, ?_⟩
  unfold Symbol.placeless
  rw [R.placeless names, R.placeless types]

theorem inStep_parametersWithin {rounds rounds' : Nat} (h : R.LikeParser p q) :
    R.InStep (fun ps ps' => ps.map Parameter.placeless = ps'.map Parameter.placeless)
      (Statement.parametersWithin rounds p) (Statement.parametersWithin rounds' q) := by
  induction rounds generalizing rounds' p q with
  | zero => exact inStep_stall _
  | succ rounds ih =>
      cases rounds' with
      | zero => exact inStep_stall' _
      | succ rounds' =>
          unfold Statement.parametersWithin
          rw [currentKind_bind, currentKind_bind, ← h.kind]
          split
          · next closing =>
            rw [advance_bind, advance_bind]
            exact inStep_pure (h.next (by rw [closing]; decide)) rfl
          · refine .bind (inStep_expect h (by decide)) fun name name' r s both hr => ?_
            obtain ⟨names, -⟩ := both
            refine .bind (inStep_expect hr (by decide)) fun _ _ t u _ ht => ?_
            refine .bind (inStep_expect ht (by decide)) fun type type' v w both hv => ?_
            obtain ⟨types, -⟩ := both
            refine .bind (inStep_define hv (likeSymbol_of_tokens names types .parameter))
              fun _ _ x y _ hx => ?_
            rw [currentKind_bind, optionalComma_bind, currentKind_bind, optionalComma_bind]
            dsimp only
            rw [skipNewlines_bind, skipNewlines_bind]
            refine .bind (ih hx.pastComma.pastLines) fun rest rest' _ _ more hz => ?_
            refine inStep_pure hz ?_
            rw [List.map_cons, List.map_cons, more]
            unfold Parameter.placeless
            rw [Option.map_some, Option.map_some, R.placeless names, R.placeless types]

theorem inStep_parameters (h : R.LikeParser p q) :
    R.InStep (fun ps ps' => ps.map Parameter.placeless = ps'.map Parameter.placeless)
      (Statement.parameters p) (Statement.parameters q) := by
  unfold Statement.parameters
  rw [skipNewlines_bind, budget_bind, skipNewlines_bind, budget_bind]
  exact inStep_parametersWithin h.pastLines

theorem inStep_returns (h : R.LikeParser p q) :
    R.InStep (fun type type' => type.map Token.placeless = type'.map Token.placeless)
      (Statement.returnType p) (Statement.returnType q) := by
  unfold Statement.returnType
  rw [currentKind_bind, currentKind_bind, ← h.kind]
  split
  · next arrow =>
    rw [advance_bind, advance_bind]
    refine .bind (inStep_expect (h.next (by rw [arrow]; decide)) (by decide))
      fun type type' r s both hr => ?_
    obtain ⟨types, -⟩ := both
    exact inStep_pure hr (congrArg some (R.placeless types))
  · exact inStep_pure h rfl

theorem likeSignature_of_parts {keyword keyword' name name' : Token}
    {parameters parameters' : List Parameter} {returns returns' : Option Token}
    (keywords : R.token keyword keyword') (names : R.token name name')
    (likeParameters : parameters.map Parameter.placeless = parameters'.map Parameter.placeless)
    (likeReturns : returns.map Token.placeless = returns'.map Token.placeless) :
    R.LikeSignature ⟨keyword, name, parameters, returns⟩
      ⟨keyword', name', parameters', returns'⟩ := by
  refine ⟨names, ?_⟩
  unfold Signature.placeless
  rw [R.placeless keywords, R.placeless names, likeParameters, likeReturns]

theorem inStep_function (inner : R.LikeStatements statement statement') (h : R.LikeParser p q)
    (inline : p.kind ≠ .newline) :
    R.InStep R.LikeStmt (Statement.function statement p) (Statement.function statement' q) := by
  unfold Statement.function
  rw [advance_bind, advance_bind]
  have keyword := h.current
  refine .bind (inStep_expect (h.next inline) (by decide)) fun name name' r s both hr => ?_
  obtain ⟨names, -⟩ := both
  refine .bind (inStep_expect hr (by decide)) fun _ _ t u _ ht => ?_
  refine .bind (inStep_enterScope ht keyword) fun _ _ v w _ hv => ?_
  refine .bind (inStep_parameters hv) fun parameters parameters' x y likeParameters hx => ?_
  refine .bind (inStep_returns hx) fun returns returns' z a likeReturns hz => ?_
  rw [skipNewlines_bind, skipNewlines_bind]
  have signatures := likeSignature_of_parts keyword names likeParameters likeReturns
  -- the name is bound in the function's own frame, and again outside
  refine .bind (inStep_define hz.pastLines signatures.symbol) fun _ _ b c _ hb => ?_
  refine .bind (inStep_block inner hb) fun body body' d e likeBody hd => ?_
  refine .bind (inStep_exitScope hd .function) fun _ _ i j _ hi => ?_
  rw [delete_bind, delete_bind, ← R.value names]
  refine .bind (inStep_define (likeParser_deleted hi name.value) signatures.symbol)
    fun _ _ k l _ hk => ?_
  rw [record_bind, record_bind]
  refine inStep_pure (hk.record _ _) (likeStmt_of_plain ?_ rfl)
  unfold Stmt.placeless
  rw [signatures.placeless, likeBody]

theorem inStep_giveBack (hg : g.Inline) (h : R.LikeParser p q) (inline : p.kind ≠ .newline) :
    R.InStep R.LikeStmt (Statement.giveBack g p) (Statement.giveBack g q) := by
  unfold Statement.giveBack
  have keyword := h.current
  have behind := h.next inline
  rw [advance_bind, atStatementEnd_bind, advance_bind, atStatementEnd_bind,
    ← behind.atStatementEnd]
  split
  · refine inStep_pure behind (likeStmt_of_plain ?_ rfl)
    unfold Stmt.placeless
    rw [R.placeless keyword]
    rfl
  · refine .bind (inStep_expr hg .lowest _ _ behind) fun value value' r s like hr => ?_
    refine inStep_pure hr (likeStmt_of_plain ?_ rfl)
    unfold Stmt.placeless
    rw [R.placeless keyword, like.placeless]

/-! ## §4. Variables. -/

theorem inStep_expectType (expected : BaseType) {value value' : Expr} {operator operator' : Token}
    (likeValue : R.LikeExpr value value') (operators : R.token operator operator')
    (h : R.LikeParser p q) :
    R.InStep Any (Statement.expectType expected value operator p)
      (Statement.expectType expected value' operator' q) := by
  unfold Statement.expectType
  rw [← Expr.base?_congr likeValue.placeless]
  split
  · exact inStep_pure h trivial
  · exact inStep_throw h (R.likeError_blame operators _)

/-- A variable with or without a value is bound. -/
theorem inStep_declared {name name' type type' : Token} (names : R.token name name')
    (types : R.token type type') {value value' : Option Expr}
    (same : value.map Expr.placeless = value'.map Expr.placeless) (h : R.LikeParser p q) :
    R.InStep R.LikeStmt
      ((do define ⟨name, type, .variable⟩; return Stmt.declare name type value) p)
      ((do define ⟨name', type', .variable⟩; return Stmt.declare name' type' value') q) := by
  refine .bind (inStep_define h (likeSymbol_of_tokens names types .variable))
    fun _ _ r s _ hr => ?_
  refine inStep_pure hr (likeStmt_of_plain ?_ rfl)
  unfold Stmt.placeless
  rw [R.placeless names, R.placeless types, same]

theorem inStep_declare (hg : g.Inline) (h : R.LikeParser p q) (inline : p.kind ≠ .newline) :
    R.InStep R.LikeStmt (Statement.declare g p) (Statement.declare g q) := by
  unfold Statement.declare
  rw [advance_bind, advance_bind]
  refine .bind (inStep_expect (h.next inline) (by decide)) fun name name' r s both hr => ?_
  obtain ⟨names, -⟩ := both
  refine .bind (inStep_expect hr (by decide)) fun _ _ t u _ ht => ?_
  refine .bind (inStep_expect ht (by decide)) fun type type' v w both hv => ?_
  obtain ⟨types, -⟩ := both
  rw [atStatementEnd_bind, atStatementEnd_bind, ← hv.atStatementEnd]
  split
  · exact inStep_declared names types rfl hv
  · rw [currentKind_bind, currentKind_bind, ← hv.kind]
    split
    · next assigned =>
      rw [advance_bind, advance_bind]
      have sign := hv.current
      refine .bind (inStep_expr hg .lowest _ _ (hv.next (by rw [assigned]; decide)))
        fun value value' x y like hx => ?_
      dsimp only
      rw [← R.value types]
      refine .bind (inStep_expectType _ like sign hx) fun _ _ a b _ ha => ?_
      have values : (some value).map Expr.placeless = (some value').map Expr.placeless :=
        congrArg some like.placeless
      have warnings := Statement.rangeWarning?_congr (.ofName type.value) like.placeless
      cases hn : Statement.rangeWarning? (.ofName type.value) value with
      | none =>
          rw [hn] at warnings
          rw [Option.map_eq_none_iff.1 warnings.symm]
          exact inStep_declared names types values ha
      | some note =>
          rw [hn] at warnings
          obtain ⟨note', hn', same⟩ := Option.map_eq_some_iff.1 warnings.symm
          rw [hn']
          have texts : (some note).map Note.message = (some note').map Note.message :=
            congrArg some same.symm
          exact inStep_declared names types values ((ha.record _ _).warned texts)
    · exact inStep_unexpected hv _

theorem inStep_compoundValue {operator operator' name name' : Token} (type : BaseType)
    {value value' : Expr} (operators : R.token operator operator') (names : R.token name name')
    (likeValue : R.LikeExpr value value') (h : R.LikeParser p q) :
    R.InStep (fun e e' => e.placeless = e'.placeless)
      (Statement.compoundValue operator name type value p)
      (Statement.compoundValue operator' name' type value' q) := by
  unfold Statement.compoundValue
  rw [← R.kind operators]
  cases operator.kind.compoundOperator? with
  | none => exact inStep_pure h likeValue.placeless
  | some applied =>
      cases BaseType.binary? type type with
      | none =>
          dsimp only
          rw [← R.value operators]
          exact inStep_throw h (R.likeError_blame operators _)
      | some result =>
          refine inStep_pure h ?_
          unfold Expr.placeless
          rw [R.placeless operators, likeValue.placeless, (likeExpr_reference names type).placeless]

theorem inStep_assign (hg : g.Inline) (h : R.LikeParser p q) (inline : p.kind ≠ .newline)
    (behind : p.next.kind ≠ .newline) :
    R.InStep R.LikeStmt (Statement.assign g p) (Statement.assign g q) := by
  unfold Statement.assign
  have name := h.current
  have sign := (h.next inline).current
  rw [advance_bind, advance_bind, advance_bind, advance_bind]
  refine .bind (inStep_expr hg .lowest _ _ ((h.next inline).next behind))
    fun value value' r s like hr => ?_
  rw [scopes_bind, scopes_bind, ← R.value name]
  obtain ⟨hn, hn'⟩ | ⟨found, found', hs, hs', symbols⟩ :=
    cases_of_rel (hr.scopes.lookup? p.current.value)
  · rw [hn, hn']
    exact inStep_throw hr (R.likeError_blame name _)
  · rw [hs, hs']
    dsimp only
    rw [← Symbol.declaredBase_congr symbols.placeless]
    refine .bind (inStep_expectType _ like sign hr) fun _ _ t u _ ht => ?_
    refine .bind (inStep_compoundValue _ sign name like ht) fun result result' v w same hv => ?_
    refine inStep_pure hv (likeStmt_of_plain ?_ rfl)
    unfold Stmt.placeless
    rw [R.placeless name, same]

theorem inStep_expression (hg : g.Inline) (h : R.LikeParser p q) :
    R.InStep R.LikeStmt (Statement.expression g p) (Statement.expression g q) := by
  unfold Statement.expression
  refine .bind (inStep_expr hg .lowest p q h) fun value value' r s like hr => ?_
  refine inStep_pure hr (likeStmt_of_plain ?_ rfl)
  unfold Stmt.placeless
  rw [like.placeless]

theorem inStep_named (hg : g.Inline) (h : R.LikeParser p q) (inline : p.kind ≠ .newline) :
    R.InStep R.LikeStmt (Statement.identifier g p) (Statement.identifier g q) := by
  unfold Statement.identifier
  rw [peek_bind, peek_bind, ← h.peek inline]
  split
  · next assigned =>
    refine inStep_assign hg h inline fun line => ?_
    rw [← Cursor.current_advance] at assigned
    have line : p.cursor.advance.current.kind = .newline := line
    rw [line] at assigned
    cases assigned
  · exact inStep_expression hg h

/-! ## §5. Attributes. -/

theorem importedParameter_eq (e : Expr) :
    Statement.importedParameter e = match e.name? with
      | some name => .ok ⟨none, name⟩
      | none => .error (.blame (.expectedArgumentType e.token.value) e.token) := by
  cases e <;> rfl

/-- The arguments of an imported function all declare parameters, or the first
that does not is to blame. -/
theorem importedParameters_alike {es es' : List Expr} (h : List.Forall₂ R.LikeExpr es es') :
    (∃ ps ps', es.mapM Statement.importedParameter = .ok ps
        ∧ es'.mapM Statement.importedParameter = .ok ps'
        ∧ ps.map Parameter.placeless = ps'.map Parameter.placeless)
      ∨ ∃ e e', es.mapM Statement.importedParameter = .error e
        ∧ es'.mapM Statement.importedParameter = .error e' ∧ R.LikeError e e' := by
  induction h with
  | nil => exact .inl ⟨[], [], rfl, rfl, rfl⟩
  | @cons e e' _ _ he _ ih =>
      rw [List.mapM_cons, List.mapM_cons, importedParameter_eq, importedParameter_eq]
      have names := Expr.name?_congr he.placeless
      cases hn : e.name? with
      | none =>
          rw [hn] at names
          rw [Option.map_eq_none_iff.1 names.symm, ← R.value he.token]
          exact .inr ⟨_, _, rfl, rfl, R.likeError_blame he.token _⟩
      | some name =>
          rw [hn] at names
          obtain ⟨name', hn', same⟩ := Option.map_eq_some_iff.1 names.symm
          rw [hn']
          obtain ⟨ps, ps', hp, hp', likeRest⟩ | ⟨f, f', hf, hf', errors⟩ := ih
          · rw [hp, hp']
            refine .inl ⟨_, _, rfl, rfl, ?_⟩
            rw [List.map_cons, List.map_cons, likeRest]
            unfold Parameter.placeless
            rw [same]
          · rw [hf, hf']
            exact .inr ⟨_, _, rfl, rfl, errors⟩

theorem inStep_imported (hg : g.Inline) {keyword keyword' : Token}
    (keywords : R.token keyword keyword') (h : R.LikeParser p q) :
    R.InStep (fun s s' => s.placeless = s'.placeless) (Statement.imported g keyword p)
      (Statement.imported g keyword' q) := by
  unfold Statement.imported
  rw [← R.value keywords]
  split
  · exact inStep_throw h (R.likeError_blame keywords _)
  · refine .bind (inStep_application (inStep_expr hg) false h)
      fun applied applied' r s both hr => ?_
    obtain ⟨names, arguments⟩ := both
    dsimp only
    obtain ⟨ps, ps', hp, hp', likeParameters⟩ | ⟨e, e', he, he', errors⟩ :=
      importedParameters_alike arguments
    · rw [hp, hp']
      refine .bind (inStep_returns hr) fun returns returns' t u likeReturns ht => ?_
      have signatures := likeSignature_of_parts keywords names likeParameters likeReturns
      refine .bind (inStep_define ht signatures.symbol) fun _ _ v w _ hv => ?_
      rw [record_bind, record_bind]
      exact inStep_pure (hv.record _ _) signatures.placeless
    · rw [he, he']
      exact inStep_throw hr errors

theorem inStep_attributeValue (hg : g.Inline) {keyword keyword' : Token}
    (keywords : R.token keyword keyword') (h : R.LikeParser p q) :
    R.InStep (fun v v' => v.placeless = v'.placeless) (Statement.attributeValue g keyword p)
      (Statement.attributeValue g keyword' q) := by
  unfold Statement.attributeValue
  rw [currentKind_bind, peek_bind, currentKind_bind, peek_bind, ← h.kind]
  -- what comes behind a name is compared, and nothing is behind a line end
  have same : (p.kind = .identifier && (p.cursor.peek 1).kind = .openParen)
      = (p.kind = .identifier && (q.cursor.peek 1).kind = .openParen) := by
    by_cases name : p.kind = .identifier
    · rw [h.peek (by rw [name]; decide)]
    · simp [name]
  rw [← same]
  split
  · refine .bind (inStep_imported hg keywords h) fun signature signature' r s like hr => ?_
    exact inStep_pure hr (congrArg AttributeValue.imported like)
  · refine .bind (inStep_expr hg .lowest p q h) fun value value' r s like hr => ?_
    exact inStep_pure hr (congrArg AttributeValue.expression like.placeless)

theorem inStep_attributeEnd (h : R.LikeParser p q) :
    R.InStep Any (Statement.attributeEnd p) (Statement.attributeEnd q) := by
  unfold Statement.attributeEnd
  rw [current_bind, current_bind, ← R.kind h.current, ← R.describe h.current]
  by_cases ending : p.current.kind = .newline ∨ p.current.kind = .semicolon
      ∨ p.current.kind = .eof
  · obtain e | e | e := ending
    all_goals
      simp only [e]
      exact inStep_pure h trivial
  · rw [not_or, not_or] at ending
    obtain ⟨newline, semicolon, eof⟩ := ending
    simp only
    exact inStep_throw h (R.likeError_blame h.current _)

theorem inStep_attributed (hg : g.Inline) (h : R.LikeParser p q) (inline : p.kind ≠ .newline) :
    R.InStep R.LikeStmt (Statement.attributed g p) (Statement.attributed g q) := by
  unfold Statement.attributed
  have keyword := h.current
  have behind := h.next inline
  rw [advance_bind, atStatementEnd_bind, advance_bind, atStatementEnd_bind,
    ← behind.atStatementEnd]
  split
  · refine inStep_pure behind ⟨?_, .some keyword⟩
    unfold Stmt.placeless Attribute.placeless
    rw [R.placeless keyword]
  · refine .bind (inStep_enterScope behind keyword) fun _ _ r s _ hr => ?_
    refine .bind (inStep_attributeValue hg keyword hr) fun value value' t u like ht => ?_
    refine .bind (inStep_attributeEnd ht) fun _ _ v w _ hv => ?_
    refine .bind (inStep_exitScope hv .attribute) fun _ _ x y _ hx => ?_
    refine inStep_pure hx ⟨?_, .some keyword⟩
    unfold Stmt.placeless Attribute.placeless
    rw [R.placeless keyword, Option.map_some, Option.map_some, like]

/-! ## §6. Any statement. -/

theorem inStep_ofRule (hg : g.Inline) (inner : R.LikeStatements statement statement')
    (rule : StatementRule) (h : R.LikeParser p q) (inline : p.kind ≠ .newline) :
    R.InStep R.LikeStmt (Statement.ofRule g statement rule p)
      (Statement.ofRule g statement' rule q) := by
  have keyword := R.placeless h.current
  cases rule with
  | conditional => exact inStep_conditional hg inner h inline
  | repeatWhile => exact inStep_repeatWhile hg inner h inline
  | leaveLoop =>
      exact .ok (likeStmt_of_plain (congrArg Stmt.leaveLoop keyword) rfl) (h.next inline)
  | nextRound =>
      exact .ok (likeStmt_of_plain (congrArg Stmt.nextRound keyword) rfl) (h.next inline)
  | function => exact inStep_function inner h inline
  | giveBack => exact inStep_giveBack hg h inline
  | declare => exact inStep_declare hg h inline
  | identifier => exact inStep_named hg h inline
  | expression => exact inStep_expression hg h
  | «attribute» => exact inStep_attributed hg h inline
  | any => exact inner p q h

theorem inStep_terminated (h : R.LikeParser p q) :
    R.InStep Any (Statement.terminated p) (Statement.terminated q) := by
  unfold Statement.terminated
  rw [atStatementEnd_bind, atStatementEnd_bind, ← h.atStatementEnd]
  split
  · exact inStep_pure h trivial
  · rw [current_bind, current_bind, ← R.describe h.current]
    exact inStep_throw h (R.likeError_blame h.current _)

theorem likeError_noStatement {token token' : Token} (h : R.token token token') :
    R.LikeError (Statement.noStatement token) (Statement.noStatement token') := by
  unfold Statement.noStatement
  rw [← R.kind h, ← R.value h, ← R.describe h]
  split
  · exact R.likeError_blame h _
  · exact R.likeError_blame h _

theorem inStep_statementWithin (hg : g.Inline) (depth depth' : Nat) :
    R.LikeStatements (g.statementWithin depth) (g.statementWithin depth') := by
  intro p q h
  induction depth generalizing depth' p q with
  | zero => exact inStep_stall _
  | succ depth ih =>
      cases depth' with
      | zero => exact inStep_stall' _
      | succ depth' =>
          unfold Grammar.statementWithin
          rw [current_bind, current_bind, ← R.kind h.current]
          cases hk : g.statementRule? p.current.kind with
          | none => exact inStep_throw h (likeError_noStatement h.current)
          | some rule =>
              have inline : p.kind ≠ .newline := by
                intro line
                rw [show p.current.kind = .newline from line, hg.statement] at hk
                cases hk
              refine .bind (inStep_ofRule hg (ih depth') rule h inline)
                fun stmt stmt' r s like hr => ?_
              refine .bind (inStep_terminated hr) fun _ _ t u _ ht => ?_
              exact inStep_pure ht like

/-- **Statements are read in step.** -/
theorem inStep_statement (hg : g.Inline) : R.LikeStatements g.statement g.statement := by
  intro p q h
  unfold Grammar.statement
  rw [budget_bind, budget_bind]
  exact inStep_statementWithin hg _ _ p q h

/-! ## §7. Files. -/

/-- Two files that differ in their places alone. -/
def LikeProgram (program program' : Program) : Prop :=
  program.placeless = program'.placeless

/-- A statement can be added to both files or to neither. -/
theorem append_alike {before before' : Program} {s s' : Stmt}
    (likeBefore : LikeProgram before before') (likeStmt : R.LikeStmt s s') :
    (∃ longer longer', before.append s = .ok longer ∧ before'.append s' = .ok longer'
        ∧ LikeProgram longer longer')
      ∨ ∃ e e', before.append s = .error e ∧ before'.append s' = .error e'
        ∧ R.LikeError e e' := by
  have attributes : before.attributes.map Attribute.placeless
      = before'.attributes.map Attribute.placeless := congrArg Program.attributes likeBefore
  have statements : placelessOfAll before.statements = placelessOfAll before'.statements :=
    congrArg Program.statements likeBefore
  rw [Program.append_eq, Program.append_eq, ← Program.takesAttributes_congr likeBefore]
  have values := Stmt.attached?_congr likeStmt.placeless
  obtain ⟨hn, hn'⟩ | ⟨a, a', ha, ha', tokens⟩ := cases_of_rel likeStmt.attached
  · rw [hn, hn']
    refine .inl ⟨_, _, rfl, rfl, ?_⟩
    unfold LikeProgram Program.placeless
    rw [placelessOfAll_append, placelessOfAll_append, attributes, statements]
    unfold placelessOfAll
    rw [likeStmt.placeless]
  · rw [ha, ha'] at values ⊢
    dsimp only
    split
    · refine .inl ⟨_, _, rfl, rfl, ?_⟩
      unfold LikeProgram Program.placeless
      rw [List.map_append, List.map_append, attributes, statements, List.map_singleton,
        List.map_singleton, Option.some.inj values]
    · exact .inr ⟨_, _, rfl, rfl, R.likeError_blame tokens _⟩

/-- The parser behind a statement that was added to a file.  Of an attribute
the journal says so. -/
def added (s : Stmt) (p : Parser) : Parser :=
  { p with
    journal := match s.attached? with
      | some attached => p.journal.push (.appended attached.token.value)
      | none => p.journal }

theorem likeParser_added (h : R.LikeParser p q) (s s' : Stmt) :
    R.LikeParser (added s p) (added s' q) :=
  ⟨h.cursor, h.scopes, h.blockDepth, h.told⟩

theorem inStep_statementsWithin (hg : g.Inline) {rounds rounds' : Nat}
    {before before' : Program} (likeBefore : LikeProgram before before')
    (h : R.LikeParser p q) :
    R.InStep LikeProgram (g.statementsWithin rounds before p)
      (g.statementsWithin rounds' before' q) := by
  induction rounds generalizing rounds' before before' p q with
  | zero => exact inStep_stall _
  | succ rounds ih =>
      cases rounds' with
      | zero => exact inStep_stall' _
      | succ rounds' =>
          unfold Grammar.statementsWithin
          have start := h.pastSeparators
          rw [skipTerminators_bind, currentKind_bind, skipTerminators_bind, currentKind_bind,
            ← start.kind]
          split
          · exact inStep_pure start likeBefore
          · refine .bind (inStep_statement hg _ _ start) fun s s' r t like hr => ?_
            obtain ⟨longer, longer', hl, hl', likeLonger⟩ | ⟨e, e', he, he', errors⟩ :=
              append_alike likeBefore like
            · rw [hl, hl']
              have rest : R.InStep LikeProgram (g.statementsWithin rounds longer (added s r))
                  (g.statementsWithin rounds' longer' (added s' t)) :=
                ih likeLonger (likeParser_added hr s s')
              -- the journal is all that an attribute adds to
              refine .of_eq ?_ ?_ rest
              · cases s <;> rfl
              · cases s' <;> rfl
            · rw [he, he']
              exact inStep_throw hr errors

/-- **Files are read in step,** if waiting calls are visited in the order of
entry. -/
theorem inStep_program (hg : g.Inline) (h : R.LikeParser p q) :
    R.InStep LikeProgram (g.program .entry p) (g.program .entry q) := by
  unfold Grammar.program
  rw [budget_bind, budget_bind]
  refine .bind (inStep_statementsWithin hg rfl h) fun program program' r s like hr => ?_
  rw [scopes_bind, scopes_bind]
  obtain ⟨hn, hn'⟩ | ⟨e, e', he, he', errors⟩ := cases_of_rel hr.scopes.unresolved?
  · rw [hn, hn']
    exact inStep_pure hr like
  · rw [he, he']
    exact inStep_throw hr errors

/-! ## §8. Files as a whole. -/

/-- What comes of two files: trees that differ in their places alone, or
errors that are alike, and the same warnings. -/
inductive LikeOutcome (R : Lockstep) :
    Except Error Program × Parser → Except Error Program × Parser → Prop
  | accepted {program program' : Program} {p q : Parser} (trees : LikeProgram program program')
      (told : p.told = q.told) : LikeOutcome R (.ok program, p) (.ok program', q)
  | refused {e e' : Error} {p q : Parser} (errors : R.LikeError e e') (told : p.told = q.told) :
      LikeOutcome R (.error e, p) (.error e', q)

/-- **Two files that begin alike are read alike.** -/
theorem likeOutcome_of_start {tokens tokens' : List Token}
    (start : R.cursor (.ofTokens tokens) (.ofTokens tokens')) (file file' : String) :
    R.LikeOutcome (parse file tokens) (parse file' tokens') := by
  have parsers : R.LikeParser (.start file tokens) (.start file' tokens') :=
    ⟨start, R.likeScopes_empty, rfl, rfl⟩
  have moving (r : Parser) : ¬Stalls (Grammar.standard.program .entry r) :=
    (Grammar.keeps_program Grammar.productive_standard .entry r).not_stalls (Nat.lt_succ_self _)
  have moves := moving (.start file tokens)
  have moves' := moving (.start file' tokens')
  have outcomes := inStep_program Grammar.inline_standard parsers
  unfold Parser.start at moves moves' outcomes
  unfold parse
  generalize Grammar.standard.program .entry ((Parser.ofTokens tokens).record (.reading file))
    = outcome at moves outcomes
  generalize Grammar.standard.program .entry ((Parser.ofTokens tokens').record (.reading file'))
    = outcome' at moves' outcomes
  cases outcomes with
  | ok trees parsers => exact .accepted trees parsers.told
  | error errors told => exact .refused errors told
  | left stalls => exact (moves stalls).elim
  | right stalls => exact (moves' stalls).elim

end Lockstep

end ImpFront
