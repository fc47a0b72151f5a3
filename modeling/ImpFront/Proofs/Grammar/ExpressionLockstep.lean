/-
  ImpFront.Proofs.Grammar.ExpressionLockstep
  ──────────────────────────────────────────
  **READING EXPRESSIONS SIDE BY SIDE.**

  One theorem for each rule of expressions, from what it is given of the
  readers of inner expressions on both sides, which differ in their bounds.

      inner readers in step  →  rule in step

  A rule that takes its first token unseen is started at a token that is no
  line end, as no rule of the language begins with one.
-/
import ImpFront.Proofs.Grammar.Lockstep

namespace ImpFront

open Parse

/-- No rule of the grammar begins with a line end. -/
structure Grammar.Inline (g : Grammar) : Prop where
  /-- No operand does. -/
  operand : g.operandRule? .newline = none
  /-- No operator does. -/
  precedence : g.precedence? .newline = none
  /-- No statement does. -/
  statement : g.statementRule? .newline = none

theorem Grammar.inline_standard : standard.Inline :=
  ⟨rfl, rfl, rfl⟩

namespace Lockstep

variable (R : Lockstep)

/-- Two expressions that differ in their places alone. -/
structure LikeExpr (e e' : Expr) : Prop where
  /-- Without places they are the same. -/
  placeless : e.placeless = e'.placeless
  /-- Reports about them point at tokens that are alike. -/
  token : R.token e.token e'.token

/-- Two readers of expressions are in step wherever they start alike. -/
def LikeReader (expr expr' : Precedence → Parse Expr) : Prop :=
  ∀ limit p q, R.LikeParser p q → R.InStep R.LikeExpr (expr limit p) (expr' limit q)

variable {R} {expr expr' : Precedence → Parse Expr} {p q : Parser}

theorem placelessOfAll_congr {es es' : List Expr} (h : List.Forall₂ R.LikeExpr es es') :
    Expr.placelessOfAll es = Expr.placelessOfAll es' := by
  induction h with
  | nil => rfl
  | cons he _ ih =>
      unfold Expr.placelessOfAll
      rw [he.placeless, ih]

/-! ## §1. Operands. -/

theorem inStep_literal (h : R.LikeParser p q) :
    R.InStep R.LikeExpr (Expression.literal p) (Expression.literal q) := by
  unfold Expression.literal
  rw [current_bind, current_bind, ← R.kind h.current]
  cases hk : BaseType.ofLiteral? p.current.kind with
  | none => exact inStep_unexpected h _
  | some type =>
      have inline : p.kind ≠ .newline := by
        intro line
        rw [show p.current.kind = .newline from line] at hk
        cases hk
      refine .ok ⟨?_, h.current⟩ (h.next inline)
      show Expr.literal p.current.placeless type = .literal q.current.placeless type
      rw [R.placeless h.current]

theorem inStep_unary (inner : R.LikeReader expr expr') (h : R.LikeParser p q)
    (inline : p.kind ≠ .newline) :
    R.InStep R.LikeExpr (Expression.unary expr p) (Expression.unary expr' q) := by
  unfold Expression.unary
  rw [advance_bind, advance_bind]
  have sign := h.current
  refine .bind (inner _ _ _ (h.next inline)) fun operand operand' r s like hr => ?_
  rw [← Expr.base?_congr like.placeless]
  cases operand.base?.bind BaseType.unary? with
  | none =>
      dsimp only
      rw [← R.value sign]
      exact inStep_throw hr (R.likeError_blame sign _)
  | some type =>
      refine inStep_pure hr ⟨?_, sign⟩
      unfold Expr.placeless
      rw [R.kind sign, R.placeless sign, like.placeless]

theorem inStep_grouping (inner : R.LikeReader expr expr') (h : R.LikeParser p q)
    (inline : p.kind ≠ .newline) :
    R.InStep R.LikeExpr (Expression.grouping expr p) (Expression.grouping expr' q) := by
  unfold Expression.grouping
  rw [advance_bind, advance_bind]
  refine .bind (inner _ _ _ (h.next inline)) fun e e' r s like hr => ?_
  refine .bind (inStep_expect hr (by decide)) fun _ _ t u _ ht => ?_
  exact inStep_pure ht like

theorem ofDeclaration_congr {d d' : Token} (h : d.placeless = d'.placeless) :
    BaseType.ofDeclaration d = BaseType.ofDeclaration d' := by
  show BaseType.ofDeclaration d.placeless = BaseType.ofDeclaration d'.placeless
  rw [h]

theorem inStep_visibleType {name name' : Token} (h : R.LikeParser p q)
    (names : R.token name name') :
    R.InStep (· = ·) (Expression.visibleType name p) (Expression.visibleType name' q) := by
  unfold Expression.visibleType
  rw [scopes_bind, scopes_bind]
  obtain ⟨d, d', hd, hd', same⟩ | ⟨e, e', he, he', errors⟩ := h.scopes.declaredType names
  · rw [hd, hd']
    exact inStep_pure h (ofDeclaration_congr same)
  · rw [he, he']
    exact inStep_throw h errors

theorem likeExpr_reference {name name' : Token} (names : R.token name name') (type : BaseType) :
    R.LikeExpr (.reference name type) (.reference name' type) := by
  refine ⟨?_, names⟩
  unfold Expr.placeless
  rw [R.placeless names]

theorem inStep_reference (h : R.LikeParser p q) (inline : p.kind ≠ .newline) :
    R.InStep R.LikeExpr (Expression.reference p) (Expression.reference q) := by
  unfold Expression.reference
  have name := h.current
  have behind := h.next inline
  rw [advance_bind, advance_bind, scopes_bind, scopes_bind, ← behind.scopes.inAttribute]
  split
  · rw [← R.value name]
    cases DeclaredType.builtin? p.current.value with
    | some type => exact inStep_pure behind (likeExpr_reference name _)
    | none =>
        refine .bind (inStep_visibleType behind name) fun type _ r s same hr => ?_
        subst same
        exact inStep_pure hr (likeExpr_reference name _)
  · refine .bind (inStep_visibleType behind name) fun type _ r s same hr => ?_
    subst same
    split
    · rw [← R.value name]
      exact inStep_throw hr (R.likeError_blame name _)
    · exact inStep_pure hr (likeExpr_reference name _)

/-! ## §2. Calls. -/

theorem inStep_argumentsWithin (inner : R.LikeReader expr expr') {rounds rounds' : Nat}
    (h : R.LikeParser p q) :
    R.InStep (List.Forall₂ R.LikeExpr) (Expression.argumentsWithin expr rounds p)
      (Expression.argumentsWithin expr' rounds' q) := by
  -- on the rounds of one side; those of the other may be used up first
  induction rounds generalizing rounds' p q with
  | zero => exact inStep_stall _
  | succ rounds ih =>
      cases rounds' with
      | zero => exact inStep_stall' _
      | succ rounds' =>
          unfold Expression.argumentsWithin
          rw [currentKind_bind, currentKind_bind, ← h.kind]
          by_cases closing : p.kind = .closeParen
          · simp only [closing]
            exact inStep_pure (h.next (by rw [closing]; decide)) .nil
          · by_cases ending : p.kind = .eof
            · simp only [ending]
              exact inStep_unexpected h _
            · simp only
              refine .bind (inner _ _ _ h) fun argument argument' r s like hr => ?_
              rw [currentKind_bind, optionalComma_bind, skipNewlines_bind,
                currentKind_bind, optionalComma_bind, skipNewlines_bind]
              refine .bind (ih hr.pastComma.pastLines) fun rest rest' t u more ht => ?_
              exact inStep_pure ht (.cons like more)

theorem inStep_arguments (inner : R.LikeReader expr expr') (h : R.LikeParser p q) :
    R.InStep (List.Forall₂ R.LikeExpr) (Expression.arguments expr p)
      (Expression.arguments expr' q) := by
  unfold Expression.arguments
  rw [skipNewlines_bind, budget_bind, skipNewlines_bind, budget_bind]
  exact inStep_argumentsWithin inner h.pastLines

theorem inStep_callee {name name' : Token} (h : R.LikeParser p q) (names : R.token name name')
    (identifier : name.kind = .identifier) :
    R.InStep Any (Expression.callee name p) (Expression.callee name' q) := by
  unfold Expression.callee
  rw [scopes_bind, scopes_bind, ← R.value names]
  obtain ⟨hn, hn'⟩ | ⟨found, found', hs, hs', like⟩ :=
    cases_of_rel (h.scopes.lookup? name.value)
  · rw [hn, hn']
    exact inStep_mark h names identifier
  · rw [hs, hs', Option.any_some, Option.any_some, ← Symbol.isFunction_congr like.placeless]
    split
    · exact inStep_throw h (R.likeError_blame names _)
    · exact inStep_mark h names identifier

theorem inStep_application (inner : R.LikeReader expr expr') (called : Bool)
    (h : R.LikeParser p q) :
    R.InStep (fun applied applied' => R.token applied.1 applied'.1
        ∧ List.Forall₂ R.LikeExpr applied.2 applied'.2)
      (Expression.application expr called p) (Expression.application expr' called q) := by
  unfold Expression.application
  refine .bind (inStep_expect h (by decide)) fun name name' r s both hr => ?_
  obtain ⟨names, identifier⟩ := both
  refine .bind (inStep_expect hr (by decide)) fun _ _ t u _ ht => ?_
  have list : ∀ v w, R.LikeParser v w → R.InStep (fun applied applied' =>
      R.token applied.1 applied'.1 ∧ List.Forall₂ R.LikeExpr applied.2 applied'.2)
      ((do return (name, ← Expression.arguments expr)) v)
      ((do return (name', ← Expression.arguments expr')) w) := by
    intro v w hv
    refine .bind (inStep_arguments inner hv) fun es es' _ _ like hx => ?_
    exact inStep_pure hx ⟨names, like⟩
  split
  · exact .bind (inStep_callee ht names identifier) fun _ _ v w _ hv => list v w hv
  · exact list t u ht

theorem inStep_returnType {name name' : Token} (h : R.LikeParser p q)
    (names : R.token name name') :
    R.InStep (· = ·) (Expression.returnType name p) (Expression.returnType name' q) := by
  unfold Expression.returnType
  rw [scopes_bind, scopes_bind, ← R.value names]
  obtain ⟨hn, hn'⟩ | ⟨found, found', hs, hs', like⟩ :=
    cases_of_rel (h.scopes.visibleFunction? name.value)
  · -- the type of a function further down is read off the tokens ahead
    rw [hn, hn']
    exact .ok (R.ahead name.value h.cursor) (h.record _ _)
  · rw [hs, hs']
    exact inStep_pure h (Symbol.returnBase?_congr like.placeless)

theorem inStep_call (inner : R.LikeReader expr expr') (h : R.LikeParser p q) :
    R.InStep R.LikeExpr (Expression.call expr p) (Expression.call expr' q) := by
  unfold Expression.call
  refine .bind (inStep_application inner true h) fun applied applied' r s both hr => ?_
  obtain ⟨names, like⟩ := both
  refine .bind (inStep_returnType hr names) fun type _ t u same ht => ?_
  subst same
  refine inStep_pure ht ⟨?_, names⟩
  unfold Expr.placeless
  rw [R.placeless names, placelessOfAll_congr like]

theorem inStep_identifier (inner : R.LikeReader expr expr') (h : R.LikeParser p q)
    (inline : p.kind ≠ .newline) :
    R.InStep R.LikeExpr (Expression.identifier expr p) (Expression.identifier expr' q) := by
  unfold Expression.identifier
  rw [peek_bind, peek_bind, ← h.peek inline]
  split
  · exact inStep_call inner h
  · exact inStep_reference h inline

theorem inStep_operand (inner : R.LikeReader expr expr') (rule : OperandRule)
    (h : R.LikeParser p q) (inline : p.kind ≠ .newline) :
    R.InStep R.LikeExpr (Expression.operand expr rule p) (Expression.operand expr' rule q) := by
  cases rule with
  | unary => exact inStep_unary inner h inline
  | grouping => exact inStep_grouping inner h inline
  | literal => exact inStep_literal h
  | identifier => exact inStep_identifier inner h inline

/-! ## §3. Operators. -/

theorem inStep_binary (inner : R.LikeReader expr expr') {left left' : Expr}
    (likeLeft : R.LikeExpr left left') (precedence : Precedence) (h : R.LikeParser p q)
    (inline : p.kind ≠ .newline) :
    R.InStep R.LikeExpr (Expression.binary expr left precedence p)
      (Expression.binary expr' left' precedence q) := by
  unfold Expression.binary
  rw [advance_bind, advance_bind]
  have sign := h.current
  refine .bind (inner _ _ _ (h.next inline)) fun right right' r s likeRight hr => ?_
  dsimp only
  rw [← Expr.base?_congr likeLeft.placeless, ← Expr.base?_congr likeRight.placeless]
  cases (do BaseType.binary? (← left.base?) (← right.base?) : Option BaseType) with
  | none =>
      dsimp only
      rw [← R.value sign]
      exact inStep_throw hr (R.likeError_blame sign _)
  | some type =>
      refine inStep_pure hr ⟨?_, sign⟩
      unfold Expr.placeless
      rw [R.kind sign, R.placeless sign, likeLeft.placeless, likeRight.placeless]

theorem inStep_operatorsWithin {g : Grammar} (hg : g.Inline) (inner : R.LikeReader expr expr')
    (limit : Precedence) {rounds rounds' : Nat} {left left' : Expr}
    (likeLeft : R.LikeExpr left left') (h : R.LikeParser p q) :
    R.InStep R.LikeExpr (Expression.operatorsWithin g expr limit rounds left p)
      (Expression.operatorsWithin g expr' limit rounds' left' q) := by
  induction rounds generalizing rounds' left left' p q with
  | zero => exact inStep_stall _
  | succ rounds ih =>
      cases rounds' with
      | zero => exact inStep_stall' _
      | succ rounds' =>
          unfold Expression.operatorsWithin
          rw [currentKind_bind, currentKind_bind, ← h.kind]
          cases hk : g.precedence? p.kind with
          | none => exact inStep_pure h likeLeft
          | some next =>
              -- no operator is a line end, so that it can be taken in both files
              have inline : p.kind ≠ .newline := by
                intro line
                rw [line, hg.precedence] at hk
                cases hk
              dsimp only
              split
              · exact inStep_pure h likeLeft
              · refine .bind (inStep_binary inner likeLeft next h inline)
                  fun longer longer' r s like hr => ?_
                exact ih like hr

theorem inStep_operators {g : Grammar} (hg : g.Inline) (inner : R.LikeReader expr expr')
    (limit : Precedence) {left left' : Expr} (likeLeft : R.LikeExpr left left')
    (h : R.LikeParser p q) :
    R.InStep R.LikeExpr (Expression.operators g expr limit left p)
      (Expression.operators g expr' limit left' q) := by
  unfold Expression.operators
  rw [budget_bind, budget_bind]
  exact inStep_operatorsWithin hg inner limit likeLeft h

/-! ## §4. Expressions. -/

variable {g : Grammar}

theorem inStep_exprWithin (hg : g.Inline) (depth depth' : Nat) :
    R.LikeReader (g.exprWithin depth) (g.exprWithin depth') := by
  intro limit p q h
  induction depth generalizing depth' limit p q with
  | zero => exact inStep_stall _
  | succ depth ih =>
      cases depth' with
      | zero => exact inStep_stall' _
      | succ depth' =>
          unfold Grammar.exprWithin
          have inner : R.LikeReader (g.exprWithin depth) (g.exprWithin depth') :=
            fun limit p q h => ih depth' limit p q h
          rw [currentKind_bind, currentKind_bind, ← h.kind]
          cases hk : g.operandRule? p.kind with
          | none =>
              dsimp only
              rw [current_bind, current_bind, ← R.describe h.current]
              exact inStep_throw h (R.likeError_blame h.current _)
          | some rule =>
              have inline : p.kind ≠ .newline := by
                intro line
                rw [line, hg.operand] at hk
                cases hk
              refine .bind (inStep_operand inner rule h inline) fun left left' r s like hr => ?_
              exact inStep_operators hg inner limit like hr

/-- **Expressions are read in step.** -/
theorem inStep_expr (hg : g.Inline) : R.LikeReader g.expr g.expr := by
  intro limit p q h
  unfold Grammar.expr
  rw [budget_bind, budget_bind]
  exact inStep_exprWithin hg _ _ limit p q h

end Lockstep

end ImpFront
