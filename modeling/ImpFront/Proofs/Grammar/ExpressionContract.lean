/-
  ImpFront.Proofs.Grammar.ExpressionContract
  ──────────────────────────────────────────
  **READING EXPRESSIONS KEEPS TO THE CONTRACT.**

  One theorem for each rule of expressions, from what it is given of the
  reader of inner expressions: that this one takes at least one token, and
  that it loses track only with `n` tokens ahead or more.  A rule has taken a
  token before it calls that reader, so its own bound is one higher.

      reader of inner ones with bound n  →  reader with bound n + 1

  From `exprWithin g 0`, which has no bound to speak of, one gets by induction
  to every depth, and the depth that `expr` starts with is never used up.
-/
import ImpFront.Proofs.Grammar.Contract

namespace ImpFront

open Parse

namespace Expression

variable {n : Nat} {p : Parser} {expr : Precedence → Parse Expr}

/-! ## §1. Operands. -/

theorem keeps_literal (hk : p.kind ≠ .eof) : Keeps 1 n literal p := by
  unfold Keeps literal
  rw [current_bind]
  cases BaseType.ofLiteral? p.current.kind with
  | none => exact meets_unexpected (.refl p) _
  | some type => exact meets_pure ((Past.refl p).take hk) _

theorem keeps_unary (inner : ∀ limit q, Keeps 1 n (expr limit) q) (hk : p.kind ≠ .eof) :
    Keeps 1 (n + 1) (unary expr) p := by
  unfold Keeps unary
  rw [advance_bind]
  have first := (Past.refl p).take hk
  refine Meets.bind ((inner _ _).behind first (Nat.le_refl _)) fun operand q hq => ?_
  cases operand.base?.bind BaseType.unary? with
  | none => exact meets_throw hq nofun
  | some type => exact meets_pure (hq.weaken (Nat.le_add_left ..)) _

theorem keeps_grouping (inner : ∀ limit q, Keeps 1 n (expr limit) q) (hk : p.kind ≠ .eof) :
    Keeps 1 (n + 1) (grouping expr) p := by
  unfold Keeps grouping
  rw [advance_bind]
  have first := (Past.refl p).take hk
  refine Meets.bind ((inner _ _).behind first (Nat.le_refl _)) fun operand q hq => ?_
  refine Meets.bind (meets_expect hq (by decide)) fun _ r hr => ?_
  exact meets_pure (hr.weaken (Nat.le_add_left ..)) _

theorem keeps_visibleType (name : Token) : Keeps 0 n (visibleType name) p := by
  unfold Keeps visibleType
  rw [scopes_bind]
  cases h : p.scopes.declaredType name with
  | ok declared => exact meets_pure (.refl p) _
  | error error =>
      refine meets_throw (.refl p) ?_
      rw [Scopes.declaredType_error_stage h]
      decide

theorem keeps_reference (hk : p.kind ≠ .eof) : Keeps 1 n reference p := by
  unfold Keeps reference
  have first := (Past.refl p).take hk
  have found : Meets 1 p.layout n p (visibleType p.current p.next) :=
    (keeps_visibleType _).behind first (Nat.le_add_right ..)
  rw [advance_bind, scopes_bind]
  split
  · cases DeclaredType.builtin? p.current.value with
    | some type => exact meets_pure first _
    | none => exact Meets.bind found fun _ q hq => meets_pure hq _
  · refine Meets.bind found fun type q hq => ?_
    split
    · exact meets_throw hq nofun
    · exact meets_pure hq _

/-! ## §2. Calls. -/

theorem keeps_argumentsWithin (inner : ∀ limit q, Keeps 1 n (expr limit) q) (rounds : Nat)
    (p : Parser) : Keeps 1 (min rounds n) (argumentsWithin expr rounds) p := by
  induction rounds generalizing p with
  | zero => exact meets_stall (.refl p) (Nat.zero_min n)
  | succ rounds ih =>
      unfold Keeps argumentsWithin
      rw [currentKind_bind]
      by_cases closing : p.kind = .closeParen
      · simp only [closing]
        exact meets_pure ((Past.refl p).take (by rw [closing]; decide)) _
      · by_cases ending : p.kind = .eof
        · simp only [ending]
          exact meets_unexpected (.refl p) _
        · simp only
          refine Meets.bind ((inner _ _).behind (.refl p) (by omega)) fun argument q hq => ?_
          rw [currentKind_bind, optionalComma_bind, skipNewlines_bind]
          -- the round has taken the first token of the argument at least
          refine Meets.bind ((ih _).behind hq.pastComma.pastLines (by omega)) fun rest r hr => ?_
          exact meets_pure (hr.weaken (Nat.le_add_left ..)) _

theorem keeps_arguments (inner : ∀ limit q, Keeps 1 n (expr limit) q) :
    Keeps 1 n (arguments expr) p := by
  unfold Keeps arguments
  rw [skipNewlines_bind, budget_bind]
  have reader := (keeps_argumentsWithin inner _ p.pastLines).of_budget
  exact (reader.behind (Past.refl p).pastLines (Nat.le_refl _)).weaken (by omega) (Nat.le_refl _)

theorem keeps_callee (name : Token) : Keeps 0 n (callee name) p := by
  unfold Keeps callee
  rw [scopes_bind]
  split
  · exact meets_throw (.refl p) nofun
  · exact meets_mark (.refl p)

theorem keeps_application (inner : ∀ limit q, Keeps 1 n (expr limit) q) (called : Bool) :
    Keeps 1 (n + 1) (application expr called) p := by
  unfold Keeps application
  refine Meets.bind (meets_expect (.refl p) (by decide)) fun name q hq => ?_
  refine Meets.bind (meets_expect hq (by decide)) fun _ r hr => ?_
  have list : ∀ u, Past 2 p.layout p u →
      Meets 1 p.layout (n + 1) p ((do return (name, ← arguments expr)) u) := by
    intro u hu
    refine Meets.bind ((keeps_arguments inner).behind hu (by omega)) fun es v hv => ?_
    exact meets_pure (hv.weaken (by omega)) _
  split
  · refine Meets.bind ((keeps_callee name).behind hr (Nat.le_add_right ..)) fun _ u hu => ?_
    exact list u hu
  · exact list r hr

theorem keeps_returnType (name : Token) : Keeps 0 n (returnType name) p := by
  unfold Keeps returnType
  rw [scopes_bind]
  cases p.scopes.visibleFunction? name.value with
  | some symbol => exact meets_pure (.refl p) _
  | none => exact meets_pure ((Past.refl p).record _) _

theorem keeps_call (inner : ∀ limit q, Keeps 1 n (expr limit) q) :
    Keeps 1 (n + 1) (call expr) p := by
  unfold Keeps call
  refine Meets.bind (keeps_application inner true) fun applied q hq => ?_
  refine Meets.bind ((keeps_returnType _).behind hq (Nat.le_add_right ..)) fun type r hr => ?_
  exact meets_pure hr _

theorem keeps_identifier (inner : ∀ limit q, Keeps 1 n (expr limit) q) (hk : p.kind ≠ .eof) :
    Keeps 1 (n + 1) (identifier expr) p := by
  unfold Keeps identifier
  rw [peek_bind]
  split
  · exact keeps_call inner
  · exact keeps_reference hk

/-- An operand takes a token before anything else. -/
theorem keeps_operand (inner : ∀ limit q, Keeps 1 n (expr limit) q) (rule : OperandRule)
    (hk : p.kind ≠ .eof) : Keeps 1 (n + 1) (operand expr rule) p := by
  cases rule with
  | unary => exact keeps_unary inner hk
  | grouping => exact keeps_grouping inner hk
  | literal => exact keeps_literal hk
  | identifier => exact keeps_identifier inner hk

/-! ## §3. Operators. -/

theorem keeps_binary (inner : ∀ limit q, Keeps 1 n (expr limit) q) (left : Expr)
    (precedence : Precedence) : Keeps 1 n (binary expr left precedence) p := by
  unfold Keeps binary
  rw [advance_bind]
  have first := (Past.refl p).onward
  refine Meets.bind ((inner _ _).behind first (Nat.le_refl _)) fun right q hq => ?_
  cases (do BaseType.binary? (← left.base?) (← right.base?) : Option BaseType) with
  | none => exact meets_throw hq nofun
  | some type => exact meets_pure hq _

theorem keeps_operatorsWithin (g : Grammar) (inner : ∀ limit q, Keeps 1 n (expr limit) q)
    (limit : Precedence) (rounds : Nat) (left : Expr) (p : Parser) :
    Keeps 0 (min rounds n) (operatorsWithin g expr limit rounds left) p := by
  induction rounds generalizing p left with
  | zero => exact meets_stall (.refl p) (Nat.zero_min n)
  | succ rounds ih =>
      unfold Keeps operatorsWithin
      rw [currentKind_bind]
      cases g.precedence? p.kind with
      | none => exact meets_pure (.refl p) _
      | some next =>
          dsimp only
          split
          · exact meets_pure (.refl p) _
          · refine Meets.bind ((keeps_binary inner left next).weaken (Nat.le_refl _) (by omega))
              fun longer q hq => ?_
            exact ((ih longer q).behind hq (by omega)).weaken (Nat.zero_le _) (Nat.le_refl _)

theorem keeps_operators (g : Grammar) (inner : ∀ limit q, Keeps 1 n (expr limit) q)
    (limit : Precedence) (left : Expr) : Keeps 0 n (operators g expr limit left) p := by
  unfold Keeps operators
  rw [budget_bind]
  exact (keeps_operatorsWithin g inner limit _ left p).of_budget

end Expression

/-! ## §4. Expressions. -/

namespace Grammar

/-- The tables of a grammar let no rule begin at the end, and no statement
begin with a statement at the same place. -/
structure Productive (g : Grammar) : Prop where
  /-- No operand begins at the end. -/
  operand : g.operandRule? .eof = none
  /-- No statement begins at the end. -/
  statement : g.statementRule? .eof = none
  /-- No statement begins with a statement. -/
  any : ∀ kind, g.statementRule? kind ≠ some .any

theorem productive_standard : standard.Productive where
  operand := rfl
  statement := rfl
  any kind := by cases kind <;> nofun

variable {g : Grammar} {n : Nat} {p : Parser}

theorem keeps_exprWithin (hg : g.Productive) (depth : Nat) (limit : Precedence) (p : Parser) :
    Keeps 1 depth (g.exprWithin depth limit) p := by
  induction depth generalizing p limit with
  | zero => exact meets_stall (.refl p) rfl
  | succ depth ih =>
      unfold Keeps exprWithin
      rw [currentKind_bind]
      cases hr : g.operandRule? p.kind with
      | none => exact meets_throw (.refl p) nofun
      | some rule =>
          have taken : p.kind ≠ .eof := by
            intro ending
            rw [ending, hg.operand] at hr
            cases hr
          refine Meets.bind (Expression.keeps_operand ih rule taken) fun left q hq => ?_
          exact (Expression.keeps_operators g ih limit left).behind hq (Nat.le_refl _)

/-- **A reader of expressions takes a token or fails on account of the text.** -/
theorem keeps_expr (hg : g.Productive) (limit : Precedence) (p : Parser) :
    Keeps 1 n (g.expr limit) p := by
  unfold Keeps expr
  rw [budget_bind]
  exact ((keeps_exprWithin hg _ limit p).weaken (Nat.le_refl _) (Nat.min_le_left ..)).of_budget

theorem meets_expr (hg : g.Productive) (limit : Precedence) {j : Nat} {l : Layout} {q : Parser}
    (h : Past j l p q) : Meets (j + 1) l n p (g.expr limit q) :=
  (keeps_expr hg limit q).behind h (Nat.le_add_right ..)

end Grammar

end ImpFront
