/-
  ImpFront.Proofs.Grammar.Bounds
  ──────────────────────────────
  **BOUNDS MAKE NO DIFFERENCE.**

  The readers descend and go round at most as often as their bounds allow.
  A reader with a higher bound agrees with one that has a lower bound wherever
  the latter has not used it up:

      Agrees x y   ↔   y p = x p, unless x stalls at p

  Sequences, and so all rules, keep agreement.  As the readers that start with
  a bound of their own never stall, they agree with every bounded one.
-/
import ImpFront.Proofs.Grammar.StatementContract

namespace ImpFront

open Parse

/-! ## §1. Agreement. -/

section

variable {α β : Type} {x y : Parse α}

/-- The outcome is that of a bound which has been used up. -/
def Stalls : EStateM.Result Error Parser α → Prop
  | .ok _ _ => False
  | .error e _ => e.cause = .stalled

/-- `y` does what `x` does, wherever `x` has not used up its bound. -/
def Agrees (x y : Parse α) : Prop :=
  ∀ p, ¬Stalls (x p) → y p = x p

theorem Agrees.refl (x : Parse α) : Agrees x x :=
  fun _ _ => rfl

/-- Every reader agrees with one that has no bound to speak of. -/
theorem agrees_stall (y : Parse α) : Agrees stall y :=
  fun _ moving => (moving rfl).elim

theorem Agrees.bind {f g : α → Parse β} (hx : Agrees x y) (hf : ∀ a, Agrees (f a) (g a)) :
    Agrees (x >>= f) (y >>= g) := by
  intro p moving
  rw [bind_apply] at moving ⊢
  rw [bind_apply]
  cases h : x p with
  | ok a q =>
      rw [h] at moving
      rw [hx p (h ▸ id), h]
      exact hf a q moving
  | error e q =>
      rw [h] at moving
      rw [hx p (h ▸ moving), h]

/-- A reader whose bound exceeds the number of tokens ahead does not stall. -/
theorem Keeps.not_stalls {k n : Nat} {p : Parser} (h : Keeps k n x p)
    (enough : p.cursor.remaining < n) : ¬Stalls (x p) := by
  cases hx : x p with
  | ok a q => exact id
  | error e q =>
      intro stalled
      have stalled : e.cause = .stalled := stalled
      have := (h.tame hx).bound (by rw [stalled]; rfl)
      omega

/-- Readers with a bound: with higher ones they do the same, and the number
of tokens ahead is not used up. -/
structure Bounded (bounded : Nat → Parse α) : Prop where
  /-- A higher bound changes nothing. -/
  grows : ∀ {n m}, n ≤ m → Agrees (bounded n) (bounded m)
  /-- The number of tokens ahead suffices. -/
  enough : ∀ p : Parser, ¬Stalls (bounded (p.cursor.remaining + 1) p)

namespace Bounded

variable {bounded : Nat → Parse α}

/-- What is read with a bound is read without, unless the bound is used up. -/
theorem agrees (h : Bounded bounded) (n : Nat) : Agrees (bounded n) (do bounded (← budget)) := by
  intro p moving
  -- both agree with a reader whose bound is the larger one
  have common := h.grows (Nat.le_max_left n (p.cursor.remaining + 1)) p moving
  have common' := h.grows (Nat.le_max_right n (p.cursor.remaining + 1)) p (h.enough p)
  show bounded (p.cursor.remaining + 1) p = _
  rw [← common, common']

/-- A reader that takes its bound from the tokens ahead is any reader with
which all bounded ones agree. -/
theorem eq (h : Bounded bounded) (agree : ∀ n, Agrees (bounded (n + 1)) x) :
    (do bounded (← budget)) = x := by
  funext p
  exact (agree p.cursor.remaining p (h.enough p)).symm

end Bounded

end

/-! ## §2. Expressions. -/

namespace Expression

variable {expr expr' : Precedence → Parse Expr}

theorem agrees_unary (h : ∀ limit, Agrees (expr limit) (expr' limit)) :
    Agrees (unary expr) (unary expr') :=
  .bind (.refl _) fun _ => .bind (h _) fun _ => .refl _

theorem agrees_grouping (h : ∀ limit, Agrees (expr limit) (expr' limit)) :
    Agrees (grouping expr) (grouping expr') :=
  .bind (.refl _) fun _ => .bind (h _) fun _ => .refl _

theorem agrees_argumentsWithin (h : ∀ limit, Agrees (expr limit) (expr' limit))
    {rounds rounds' : Nat} (more : rounds ≤ rounds') :
    Agrees (argumentsWithin expr rounds) (argumentsWithin expr' rounds') := by
  induction rounds generalizing rounds' with
  | zero => exact agrees_stall _
  | succ rounds ih =>
      obtain ⟨larger, rfl⟩ : ∃ larger, rounds' = larger + 1 := ⟨rounds' - 1, by omega⟩
      refine .bind (.refl _) fun kind => ?_
      split
      · exact .refl _
      · exact .refl _
      · refine .bind (h _) fun argument => .bind (.refl _) fun next => ?_
        split
        · refine .bind (.refl _) fun _ => .bind (.refl _) fun _ => ?_
          exact .bind (ih (by omega)) fun _ => .refl _
        · exact .bind (.refl _) fun _ => .bind (ih (by omega)) fun _ => .refl _

theorem agrees_arguments (h : ∀ limit, Agrees (expr limit) (expr' limit)) :
    Agrees (arguments expr) (arguments expr') :=
  .bind (.refl _) fun _ => .bind (.refl _) fun _ => agrees_argumentsWithin h (Nat.le_refl _)

theorem agrees_application (h : ∀ limit, Agrees (expr limit) (expr' limit)) (called : Bool) :
    Agrees (application expr called) (application expr' called) := by
  refine .bind (.refl _) fun name => .bind (.refl _) fun _ => ?_
  have list : Agrees (do return (name, ← arguments expr)) (do return (name, ← arguments expr')) :=
    .bind (agrees_arguments h) fun _ => .refl _
  split
  · exact .bind (.refl _) fun _ => list
  · exact list

theorem agrees_identifier (h : ∀ limit, Agrees (expr limit) (expr' limit)) :
    Agrees (identifier expr) (identifier expr') := by
  refine .bind (.refl _) fun next => ?_
  split
  · exact .bind (agrees_application h true) fun _ => .refl _
  · exact .refl _

theorem agrees_operand (h : ∀ limit, Agrees (expr limit) (expr' limit)) (rule : OperandRule) :
    Agrees (operand expr rule) (operand expr' rule) := by
  cases rule with
  | unary => exact agrees_unary h
  | grouping => exact agrees_grouping h
  | literal => exact .refl _
  | identifier => exact agrees_identifier h

theorem agrees_binary (h : ∀ limit, Agrees (expr limit) (expr' limit)) (left : Expr)
    (precedence : Precedence) :
    Agrees (binary expr left precedence) (binary expr' left precedence) :=
  .bind (.refl _) fun _ => .bind (h _) fun _ => .refl _

theorem agrees_operatorsWithin (g : Grammar) (h : ∀ limit, Agrees (expr limit) (expr' limit))
    {rounds rounds' : Nat} (more : rounds ≤ rounds') (limit : Precedence) (left : Expr) :
    Agrees (operatorsWithin g expr limit rounds left)
      (operatorsWithin g expr' limit rounds' left) := by
  induction rounds generalizing rounds' left with
  | zero => exact agrees_stall _
  | succ rounds ih =>
      obtain ⟨larger, rfl⟩ : ∃ larger, rounds' = larger + 1 := ⟨rounds' - 1, by omega⟩
      refine .bind (.refl _) fun kind => ?_
      cases g.precedence? kind with
      | none => exact .refl _
      | some next =>
          dsimp only
          split
          · exact .refl _
          · exact .bind (agrees_binary h left next) fun longer => ih (by omega) longer

theorem agrees_operators (g : Grammar) (h : ∀ limit, Agrees (expr limit) (expr' limit))
    (limit : Precedence) (left : Expr) :
    Agrees (operators g expr limit left) (operators g expr' limit left) :=
  .bind (.refl _) fun _ => agrees_operatorsWithin g h (Nat.le_refl _) limit left

end Expression

namespace Grammar

variable {g : Grammar}

theorem agrees_exprWithin (g : Grammar) {depth depth' : Nat} (more : depth ≤ depth')
    (limit : Precedence) : Agrees (g.exprWithin depth limit) (g.exprWithin depth' limit) := by
  induction depth generalizing depth' limit with
  | zero => exact agrees_stall _
  | succ depth ih =>
      obtain ⟨larger, rfl⟩ : ∃ larger, depth' = larger + 1 := ⟨depth' - 1, by omega⟩
      have inner : ∀ limit, Agrees (g.exprWithin depth limit) (g.exprWithin larger limit) :=
        fun limit => ih (by omega) limit
      refine .bind (.refl _) fun kind => ?_
      cases g.operandRule? kind with
      | none => exact .refl _
      | some rule =>
          exact .bind (Expression.agrees_operand inner rule) fun left =>
            Expression.agrees_operators g inner limit left

theorem bounded_exprWithin (hg : g.Productive) (limit : Precedence) :
    Bounded fun depth => g.exprWithin depth limit where
  grows more := agrees_exprWithin g more limit
  enough p := (keeps_exprWithin hg _ limit p).not_stalls (Nat.lt_succ_self _)

theorem agrees_expr (hg : g.Productive) (depth : Nat) (limit : Precedence) :
    Agrees (g.exprWithin depth limit) (g.expr limit) :=
  (bounded_exprWithin hg limit).agrees depth

theorem bounded_argumentsWithin (hg : g.Productive) :
    Bounded (Expression.argumentsWithin g.expr) where
  grows := Expression.agrees_argumentsWithin fun _ => .refl _
  enough p := (Expression.keeps_argumentsWithin (n := p.cursor.remaining + 1) (keeps_expr hg) _
    p).not_stalls (by omega)

theorem bounded_operatorsWithin (hg : g.Productive) (limit : Precedence) (left : Expr) :
    Bounded fun rounds => Expression.operatorsWithin g g.expr limit rounds left where
  grows more := Expression.agrees_operatorsWithin g (fun _ => .refl _) more limit left
  enough p := (Expression.keeps_operatorsWithin g (n := p.cursor.remaining + 1) (keeps_expr hg)
    limit _ left p).not_stalls (by omega)

end Grammar

/-! ## §3. Statements. -/

namespace Statement

variable {g : Grammar} {statement statement' : Parse Stmt}

theorem agrees_bodyWithin (h : Agrees statement statement') {rounds rounds' : Nat}
    (more : rounds ≤ rounds') :
    Agrees (bodyWithin statement rounds) (bodyWithin statement' rounds') := by
  induction rounds generalizing rounds' with
  | zero => exact agrees_stall _
  | succ rounds ih =>
      obtain ⟨larger, rfl⟩ : ∃ larger, rounds' = larger + 1 := ⟨rounds' - 1, by omega⟩
      refine .bind (.refl _) fun kind => ?_
      split
      · exact .refl _
      · exact .refl _
      · refine .bind h fun first => .bind (.refl _) fun _ => ?_
        exact .bind (ih (by omega)) fun _ => .refl _

theorem agrees_block (h : Agrees statement statement') :
    Agrees (block statement) (block statement') := by
  refine .bind (.refl _) fun _ => .bind (.refl _) fun _ => .bind (.refl _) fun _ => ?_
  exact .bind (.refl _) fun _ => .bind (agrees_bodyWithin h (Nat.le_refl _)) fun _ => .refl _

theorem agrees_framed (h : Agrees statement statement') (kind : FrameKind) (place : Token) :
    Agrees (framed statement kind place) (framed statement' kind place) :=
  .bind (.refl _) fun _ => .bind (agrees_block h) fun _ => .refl _

theorem agrees_chainWithin (h : Agrees statement statement') {rounds rounds' : Nat}
    (more : rounds ≤ rounds') :
    Agrees (chainWithin g statement rounds) (chainWithin g statement' rounds') := by
  induction rounds generalizing rounds' with
  | zero => exact agrees_stall _
  | succ rounds ih =>
      obtain ⟨larger, rfl⟩ : ∃ larger, rounds' = larger + 1 := ⟨rounds' - 1, by omega⟩
      refine .bind (.refl _) fun keyword => .bind (.refl _) fun condition => ?_
      refine .bind (.refl _) fun _ => .bind (agrees_framed h _ _) fun body => ?_
      refine .bind (.refl _) fun skipped => .bind (.refl _) fun kind => ?_
      split
      · refine .bind (.refl _) fun keyword => .bind (.refl _) fun _ => ?_
        refine .bind (.refl _) fun _ => .bind (.refl _) fun kind => ?_
        split
        · exact .bind (ih (by omega)) fun _ => .refl _
        · exact .bind (agrees_block h) fun _ => .refl _
      · exact .refl _

theorem agrees_conditional (h : Agrees statement statement') :
    Agrees (conditional g statement) (conditional g statement') :=
  .bind (.refl _) fun _ => .bind (agrees_chainWithin h (Nat.le_refl _)) fun _ => .refl _

theorem agrees_repeatWhile (h : Agrees statement statement') :
    Agrees (repeatWhile g statement) (repeatWhile g statement') := by
  refine .bind (.refl _) fun _ => .bind (.refl _) fun _ => .bind (.refl _) fun _ => ?_
  exact .bind (agrees_framed h _ _) fun _ => .refl _

theorem agrees_function (h : Agrees statement statement') :
    Agrees (function statement) (function statement') := by
  refine .bind (.refl _) fun _ => .bind (.refl _) fun _ => .bind (.refl _) fun _ => ?_
  refine .bind (.refl _) fun _ => .bind (.refl _) fun _ => .bind (.refl _) fun _ => ?_
  refine .bind (.refl _) fun _ => .bind (.refl _) fun _ => ?_
  exact .bind (agrees_block h) fun _ => .refl _

theorem agrees_ofRule (h : Agrees statement statement') (rule : StatementRule) :
    Agrees (ofRule g statement rule) (ofRule g statement' rule) := by
  cases rule with
  | conditional => exact agrees_conditional h
  | repeatWhile => exact agrees_repeatWhile h
  | function => exact agrees_function h
  | any => exact h
  | _ => exact .refl _

theorem agrees_parametersWithin {rounds rounds' : Nat} (more : rounds ≤ rounds') :
    Agrees (parametersWithin rounds) (parametersWithin rounds') := by
  induction rounds generalizing rounds' with
  | zero => exact agrees_stall _
  | succ rounds ih =>
      obtain ⟨larger, rfl⟩ : ∃ larger, rounds' = larger + 1 := ⟨rounds' - 1, by omega⟩
      refine .bind (.refl _) fun kind => ?_
      split
      · exact .refl _
      · refine .bind (.refl _) fun name => .bind (.refl _) fun _ => ?_
        refine .bind (.refl _) fun type => .bind (.refl _) fun _ => .bind (.refl _) fun next => ?_
        split
        · refine .bind (.refl _) fun _ => .bind (.refl _) fun _ => ?_
          exact .bind (ih (by omega)) fun _ => .refl _
        · exact .bind (.refl _) fun _ => .bind (ih (by omega)) fun _ => .refl _

theorem bounded_parametersWithin : Bounded parametersWithin where
  grows := agrees_parametersWithin
  enough p := (keeps_parametersWithin _ p).not_stalls (Nat.lt_succ_self _)

end Statement

namespace Grammar

variable {g : Grammar}

theorem agrees_statementWithin (g : Grammar) {depth depth' : Nat} (more : depth ≤ depth') :
    Agrees (g.statementWithin depth) (g.statementWithin depth') := by
  induction depth generalizing depth' with
  | zero => exact agrees_stall _
  | succ depth ih =>
      obtain ⟨larger, rfl⟩ : ∃ larger, depth' = larger + 1 := ⟨depth' - 1, by omega⟩
      refine .bind (.refl _) fun token => ?_
      cases g.statementRule? token.kind with
      | none => exact .refl _
      | some rule => exact .bind (Statement.agrees_ofRule (ih (by omega)) rule) fun _ => .refl _

theorem bounded_statementWithin (hg : g.Productive) : Bounded g.statementWithin where
  grows := agrees_statementWithin g
  enough p := (keeps_statementWithin hg _ p).not_stalls (Nat.lt_succ_self _)

theorem agrees_statement (hg : g.Productive) (depth : Nat) :
    Agrees (g.statementWithin depth) g.statement :=
  (bounded_statementWithin hg).agrees depth

theorem bounded_bodyWithin (hg : g.Productive) : Bounded (Statement.bodyWithin g.statement) where
  grows := Statement.agrees_bodyWithin (.refl _)
  enough p := (Statement.keeps_bodyWithin (n := p.cursor.remaining + 1) (keeps_statement hg) _
    p).not_stalls (by omega)

theorem bounded_chainWithin (hg : g.Productive) :
    Bounded (Statement.chainWithin g g.statement) where
  grows := Statement.agrees_chainWithin (.refl _)
  enough p := (Statement.keeps_chainWithin hg (n := p.cursor.remaining + 1) (keeps_statement hg)
    _ p).not_stalls (by omega)

theorem agrees_statementsWithin (g : Grammar) {rounds rounds' : Nat} (more : rounds ≤ rounds')
    (before : Program) :
    Agrees (g.statementsWithin rounds before) (g.statementsWithin rounds' before) := by
  induction rounds generalizing rounds' before with
  | zero => exact agrees_stall _
  | succ rounds ih =>
      obtain ⟨larger, rfl⟩ : ∃ larger, rounds' = larger + 1 := ⟨rounds' - 1, by omega⟩
      refine .bind (.refl _) fun _ => .bind (.refl _) fun kind => ?_
      split
      · exact .refl _
      · refine .bind (.refl _) fun stmt => ?_
        cases before.append stmt with
        | error error => exact .refl _
        | ok longer =>
            have rest : Agrees (g.statementsWithin rounds longer)
                (g.statementsWithin larger longer) := ih (by omega) longer
            cases stmt with
            | «attribute» attached => exact .bind (.refl _) fun _ => rest
            | _ => exact rest

theorem bounded_statementsWithin (hg : g.Productive) (before : Program) :
    Bounded fun rounds => g.statementsWithin rounds before where
  grows more := agrees_statementsWithin g more before
  enough p := (keeps_statementsWithin hg _ before p).not_stalls (Nat.lt_succ_self _)

end Grammar

end ImpFront
