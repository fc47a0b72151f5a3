/-
  ImpFront.Proofs.Grammar.Soundness
  ─────────────────────────────────
  **WHAT A RULE ACCEPTS, IT HAS READ.**

  Each rule of the grammar that succeeds has read its phrase, in the sense of
  `Reads`.  The rules take the readers of expressions and of statements as
  arguments, so that their lemmas take what is known of these readers, and the
  knot is tied by induction on the depth.

      parse file tokens = (.ok program, p)
        →  Reads (.file program.clauses) (Parser.ofTokens tokens) p.silent
-/
import ImpFront.Proofs.Grammar.Steps
import ImpFront.Proofs.Tree.Mentions

namespace ImpFront

open Parse

/-! ## §1. Expressions. -/

namespace Grammar

theorem eq_openParen_of_grouping {kind : Kind} (h : standardOperand? kind = some .grouping) :
    kind = .openParen := by
  cases kind <;> first | rfl | cases h

theorem eq_identifier_of_identifier {kind : Kind}
    (h : standardOperand? kind = some .identifier) : kind = .identifier := by
  cases kind <;> first | rfl | cases h

/-- The kind of token that a rule for statements stands for.  An identifier may
begin two sorts of statements, and nothing begins a statement of any sort. -/
def kindOfRule (rule : StatementRule) (kind : Kind) : Prop :=
  match rule with
  | .conditional => kind = .kwIf
  | .repeatWhile => kind = .kwWhile
  | .leaveLoop => kind = .kwBreak
  | .nextRound => kind = .kwContinue
  | .function => kind = .kwFunc
  | .giveBack => kind = .kwReturn
  | .declare => kind = .kwVar
  | .identifier => kind = .identifier
  | .expression => kind = .openParen
  | .attribute => kind = .attribute
  | .any => False

theorem kindOfRule_of_standardStatement? {kind : Kind} {rule : StatementRule}
    (h : standardStatement? kind = some rule) : kindOfRule rule kind := by
  cases kind <;> first | (cases h; rfl) | cases h

end Grammar

namespace Expression

/-- What a reader of expressions gives, it has read. -/
def Faithful (expr : Precedence → Parse Expr) : Prop :=
  ∀ {limit p e q}, expr limit p = .ok e q → Reads (.expr limit e) p.silent q.silent

variable {expr : Precedence → Parse Expr} {p q : Parser} {e : Expr}

theorem reads_literal (h : literal p = .ok e q) : Reads (.operand e) p.silent q.silent := by
  simp only [literal, bind_ok_iff, current_ok_iff] at h
  obtain ⟨_, _, ⟨rfl, rfl⟩, h⟩ := h
  cases ht : BaseType.ofLiteral? p.current.kind with
  | none =>
      simp only [ht] at h
      exact (unexpected_ok_iff.1 h).elim
  | some type =>
      simp only [ht, bind_ok_iff, advance_ok_iff, pure_ok_iff] at h
      obtain ⟨_, _, ⟨-, rfl⟩, rfl, rfl⟩ := h
      exact .literal (p := p.silent) ht

theorem reads_unary (he : Faithful expr) (rule : Grammar.standardOperand? p.kind = some .unary)
    (h : unary expr p = .ok e q) : Reads (.operand e) p.silent q.silent := by
  simp only [unary, bind_ok_iff, advance_ok_iff] at h
  obtain ⟨_, _, ⟨rfl, rfl⟩, operand, r, hr, h⟩ := h
  cases ht : operand.base?.bind BaseType.unary? with
  | none =>
      simp only [ht] at h
      exact (throw_ok_iff.1 h).elim
  | some type =>
      simp only [ht] at h
      obtain ⟨rfl, rfl⟩ := pure_ok_iff.1 h
      exact .unary (p := p.silent) rule (he hr) ht

theorem reads_grouping (he : Faithful expr) (rule : p.kind = .openParen)
    (h : grouping expr p = .ok e q) : Reads (.operand e) p.silent q.silent := by
  simp only [grouping, bind_ok_iff, advance_ok_iff, expect_ok_iff, pure_ok_iff] at h
  obtain ⟨_, _, ⟨-, rfl⟩, inner, r, hr, _, _, ⟨closing, -, rfl⟩, rfl, rfl⟩ := h
  exact .grouping (p := p.silent) (q := r.silent) rule (he hr) closing

private theorem visibleType_ok {name : Token} {type : BaseType}
    (h : visibleType name p = .ok type q) :
    ∃ symbol, p.scopes.lookup? name.value = some symbol ∧ symbol.declaredBase = type ∧ p = q := by
  simp only [visibleType, bind_ok_iff, scopes_ok_iff, Scopes.declaredType] at h
  obtain ⟨_, _, ⟨rfl, rfl⟩, h⟩ := h
  cases hl : p.scopes.lookup? name.value with
  | none =>
      simp only [hl] at h
      exact (throw_ok_iff.1 h).elim
  | some symbol =>
      simp only [hl] at h
      obtain ⟨rfl, rfl⟩ := pure_ok_iff.1 h
      exact ⟨symbol, rfl, rfl, rfl⟩

theorem reads_reference (rule : p.kind = .identifier) (alone : p.next.kind ≠ .openParen)
    (h : reference p = .ok e q) : Reads (.operand e) p.silent q.silent := by
  have alone : p.silent.atApplication = false := by
    have : p.silent.next.kind ≠ .openParen := alone
    simp [Parser.atApplication, this]
  simp only [reference, bind_ok_iff, advance_ok_iff, scopes_ok_iff] at h
  obtain ⟨_, _, ⟨rfl, rfl⟩, _, _, ⟨rfl, rfl⟩, h⟩ := h
  cases attached : p.scopes.inAttribute with
  | true =>
      simp only [Parser.scopes_next, attached, ↓reduceIte] at h
      cases ht : DeclaredType.builtin? p.current.value with
      | some type =>
          simp only [ht] at h
          obtain ⟨rfl, rfl⟩ := pure_ok_iff.1 h
          exact .builtin (p := p.silent) rule alone attached ht
      | none =>
          simp only [ht, bind_ok_iff, pure_ok_iff] at h
          obtain ⟨_, _, hv, rfl, rfl⟩ := h
          obtain ⟨symbol, hl, rfl, rfl⟩ := visibleType_ok hv
          exact .attached (p := p.silent) rule alone attached ht hl
  | false =>
      simp only [Parser.scopes_next, attached, Bool.false_eq_true, ↓reduceIte, bind_ok_iff] at h
      obtain ⟨type, _, hv, h⟩ := h
      obtain ⟨symbol, hl, rfl, rfl⟩ := visibleType_ok hv
      split at h
      · exact (throw_ok_iff.1 h).elim
      · next value =>
          obtain ⟨rfl, rfl⟩ := pure_ok_iff.1 h
          exact .reference (p := p.silent) rule alone attached hl value

theorem reads_argumentsWithin (he : Faithful expr) {rounds : Nat} {es : List Expr}
    (h : argumentsWithin expr rounds p = .ok es q) :
    Reads (.arguments es) p.silent q.silent := by
  -- on the rounds left for the list: to run out of them is an error
  induction rounds generalizing p es with
  | zero => exact (stall_ok_iff.1 h).elim
  | succ rounds ih =>
      simp only [argumentsWithin, bind_ok_iff, currentKind_ok_iff] at h
      obtain ⟨_, _, ⟨rfl, rfl⟩, h⟩ := h
      by_cases closing : p.kind = .closeParen
      · simp only [closing, bind_ok_iff, advance_ok_iff, pure_ok_iff] at h
        obtain ⟨_, _, ⟨-, rfl⟩, rfl, rfl⟩ := h
        exact .noArgument (p := p.silent) closing
      · by_cases ending : p.kind = .eof
        · simp only [ending] at h
          exact (unexpected_ok_iff.1 h).elim
        · simp only [bind_ok_iff, currentKind_ok_iff] at h
          obtain ⟨e, r, hr, _, _, ⟨rfl, rfl⟩, h⟩ := h
          rw [optionalComma_ok_iff] at h
          simp only [bind_ok_iff, skipNewlines_ok_iff, pure_ok_iff] at h
          obtain ⟨_, _, ⟨-, rfl⟩, rest, t, ht, rfl, rfl⟩ := h
          have := ih ht
          rw [Parser.silent_pastLines, Parser.silent_pastComma] at this
          exact .argument (p := p.silent) closing ending (he hr) this

theorem reads_arguments (he : Faithful expr) {es : List Expr}
    (h : arguments expr p = .ok es q) : Reads (.arguments es) p.silent.pastLines q.silent := by
  simp only [arguments, bind_ok_iff, skipNewlines_ok_iff, budget_ok_iff] at h
  obtain ⟨_, _, ⟨-, rfl⟩, _, _, ⟨-, rfl⟩, h⟩ := h
  exact reads_argumentsWithin he h

private theorem callee_ok {name : Token} {a : Unit} (h : callee name p = .ok a q) :
    (∀ symbol, p.scopes.lookup? name.value = some symbol → symbol.isFunction = true)
      ∧ q.silent = p.silent.withScopes (p.scopes.mark name) := by
  simp only [callee, bind_ok_iff, scopes_ok_iff] at h
  obtain ⟨_, _, ⟨rfl, rfl⟩, h⟩ := h
  split at h
  · simp only [bind_ok_iff, throw_ok_iff, false_and, exists_false] at h
  · next callable =>
      refine ⟨fun symbol hl => ?_, mark_ok h⟩
      simpa [hl] using callable

private theorem returnType_ok {name : Token} {type : Option BaseType}
    (h : returnType name p = .ok type q) :
    type = p.callType name.value ∧ q.silent = p.silent := by
  simp only [returnType, bind_ok_iff, scopes_ok_iff] at h
  obtain ⟨_, _, ⟨rfl, rfl⟩, h⟩ := h
  unfold Parser.callType
  cases hv : p.scopes.visibleFunction? name.value with
  | some symbol =>
      simp only [hv] at h
      obtain ⟨rfl, rfl⟩ := pure_ok_iff.1 h
      exact ⟨rfl, rfl⟩
  | none =>
      simp only [hv, bind_ok_iff, get_ok_iff, record_ok_iff, pure_ok_iff] at h
      obtain ⟨_, _, ⟨rfl, rfl⟩, _, _, rfl, rfl, rfl⟩ := h
      exact ⟨rfl, rfl⟩

theorem reads_call (he : Faithful expr) (rule : p.kind = .identifier)
    (h : call expr p = .ok e q) : Reads (.operand e) p.silent q.silent := by
  simp only [call, application, bind_ok_iff, expect_ok_iff, pure_ok_iff, ↓reduceIte] at h
  obtain ⟨⟨name, es⟩, r, ⟨_, _, ⟨-, rfl, rfl⟩, _, _, ⟨opening, -, rfl⟩, _, t, hc, es', r', hr,
    same, rfl⟩, type, u, hu, rfl, rfl⟩ := h
  obtain ⟨rfl, rfl⟩ := Prod.mk.inj same
  obtain ⟨callable, ht⟩ := callee_ok hc
  obtain ⟨rfl, hq⟩ := returnType_ok hu
  have application : p.silent.atApplication = true := by
    have : p.silent.kind = .identifier := rule
    have : p.silent.next.kind = .openParen := opening
    simp [Parser.atApplication, *]
  have := reads_arguments he hr
  rw [ht] at this
  rw [hq]
  exact .call (p := p.silent) (q := r'.silent) application callable this

theorem reads_identifier (he : Faithful expr) (rule : p.kind = .identifier)
    (h : identifier expr p = .ok e q) : Reads (.operand e) p.silent q.silent := by
  simp only [identifier, bind_ok_iff, peek_ok_iff] at h
  obtain ⟨_, _, ⟨rfl, rfl⟩, h⟩ := h
  rw [← Cursor.current_advance] at h
  split at h
  · exact reads_call he rule h
  · next alone => exact reads_reference rule alone h

/-- **An operand that is accepted has been read.** -/
theorem reads_operand (he : Faithful expr) {rule : OperandRule}
    (hr : Grammar.standardOperand? p.kind = some rule)
    (h : operand expr rule p = .ok e q) : Reads (.operand e) p.silent q.silent := by
  cases rule with
  | unary => exact reads_unary he hr h
  | grouping => exact reads_grouping he (Grammar.eq_openParen_of_grouping hr) h
  | literal => exact reads_literal h
  | identifier => exact reads_identifier he (Grammar.eq_identifier_of_identifier hr) h

private theorem binary_ok {left : Expr} {precedence : Precedence}
    (h : binary expr left precedence p = .ok e q) :
    ∃ right type, expr precedence p.next = .ok right q
      ∧ (do BaseType.binary? (← left.base?) (← right.base?)) = some type
      ∧ e = .binary p.kind p.current left right type := by
  simp only [binary, bind_ok_iff, advance_ok_iff] at h
  obtain ⟨_, _, ⟨rfl, rfl⟩, right, r, hr, h⟩ := h
  cases ht : (do BaseType.binary? (← left.base?) (← right.base?)) with
  | none =>
      simp only [ht] at h
      exact (throw_ok_iff.1 h).elim
  | some type =>
      simp only [ht] at h
      obtain ⟨rfl, rfl⟩ := pure_ok_iff.1 h
      exact ⟨right, type, hr, ht, rfl⟩

theorem reads_operatorsWithin (he : Faithful expr) {limit : Precedence} {rounds : Nat}
    {left : Expr} (h : operatorsWithin .standard expr limit rounds left p = .ok e q) :
    Reads (.operators limit left e) p.silent q.silent := by
  -- the expression in front of the operators grows from round to round
  induction rounds generalizing p left with
  | zero => exact (stall_ok_iff.1 h).elim
  | succ rounds ih =>
      simp only [operatorsWithin, bind_ok_iff, currentKind_ok_iff] at h
      obtain ⟨_, _, ⟨rfl, rfl⟩, h⟩ := h
      cases hp : Grammar.standardPrecedence? p.kind with
      | none =>
          simp only [Grammar.standard, hp] at h
          obtain ⟨rfl, rfl⟩ := pure_ok_iff.1 h
          exact .noOperator fun next hn => absurd (hp.symm.trans hn) (by simp)
      | some next =>
          simp only [Grammar.standard, hp] at h
          split at h
          · next loose =>
              obtain ⟨rfl, rfl⟩ := pure_ok_iff.1 h
              refine .noOperator fun other ho => ?_
              obtain rfl := Option.some.inj (hp.symm.trans ho)
              exact loose
          · next tight =>
              rw [bind_ok_iff] at h
              obtain ⟨whole, r, hb, h⟩ := h
              obtain ⟨right, type, hr, ht, rfl⟩ := binary_ok hb
              exact .operator (p := p.silent) hp (Nat.lt_of_not_le tight) (he hr) ht (ih h)

end Expression

namespace Grammar

theorem reads_exprWithin (depth : Nat) : Expression.Faithful (exprWithin standard depth) := by
  -- an expression within another is read with one less depth
  induction depth with
  | zero => exact fun h => (stall_ok_iff.1 h).elim
  | succ depth ih =>
      intro limit p e q h
      simp only [exprWithin, bind_ok_iff, currentKind_ok_iff] at h
      obtain ⟨_, _, ⟨rfl, rfl⟩, h⟩ := h
      cases hr : standardOperand? p.kind with
      | none =>
          simp only [standard, hr, bind_ok_iff, throw_ok_iff, and_false, exists_false] at h
      | some rule =>
          simp only [standard, hr, Expression.operators, bind_ok_iff, budget_ok_iff] at h
          obtain ⟨left, r, hl, _, _, ⟨-, rfl⟩, ho⟩ := h
          exact .expr (Expression.reads_operand ih hr hl) (Expression.reads_operatorsWithin ih ho)

/-- **An expression that is accepted has been read.** -/
theorem reads_expr : Expression.Faithful standard.expr := by
  intro limit p e q h
  simp only [Grammar.expr, bind_ok_iff, budget_ok_iff] at h
  obtain ⟨_, _, ⟨-, rfl⟩, h⟩ := h
  exact reads_exprWithin _ h

end Grammar

/-! ## §2. Blocks, conditions and loops. -/

namespace Statement

/-- What a reader of statements gives, it has read. -/
def Faithful (statement : Parse Stmt) : Prop :=
  ∀ {p s q}, statement p = .ok s q → Reads (.statement s) p.silent q.silent

variable {statement : Parse Stmt} {p q : Parser} {s : Stmt}

theorem reads_bodyWithin (hs : Faithful statement) {rounds : Nat} {ss : List Stmt}
    (h : bodyWithin statement rounds p = .ok ss q) : Reads (.body ss) p.silent q.silent := by
  induction rounds generalizing p ss with
  | zero => exact (stall_ok_iff.1 h).elim
  | succ rounds ih =>
      simp only [bodyWithin, bind_ok_iff, currentKind_ok_iff] at h
      obtain ⟨_, _, ⟨rfl, rfl⟩, h⟩ := h
      by_cases closing : p.kind = .closeCurly
      · simp only [closing] at h
        obtain ⟨rfl, rfl⟩ := pure_ok_iff.1 h
        exact .emptyBody closing
      · by_cases ending : p.kind = .eof
        · simp only [ending] at h
          exact (unexpected_ok_iff.1 h).elim
        · simp only [bind_ok_iff, skipTerminators_ok_iff, pure_ok_iff] at h
          obtain ⟨first, r, hf, _, _, ⟨-, rfl⟩, rest, t, ht, rfl, rfl⟩ := h
          exact .body (p := p.silent) (q := r.silent) closing ending (hs hf) (ih ht)

theorem reads_block (hs : Faithful statement) {ss : List Stmt}
    (h : block statement p = .ok ss q) : Reads (.block ss) p.silent q.silent := by
  simp only [block, bind_ok_iff, expect_ok_iff, enterBlock_ok_iff, skipTerminators_ok_iff,
    budget_ok_iff, exitBlock_ok_iff, pure_ok_iff] at h
  obtain ⟨_, _, ⟨opening, -, rfl⟩, _, _, rfl, _, _, ⟨-, rfl⟩, _, _, ⟨-, rfl⟩, body, r, hr,
    _, _, rfl, _, _, ⟨closing, -, rfl⟩, rfl, rfl⟩ := h
  exact .block (p := p.silent) (q := r.silent) opening (reads_bodyWithin hs hr) closing

theorem reads_framed (hs : Faithful statement) {kind : FrameKind}
    (hk : kind = .conditional ∨ kind = .loop)
    {place : Token} {ss : List Stmt} (h : framed statement kind place p = .ok ss q) :
    Reads (.framed kind ss) p.silent q.silent := by
  simp only [framed, bind_ok_iff, pure_ok_iff] at h
  obtain ⟨_, r, he, body, t, hb, _, u, hx, rfl, rfl⟩ := h
  obtain ⟨s, hs', hr⟩ := enterScope_ok he
  obtain ⟨s', hs'', hu⟩ := exitScope_ok hx
  rw [hu]
  exact .framed (q := t.silent) hk hs' (hr ▸ reads_block hs hb) hs''

/-- Line ends that are given back leave no trace. -/
private theorem rewind_ok {a : Unit}
    (h : rewind (p.cursor.run (· == .newline)).length p.pastLines = .ok a q) : q = p := by
  rw [← rewind_ok_iff.1 h]
  simp [Parser.pastLines, Parser.past, Cursor.rewind_skip]

theorem reads_chainWithin (hs : Faithful statement) {rounds : Nat} {condition : Expr}
    {body : List Stmt} {otherwise : Otherwise}
    (rule : p.kind = .kwIf)
    (h : chainWithin .standard statement rounds p = .ok (condition, body, otherwise) q) :
    Reads (.chain condition body otherwise) p.silent q.silent := by
  -- on the links of the chain: each ends with one more link, with a block, or with nothing
  induction rounds generalizing p q condition body otherwise with
  | zero => exact (stall_ok_iff.1 h).elim
  | succ rounds ih =>
      simp only [chainWithin, bind_ok_iff, advance_ok_iff, skipNewlines_ok_iff,
        currentKind_ok_iff] at h
      obtain ⟨_, _, ⟨rfl, rfl⟩, condition', r, hc, _, _, ⟨-, rfl⟩, body', t, hb, _, _,
        ⟨rfl, rfl⟩, _, _, ⟨rfl, rfl⟩, h⟩ := h
      have hc := Grammar.reads_expr hc
      have hb := reads_framed hs (.inl rfl) hb
      split at h
      · next more =>
          simp only [bind_ok_iff, advance_ok_iff, skipNewlines_ok_iff, currentKind_ok_iff] at h
          obtain ⟨_, _, ⟨rfl, rfl⟩, _, _, ⟨-, rfl⟩, _, u, he, _, _, ⟨rfl, rfl⟩, h⟩ := h
          obtain ⟨s, hs', hu⟩ := enterScope_ok he
          split at h
          · next again =>
              simp only [bind_ok_iff, pure_ok_iff, Prod.mk.injEq] at h
              obtain ⟨link, v, hl, _, _, ⟨rfl, rfl⟩, _, w, hx, ⟨rfl, rfl, rfl⟩, rfl⟩ := h
              obtain ⟨s', hs'', hw⟩ := exitScope_ok hx
              have hl := ih again hl
              rw [hu] at hl
              rw [hw]
              exact .nextLink (p := p.silent) (q := r.silent) (r := t.silent) (u := v.silent)
                rule hc hb more (Parser.kind_eq_of_silent hu ▸ again) hs' hl hs''
          · next block =>
              simp only [bind_ok_iff, pure_ok_iff, Prod.mk.injEq] at h
              obtain ⟨last, v, hl, _, _, ⟨rfl, rfl⟩, _, w, hx, ⟨rfl, rfl, rfl⟩, rfl⟩ := h
              obtain ⟨s', hs'', hw⟩ := exitScope_ok hx
              have hl := reads_block hs hl
              rw [hu] at hl
              rw [hw]
              exact .elseLink (p := p.silent) (q := r.silent) (r := t.silent)
                rule hc hb more (Parser.kind_eq_of_silent hu ▸ block)
                (.framed (q := v.silent) (.inl rfl) hs' hl hs'')
      · next last =>
          simp only [bind_ok_iff, pure_ok_iff, Prod.mk.injEq] at h
          obtain ⟨_, u, hr, ⟨rfl, rfl, rfl⟩, rfl⟩ := h
          rw [rewind_ok hr]
          exact .lastLink (p := p.silent) (q := r.silent) rule hc hb last

theorem reads_conditional (hs : Faithful statement) (rule : p.kind = .kwIf)
    (h : conditional .standard statement p = .ok s q) : Reads (.clause s) p.silent q.silent := by
  simp only [conditional, bind_ok_iff, budget_ok_iff, pure_ok_iff] at h
  obtain ⟨_, _, ⟨-, rfl⟩, link, r, hl, rfl, rfl⟩ := h
  exact .conditional (reads_chainWithin hs rule hl)

theorem reads_repeatWhile (hs : Faithful statement) (rule : p.kind = .kwWhile)
    (h : repeatWhile .standard statement p = .ok s q) : Reads (.clause s) p.silent q.silent := by
  simp only [repeatWhile, bind_ok_iff, advance_ok_iff, skipNewlines_ok_iff, pure_ok_iff] at h
  obtain ⟨_, _, ⟨rfl, rfl⟩, condition, r, hc, _, _, ⟨-, rfl⟩, body, t, hb, rfl, rfl⟩ := h
  exact .repeatWhile (p := p.silent) (q := r.silent) rule (Grammar.reads_expr hc)
    (reads_framed hs (.inr rfl) hb)

/-! ## §3. Functions. -/

theorem reads_parametersWithin {rounds : Nat} {ps : List Parameter}
    (h : parametersWithin rounds p = .ok ps q) : Reads (.parameters ps) p.silent q.silent := by
  induction rounds generalizing p ps with
  | zero => exact (stall_ok_iff.1 h).elim
  | succ rounds ih =>
      simp only [parametersWithin, bind_ok_iff, currentKind_ok_iff] at h
      obtain ⟨_, _, ⟨rfl, rfl⟩, h⟩ := h
      split at h
      · next closing =>
          simp only [bind_ok_iff, advance_ok_iff, pure_ok_iff] at h
          obtain ⟨_, _, ⟨-, rfl⟩, rfl, rfl⟩ := h
          exact .noParameter (p := p.silent) closing
      · simp only [bind_ok_iff, expect_ok_iff, currentKind_ok_iff] at h
        obtain ⟨_, _, ⟨name, rfl, rfl⟩, _, _, ⟨colon, -, rfl⟩, _, _, ⟨type, rfl, rfl⟩, _, r, hd,
          _, _, ⟨rfl, rfl⟩, h⟩ := h
        rw [optionalComma_ok_iff] at h
        simp only [bind_ok_iff, skipNewlines_ok_iff, pure_ok_iff] at h
        obtain ⟨_, _, ⟨-, rfl⟩, rest, t, ht, rfl, rfl⟩ := h
        obtain ⟨s, hs, hr⟩ := define_ok hd
        have := ih ht
        rw [Parser.silent_pastLines, Parser.silent_pastComma, hr] at this
        exact .parameter (p := p.silent) name colon type hs this

theorem reads_parameters {ps : List Parameter} (h : parameters p = .ok ps q) :
    Reads (.parameters ps) p.silent.pastLines q.silent := by
  simp only [parameters, bind_ok_iff, skipNewlines_ok_iff, budget_ok_iff] at h
  obtain ⟨_, _, ⟨-, rfl⟩, _, _, ⟨-, rfl⟩, h⟩ := h
  exact reads_parametersWithin h

theorem reads_returnType {type : Option Token} (h : returnType p = .ok type q) :
    Reads (.returns type) p.silent q.silent := by
  simp only [returnType, bind_ok_iff, currentKind_ok_iff] at h
  obtain ⟨_, _, ⟨rfl, rfl⟩, h⟩ := h
  split at h
  · next arrow =>
      simp only [bind_ok_iff, advance_ok_iff, expect_ok_iff, pure_ok_iff] at h
      obtain ⟨_, _, ⟨-, rfl⟩, _, _, ⟨name, rfl, rfl⟩, rfl, rfl⟩ := h
      exact .returns (p := p.silent) arrow name
  · next arrow =>
      obtain ⟨rfl, rfl⟩ := pure_ok_iff.1 h
      exact .noReturn arrow

theorem reads_function (hs : Faithful statement) (rule : p.kind = .kwFunc)
    (h : function statement p = .ok s q) : Reads (.clause s) p.silent q.silent := by
  simp only [function, bind_ok_iff, advance_ok_iff, expect_ok_iff, skipNewlines_ok_iff,
    delete_ok_iff, record_ok_iff, pure_ok_iff] at h
  obtain ⟨_, _, ⟨rfl, rfl⟩, _, _, ⟨name, rfl, rfl⟩, _, _, ⟨opening, -, rfl⟩, _, a, he, ps, b, hp,
    type, c, hr, _, _, ⟨-, rfl⟩, _, d, hd, body, e, hb, _, f, hx, _, _, rfl, _, g, hd', _, _,
    rfl, rfl, rfl⟩ := h
  -- the scopes inside: opened, with the name bound, closed, and with the name bound again
  obtain ⟨s₁, hs₁, ha⟩ := enterScope_ok he
  obtain ⟨s₂, hs₂, hd⟩ := define_ok hd
  obtain ⟨s₃, hs₃, hf⟩ := exitScope_ok hx
  obtain ⟨s₄, hs₄, hg⟩ := define_ok hd'
  have hp := reads_parameters hp
  have hb := reads_block hs hb
  rw [ha] at hp
  rw [hd] at hb
  -- what was noted in the journal on the way makes no difference to the scopes
  have hf' : f.scopes = s₃ := congrArg Parser.scopes hf
  rw [Parser.scopes_withScopes, hf'] at hs₄
  have same : g.silent = e.silent.withScopes s₄ := by
    rw [hg]
    show f.silent.withScopes s₄ = _
    rw [hf]
    rfl
  rw [Parser.silent_record, same]
  exact .function (p := p.silent) (q := b.silent) (r := c.silent) (u := e.silent)
    rule name opening hs₁ hp (reads_returnType hr) hs₂ hb hs₃ hs₄

theorem reads_giveBack (rule : p.kind = .kwReturn) (h : giveBack .standard p = .ok s q) :
    Reads (.clause s) p.silent q.silent := by
  simp only [giveBack, bind_ok_iff, advance_ok_iff, atStatementEnd_ok_iff] at h
  obtain ⟨_, _, ⟨rfl, rfl⟩, _, _, ⟨rfl, rfl⟩, h⟩ := h
  split at h
  · next ending =>
      obtain ⟨rfl, rfl⟩ := pure_ok_iff.1 h
      exact .giveNothingBack (p := p.silent) rule ending
  · next more =>
      simp only [bind_ok_iff, pure_ok_iff] at h
      obtain ⟨value, r, hr, rfl, rfl⟩ := h
      exact .giveBack (p := p.silent) rule (Bool.eq_false_iff.2 more) (Grammar.reads_expr hr)

/-! ## §4. Variables. -/

private theorem expectType_ok {expected : BaseType} {value : Expr} {operator : Token} {a : Unit}
    (h : expectType expected value operator p = .ok a q) :
    value.base? = some expected ∧ p = q := by
  unfold expectType at h
  split at h
  · next fits => exact ⟨fits, (pure_ok_iff.1 h).2⟩
  · exact (throw_ok_iff.1 h).elim

/-- A warning in front of a step does no more than to be given. -/
private theorem warning_ok {note : Option Note} {x : Parse Stmt}
    (h : (match note with
      | some note => do
        warn note
        x
      | none => x) p = .ok s q) :
    ∃ r, r.silent = p.silent.warned note ∧ x r = .ok s q := by
  cases note with
  | none => exact ⟨p, by simp [Parser.warned, Parser.silent], h⟩
  | some note =>
      simp only [bind_ok_iff, warn_ok_iff] at h
      obtain ⟨_, _, rfl, h⟩ := h
      exact ⟨_, rfl, h⟩

theorem reads_declare (rule : p.kind = .kwVar) (h : declare .standard p = .ok s q) :
    Reads (.clause s) p.silent q.silent := by
  simp only [declare, bind_ok_iff, advance_ok_iff, expect_ok_iff, atStatementEnd_ok_iff] at h
  obtain ⟨_, _, ⟨-, rfl⟩, _, _, ⟨name, rfl, rfl⟩, _, _, ⟨colon, -, rfl⟩, _, _, ⟨type, rfl, rfl⟩,
    _, _, ⟨rfl, rfl⟩, h⟩ := h
  split at h
  · next ending =>
      simp only [bind_ok_iff, pure_ok_iff] at h
      obtain ⟨_, r, hd, rfl, rfl⟩ := h
      obtain ⟨t, ht, hr⟩ := define_ok hd
      rw [hr]
      exact .declare (p := p.silent) rule name colon type ending ht
  · simp only [bind_ok_iff, currentKind_ok_iff] at h
    obtain ⟨_, _, ⟨rfl, rfl⟩, h⟩ := h
    split at h
    · next sign =>
        simp only [bind_ok_iff, advance_ok_iff] at h
        obtain ⟨_, _, ⟨rfl, rfl⟩, value, r, hr, _, _, hc, h⟩ := h
        obtain ⟨fits, rfl⟩ := expectType_ok hc
        obtain ⟨r', hr', h⟩ := warning_ok h
        simp only [bind_ok_iff, pure_ok_iff] at h
        obtain ⟨_, u, hd, rfl, rfl⟩ := h
        obtain ⟨t, ht, hu⟩ := define_ok hd
        -- a warning is given after the value is read and before the name is bound
        have unchanged : r'.scopes = r.scopes := (congrArg Parser.scopes hr' :)
        rw [hu, hr']
        exact .initialise (p := p.silent) (q := r.silent) rule name colon type sign
          (Grammar.reads_expr hr) fits (unchanged ▸ ht)
    · exact (unexpected_ok_iff.1 h).elim

private theorem compoundValue_ok {operator name : Token} {type : BaseType} {value e : Expr}
    (h : compoundValue operator name type value p = .ok e q) :
    p = q ∧ (operator.kind.compoundOperator? = none ∧ e = value
      ∨ ∃ applied result, operator.kind.compoundOperator? = some applied
          ∧ BaseType.binary? type type = some result
          ∧ e = .binary applied operator (.reference name type) value result) := by
  unfold compoundValue at h
  cases ha : operator.kind.compoundOperator? with
  | none =>
      simp only [ha] at h
      obtain ⟨rfl, rfl⟩ := pure_ok_iff.1 h
      exact ⟨rfl, .inl ⟨rfl, rfl⟩⟩
  | some applied =>
      simp only [ha] at h
      cases hr : BaseType.binary? type type with
      | none =>
          simp only [hr] at h
          exact (throw_ok_iff.1 h).elim
      | some result =>
          simp only [hr] at h
          obtain ⟨rfl, rfl⟩ := pure_ok_iff.1 h
          exact ⟨rfl, .inr ⟨applied, result, rfl, rfl, rfl⟩⟩

theorem reads_assign (rule : p.kind = .identifier) (sign : p.next.kind.isAssignment = true)
    (h : assign .standard p = .ok s q) : Reads (.clause s) p.silent q.silent := by
  simp only [assign, bind_ok_iff, advance_ok_iff, scopes_ok_iff] at h
  obtain ⟨_, _, ⟨rfl, rfl⟩, _, _, ⟨rfl, rfl⟩, value, r, hr, _, _, ⟨rfl, rfl⟩, h⟩ := h
  cases hl : r.scopes.lookup? p.current.value with
  | none =>
      simp only [hl] at h
      exact (throw_ok_iff.1 h).elim
  | some symbol =>
      simp only [hl, bind_ok_iff, pure_ok_iff] at h
      obtain ⟨_, _, hc, e, _, hv, rfl, rfl⟩ := h
      obtain ⟨fits, rfl⟩ := expectType_ok hc
      obtain ⟨rfl, ⟨simple, rfl⟩ | ⟨applied, result, operator, typed, rfl⟩⟩ := compoundValue_ok hv
      -- of the signs for assignment only the plain one stands for no operator
      · have simple : p.next.kind.compoundOperator? = none := simple
        have sign : p.next.kind = .assign := by simpa [Kind.isAssignment, simple] using sign
        exact .assign (p := p.silent) (q := r.silent) rule sign (Grammar.reads_expr hr) hl fits
      · exact .compound (p := p.silent) (q := r.silent) rule operator (Grammar.reads_expr hr)
          hl fits typed

theorem reads_expression
    (rule : p.kind = .identifier ∧ p.next.kind.isAssignment = false ∨ p.kind = .openParen)
    (h : expression .standard p = .ok s q) : Reads (.clause s) p.silent q.silent := by
  simp only [expression, bind_ok_iff, pure_ok_iff] at h
  obtain ⟨value, r, hr, rfl, rfl⟩ := h
  exact .expression (p := p.silent) rule (Grammar.reads_expr hr)

theorem reads_identifier (rule : p.kind = .identifier)
    (h : identifier .standard p = .ok s q) : Reads (.clause s) p.silent q.silent := by
  simp only [identifier, bind_ok_iff, peek_ok_iff] at h
  obtain ⟨_, _, ⟨rfl, rfl⟩, h⟩ := h
  rw [← Cursor.current_advance] at h
  split at h
  · next sign => exact reads_assign rule sign h
  · next other => exact reads_expression (.inl ⟨rule, Bool.eq_false_iff.2 other⟩) h

/-! ## §5. Attributes. -/

private theorem attributeEnd_ok {a : Unit} (h : attributeEnd p = .ok a q) :
    p.atAttributeEnd = true ∧ p = q := by
  simp only [attributeEnd, bind_ok_iff, current_ok_iff] at h
  obtain ⟨_, _, ⟨rfl, rfl⟩, h⟩ := h
  by_cases ending : p.current.kind = .newline ∨ p.current.kind = .semicolon
      ∨ p.current.kind = .eof
  · obtain e | e | e := ending
    all_goals
      simp only [e] at h
      exact ⟨by simp only [Parser.atAttributeEnd, Parser.kind, e], (pure_ok_iff.1 h).2⟩
  · rw [not_or, not_or] at ending
    obtain ⟨newline, semicolon, eof⟩ := ending
    simp only [throw_ok_iff] at h

private theorem application_ok {name : Token} {es : List Expr}
    (h : Expression.application Grammar.standard.expr false p = .ok (name, es) q) :
    p.atApplication = true ∧ name = p.current
      ∧ Reads (.arguments es) p.silent.next.next.pastLines q.silent := by
  simp only [Expression.application, bind_ok_iff, expect_ok_iff, pure_ok_iff, Bool.false_eq_true,
    ↓reduceIte, Prod.mk.injEq] at h
  obtain ⟨_, _, ⟨rule, rfl, rfl⟩, _, _, ⟨opening, -, rfl⟩, _, r, hr, ⟨rfl, rfl⟩, rfl⟩ := h
  exact ⟨by simp [Parser.atApplication, *], rfl, Expression.reads_arguments Grammar.reads_expr hr⟩

private theorem imported_ok {keyword : Token} {signature : Signature}
    (h : imported .standard keyword p = .ok signature q) :
    keyword.value = Token.importAttribute ∧ p.atApplication = true
      ∧ ∃ es r ps type u s, Reads (.arguments es) p.silent.next.next.pastLines r
          ∧ es.mapM importedParameter = .ok ps ∧ Reads (.returns type) r u
          ∧ signature = ⟨keyword, p.current, ps, type⟩
          ∧ Scopes.define signature.symbol u.scopes = .ok () s ∧ q.silent = u.withScopes s := by
  unfold imported at h
  split at h
  · simp only [bind_ok_iff, throw_ok_iff, false_and, exists_false] at h
  · next known =>
      simp only [bind_ok_iff] at h
      obtain ⟨⟨name, es⟩, r, ha, h⟩ := h
      obtain ⟨application, rfl, hr⟩ := application_ok ha
      refine ⟨Decidable.not_not.1 known, application, es, ?_⟩
      cases hm : es.mapM importedParameter with
      | error e =>
          simp only [hm] at h
          exact (throw_ok_iff.1 h).elim
      | ok ps =>
          simp only [hm, bind_ok_iff, record_ok_iff, pure_ok_iff] at h
          obtain ⟨type, u, hu, _, v, hd, _, _, rfl, rfl, rfl⟩ := h
          obtain ⟨s, hs, hv⟩ := define_ok hd
          exact ⟨r.silent, ps, type, u.silent, s, hr, rfl, reads_returnType hu, rfl, hs, hv⟩

private theorem attributeValue_ok {keyword : Token} {value : AttributeValue}
    (h : attributeValue .standard keyword p = .ok value q) :
    (∃ signature, value = .imported signature
        ∧ imported .standard keyword p = .ok signature q)
      ∨ p.atApplication = false
        ∧ ∃ e, value = .expression e ∧ Reads (.expr .lowest e) p.silent q.silent := by
  simp only [attributeValue, bind_ok_iff, currentKind_ok_iff, peek_ok_iff] at h
  obtain ⟨_, _, ⟨rfl, rfl⟩, _, _, ⟨rfl, rfl⟩, h⟩ := h
  rw [← Cursor.current_advance] at h
  split at h
  · simp only [bind_ok_iff, pure_ok_iff] at h
    obtain ⟨signature, _, hs, rfl, rfl⟩ := h
    exact .inl ⟨signature, rfl, hs⟩
  · next alone =>
      simp only [bind_ok_iff, pure_ok_iff] at h
      obtain ⟨e, _, he, rfl, rfl⟩ := h
      exact .inr ⟨Bool.eq_false_iff.2 alone, e, rfl, Grammar.reads_expr he⟩

theorem reads_attributed (rule : p.kind = .attribute) (h : attributed .standard p = .ok s q) :
    Reads (.clause s) p.silent q.silent := by
  simp only [attributed, bind_ok_iff, advance_ok_iff, atStatementEnd_ok_iff] at h
  obtain ⟨_, _, ⟨rfl, rfl⟩, _, _, ⟨rfl, rfl⟩, h⟩ := h
  split at h
  · next ending =>
      obtain ⟨rfl, rfl⟩ := pure_ok_iff.1 h
      exact .bareAttribute (p := p.silent) rule ending
  · next more =>
      have more : p.next.atStatementEnd = false := Bool.eq_false_iff.2 more
      simp only [bind_ok_iff, pure_ok_iff] at h
      obtain ⟨_, a, he, value, b, hv, _, _, hx, _, c, hc, rfl, rfl⟩ := h
      obtain ⟨ending, rfl⟩ := attributeEnd_ok hx
      obtain ⟨s₁, hs₁, ha⟩ := enterScope_ok he
      obtain ⟨s₂, hs₂, hc⟩ := exitScope_ok hc
      -- the frame around the value changes nothing of what stands there
      have place : a.atApplication = p.next.atApplication :=
        (congrArg Parser.atApplication ha :)
      obtain ⟨signature, rfl, hi⟩ | ⟨alone, e, rfl, hr⟩ := attributeValue_ok hv
      · obtain ⟨known, application, es, r, ps, type, u, t, hr, hm, hu, rfl, hs, hb⟩ :=
          imported_ok hi
        have name : a.current = p.next.current := (congrArg Parser.current ha :)
        have left : b.scopes = t := (congrArg Parser.scopes hb :)
        have there : b.atAttributeEnd = u.atAttributeEnd :=
          (congrArg Parser.atAttributeEnd hb :)
        rw [there] at ending
        rw [ha] at hr
        rw [left] at hs₂
        rw [name] at hs ⊢
        rw [hc, hb]
        exact .imported (p := p.silent) (r := u) rule more hs₁ (place ▸ application) known hr hm
          hu hs ending hs₂
      · rw [ha] at hr
        rw [hc]
        exact .attributeValue (p := p.silent) (q := b.silent) rule more hs₁ (place ▸ alone) hr
          ending hs₂

/-! ## §6. Statements and files. -/

/-- **The statement of a rule that is accepted has been read.** -/
theorem reads_ofRule (hs : Faithful statement) {rule : StatementRule}
    (hr : Grammar.standardStatement? p.kind = some rule)
    (h : ofRule .standard statement rule p = .ok s q) : Reads (.clause s) p.silent q.silent := by
  -- the first token is of the kind that the rule is for, so that each rule has one reading
  have begins := Grammar.kindOfRule_of_standardStatement? hr
  match rule, begins, h with
  | .conditional, begins, h => exact reads_conditional hs begins h
  | .repeatWhile, begins, h => exact reads_repeatWhile hs begins h
  | .leaveLoop, begins, h =>
      simp only [ofRule, bind_ok_iff, advance_ok_iff, pure_ok_iff] at h
      obtain ⟨_, _, ⟨rfl, rfl⟩, rfl, rfl⟩ := h
      exact .leaveLoop (p := p.silent) begins
  | .nextRound, begins, h =>
      simp only [ofRule, bind_ok_iff, advance_ok_iff, pure_ok_iff] at h
      obtain ⟨_, _, ⟨rfl, rfl⟩, rfl, rfl⟩ := h
      exact .nextRound (p := p.silent) begins
  | .function, begins, h => exact reads_function hs begins h
  | .giveBack, begins, h => exact reads_giveBack begins h
  | .declare, begins, h => exact reads_declare begins h
  | .identifier, begins, h => exact reads_identifier begins h
  | .expression, begins, h => exact reads_expression (.inr begins) h
  | .attribute, begins, h => exact reads_attributed begins h
  | .any, begins, _ => exact begins.elim

private theorem terminated_ok {a : Unit} (h : terminated p = .ok a q) :
    p.atStatementEnd = true ∧ p = q := by
  simp only [terminated, bind_ok_iff, atStatementEnd_ok_iff] at h
  obtain ⟨_, _, ⟨rfl, rfl⟩, h⟩ := h
  split at h
  · next ending => exact ⟨ending, (pure_ok_iff.1 h).2⟩
  · simp only [bind_ok_iff, throw_ok_iff, and_false, exists_false] at h

end Statement

namespace Grammar

variable {p q : Parser}

theorem reads_statementWithin (depth : Nat) :
    Statement.Faithful (statementWithin standard depth) := by
  -- a statement within another is read with one less depth
  induction depth with
  | zero => exact fun h => (stall_ok_iff.1 h).elim
  | succ depth ih =>
      intro p s q h
      simp only [statementWithin, bind_ok_iff, current_ok_iff] at h
      obtain ⟨_, _, ⟨rfl, rfl⟩, h⟩ := h
      cases hr : standardStatement? p.kind with
      | none =>
          have hr : standardStatement? p.current.kind = none := hr
          simp only [standard, hr] at h
          exact (throw_ok_iff.1 h).elim
      | some rule =>
          have known : standardStatement? p.current.kind = some rule := hr
          simp only [standard, known, bind_ok_iff, pure_ok_iff] at h
          obtain ⟨stmt, r, hc, _, _, ht, rfl, rfl⟩ := h
          obtain ⟨ending, rfl⟩ := Statement.terminated_ok ht
          exact .statement (Statement.reads_ofRule ih hr hc) ending

theorem reads_statement : Statement.Faithful standard.statement := by
  intro p s q h
  simp only [Grammar.statement, bind_ok_iff, budget_ok_iff] at h
  obtain ⟨_, _, ⟨-, rfl⟩, h⟩ := h
  exact reads_statementWithin _ h

/-- The journal is all that an attribute of a file adds to. -/
private theorem appended_ok {stmt : Stmt} {x : Parse Program} {program : Program}
    (h : (match stmt with
      | .attribute attached => do
        record (.appended attached.token.value)
        x
      | _ => x) p = .ok program q) :
    ∃ r, r.silent = p.silent ∧ x r = .ok program q := by
  split at h
  · simp only [bind_ok_iff, record_ok_iff] at h
    obtain ⟨_, r, rfl, h⟩ := h
    exact ⟨p.record _, rfl, h⟩
  · exact ⟨p, rfl, h⟩

theorem reads_statementsWithin {rounds : Nat} {program longer : Program}
    (h : statementsWithin standard rounds program p = .ok longer q) :
    ∃ ss, longer.clauses = program.clauses ++ ss ∧ Reads (.file ss) p.silent q.silent := by
  induction rounds generalizing p program with
  | zero => exact (stall_ok_iff.1 h).elim
  | succ rounds ih =>
      simp only [statementsWithin, bind_ok_iff, skipTerminators_ok_iff, currentKind_ok_iff] at h
      obtain ⟨_, _, ⟨-, rfl⟩, _, _, ⟨rfl, rfl⟩, h⟩ := h
      split at h
      · next ending =>
          obtain ⟨rfl, rfl⟩ := pure_ok_iff.1 h
          exact ⟨[], (List.append_nil _).symm, .emptyFile (p := p.silent) ending⟩
      · next more =>
          rw [bind_ok_iff] at h
          obtain ⟨stmt, r, hr, h⟩ := h
          cases hp : program.append stmt with
          | error e =>
              simp only [hp] at h
              exact (throw_ok_iff.1 h).elim
          | ok next =>
              simp only [hp] at h
              obtain ⟨t, ht, h⟩ := appended_ok h
              obtain ⟨ss, rest, hss⟩ := ih h
              rw [ht] at hss
              -- attributes come before statements, so that what is appended comes last
              refine ⟨stmt :: ss, ?_, .file (p := p.silent) more (reads_statement hr) hss⟩
              rw [rest, Program.clauses_append hp, List.append_assoc, List.singleton_append]

/-- **A file that is accepted has been read, and no call in it is left
unanswered.** -/
theorem reads_file {file : String} {tokens : List Token} {order : Table.Traversal Pending}
    {program : Program} {p : Parser} (h : parse file tokens order = (.ok program, p)) :
    Reads (.file program.clauses) (Parser.ofTokens tokens) p.silent
      ∧ p.scopes.unresolved? order = none := by
  obtain ⟨q, accepted, rfl⟩ := parse_ok_iff.1 h
  obtain ⟨statements, answered⟩ := program_ok_iff.1 accepted
  obtain ⟨ss, clauses, hss⟩ := reads_statementsWithin statements
  rw [clauses]
  exact ⟨hss, answered⟩

end Grammar

end ImpFront
