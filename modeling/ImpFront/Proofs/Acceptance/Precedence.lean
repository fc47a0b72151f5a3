/-
  ImpFront.Proofs.Acceptance.Precedence
  ─────────────────────────────────────
  **PRECEDENCE AND ASSOCIATIVITY.**

  An operation on literals is written with the parentheses that the tiers of
  its operators call for, and with no others:

      left operand      in parentheses if its operator is of a looser tier
      right operand     … of a looser tier, or of the same one
      unary operand     … if it has a binary operator at all

  So written it is read back, whatever stands behind it that is no binary
  operator.  Operators of one tier group to the left, since a right operand of
  that tier has parentheses and a left one has none.

  The reader keeps the tree of what it has read so far and goes on with it.
  The induction is therefore over the tree, for any way of going on: to read
  an operation is to go on from behind it with its tree.
-/
import ImpFront.Proofs.Acceptance.Facing
import ImpFront.Proofs.Grammar.Completeness
import ImpFront.Proofs.Grammar.Fork

namespace ImpFront

open Grammar (standardOperand? standardPrecedence?)

/-! ## §1. Tiers. -/

namespace Kind

/-- How tightly the kind binds as a binary operator; zero if it is none. -/
def tier (kind : Kind) : Nat :=
  (standardPrecedence? kind).elim 0 Precedence.rank

/-- The binary operators, a row for each tier, the loosest first. -/
def operatorRows : List (List Kind) :=
  [[.and, .or, .xor],
    [.bitAnd, .bitOr, .shiftLeft, .shiftRight],
    [.equals, .notEquals, .less, .greater, .lessEquals, .greaterEquals],
    [.plus, .minus],
    [.multiply, .divide, .modulo],
    [.power]]

/-- **The tier of an operator is the number of its row,** and what is in no row
is no operator. -/
theorem tier_eq_row (kind : Kind) :
    kind.tier = (operatorRows.findIdx? (kind ∈ ·)).elim 0 Nat.succ := by
  cases kind <;> rfl

/-- **The nineteen binary operators** are those in the rows. -/
theorem isSome_standardPrecedence?_iff (kind : Kind) :
    (standardPrecedence? kind).isSome ↔ kind ∈ operatorRows.flatten := by
  cases kind <;> decide

example : operatorRows.flatten.length = 19 := rfl

variable {kind : Kind}

theorem tier_eq {tier : Precedence} (h : standardPrecedence? kind = some tier) :
    kind.tier = tier.rank := by
  unfold Kind.tier
  rw [h]
  rfl

theorem tier_pos (h : (standardPrecedence? kind).isSome) : 0 < kind.tier := by
  cases kind <;> first | contradiction | decide

/-- Unary operators bind tighter than all binary ones. -/
theorem tier_lt_unary (kind : Kind) : kind.tier < Precedence.unary.rank := by
  cases kind <;> decide

theorem ne_eof_of_operator (h : (standardPrecedence? kind).isSome) : kind ≠ .eof := by
  rintro rfl
  contradiction

end Kind

/-! ## §2. Operations and their spellings. -/

namespace Expr

/-- A tree of literals, unary and binary operators, each with the type that
its parts give it. -/
def Operation : Expr → Prop
  | .literal token type => BaseType.ofLiteral? token.kind = some type
  | .unary operator token operand type =>
    operator = token.kind ∧ standardOperand? token.kind = some .unary
      ∧ operand.base?.bind BaseType.unary? = some type ∧ operand.Operation
  | .binary operator token left right type =>
    operator = token.kind ∧ (standardPrecedence? token.kind).isSome
      ∧ (do BaseType.binary? (← left.base?) (← right.base?)) = some type
      ∧ left.Operation ∧ right.Operation
  | .call _ _ _ | .reference _ _ => False

/-- There is a binary operator at the root. -/
def isBinary : Expr → Bool
  | .binary _ _ _ _ _ => true
  | _ => false

/-- There is a binary operator at the root, of a tier below that. -/
def bindsBelow (tier : Nat) : Expr → Bool
  | .binary operator _ _ _ _ => operator.tier < tier
  | _ => false

theorem bindsBelow_of_le {e : Expr} {tier tier' : Nat} (h : e.bindsBelow tier = false)
    (hle : tier' ≤ tier) : e.bindsBelow tier' = false := by
  cases e with
  | binary operator token left right type =>
      simp only [bindsBelow, decide_eq_false_iff_not, Nat.not_lt] at h ⊢
      omega
  | _ => rfl

theorem bindsBelow_of_not_isBinary {e : Expr} (h : e.isBinary = false) (tier : Nat) :
    e.bindsBelow tier = false := by
  cases e with
  | binary => contradiction
  | _ => rfl

end Expr

/-- The tokens, with a pair of parentheses around them if that is needed. -/
inductive Enclosed (tokens : List Token) : Bool → List Token → Prop
  | bare : Enclosed tokens false tokens
  | inParens {opening closing : Token} (hopening : opening.kind = .openParen)
      (hclosing : closing.kind = .closeParen) :
      Enclosed tokens true (opening :: (tokens ++ [closing]))

/-- The tokens, with signs around them if that is needed. -/
def enclose : Bool → List Token → List Token
  | false, tokens => tokens
  | true, tokens => ImpFront.inParens tokens

theorem enclosed_enclose (needed : Bool) (tokens : List Token) :
    Enclosed tokens needed (enclose needed tokens) := by
  cases needed with
  | false => exact .bare
  | true => exact .inParens rfl rfl

theorem Enclosed.ne_eof {needed : Bool} {ts ts' : List Token} (h : Enclosed ts needed ts')
    (inner : ∀ token ∈ ts, token.kind ≠ .eof) : ∀ token ∈ ts', token.kind ≠ .eof := by
  cases h with
  | bare => exact inner
  | inParens hopening hclosing =>
      intro token hmem
      rcases List.mem_cons.1 hmem with rfl | hmem
      · rw [hopening]
        decide
      · rcases List.mem_append.1 hmem with hmem | hmem
        · exact inner token hmem
        · rw [List.mem_singleton.1 hmem, hclosing]
          decide

namespace Expr

/-- **The tokens spell the operation**, with no parentheses but those that its
tiers call for. -/
def Written : Expr → List Token → Prop
  | .literal token _, ts => ts = [token]
  | .unary _ token operand _, ts =>
    ∃ inner whole, operand.Written inner ∧ Enclosed inner operand.isBinary whole
      ∧ ts = token :: whole
  | .binary operator token left right _, ts =>
    ∃ before before' behind behind', left.Written before ∧ right.Written behind
      ∧ Enclosed before (left.bindsBelow operator.tier) before'
      ∧ Enclosed behind (right.bindsBelow (operator.tier + 1)) behind'
      ∧ ts = before' ++ token :: behind'
  | .call _ _ _, _ | .reference _ _, _ => False

/-- The tokens of an operation, with signs for its parentheses. -/
def sparse : Expr → List Token
  | .binary operator token left right _ =>
    enclose (left.bindsBelow operator.tier) left.sparse
      ++ token :: enclose (right.bindsBelow (operator.tier + 1)) right.sparse
  | .unary _ token operand _ => token :: enclose operand.isBinary operand.sparse
  | .literal token _ => [token]
  | .call name _ _ | .reference name _ => [name]

/-- Every operation can be spelled. -/
theorem written_sparse : ∀ {e : Expr}, e.Operation → e.Written e.sparse
  | .literal _ _, _ => rfl
  | .unary _ _ _ _, ⟨_, _, _, operand⟩ =>
      ⟨_, _, written_sparse operand, enclosed_enclose _ _, rfl⟩
  | .binary _ _ _ _ _, ⟨_, _, _, left, right⟩ =>
      ⟨_, _, _, _, written_sparse left, written_sparse right, enclosed_enclose _ _,
        enclosed_enclose _ _, rfl⟩
  | .call _ _ _, operation | .reference _ _, operation => operation.elim

/-- No token of an operation ends a file. -/
theorem Written.ne_eof : ∀ {e : Expr} {ts : List Token}, e.Written ts → e.Operation →
    ∀ token ∈ ts, token.kind ≠ .eof
  | .literal token type, ts, written, operation => by
      have typed : BaseType.ofLiteral? token.kind = some type := operation
      have alone : ts = [token] := written
      intro t hmem final
      rw [alone, List.mem_singleton] at hmem
      rw [← hmem, final] at typed
      contradiction
  | .unary operator token operand type, ts, written, operation => by
      obtain ⟨inner, whole, hinner, henclosed, rfl⟩ := written
      obtain ⟨-, rule, -, hoperand⟩ := operation
      have parts := henclosed.ne_eof (hinner.ne_eof hoperand)
      refine List.forall_mem_cons.2 ⟨?_, parts⟩
      intro final
      rw [final] at rule
      contradiction
  | .binary operator token left right type, ts, written, operation => by
      obtain ⟨before, before', behind, behind', hl, hr, hbefore, hbehind, rfl⟩ := written
      obtain ⟨-, listed, -, hleft, hright⟩ := operation
      refine List.forall_mem_append.2 ⟨hbefore.ne_eof (hl.ne_eof hleft), ?_⟩
      exact List.forall_mem_cons.2
        ⟨Kind.ne_eof_of_operator listed, hbehind.ne_eof (hr.ne_eof hright)⟩
  | .call _ _ _, _, _, operation | .reference _ _, _, _, operation => operation.elim

end Expr

/-! ## §3. Some tokens on. -/

namespace Parser

/-- The parser so many tokens on. -/
def after : Nat → Parser → Parser
  | 0, p => p
  | n + 1, p => after n p.next

theorem after_add (n m : Nat) (p : Parser) : p.after (n + m) = (p.after n).after m := by
  induction n generalizing p with
  | zero => rw [Nat.zero_add]; rfl
  | succ n ih =>
      rw [Nat.add_right_comm]
      exact ih p.next

theorem next_after (n : Nat) (p : Parser) : (p.after n).next = p.after (n + 1) :=
  (p.after_add n 1).symm

theorem after_eq (n : Nat) (p : Parser) :
    p.after n = { p with cursor := (p.after n).cursor } := by
  induction n generalizing p with
  | zero => rfl
  | succ n ih => exact ih p.next

theorem tokens_after (n : Nat) (p : Parser) : (p.after n).cursor.tokens = p.cursor.tokens := by
  induction n generalizing p with
  | zero => rfl
  | succ n ih => exact (ih p.next).trans p.cursor.tokens_advance

/-- Behind some tokens that it faces the parser faces the others. -/
theorem Faces.after {p : Parser} {ts rest : List Token} (h : p.Faces (ts ++ rest))
    (inner : ∀ token ∈ ts, token.kind ≠ .eof) :
    (p.after ts.length).Faces rest ∧ (p.after ts.length).cursor.index = p.cursor.index + ts.length := by
  induction ts generalizing p with
  | nil => exact ⟨h, rfl⟩
  | cons token ts ih =>
      obtain ⟨first, more⟩ := List.forall_mem_cons.1 inner
      obtain ⟨faces, index⟩ := ih (h.next first) more
      refine ⟨faces, index.trans ?_⟩
      have step : p.next.cursor.index = p.cursor.index + 1 :=
        Cursor.index_advance (show p.kind ≠ .eof by rwa [Faces.kind h])
      rw [step, List.length_cons]
      omega

end Parser

/-! ## §4. Reading operations. -/

section

variable {p r : Parser} {e f : Expr} {limit : Precedence} {ts ts' rest : List Token} {last : Token}

/-- In front of `last` the operation may stand as an operand above `limit`:
its own operator binds tighter than `limit`, and no looser than `last` does. -/
structure Expr.Fits (limit : Precedence) (last : Token) (e : Expr) : Prop where
  above : e.bindsBelow (limit.rank + 1) = false
  stops : ∀ next, standardPrecedence? last.kind = some next → e.bindsBelow next.rank = false

/-- Read as an operand above `limit` from these tokens on. -/
def Expr.ReadsOn (e : Expr) (ts : List Token) : Prop :=
  ∀ ⦃p r : Parser⦄ ⦃limit : Precedence⦄ ⦃last : Token⦄ ⦃rest : List Token⦄ ⦃f : Expr⦄,
    p.Faces (ts ++ last :: rest) → e.Fits limit last →
      Reads (.operators limit e f) (p.after ts.length) r → Reads (.expr limit f) p r

theorem Expr.Operation.bindsBelow_one (h : e.Operation) : e.bindsBelow 1 = false := by
  cases e with
  | binary operator token left right type =>
      obtain ⟨rfl, listed, -⟩ := h
      have hpos := Kind.tier_pos listed
      exact decide_eq_false (by omega)
  | _ => rfl

/-- Nothing else is read in front of a token that is no tighter operator. -/
theorem Parser.Faces.noOperator (faces : p.Faces (last :: rest))
    (stops : ∀ next, standardPrecedence? last.kind = some next → next.rank ≤ limit.rank) :
    Reads (.operators limit e e) p p := by
  refine .noOperator fun next hnext => stops next ?_
  rwa [← faces.kind]

/-- **Parentheses make every operation an operand.**  Where they are not needed
it is one as it is. -/
theorem Expr.ReadsOn.enclosed {needed : Bool} (h : e.ReadsOn ts) (operation : e.Operation)
    (inner : ∀ token ∈ ts, token.kind ≠ .eof) (henclosed : Enclosed ts needed ts')
    (faces : p.Faces (ts' ++ last :: rest)) (bare : needed = false → e.Fits limit last)
    (more : Reads (.operators limit e f) (p.after ts'.length) r) : Reads (.expr limit f) p r := by
  cases henclosed with
  | bare => exact h faces (bare rfl) more
  | @inParens opening closing hopening hclosing =>
      rw [List.cons_append, List.append_assoc] at faces
      have inside : p.next.Faces (ts ++ closing :: last :: rest) :=
        faces.next (by rw [hopening]; decide)
      have behind := (inside.after inner).1
      have stop : standardPrecedence? closing.kind = none := by
        rw [hclosing]
        rfl
      have whole : Reads (.expr .lowest e) p.next (p.next.after ts.length) := by
        refine h inside ⟨operation.bindsBelow_one, ?_⟩ (behind.noOperator ?_)
        all_goals
          intro next hnext
          rw [stop] at hnext
          contradiction
      have group : Reads (.operand e) p (p.next.after ts.length).next :=
        .grouping (faces.kind.trans hopening) whole (behind.kind.trans hclosing)
      refine .expr group ?_
      rw [List.length_cons, List.length_append, List.length_singleton] at more
      rw [Parser.next_after]
      exact more

/-- **An operation as written is read, and then the reader goes on with its
tree.** -/
theorem Expr.Operation.readsOn : ∀ {e : Expr} {ts : List Token}, e.Operation → e.Written ts →
    e.ReadsOn ts
  | .literal token type, ts, operation, written => by
      intro p r limit last rest f faces fits more
      have typed : BaseType.ofLiteral? token.kind = some type := operation
      obtain rfl : ts = [token] := written
      have first : p.current = token := faces.current
      subst first
      exact .expr (.literal typed) more
  | .unary operator token operand type, ts, operation, written => by
      intro p r limit last rest f faces fits more
      have nonfinal := written.ne_eof operation
      obtain ⟨rfl, rule, typed, hoperand⟩ := operation
      obtain ⟨inner, whole, hinner, henclosed, rfl⟩ := written
      have first : p.current = token := faces.current
      subst first
      have inside : p.next.Faces (whole ++ last :: rest) :=
        faces.next (nonfinal _ List.mem_cons_self)
      have behind := (faces.after nonfinal).1
      -- no binary operator binds as tightly, so none goes on with a bare operand
      have argument : Reads (.expr .unary operand) p.next (p.next.after whole.length) := by
        refine (hoperand.readsOn hinner).enclosed hoperand (hinner.ne_eof hoperand) henclosed inside
          ?_ (Parser.Faces.noOperator behind ?_)
        · intro bare
          exact ⟨bindsBelow_of_not_isBinary bare _,
            fun next _ => bindsBelow_of_not_isBinary bare next.rank⟩
        · intro next hnext
          have htier := last.kind.tier_lt_unary
          rw [Kind.tier_eq hnext] at htier
          exact Nat.le_of_lt htier
      exact .expr (.unary rule argument typed) more
  | .binary operator token left right type, ts, operation, written => by
      intro p r limit last rest f faces fits more
      have nonfinal := written.ne_eof operation
      obtain ⟨rfl, listed, typed, hleft, hright⟩ := operation
      obtain ⟨before, before', behind, behind', hl, hr, hbefore, hbehind, rfl⟩ := written
      obtain ⟨tier, sign⟩ := Option.isSome_iff_exists.1 listed
      have htier := Kind.tier_eq sign
      have hleft' := hbefore.ne_eof (hl.ne_eof hleft)
      rw [List.append_assoc, List.cons_append] at faces
      have there := (faces.after hleft').1
      have first : (p.after before'.length).current = token := there.current
      subst first
      have inside := there.next (Kind.ne_eof_of_operator listed)
      have finish := (inside.after (hbehind.ne_eof (hr.ne_eof hright))).1
      -- the operator of this node is above the limit, and `last` is no tighter
      have above : limit.rank < tier.rank := by
        have habove := fits.above
        simp only [bindsBelow, decide_eq_false_iff_not, Nat.not_lt] at habove
        omega
      have stops : ∀ next, standardPrecedence? last.kind = some next → next.rank ≤ tier.rank := by
        intro next hnext
        have hstops := fits.stops next hnext
        simp only [bindsBelow, decide_eq_false_iff_not, Nat.not_lt] at hstops
        omega
      have argument : Reads (.expr tier right) (p.after before'.length).next
          ((p.after before'.length).next.after behind'.length) := by
        refine (hright.readsOn hr).enclosed hright (hr.ne_eof hright) hbehind inside ?_
          (finish.noOperator stops)
        intro bare
        rw [htier] at bare
        -- bare, its own operator is tighter than this one, hence than `last`
        refine ⟨bare, fun next hnext => bindsBelow_of_le bare ?_⟩
        have hle := stops next hnext
        omega
      -- behind its left operand the node is read, and the reader goes on with it
      have node : Reads (.operators limit left f) (p.after before'.length) r := by
        refine .operator sign above argument typed ?_
        rw [Parser.next_after, ← Parser.after_add]
        rw [List.length_append, List.length_cons, ← Nat.add_assoc, Nat.add_right_comm] at more
        exact more
      refine (hleft.readsOn hl).enclosed hleft (hl.ne_eof hleft) hbefore faces ?_ node
      intro bare
      rw [htier] at bare
      constructor
      · exact bindsBelow_of_le bare above
      · -- what stands behind the left operand is the operator of this node
        intro next hnext
        obtain rfl := Option.some.inj (sign.symm.trans hnext)
        exact bare
  | .call _ _ _, _, operation, _ | .reference _ _, _, operation, _ => operation.elim

end

/-! ## §5. Whole operations. -/

/-- **Precedence and associativity.**  Every operation on literals can be
written with the parentheses that its tiers call for alone.  However it is so
written, and whatever token stands behind it that is no binary operator, the
reader of expressions returns that operation.  It stops at that token, and
changes nothing but the cursor. -/
theorem Expr.Operation.read_back {e : Expr} (operation : e.Operation) :
    e.Written e.sparse
      ∧ ∀ (ts : List Token) (p : Parser) (last : Token) (rest : List Token),
        e.Written ts → p.Faces (ts ++ last :: rest) → standardPrecedence? last.kind = none →
          ∃ q, Grammar.standard.expr .lowest p = .ok e q
            ∧ q.current = last
            ∧ q.cursor.index = p.cursor.index + ts.length
            ∧ q.cursor.tokens = p.cursor.tokens
            ∧ q.scopes = p.scopes ∧ q.blockDepth = p.blockDepth ∧ q.warnings = p.warnings := by
  refine ⟨written_sparse operation, ?_⟩
  intro ts p last rest written faces stop
  obtain ⟨there, index⟩ := faces.after (written.ne_eof operation)
  have fits : e.Fits .lowest last := by
    refine ⟨operation.bindsBelow_one, ?_⟩
    intro next hnext
    rw [stop] at hnext
    contradiction
  have reads : Reads (.expr .lowest e) p (p.after ts.length) := by
    refine operation.readsOn written faces fits (there.noOperator ?_)
    intro next hnext
    rw [stop] at hnext
    contradiction
  have reached : Reaches (Grammar.standard.expr .lowest) p e (p.after ts.length) := reads.reached
  obtain ⟨journal, hread⟩ := reached p.journal
  have same := p.after_eq ts.length
  refine ⟨_, hread, there.current, index, p.tokens_after ts.length, ?_, ?_, ?_⟩
  · exact (congrArg Parser.scopes same :)
  · exact (congrArg Parser.blockDepth same :)
  · exact (congrArg Parser.warnings same :)

/-- An integer of one digit. -/
def digit (value : String) : Expr :=
  .literal ⟨.integer, value, ⟨0, 1, 1⟩⟩ .integer

/-- `1 - 2 - (3 - 4) * -(5 + 6)`. -/
def mixedTiers : Expr :=
  .binary .minus Kind.minus.sign
    (.binary .minus Kind.minus.sign (digit "1") (digit "2") .integer)
    (.binary .multiply Kind.multiply.sign
      (.binary .minus Kind.minus.sign (digit "3") (digit "4") .integer)
      (.unary .minus Kind.minus.sign
        (.binary .plus Kind.plus.sign (digit "5") (digit "6") .integer) .integer) .integer)
    .integer

theorem operation_mixedTiers : mixedTiers.Operation := by
  simp [mixedTiers, digit, Expr.Operation, Expr.base?, BaseType.ofLiteral?, BaseType.binary?,
    BaseType.unary?, BaseType.isNumeric, standardPrecedence?, standardOperand?]

example : mixedTiers.sparse.map Token.kind =
    [.integer, .minus, .integer, .minus, .openParen, .integer, .minus, .integer, .closeParen,
      .multiply, .minus, .openParen, .integer, .plus, .integer, .closeParen] :=
  rfl

/-- Of the two differences of differences only the one on the right has
parentheses; they are read back in front of a comma. -/
theorem read_back_mixedTiers :
    ∃ q, Grammar.standard.expr .lowest (.ofTokens (mixedTiers.sparse ++ [Kind.comma.sign]))
        = .ok mixedTiers q
      ∧ q.current = Kind.comma.sign ∧ q.cursor.index = 16 := by
  obtain ⟨written, back⟩ := operation_mixedTiers.read_back
  obtain ⟨q, hread, current, index, -⟩ := back mixedTiers.sparse
    (.ofTokens (mixedTiers.sparse ++ [Kind.comma.sign])) Kind.comma.sign
    [⟨.eof, "", ⟨0, 0, 0⟩⟩] written rfl rfl
  exact ⟨q, hread, current, index⟩

end ImpFront
