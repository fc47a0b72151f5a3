/-
  ImpFront.Proofs.Grammar.Pairing
  ───────────────────────────────
  **EXPRESSIONS READ IN TWO PLACES.**

  An expression is read up to a rest, and no token of that is needed to read
  it.  So it is read as well where the same tokens stand in front of another
  rest.  What has to be known of two such parsers is said once, as a pairing:

      kind     the next token is of the same kind, or closes a parenthesis
      step     a token in front of the rest is the same, and can be passed
      types    a type that a call has is the type that it has there

  From this both are taken over every expression, by one induction.  The two
  trees are the same if calls have the same types; otherwise a call may have
  a type in the second one only, which then stands where the first one does.
-/
import Mathlib.Data.List.Forall2
import ImpFront.Proofs.Acceptance.Facing
import ImpFront.Proofs.Grammar.Ending

namespace ImpFront

open Cursor (Over)
open Grammar (standardOperand? standardPrecedence?)

/-! ## §1. What is left behind a phrase. -/

theorem Cursor.Over.isSuffix {P : Token → Prop} {c d : Cursor} (h : Over P c d) :
    d.rest <:+ c.rest := by
  induction h with
  | refl => exact List.suffix_rfl
  | @step c d _ _ ih =>
      refine ih.trans ?_
      unfold Cursor.advance Cursor.rest
      split
      · exact List.suffix_rfl
      · next token rest ahead =>
        rw [ahead]
        exact List.suffix_cons token (rest ++ [c.final])

theorem Parser.isSuffix_next (p : Parser) : p.next.cursor.rest <:+ p.cursor.rest :=
  (Over.one (P := fun _ => True) trivial).isSuffix

theorem Parser.isSuffix_past (test : Kind → Bool) (p : Parser) :
    (p.past test).cursor.rest <:+ p.cursor.rest :=
  (Over.skip p.cursor test).isSuffix

theorem Parser.isSuffix_pastLines (p : Parser) : p.pastLines.cursor.rest <:+ p.cursor.rest :=
  p.isSuffix_past _

theorem Parser.isSuffix_pastComma (p : Parser) : p.pastComma.cursor.rest <:+ p.cursor.rest :=
  (over_pastComma (P := fun _ => True) (fun _ _ => trivial) p).isSuffix

theorem Reads.isSuffix {phrase : Phrase} {p q : Parser} (h : Reads phrase p q) :
    q.cursor.rest <:+ p.cursor.rest :=
  h.inner.isSuffix

namespace Parser

variable {p : Parser}

theorem past_of_pos {test : Kind → Bool} (h : test p.kind = true) :
    p.past test = p.next.past test := by
  have skip : p.cursor.skip test = p.cursor.advance.skip test := Cursor.skip_of_pos h
  unfold Parser.past
  rw [skip]
  rfl

theorem past_of_neg {test : Kind → Bool} (h : test p.kind = false) : p.past test = p := by
  have skip : p.cursor.skip test = p.cursor := Cursor.skip_of_not h
  unfold Parser.past
  rw [skip]

theorem pastLines_of_line (h : p.kind = .newline) : p.pastLines = p.next.pastLines :=
  past_of_pos (beq_iff_eq.2 h)

theorem pastLines_of_other (h : p.kind ≠ .newline) : p.pastLines = p :=
  past_of_neg (beq_eq_false_iff_ne.2 h)

/-- A token that is passed in front of `rest` is one of those between. -/
theorem Faces.eq_cons {between rest : List Token} (h : p.Faces (between ++ rest))
    (inner : p.kind ≠ .eof) (still : rest <:+ p.next.cursor.rest) :
    between = p.current :: between.tail := by
  cases between with
  | nil =>
      have faces : p.cursor.rest = rest := h
      have tokens : p.cursor.rest = p.current :: p.next.cursor.rest := Cursor.rest_eq_cons inner
      have short := still.length_le
      rw [← faces, tokens, List.length_cons] at short
      omega
  | cons token between => rw [h.current, List.tail_cons]

end Parser

theorem Reads.isSome_standardOperand? {limit : Precedence} {e : Expr} {p q : Parser}
    (h : Reads (.expr limit e) p q) : (standardOperand? p.kind).isSome := by
  cases h with
  | expr operand _ =>
      cases operand with
      | literal known =>
          generalize p.kind = kind at known
          cases kind <;> first | rfl | cases known
      | unary rule => rw [rule]; rfl
      | grouping opening => rw [opening]; rfl
      | builtin name => rw [name]; rfl
      | attached name => rw [name]; rfl
      | reference name => rw [name]; rfl
      | call here => rw [(Parser.kind_of_atApplication here).1]; rfl

/-! ## §2. Pairings. -/

/-- Parsers that may stand for each other in front of `rest`, where calls are
typed in the first one only if they are in the second one, and not `exact`ly
alike otherwise. -/
structure Pairing (exact : Prop) (rest : List Token) (paired : Parser → Parser → Prop) :
    Prop where
  /-- The next token is of the same kind, unless the second parser is at the
  end of the expression. -/
  kind : ∀ {p p'}, paired p p' → p'.kind = p.kind ∨ p'.kind = .closeParen
  scopes : ∀ {p p'}, paired p p' → p'.scopes = p.scopes
  withScopes : ∀ {p p'} (s : Scopes), paired p p' → paired (p.withScopes s) (p'.withScopes s)
  /-- A token in front of `rest` can be passed. -/
  step : ∀ {p p'}, paired p p' → p.kind ≠ .kwFunc ∧ p.kind ≠ .attribute → p.kind ≠ .eof →
    rest <:+ p.next.cursor.rest → p'.current = p.current ∧ paired p.next p'.next
  /-- A call has the same type, if it has one. -/
  types : ∀ {p p'}, paired p p' → ∀ name type,
    p.callType name = some type → p'.callType name = some type
  exactly : exact → ∀ {p p'}, paired p p' → ∀ name, p'.callType name = p.callType name

namespace Pairing

variable {exact : Prop} {rest : List Token} {paired : Parser → Parser → Prop} {p p' : Parser}

section

variable (P : Pairing exact rest paired)
include P

theorem passes {kind : Kind} (h : paired p p') (hk : p.kind = kind)
    (quiet : kind ≠ .kwFunc ∧ kind ≠ .attribute) (inner : kind ≠ .eof)
    (still : rest <:+ p.next.cursor.rest) : p'.current = p.current ∧ paired p.next p'.next :=
  P.step h (by rwa [hk]) (by rwa [hk]) still

/-- A token of which a table knows the kind can be passed. -/
theorem listed {α : Type} {table : Kind → Option α} {entry : α} (h : paired p p')
    (known : table p.kind = some entry)
    (other : table .kwFunc = none ∧ table .attribute = none ∧ table .eof = none)
    (still : rest <:+ p.next.cursor.rest) : p'.current = p.current ∧ paired p.next p'.next := by
  refine P.step h (Kind.quiet_of_listed known other.1 other.2.1) (fun final => ?_) still
  rw [final, other.2.2] at known
  cases known

/-- A token of another kind is of another kind there. -/
theorem other {kind : Kind} (h : paired p p') (hk : p.kind ≠ kind) (behind : kind ≠ .closeParen) :
    p'.kind ≠ kind := by
  rcases P.kind h with same | close
  · rwa [same]
  · rw [close]
    exact behind.symm

/-- A name stands alone there if it does here. -/
theorem atApplication (onward : paired p.next p'.next) (alone : p.atApplication = false)
    (name : p.kind = .identifier) : p'.atApplication = false := by
  have here : p.next.kind ≠ .openParen := by
    simpa [Parser.atApplication, name] using alone
  have there := P.other onward here (by decide)
  simp [Parser.atApplication, there]

/-- A run of tokens in front of `rest` can be passed. -/
theorem past {test : Kind → Bool} (other : test .kwFunc = false ∧ test .attribute = false
    ∧ test .eof = false ∧ test .closeParen = false) {p p' : Parser} (h : paired p p')
    (still : rest <:+ (p.past test).cursor.rest) : paired (p.past test) (p'.past test) := by
  cases ht : test p.kind with
  | true =>
      rw [Parser.past_of_pos ht] at still ⊢
      have differs : ∀ {kind}, test kind = false → p.kind ≠ kind := by
        rintro kind hk rfl
        rw [hk] at ht
        cases ht
      obtain ⟨same, onward⟩ := P.step h ⟨differs other.1, differs other.2.1⟩
        (differs other.2.2.1) (still.trans (p.next.isSuffix_past test))
      have ht' : test p'.kind = true := by rwa [Parser.kind, same]
      rw [Parser.past_of_pos ht']
      exact past other onward still
  | false =>
      have ht' : test p'.kind = false := by
        rcases P.kind h with same | close
        · rwa [same]
        · rw [close]
          exact other.2.2.2
      rwa [Parser.past_of_neg ht, Parser.past_of_neg ht']
termination_by p.cursor.remaining
decreasing_by
  have inner := p.cursor.remaining_pos_of_current (differs other.2.2.1)
  have fewer : p.next.cursor.remaining = p.cursor.remaining - 1 := p.cursor.remaining_advance
  omega

/-- Line ends in front of `rest` can be passed. -/
theorem pastLines (h : paired p p') (still : rest <:+ p.pastLines.cursor.rest) :
    paired p.pastLines p'.pastLines :=
  P.past (by decide) h still

theorem pastSeparators (h : paired p p') (still : rest <:+ p.pastSeparators.cursor.rest) :
    paired p.pastSeparators p'.pastSeparators :=
  P.past (by decide) h still

/-- A comma in front of `rest` can be passed. -/
theorem pastComma (h : paired p p') (still : rest <:+ p.pastComma.cursor.rest) :
    paired p.pastComma p'.pastComma := by
  by_cases comma : p.kind = .comma
  · have left : p.pastComma = p.next := if_pos comma
    rw [left] at still ⊢
    obtain ⟨same, onward⟩ := P.passes h comma (by decide) (by decide) still
    have right : p'.pastComma = p'.next := if_pos (show p'.current.kind = .comma by rwa [same])
    rwa [right]
  · have other : p'.kind ≠ .comma := P.other h comma (by decide)
    rwa [show p.pastComma = p from if_neg comma, show p'.pastComma = p' from if_neg other]

end

end Pairing

/-! ## §3. Trees that stand for each other. -/

/-- The second expression can stand where the first one does: as an operand,
as a value, and as the type of a parameter. -/
structure Expr.StandsFor (exact : Prop) (e e' : Expr) : Prop where
  base : ∀ type, e.base? = some type → e'.base? = some type
  parameter : ∀ parameter, Statement.importedParameter e = .ok parameter →
    Statement.importedParameter e' = .ok parameter
  same : exact → e' = e

theorem Expr.StandsFor.refl {exact : Prop} (e : Expr) : e.StandsFor exact e :=
  ⟨fun _ => id, fun _ => id, fun _ => rfl⟩

/-- What is no name is no type, so that another expression of its base type
can stand there. -/
theorem Expr.StandsFor.of_base {exact : Prop} {e e' : Expr}
    (other : ∀ name type, e ≠ .reference name type)
    (base : ∀ type, e.base? = some type → e'.base? = some type) (same : exact → e' = e) :
    e.StandsFor exact e' where
  base := base
  parameter parameter h := by
    cases e with
    | reference name type => exact absurd rfl (other name type)
    | _ => cases h
  same := same

/-- The phrase is read from the second parser on, with trees that stand for
those of the first one. -/
def Phrase.ReadFrom (exact : Prop) (p' q' : Parser) : Phrase → Prop
  | .operand e => ∃ e', e.StandsFor exact e' ∧ Reads (.operand e') p' q'
  | .operators limit left e =>
    ∀ left', left.StandsFor exact left' →
      ∃ e', e.StandsFor exact e' ∧ Reads (.operators limit left' e') p' q'
  | .expr limit e => ∃ e', e.StandsFor exact e' ∧ Reads (.expr limit e') p' q'
  | .arguments es =>
    ∃ es', List.Forall₂ (Expr.StandsFor exact) es es' ∧ Reads (.arguments es') p' q'
  | _ => True

/-! ## §4. Reading. -/

/-- Signs and types that fit operands fit those that stand for them. -/
theorem Expr.StandsFor.binary {exact : Prop} {left left' right right' : Expr} {type : BaseType}
    (hl : left.StandsFor exact left') (hr : right.StandsFor exact right')
    (typed : (do BaseType.binary? (← left.base?) (← right.base?)) = some type) :
    (do BaseType.binary? (← left'.base?) (← right'.base?)) = some type := by
  cases hbl : left.base? with
  | none => rw [hbl] at typed; cases typed
  | some a =>
      cases hbr : right.base? with
      | none => rw [hbl, hbr] at typed; cases typed
      | some b =>
          rw [hl.base a hbl, hr.base b hbr]
          rwa [hbl, hbr] at typed

variable {exact : Prop} {rest : List Token} {paired : Parser → Parser → Prop}

/-- **An expression that ends in front of `rest` is read from a paired parser,
too**, and the parsers behind it are paired. -/
theorem Reads.readFrom (P : Pairing exact rest paired) {phrase : Phrase} {p q : Parser}
    (h : Reads phrase p q) (expression : phrase.isExpression = true)
    (still : rest <:+ q.cursor.rest) {p' : Parser} (hp : paired p p') :
    ∃ q', paired q q' ∧ phrase.ReadFrom exact p' q' := by
  induction h generalizing p' with
  | @literal p type known =>
      obtain ⟨same, onward⟩ := P.listed hp known (by decide) still
      have known : BaseType.ofLiteral? p'.kind = some type := by rwa [Parser.kind, same]
      have read := Reads.literal known
      rw [same] at read
      exact ⟨_, onward, _, .refl _, read⟩
  | @unary p q operand type rule inside typed ih =>
      obtain ⟨same, onward⟩ := P.listed hp rule (by decide) (still.trans inside.isSuffix)
      obtain ⟨q', behind, operand', stands, read⟩ := ih rfl still onward
      have rule : standardOperand? p'.kind = some .unary := by rwa [Parser.kind, same]
      have typed' : operand'.base?.bind BaseType.unary? = some type := by
        obtain ⟨base, hbase, sign⟩ := Option.bind_eq_some_iff.1 typed
        rw [stands.base base hbase]
        exact sign
      have read := Reads.unary rule read typed'
      rw [Parser.kind, same] at read
      refine ⟨q', behind, .unary p.kind p.current operand' type,
        .of_base nofun (fun _ => id) fun ex => ?_, read⟩
      rw [stands.same ex]
  | @grouping p q e opening inside closes ih =>
      have stillq := still.trans q.isSuffix_next
      obtain ⟨same, onward⟩ := P.passes hp opening (by decide) (by decide)
        (stillq.trans inside.isSuffix)
      obtain ⟨q', behind, e', stands, read⟩ := ih rfl stillq onward
      obtain ⟨sameq, finish⟩ := P.passes behind closes (by decide) (by decide) still
      have opening : p'.kind = .openParen := by rwa [Parser.kind, same]
      have closes : q'.kind = .closeParen := by rwa [Parser.kind, sameq]
      exact ⟨_, finish, e', stands, .grouping opening read closes⟩
  | @builtin p type name alone attached known =>
      obtain ⟨same, onward⟩ := P.passes hp name (by decide) (by decide) still
      have read := Reads.builtin (p := p') (by rwa [Parser.kind, same])
        (P.atApplication onward alone name) (by rwa [P.scopes hp]) (by rwa [same])
      rw [same] at read
      exact ⟨_, onward, _, .refl _, read⟩
  | @attached p symbol name alone attached known visible =>
      obtain ⟨same, onward⟩ := P.passes hp name (by decide) (by decide) still
      have read := Reads.attached (p := p') (by rwa [Parser.kind, same])
        (P.atApplication onward alone name) (by rwa [P.scopes hp]) (by rwa [same])
        (by rwa [P.scopes hp, same])
      rw [same] at read
      exact ⟨_, onward, _, .refl _, read⟩
  | @reference p symbol name alone outside visible value =>
      obtain ⟨same, onward⟩ := P.passes hp name (by decide) (by decide) still
      have read := Reads.reference (p := p') (by rwa [Parser.kind, same])
        (P.atApplication onward alone name) (by rwa [P.scopes hp])
        (by rwa [P.scopes hp, same]) value
      rw [same] at read
      exact ⟨_, onward, _, .refl _, read⟩
  | @call p q es here callable arguments ih =>
      -- the call is noted in front of its arguments, for both in the same scopes
      obtain ⟨name, opening⟩ := Parser.kind_of_atApplication here
      have stilll := still.trans arguments.isSuffix
      have still2 := stilll.trans (Parser.isSuffix_pastLines _)
      obtain ⟨same, onward⟩ := P.passes hp name (by decide) (by decide)
        (still2.trans p.next.isSuffix_next)
      obtain ⟨same', onward'⟩ := P.passes onward opening (by decide) (by decide) still2
      have inside := P.pastLines (P.withScopes (p.scopes.mark p.current) onward') stilll
      obtain ⟨q', behind, es', stand, read⟩ := ih rfl still inside
      have here : p'.atApplication = true := by
        unfold Parser.atApplication Parser.kind at here ⊢
        rwa [same, same']
      have read := Reads.call here (by rwa [P.scopes hp, same]) (by rwa [P.scopes hp, same])
      rw [same] at read
      refine ⟨q', behind, .call p.current es' (q'.callType p.current.value),
        .of_base nofun (P.types behind _) fun ex => ?_, read⟩
      have all : es' = es := by
        have equal : List.Forall₂ (· = ·) es es' := stand.imp fun _ _ h => (h.same ex).symm
        exact (List.forall₂_eq_eq_eq ▸ equal : es = es').symm
      rw [all, P.exactly ex behind]
  | @noArgument p closes =>
      obtain ⟨same, onward⟩ := P.passes hp closes (by decide) (by decide) still
      exact ⟨_, onward, [], .nil, .noArgument (by rwa [Parser.kind, same])⟩
  | @argument p q r e es _ _ first more ihe ih =>
      have stilll := still.trans more.isSuffix
      have stillc := stilll.trans (Parser.isSuffix_pastLines _)
      obtain ⟨q', behind, e', stands, read⟩ := ihe rfl (stillc.trans q.isSuffix_pastComma) hp
      have separated := P.pastLines (P.pastComma behind stillc) stilll
      obtain ⟨r', finish, es', stand, reads⟩ := ih rfl still separated
      -- what begins an operand is neither a closing parenthesis nor the end
      have begins := read.isSome_standardOperand?
      refine ⟨r', finish, e' :: es', .cons stands stand, .argument ?_ ?_ read reads⟩
      · intro closes
        rw [closes] at begins
        cases begins
      · intro final
        rw [final] at begins
        cases begins
  | @noOperator p limit e loose =>
      -- this is where a parenthesis may have been reached: it is no operator
      refine ⟨p', hp, fun left' stands => ⟨left', stands, .noOperator fun next known => ?_⟩⟩
      rcases P.kind hp with same | close
      · exact loose next (by rwa [← same])
      · rw [close] at known
        cases known
  | @operator p q r limit next left right e type sign tight operand typed more ihr ih =>
      have stillq := still.trans more.isSuffix
      obtain ⟨same, onward⟩ := P.listed hp sign (by decide) (stillq.trans operand.isSuffix)
      obtain ⟨q', behind, right', standsr, read⟩ := ihr rfl stillq onward
      obtain ⟨r', finish, reads⟩ := ih rfl still behind
      have kinds : p'.kind = p.kind := by rw [Parser.kind, same, Parser.kind]
      refine ⟨r', finish, fun left' stands => ?_⟩
      obtain ⟨e', standse, reads⟩ := reads (.binary p.kind p.current left' right' type)
        (.of_base nofun (fun _ => id) fun ex => by rw [stands.same ex, standsr.same ex])
      rw [← kinds, ← same] at reads
      exact ⟨e', standse, .operator (by rwa [kinds]) tight read (stands.binary standsr typed) reads⟩
  | @expr p q r limit left e operand more ihl ih =>
      obtain ⟨q', behind, left', stands, read⟩ := ihl rfl (still.trans more.isSuffix) hp
      obtain ⟨r', finish, reads⟩ := ih rfl still behind
      obtain ⟨e', standse, reads⟩ := reads left' stands
      exact ⟨r', finish, e', standse, .expr read reads⟩
  | _ => cases expression

end ImpFront
