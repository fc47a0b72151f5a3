/-
  ImpFront.Proofs.Grammar.Announcement
  ────────────────────────────────────
  **THE TYPE THAT BARE TOKENS ANNOUNCE.**

  The type behind the first closing parenthesis is compared with the one that
  the grammar reads.  They agree behind parameters, and behind the arguments
  of an import none of which is put in parentheses; behind the others bare
  tokens show no type at all.
-/
import ImpFront.Proofs.Acceptance.Judgement
import ImpFront.Proofs.Grammar.Lookahead

namespace ImpFront

open Cursor (Over)

/-! ## §1. Two readings of one place. -/

/-- The token is no parenthesis. -/
def Token.Flat (token : Token) : Prop :=
  token.kind ≠ .openParen ∧ token.kind ≠ .closeParen

theorem Token.flat_of_kind {token : Token} {kind : Kind} (h : token.kind = kind)
    (flat : kind ≠ .openParen ∧ kind ≠ .closeParen) : token.Flat :=
  ⟨h ▸ flat.1, h ▸ flat.2⟩

namespace Cursor

variable {c d : Cursor}

/-- The type behind the first closing parenthesis from the cursor on. -/
def typeBehind? (c : Cursor) : Option BaseType :=
  typeBehindParameters? c.rest

/-- From the cursor on another parenthesis opens before the first one closes. -/
def reopens (c : Cursor) : Bool :=
  ImpFront.reopens c.rest

/-- The type behind an arrow at the cursor. -/
def typeAfter? (c : Cursor) : Option BaseType :=
  if c.current.kind = .arrow then some (.ofName c.advance.current.value) else none

/-- The type behind a closing parenthesis does not depend on what is in front
of it. -/
theorem typeBehind?_advance (h : c.current.kind ≠ .closeParen) :
    c.advance.typeBehind? = c.typeBehind? := by
  unfold typeBehind? typeBehindParameters?
  by_cases final : c.current.kind = .eof
  · cases ha : c.ahead with
    | nil => simp [advance, ha]
    | cons token tokens =>
        have current : c.current = token := by simp [current, peek, ha]
        have rest : c.rest = token :: c.advance.rest := by simp [Cursor.rest, advance, ha]
        rw [rest, List.dropWhile_cons_of_pos (by simpa [← current] using h)]
  · rw [rest_eq_cons final, List.dropWhile_cons_of_pos (by simpa using h)]

theorem reopens_advance (h : c.current.Flat) : c.advance.reopens = c.reopens := by
  obtain ⟨notOpen, notClose⟩ := h
  unfold reopens ImpFront.reopens
  cases ha : c.ahead with
  | nil => simp [advance, ha]
  | cons token tokens =>
      have current : c.current = token := by simp [current, peek, ha]
      have rest : c.rest = token :: c.advance.rest := by simp [Cursor.rest, advance, ha]
      rw [current] at notOpen notClose
      rw [rest, List.takeWhile_cons_of_pos (by simpa using notClose), List.any_cons]
      simp [notOpen]

theorem reopens_of_openParen (h : c.current.kind = .openParen) : c.reopens = true := by
  have rest := rest_eq_cons (c := c) (by rw [h]; decide)
  unfold reopens ImpFront.reopens
  rw [rest, List.takeWhile_cons_of_pos (by simp [h]), List.any_cons]
  simp [h]

theorem reopens_of_closeParen (h : c.current.kind = .closeParen) : c.reopens = false := by
  have rest := rest_eq_cons (c := c) (by rw [h]; decide)
  unfold reopens ImpFront.reopens
  rw [rest, List.takeWhile_cons_of_neg (by simp [h]), List.any_nil]

theorem typeBehind?_of_closeParen (h : c.current.kind = .closeParen) :
    c.typeBehind? = c.advance.typeAfter? := by
  have rest := rest_eq_cons (c := c) (by rw [h]; decide)
  unfold typeBehind? typeBehindParameters? typeAfter?
  rw [rest, List.dropWhile_cons_of_neg (by simp [h])]
  by_cases arrow : c.advance.current.kind = .arrow
  · have rest' := rest_eq_cons (c := c.advance) (by rw [arrow]; decide)
    have head := head?_rest c.advance.advance
    rw [rest']
    cases hr : c.advance.advance.rest with
    | nil => simp [hr] at head
    | cons type tokens =>
        rw [hr, List.head?_cons, Option.some.injEq] at head
        simp [arrow, head]
  · have head := head?_rest c.advance
    cases hr : c.advance.rest with
    | nil => simp [hr] at head
    | cons token tokens =>
        rw [hr, List.head?_cons, Option.some.injEq] at head
        rw [if_neg arrow]
        cases tokens with
        | nil => rfl
        | cons type tokens => simp [head, arrow]

/-- The two readings of one place: what bare tokens show from `c` on is what
stands at `d`, or nothing if a parenthesis comes in between. -/
def Announces (c d : Cursor) : Prop :=
  c.typeBehind? = if c.reopens then none else d.typeAfter?

theorem Announces.across {e : Cursor} (h : Announces d e) (across : Over Token.Flat c d) :
    Announces c e := by
  have type : d.typeBehind? = c.typeBehind? :=
    across.eq fun _ flat => typeBehind?_advance flat.2
  have parens : d.reopens = c.reopens := across.eq fun _ flat => reopens_advance flat
  unfold Announces at h ⊢
  rw [← type, ← parens, h]

theorem announces_of_closeParen (h : c.current.kind = .closeParen) : Announces c c.advance := by
  unfold Announces
  rw [typeBehind?_of_closeParen h, reopens_of_closeParen h]
  rfl

end Cursor

/-! ## §2. Parameters and return types. -/

namespace Parser

theorem flat_next {p : Parser} {kind : Kind} (h : p.kind = kind)
    (flat : kind ≠ .openParen ∧ kind ≠ .closeParen) : Over Token.Flat p.cursor p.next.cursor :=
  .one (Token.flat_of_kind h flat)

/-- A parameter is a name, a colon and a type. -/
theorem flat_parameter {p : Parser} (name : p.kind = .identifier) (colon : p.next.kind = .colon)
    (type : p.next.next.kind = .identifier) : Over Token.Flat p.cursor p.next.next.next.cursor :=
  ((flat_next name (by decide)).trans (flat_next colon (by decide))).trans
    (flat_next type (by decide))

/-- A comma and line ends may follow an element of a list. -/
theorem flat_separators (p : Parser) :
    Over Token.Flat p.cursor p.pastComma.pastLines.cursor :=
  (over_pastComma (fun _ h => Token.flat_of_kind h (by decide)) p).trans
    (over_pastLines (fun _ h => Token.flat_of_kind h (by decide)) p.pastComma)

end Parser

open ImpFront.Parser

/-- **Bare tokens show the type behind parameters.** -/
theorem Reads.announces_parameters {phrase : Phrase} {p q : Parser} (h : Reads phrase p q)
    {ps : List Parameter} (hp : phrase = .parameters ps) : p.cursor.Announces q.cursor := by
  induction h generalizing ps with
  | noParameter closing => exact Cursor.announces_of_closeParen closing
  | @parameter p _ s _ name colon type _ _ ih =>
      exact (ih rfl).across ((flat_parameter name colon type).trans
        (flat_separators (p.next.next.next.withScopes s)))
  | _ => cases hp

/-- No parenthesis is among parameters. -/
theorem Reads.reopens_parameters {phrase : Phrase} {p q : Parser} (h : Reads phrase p q)
    {ps : List Parameter} (hp : phrase = .parameters ps) : p.cursor.reopens = false := by
  induction h generalizing ps with
  | noParameter closing => exact Cursor.reopens_of_closeParen closing
  | @parameter p _ s _ name colon type _ _ ih =>
      have across := (flat_parameter name colon type).trans
        (flat_separators (p.next.next.next.withScopes s))
      exact (across.eq fun _ flat => Cursor.reopens_advance flat).symm.trans (ih rfl)
  | _ => cases hp

theorem Reads.typeAfter? {type : Option Token} {p q : Parser} (h : Reads (.returns type) p q) :
    p.cursor.typeAfter? = type.map fun token => .ofName token.value := by
  cases h with
  | noReturn arrow => exact if_neg arrow
  | returns arrow => exact if_pos arrow

/-! ## §3. Arguments of an import. -/

/-- The expression is a name that stands for a value. -/
def Expr.isReference : Expr → Bool
  | .reference _ _ => true
  | _ => false

theorem Statement.isReference_of_importedParameter {es : List Expr} {ps : List Parameter}
    (h : es.mapM importedParameter = .ok ps) : ∀ e ∈ es, e.isReference = true := by
  induction es generalizing ps with
  | nil => intro e he; cases he
  | cons first rest ih =>
      rw [List.mapM_cons] at h
      cases hf : importedParameter first with
      | error e =>
          rw [hf] at h
          cases h
      | ok parameter =>
          cases hr : rest.mapM importedParameter with
          | error e =>
              rw [hf, hr] at h
              cases h
          | ok parameters =>
              intro e he
              rcases List.mem_cons.1 he with rfl | he
              · cases e with
                | reference => rfl
                | _ => cases hf
              · exact ih hr e he

/-- No expression begins with an arrow. -/
theorem Reads.kind_ne_arrow {phrase : Phrase} {p q : Parser} (h : Reads phrase p q) :
    match phrase with
    | .operand _ | .expr _ _ | .arguments _ => p.kind ≠ .arrow
    | _ => True := by
  induction h with
  | literal type =>
      intro arrow
      rw [arrow] at type
      cases type
  | unary rule =>
      intro arrow
      rw [arrow] at rule
      cases rule
  | grouping opening => simp [opening]
  | builtin name => simp [name]
  | attached name => simp [name]
  | reference name => simp [name]
  | call here => simp [(kind_of_atApplication here).1]
  | noArgument closing => simp [closing]
  | argument _ _ _ _ ih => exact ih
  | expr _ _ ih => exact ih
  | _ => trivial

/-- A name is read plainly or in parentheses. -/
theorem Reads.reference_or_grouped {phrase : Phrase} {p q : Parser} (h : Reads phrase p q) :
    match phrase with
    | .operand e | .expr _ e => e.isReference = true →
        p.kind = .identifier ∧ q.cursor = p.cursor.advance
          ∨ p.kind = .openParen ∧ (q.kind ≠ .arrow → p.cursor.typeBehind? = none)
    | .operators _ left e => e.isReference = true → left.isReference = true ∧ p = q
    | _ => True := by
  induction h with
  | literal => exact fun h => nomatch h
  | unary => exact fun h => nomatch h
  | @grouping p q e opening _ closing ih =>
      intro name
      refine .inr ⟨opening, fun stop => ?_⟩
      have opens : p.cursor.current.kind ≠ .closeParen := by
        show p.kind ≠ .closeParen
        simp [opening]
      rw [← Cursor.typeBehind?_advance opens]
      rcases ih name with ⟨inner, same⟩ | ⟨-, inner⟩
      · have plain : p.cursor.advance.current.kind ≠ .closeParen := by
          show p.next.kind ≠ .closeParen
          simp [inner]
        have same : q.cursor = p.cursor.advance.advance := same
        rw [← Cursor.typeBehind?_advance plain, ← same, Cursor.typeBehind?_of_closeParen closing]
        exact if_neg stop
      · exact inner (by simp [closing])
  | builtin name => exact fun _ => .inl ⟨name, rfl⟩
  | attached name => exact fun _ => .inl ⟨name, rfl⟩
  | reference name => exact fun _ => .inl ⟨name, rfl⟩
  | call => exact fun h => nomatch h
  | noOperator => exact fun name => ⟨name, rfl⟩
  | operator _ _ _ _ _ _ ih => exact fun name => nomatch (ih name).1
  | expr _ _ ihl iho =>
      intro name
      obtain ⟨left, rfl⟩ := iho name
      exact ihl left
  | _ => trivial

/-- An arrow is no separator. -/
theorem Parser.kind_separators_of_arrow {p : Parser} (h : p.kind = .arrow) :
    p.pastComma.pastLines.kind = .arrow := by
  have comma : p.pastComma = p := by
    unfold pastComma
    rw [if_neg]
    show ¬p.kind = .comma
    simp [h]
  have lines : p.cursor.skip (· == .newline) = p.cursor := by
    refine Cursor.skip_of_not ?_
    show (p.kind == .newline) = false
    rw [h]
    rfl
  rw [comma]
  unfold pastLines past kind current
  rw [lines]
  exact h

/-- **Bare tokens show the type behind names, unless one is in parentheses.** -/
theorem Reads.announces_arguments {phrase : Phrase} {p q : Parser} (h : Reads phrase p q)
    {es : List Expr} (hp : phrase = .arguments es) (names : ∀ e ∈ es, e.isReference = true) :
    p.cursor.Announces q.cursor := by
  induction h generalizing es with
  | noArgument closing => exact Cursor.announces_of_closeParen closing
  | @argument p q _ e _ _ _ he ha _ ih =>
      cases hp
      have rest := ih rfl fun e he => names e (List.mem_cons_of_mem _ he)
      -- a name is passed like any token; a name in parentheses ends what bare tokens show
      rcases he.reference_or_grouped (names e List.mem_cons_self) with
        ⟨name, same⟩ | ⟨opening, grouped⟩
      · have plain : Over Token.Flat p.cursor q.cursor := by
          rw [same]
          exact flat_next name (by decide)
        exact rest.across (plain.trans (flat_separators q))
      · have stop : q.kind ≠ .arrow := fun arrow =>
          ha.kind_ne_arrow (kind_separators_of_arrow arrow)
        unfold Cursor.Announces
        rw [Cursor.reopens_of_openParen opening, grouped stop]
        rfl
  | _ => cases hp

/-! ## §4. In front of a declaration. -/

namespace Parser

variable {p r : Parser} {base : Option BaseType}

theorem kind_of_announces (h : p.current.announcesFunction = true) :
    p.kind = .kwFunc ∨ p.kind = .attribute := by
  simp only [Token.announcesFunction, Bool.or_eq_true, Bool.and_eq_true, beq_iff_eq] at h
  exact h.imp_right And.left

/-- **In front of a declaration the type ahead is its own.**  The parser `r` is
behind the declaration, and nothing in between announces another one. -/
theorem returnTypeAhead?_signature (announced : p.current.announcesFunction = true)
    (name : p.next.kind = .identifier) (opening : p.next.next.kind = .openParen)
    (quiet : Over Token.Quiet p.next.next.next.cursor r.cursor)
    (type : p.next.next.next.cursor.typeBehind?
      = if p.next.next.next.cursor.reopens then none else base) :
    r.cursor.Calm ∧ ∀ text, p.cursor.returnTypeAhead? text
      = if text = p.next.current.value then
          if p.next.next.next.cursor.reopens then none else base
        else r.cursor.returnTypeAhead? text := by
  have keyword := kind_of_announces announced
  have calm : p.cursor.Calm := by
    refine Cursor.calm_of_kind ?_
    show p.kind ≠ .identifier
    rcases keyword with hk | hk <;> simp [hk]
  have behind : p.next.cursor.behind.head? = some p.current := by
    refine Cursor.head?_behind_advance ?_
    show p.kind ≠ .eof
    rcases keyword with hk | hk <;> simp [hk]
  have inside : p.next.next.cursor.Calm :=
    Cursor.calm_advance (Token.quiet_of_kind name (by decide))
  obtain ⟨there, ahead⟩ := ((quiet_next opening (by decide)).trans quiet).calm inside
  -- the scan starts at the opening parenthesis, which is not the closing one
  have shown : p.next.next.cursor.typeBehind?
      = if p.next.next.next.cursor.reopens then none else base := by
    rw [← type]
    refine (Cursor.typeBehind?_advance ?_).symm
    show p.next.next.kind ≠ .closeParen
    simp [opening]
  refine ⟨there, fun text => ?_⟩
  have first : p.next.cursor.returnTypeAhead? text = p.cursor.returnTypeAhead? text :=
    Cursor.returnTypeAhead?_advance calm text
  rw [← first, Cursor.returnTypeAhead?_declaration (by rw [behind]; exact announced) name opening,
    ahead text]
  by_cases hn : text = p.next.current.value
  · rw [if_pos hn, ← shown]
    exact if_pos hn
  · rw [if_neg hn]
    exact if_neg hn

/-- A declaration stands among the tokens of a file. -/
theorem declares_signature (ps : List Parameter) (type : Option Token)
    (announced : p.current.announcesFunction = true) (name : p.next.kind = .identifier)
    (opening : p.next.next.kind = .openParen)
    (importing : p.next.next.next.cursor.reopens = true → p.kind = .attribute) :
    Declares p.cursor.tokens (Signature.symbol ⟨p.current, p.next.current, ps, type⟩)
      (if p.next.next.next.cursor.reopens then none
        else type.map fun token => .ofName token.value) := by
  refine ⟨p.cursor.behind.reverse, p.next.next.current, p.next.next.next.cursor.rest, ?_,
    opening, importing, ?_⟩
  · have first : p.cursor.rest = p.current :: p.next.cursor.rest := by
      refine Cursor.rest_eq_cons ?_
      show p.kind ≠ .eof
      rcases kind_of_announces announced with hk | hk <;> simp [hk]
    have second : p.next.cursor.rest = p.next.current :: p.next.next.cursor.rest := by
      refine Cursor.rest_eq_cons ?_
      show p.next.kind ≠ .eof
      simp [name]
    have third : p.next.next.cursor.rest
        = p.next.next.current :: p.next.next.next.cursor.rest := by
      refine Cursor.rest_eq_cons ?_
      show p.next.next.kind ≠ .eof
      simp [opening]
    show p.cursor.behind.reverse ++ p.cursor.ahead ++ [p.cursor.final] = _
    rw [List.append_assoc]
    show p.cursor.behind.reverse ++ p.cursor.rest = _
    rw [first, second, third]
    rfl
  · rw [Signature.returnBase?_symbol]
    rfl

end Parser

end ImpFront
