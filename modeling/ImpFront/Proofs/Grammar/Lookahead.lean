/-
  ImpFront.Proofs.Grammar.Lookahead
  ─────────────────────────────────
  **WHAT IS READ AHEAD OF A DECLARATION.**

  A call of a function that is not visible gets its type from bare tokens
  further down.  From one place to the next that type stays the same as long
  as no declaration is passed, and in front of a declaration it is the one
  that stands behind the first closing parenthesis:

      none, if another parenthesis opens before that one
      the return type of the declaration, otherwise

  Parameters have no parentheses among them.  The arguments of an import may
  have: each has to be a name, but a name in parentheses is a name.
-/
import ImpFront.Proofs.Grammar.Reading
import ImpFront.Proofs.Typing

namespace ImpFront

/-! ## §1. Passing over tokens. -/

/-- The token announces no function. -/
def Token.Quiet (token : Token) : Prop :=
  token.announcesFunction = false

theorem typeBehindParameters?_ne_function (tokens : List Token) :
    typeBehindParameters? tokens ≠ some .function := by
  unfold typeBehindParameters?
  split
  · split
    · intro h
      exact BaseType.ofName_ne_function _ (Option.some.inj h)
    · exact fun h => nomatch h
  · exact fun h => nomatch h

namespace Cursor

/-- The tokens from the cursor on, the final one included. -/
def rest (c : Cursor) : List Token :=
  c.ahead ++ [c.final]

/-- From one cursor to another every token passed has a property. -/
inductive Over (P : Token → Prop) : Cursor → Cursor → Prop where
  | refl (c : Cursor) : Over P c c
  | step {c d : Cursor} : P c.current → Over P c.advance d → Over P c d

variable {P Q : Token → Prop} {c d e : Cursor}

theorem rest_eq_cons (h : c.current.kind ≠ .eof) : c.rest = c.current :: c.advance.rest := by
  unfold rest
  cases ha : c.ahead with
  | nil =>
      have final : c.current = c.final := by simp [current, peek, ha]
      rw [final] at h
      exact absurd c.final_kind h
  | cons token tokens => simp [advance, current, peek, ha]

theorem head?_behind_advance (h : c.current.kind ≠ .eof) :
    c.advance.behind.head? = some c.current := by
  cases ha : c.ahead with
  | nil =>
      have final : c.current = c.final := by simp [current, peek, ha]
      rw [final] at h
      exact absurd c.final_kind h
  | cons token tokens => simp [advance, current, peek, ha]

theorem head?_rest (c : Cursor) : c.rest.head? = some c.current := by
  unfold rest current peek
  cases c.ahead <;> rfl

theorem behind_ofTokens (tokens : List Token) : (ofTokens tokens).behind = [] := by
  unfold ofTokens
  split
  · rfl
  · split <;> rfl

theorem ahead_ofTokens_sublist (tokens : List Token) :
    (ofTokens tokens).ahead.Sublist tokens := by
  unfold ofTokens
  split
  · exact List.nil_sublist _
  · split
    · exact List.dropLast_sublist _
    · exact List.Sublist.refl _

/-- The tokens of a file are all there. -/
theorem subset_ofTokens (tokens : List Token) : tokens ⊆ (ofTokens tokens).tokens := by
  unfold Cursor.tokens ofTokens
  cases hl : tokens.getLast? with
  | none =>
      rw [List.getLast?_eq_none_iff.1 hl]
      exact List.nil_subset _
  | some last =>
      obtain ⟨front, rfl⟩ := List.getLast?_eq_some_iff.1 hl
      dsimp only
      split
      · rw [List.dropLast_concat]
        exact List.Subset.refl _
      · exact List.subset_append_left _ _

/-- Only end tokens are added to those of a file. -/
theorem mem_of_mem_ofTokens {tokens : List Token} {token : Token}
    (h : token ∈ (ofTokens tokens).tokens) (inner : token.kind ≠ .eof) : token ∈ tokens := by
  have other : token ≠ (ofTokens tokens).final := by
    rintro rfl
    exact inner (ofTokens tokens).final_kind
  have ahead : token ∈ (ofTokens tokens).ahead := by
    simpa [Cursor.tokens, behind_ofTokens, other] using h
  exact (ahead_ofTokens_sublist tokens).subset ahead

theorem skip_of_not {test : Kind → Bool} (h : test c.current.kind = false) :
    c.skip test = c := by
  obtain ⟨behind, ahead, final, final_kind⟩ := c
  cases ahead with
  | nil => rfl
  | cons token tokens =>
      have stop : test token.kind = false := h
      simp [skip, run, stop]

namespace Over

theorem one (h : P c.current) : Over P c c.advance :=
  .step h (.refl _)

theorem trans (h : Over P c d) (h' : Over P d e) : Over P c e := by
  induction h with
  | refl => exact h'
  | step hp _ ih => exact .step hp (ih h')

theorem imp (himp : ∀ token, P token → Q token) (h : Over P c d) : Over Q c d := by
  induction h with
  | refl => exact .refl _
  | step hp _ ih => exact .step (himp _ hp) ih

/-- To skip is to pass over tokens that pass the test. -/
theorem skip (c : Cursor) (test : Kind → Bool) :
    Over (fun token => test token.kind = true) c (c.skip test) := by
  obtain ⟨behind, ahead, final, final_kind⟩ := c
  induction ahead generalizing behind with
  | nil => exact .refl _
  | cons token tokens ih =>
      by_cases ht : test token.kind = true
      · refine .step ht ?_
        have rest := ih (token :: behind)
        simpa [Cursor.skip, run, advance, List.takeWhile_cons, List.dropWhile_cons, ht]
          using rest
      · rw [skip_of_not (Bool.eq_false_iff.2 ht)]
        exact .refl _

/-- What no passed token changes stays as it was. -/
theorem eq {α : Type} {f : Cursor → α} (hf : ∀ c, P c.current → f c.advance = f c)
    (h : Over P c d) : f d = f c := by
  induction h with
  | refl => rfl
  | step hp _ ih => rw [ih, hf _ hp]

end Over

/-! ## §2. The next declaration. -/

/-- The name of a declaration does not stand at the cursor. -/
def Calm (c : Cursor) : Prop :=
  c.behind.head?.any Token.announcesFunction = true → c.current.kind = .identifier →
    c.advance.current.kind ≠ .openParen

theorem calm_of_kind (h : c.current.kind ≠ .identifier) : c.Calm :=
  fun _ name => absurd name h

theorem calm_advance (h : c.current.Quiet) : c.advance.Calm := by
  cases ha : c.ahead with
  | nil =>
      refine calm_of_kind ?_
      have final : c.advance.current = c.final := by simp [advance, current, peek, ha]
      rw [final, c.final_kind]
      decide
  | cons token tokens =>
      intro announced
      have current : c.current = token := by simp [current, peek, ha]
      have behind : c.advance.behind.head? = some token := by simp [advance, ha]
      rw [behind, Option.any_some, ← current, h] at announced
      cases announced

/-- **The type ahead stays the same until a declaration is reached.** -/
theorem returnTypeAhead?_advance (h : c.Calm) (name : String) :
    c.advance.returnTypeAhead? name = c.returnTypeAhead? name := by
  cases ha : c.ahead with
  | nil => simp [advance, ha]
  | cons token tokens =>
      have current : c.current = token := by simp [current, peek, ha]
      have next : (tokens ++ [c.final]).head? = some c.advance.current := by
        have := head?_rest c.advance
        simpa [rest, advance, ha] using this
      -- calm says exactly that the first test of the scan fails here
      have elsewhere : (c.behind.head?.any Token.announcesFunction && token.kind == .identifier
          && token.value == name
          && (tokens ++ [c.final]).head?.any fun next => next.kind == .openParen) = false := by
        rw [next, Option.any_some, ← current, Bool.eq_false_iff]
        intro here
        simp only [Bool.and_eq_true, beq_iff_eq] at here
        exact h here.1.1.1 here.1.1.2 here.2
      have step : c.returnTypeAhead? name
          = ImpFront.returnTypeAhead? name (some token) (tokens ++ [c.final]) := by
        unfold returnTypeAhead?
        rw [ha, List.cons_append, ImpFront.returnTypeAhead?, elsewhere]
        rfl
      rw [step]
      simp [returnTypeAhead?, advance, ha]

/-- **At a declaration the type ahead is the one behind its parameters.** -/
theorem returnTypeAhead?_declaration
    (announced : c.behind.head?.any Token.announcesFunction = true)
    (hk : c.current.kind = .identifier) (opening : c.advance.current.kind = .openParen)
    (name : String) :
    c.returnTypeAhead? name
      = if name = c.current.value then typeBehindParameters? c.advance.rest
        else c.advance.returnTypeAhead? name := by
  have tokens := rest_eq_cons (show c.current.kind ≠ .eof by rw [hk]; decide)
  have behind := head?_behind_advance (show c.current.kind ≠ .eof by rw [hk]; decide)
  show ImpFront.returnTypeAhead? name c.behind.head? c.rest = _
  rw [tokens, ImpFront.returnTypeAhead?, announced, head?_rest, Option.any_some, hk, opening]
  by_cases hn : name = c.current.value
  · simp [hn]
  · have hn' : ¬c.current.value = name := fun same => hn same.symm
    simp only [beq_self_eq_true, Bool.true_and, Bool.and_true, beq_iff_eq, hn', hn, ↓reduceIte]
    rw [← behind]
    rfl

theorem calm_of_not_application (h : ¬(c.current.kind = .identifier
    ∧ c.advance.current.kind = .openParen)) : c.Calm :=
  fun _ name opening => h ⟨name, opening⟩

/-- No function gives back a function. -/
theorem returnTypeAhead?_ne_function (c : Cursor) (name : String) :
    c.returnTypeAhead? name ≠ some .function := by
  unfold returnTypeAhead?
  generalize c.behind.head? = previous
  generalize c.ahead ++ [c.final] = tokens
  induction tokens generalizing previous with
  | nil => exact fun h => nomatch h
  | cons token rest ih =>
      unfold ImpFront.returnTypeAhead?
      split
      · exact typeBehindParameters?_ne_function rest
      · exact ih (some token)

/-- Where no declaration is passed there is calm, and the type ahead stays. -/
theorem Over.calm (h : Over Token.Quiet c d) (calm : c.Calm) :
    d.Calm ∧ ∀ name, d.returnTypeAhead? name = c.returnTypeAhead? name := by
  induction h with
  | refl => exact ⟨calm, fun _ => rfl⟩
  | step quiet _ ih =>
      obtain ⟨there, ahead⟩ := ih (calm_advance quiet)
      exact ⟨there, fun name => (ahead name).trans (returnTypeAhead?_advance calm name)⟩

end Cursor

/-! ## §3. Phrases without declarations. -/

open Cursor (Over Calm)

/-- Two kinds of tokens announce a function. -/
theorem Token.quiet_of_kind {token : Token} {kind : Kind} (h : token.kind = kind)
    (quiet : kind ≠ .kwFunc ∧ kind ≠ .attribute) : token.Quiet := by
  unfold Quiet announcesFunction
  simp [h, quiet.1, quiet.2]

theorem Kind.quiet_of_listed {α : Type} {table : Kind → Option α} {kind : Kind} {entry : α}
    (h : table kind = some entry) (function : table .kwFunc = none)
    (attached : table .attribute = none) : kind ≠ .kwFunc ∧ kind ≠ .attribute := by
  constructor
  · rintro rfl
    rw [function] at h
    cases h
  · rintro rfl
    rw [attached] at h
    cases h

theorem Kind.isTerminator_iff {kind : Kind} :
    kind.isTerminator = true ↔ kind = .newline ∨ kind = .semicolon := by
  constructor
  · intro h
    unfold isTerminator at h
    split at h
    · exact .inl rfl
    · exact .inr rfl
    · cases h
  · rintro (rfl | rfl) <;> rfl

theorem Kind.ne_of_isTerminator {kind other : Kind} (h : kind.isTerminator = true)
    (plain : other.isTerminator = false) : kind ≠ other := by
  rintro rfl
  rw [h] at plain
  cases plain

/-- No separator announces a function. -/
theorem Token.quiet_of_isTerminator {token : Token} (h : token.kind.isTerminator = true) :
    token.Quiet :=
  quiet_of_kind rfl ⟨Kind.ne_of_isTerminator h rfl, Kind.ne_of_isTerminator h rfl⟩

namespace Parser

variable {p : Parser}

theorem over_pastLines {P : Token → Prop} (hP : ∀ token, token.kind = .newline → P token)
    (p : Parser) : Over P p.cursor p.pastLines.cursor :=
  .imp (fun token h => hP token (beq_iff_eq.1 h)) (Over.skip p.cursor (· == .newline))

theorem over_pastComma {P : Token → Prop} (hP : ∀ token, token.kind = .comma → P token)
    (p : Parser) : Over P p.cursor p.pastComma.cursor := by
  unfold pastComma
  split
  · next comma => exact .one (hP _ comma)
  · exact .refl _

theorem over_pastSeparators {P : Token → Prop}
    (hP : ∀ token, token.kind.isTerminator = true → P token) (p : Parser) :
    Over P p.cursor p.pastSeparators.cursor :=
  .imp hP (Over.skip p.cursor Kind.isTerminator)

theorem quiet_next {kind : Kind} (h : p.kind = kind)
    (quiet : kind ≠ .kwFunc ∧ kind ≠ .attribute) : Over Token.Quiet p.cursor p.next.cursor :=
  .one (Token.quiet_of_kind h quiet)

theorem quiet_pastLines (p : Parser) : Over Token.Quiet p.cursor p.pastLines.cursor :=
  over_pastLines (fun _ h => Token.quiet_of_kind h (by decide)) p

theorem quiet_pastComma (p : Parser) : Over Token.Quiet p.cursor p.pastComma.cursor :=
  over_pastComma (fun _ h => Token.quiet_of_kind h (by decide)) p

theorem quiet_pastSeparators (p : Parser) :
    Over Token.Quiet p.cursor p.pastSeparators.cursor :=
  over_pastSeparators (fun _ => Token.quiet_of_isTerminator) p

/-- A token is passed quietly if a table knows its kind and has no entry for
the two that announce a function. -/
theorem quiet_of_listed {α : Type} {table : Kind → Option α} {entry : α}
    (h : table p.kind = some entry) (function : table .kwFunc = none)
    (attached : table .attribute = none) : Over Token.Quiet p.cursor p.next.cursor :=
  quiet_next rfl (Kind.quiet_of_listed h function attached)

theorem kind_of_atApplication (h : p.atApplication = true) :
    p.kind = .identifier ∧ p.next.kind = .openParen := by
  simpa [atApplication] using h

end Parser

/-- The phrase declares no function. -/
def Phrase.isQuiet : Phrase → Bool
  | .operand _ | .operators _ _ _ | .expr _ _ | .arguments _ | .parameters _ | .returns _ => true
  | _ => false

theorem Phrase.isQuiet_of_isExpression :
    ∀ {phrase : Phrase}, phrase.isExpression = true → phrase.isQuiet = true
  | .operand _, _ | .operators _ _ _, _ | .expr _ _, _ | .arguments _, _ => rfl

open ImpFront.Parser

/-- **Expressions, parameters and return types pass no declaration.** -/
theorem Reads.quiet {phrase : Phrase} {p q : Parser} (h : Reads phrase p q)
    (quiet : phrase.isQuiet = true) : Over Token.Quiet p.cursor q.cursor := by
  induction h with
  | literal type => exact quiet_of_listed type rfl rfl
  | unary rule _ _ ih => exact (quiet_of_listed rule rfl rfl).trans (ih rfl)
  | grouping opening _ closing ih =>
      exact ((quiet_next opening (by decide)).trans (ih rfl)).trans
        (quiet_next closing (by decide))
  | builtin name => exact quiet_next name (by decide)
  | attached name => exact quiet_next name (by decide)
  | reference name => exact quiet_next name (by decide)
  | @call p _ _ here _ _ ih =>
      obtain ⟨name, opening⟩ := kind_of_atApplication here
      have head := (quiet_next name (by decide)).trans (quiet_next opening (by decide))
      exact (head.trans (quiet_pastLines p.next.next)).trans (ih rfl)
  | noArgument closing => exact quiet_next closing (by decide)
  | @argument _ q _ _ _ _ _ _ _ ihe ih =>
      have separators := (quiet_pastComma q).trans (quiet_pastLines q.pastComma)
      exact ((ihe rfl).trans separators).trans (ih rfl)
  | noOperator => exact .refl _
  | operator sign _ _ _ _ ihr ih =>
      exact ((quiet_of_listed sign rfl rfl).trans (ihr rfl)).trans (ih rfl)
  | expr _ _ ihl ih => exact (ihl rfl).trans (ih rfl)
  | noParameter closing => exact quiet_next closing (by decide)
  | @parameter p _ s _ name colon type _ _ ih =>
      have head := ((quiet_next name (by decide)).trans (quiet_next colon (by decide))).trans
        (quiet_next type (by decide))
      have separators := (quiet_pastComma (p.next.next.next.withScopes s)).trans
        (quiet_pastLines _)
      exact (head.trans separators).trans (ih rfl)
  | noReturn => exact .refl _
  | returns arrow type =>
      exact (quiet_next arrow (by decide)).trans (quiet_next type (by decide))
  | _ => cases quiet

/-! ## §4. The tokens of the file. -/

namespace Parser

@[simp] theorem tokens_next (p : Parser) : p.next.cursor.tokens = p.cursor.tokens :=
  p.cursor.tokens_advance

@[simp] theorem tokens_pastLines (p : Parser) : p.pastLines.cursor.tokens = p.cursor.tokens :=
  p.cursor.tokens_skip _

@[simp] theorem tokens_pastSeparators (p : Parser) :
    p.pastSeparators.cursor.tokens = p.cursor.tokens :=
  p.cursor.tokens_skip _

@[simp] theorem tokens_pastComma (p : Parser) : p.pastComma.cursor.tokens = p.cursor.tokens := by
  unfold pastComma
  split
  · exact p.tokens_next
  · rfl

@[simp] theorem cursor_withScopes (s : Scopes) (p : Parser) :
    (p.withScopes s).cursor = p.cursor := rfl

@[simp] theorem cursor_inBlock (p : Parser) : p.inBlock.cursor = p.cursor := rfl

@[simp] theorem cursor_outOfBlock (p : Parser) : p.outOfBlock.cursor = p.cursor := rfl

@[simp] theorem cursor_warned (note : Option Note) (p : Parser) :
    (p.warned note).cursor = p.cursor := rfl

end Parser

/-- **No phrase changes the tokens of the file.** -/
theorem Reads.tokens {phrase : Phrase} {p q : Parser} (h : Reads phrase p q) :
    q.cursor.tokens = p.cursor.tokens := by
  induction h <;> simp_all

end ImpFront
