/-
  ImpFront.Proofs.Acceptance.Spelling
  ───────────────────────────────────
  **AN ACCEPTED TREE HOLDS THE TOKENS OF ITS FILE.**

  Between two places of a file lie some tokens, and those among them that a
  tree keeps are what the phrase in between is spelled with:

      Reads phrase p q   →  phrase.Spelled (the kept tokens from p to q)

  Each rule of the grammar either drops a token that no tree keeps or puts it
  into its node, in the order of the file.  A file ends at the first end
  token, which makes this a statement about all tokens in front of that.
-/
import Mathlib
import ImpFront.Proofs.Acceptance.Soundness
import ImpFront.Proofs.Grammar.Ending
import ImpFront.Proofs.Token.Coordinates
import ImpFront.Proofs.Tree.Spelling

namespace ImpFront

open Cursor (Over)

/-! ## §1. The kept tokens between two places. -/

namespace Cursor

/-- From one cursor to another lie tokens of which these are kept. -/
def Yields (c d : Cursor) (tokens : List Token) : Prop :=
  ∃ passed, c.ahead = passed ++ d.ahead ∧ kept passed = tokens

namespace Yields

variable {c d e : Cursor} {tokens more : List Token}

theorem nothing (c : Cursor) : Yields c c [] :=
  ⟨[], rfl, rfl⟩

theorem trans (h : Yields c d tokens) (h' : Yields d e more) : Yields c e (tokens ++ more) := by
  obtain ⟨passed, hp, rfl⟩ := h
  obtain ⟨further, hf, rfl⟩ := h'
  exact ⟨passed ++ further, by rw [hp, hf, List.append_assoc], kept_append passed further⟩

/-- A kept token that is passed. -/
theorem keep {kind : Kind} (h : c.current.kind = kind) (hk : kind.isKept = true)
    (inner : kind ≠ .eof) : Yields c c.advance [c.current] := by
  cases ha : c.ahead with
  | nil =>
      have final : c.current = c.final := by simp [current, peek, ha]
      rw [final, c.final_kind] at h
      exact absurd h.symm inner
  | cons token rest =>
      have current : c.current = token := by simp [current, peek, ha]
      refine ⟨[token], by simp [advance, ha], ?_⟩
      rw [current] at h ⊢
      simp [kept, h, hk]

/-- A token that is passed and not kept. -/
theorem drop (h : c.current.kind.isKept = false) : Yields c c.advance [] := by
  cases ha : c.ahead with
  | nil =>
      have same : c.advance = c := by simp [advance, ha]
      rw [same]
      exact nothing c
  | cons token rest =>
      have current : c.current = token := by simp [current, peek, ha]
      refine ⟨[token], by simp [advance, ha], ?_⟩
      rw [current] at h
      simp [kept, h]

/-- Tokens that are passed and not kept. -/
theorem drops (h : Over (fun token => token.kind.isKept = false) c d) : Yields c d [] := by
  induction h with
  | refl c => exact nothing c
  | step dropped _ ih => exact (drop dropped).trans ih

end Yields

end Cursor

open Cursor (Yields)

theorem Kind.isKept_of_unary {kind : Kind} (h : Grammar.standardOperand? kind = some .unary) :
    kind.isKept = true ∧ kind ≠ .eof := by
  cases kind <;> first | contradiction | decide

namespace Parser

variable {p : Parser}

theorem yields_next {kind : Kind} (h : p.kind = kind) (hk : kind.isKept = true)
    (inner : kind ≠ .eof) : Yields p.cursor p.next.cursor [p.current] :=
  Yields.keep h hk inner

theorem drops_next {kind : Kind} (h : p.kind = kind) (hk : kind.isKept = false) :
    Yields p.cursor p.next.cursor [] := by
  refine Yields.drop ?_
  rw [← hk, ← h]
  rfl

/-- A token is kept if a table knows its kind and has kept kinds only. -/
theorem yields_of_listed {α : Type} {table : Kind → Option α} {entry : α}
    (h : table p.kind = some entry)
    (listed : ∀ kind ∈ Kind.all, (table kind).isSome → kind.isKept = true ∧ kind ≠ .eof) :
    Yields p.cursor p.next.cursor [p.current] := by
  obtain ⟨hk, inner⟩ := listed p.kind (Kind.mem_all p.kind) (by rw [h]; rfl)
  exact yields_next rfl hk inner

theorem yields_application (h : p.atApplication = true) :
    Yields p.cursor p.next.next.cursor [p.current] := by
  obtain ⟨name, opening⟩ := kind_of_atApplication h
  exact (yields_next name rfl (by decide)).trans (drops_next opening rfl)

/-- A name, a colon and a type. -/
theorem yields_typing (name : p.kind = .identifier) (colon : p.next.kind = .colon)
    (type : p.next.next.kind = .identifier) :
    Yields p.cursor p.next.next.next.cursor [p.current, p.next.next.current] :=
  (yields_next name rfl (by decide)).trans
    ((drops_next colon rfl).trans (yields_next type rfl (by decide)))

theorem drops_pastLines (p : Parser) : Yields p.cursor p.pastLines.cursor [] :=
  .drops (over_pastLines (fun _ h => by rw [h]; rfl) p)

theorem drops_pastComma (p : Parser) : Yields p.cursor p.pastComma.cursor [] :=
  .drops (over_pastComma (fun _ h => by rw [h]; rfl) p)

theorem drops_pastSeparators (p : Parser) : Yields p.cursor p.pastSeparators.cursor [] := by
  refine .drops (over_pastSeparators (fun token h => ?_) p)
  rcases Kind.isTerminator_iff.1 h with kind | kind <;> rw [kind] <;> rfl

end Parser

/-! ## §2. Values that are assigned and types that are imported. -/

/-- The expression is spelled in full behind whatever name it is assigned to. -/
def Expr.Plain (e : Expr) : Prop :=
  ∀ target, e.assignedSpelling target = e.spelling

/-- The expression of the phrase is spelled in full when it is assigned. -/
def Phrase.Plain : Phrase → Prop
  | .operand e | .expr _ e => e.Plain
  | .operators _ left e => left.Plain → e.Plain
  | _ => True

/-- A binary operator of the language is no compound assignment. -/
theorem Kind.compoundOperator?_of_precedence {kind : Kind} {precedence : Precedence}
    (h : Grammar.standardPrecedence? kind = some precedence) : kind.compoundOperator? = none := by
  cases kind <;> first | rfl | cases h

/-- An operation whose sign is not compound is spelled in full. -/
theorem Expr.plain_binary {operator : Kind} {token : Token} {left right : Expr} {type : BaseType}
    (simple : token.kind.compoundOperator? = none) :
    (Expr.binary operator token left right type).Plain := by
  intro target
  cases left <;> simp [Expr.assignedSpelling, simple]

/-- **No expression that is read is a compound assignment.** -/
theorem Reads.plain {phrase : Phrase} {p q : Parser} (h : Reads phrase p q) : phrase.Plain := by
  induction h with
  | grouping _ _ _ ih => exact ih
  | operator sign _ _ _ _ _ ih =>
      intro _
      exact ih (Expr.plain_binary (Kind.compoundOperator?_of_precedence sign))
  | noOperator => exact id
  | expr _ _ ihl ih => exact ih ihl
  | literal | unary | builtin | attached | reference | call => exact fun _ => rfl
  | _ => trivial

/-- The parameters of an import hold the tokens of the arguments they were. -/
theorem spelling_importedParameters {es : List Expr} {ps : List Parameter}
    (h : es.mapM Statement.importedParameter = .ok ps) :
    Expr.spellingOfAll es = ps.flatMap Parameter.spelling := by
  induction es generalizing ps with
  | nil =>
      cases h
      rfl
  | cons e rest ih =>
      rw [List.mapM_cons] at h
      cases e with
      | reference name type =>
          cases hr : rest.mapM Statement.importedParameter with
          | error error => rw [hr] at h; cases h
          | ok later =>
              rw [hr] at h
              cases h
              rw [Expr.spellingOfAll, ih hr]
              rfl
      | _ => cases h

/-! ## §3. Phrases. -/

/-- The tokens are a reading of the phrase. -/
def Phrase.Spelled : Phrase → List Token → Prop
  | .operand e, tokens | .expr _ e, tokens => tokens = e.spelling
  | .operators _ left e, tokens => left.spelling ++ tokens = e.spelling
  | .arguments es, tokens => tokens = Expr.spellingOfAll es
  | .parameters ps, tokens => tokens = ps.flatMap Parameter.spelling
  | .returns type, tokens => tokens = type.toList
  | .clause s, tokens | .statement s, tokens => s.Spelled tokens
  | .body ss, tokens | .block ss, tokens | .framed _ ss, tokens | .file ss, tokens =>
    SpelledAll ss tokens
  | .chain condition ss otherwise, tokens =>
    (Stmt.conditional condition ss otherwise).Spelled tokens

open ImpFront.Parser

/-- **A phrase is spelled with the kept tokens that it was read from.** -/
theorem Reads.spelled {phrase : Phrase} {p q : Parser} (h : Reads phrase p q) :
    ∃ tokens, Yields p.cursor q.cursor tokens ∧ phrase.Spelled tokens := by
  induction h with
  | literal type => exact ⟨_, yields_of_listed type (by decide), rfl⟩
  | unary rule _ _ ih =>
      obtain ⟨tokens, operand, rfl⟩ := ih
      obtain ⟨hk, inner⟩ := Kind.isKept_of_unary rule
      exact ⟨_, (yields_next rfl hk inner).trans operand, rfl⟩
  | grouping opening _ closing ih =>
      obtain ⟨tokens, inside, spelled⟩ := ih
      have path := ((drops_next opening rfl).trans inside).trans (drops_next closing rfl)
      rw [List.nil_append, List.append_nil] at path
      exact ⟨tokens, path, spelled⟩
  | builtin name => exact ⟨_, yields_next name rfl (by decide), rfl⟩
  | attached name => exact ⟨_, yields_next name rfl (by decide), rfl⟩
  | reference name => exact ⟨_, yields_next name rfl (by decide), rfl⟩
  | @call p _ es here _ _ ih =>
      obtain ⟨tokens, arguments, rfl⟩ := ih
      have head := (yields_application here).trans (drops_pastLines p.next.next)
      exact ⟨_, head.trans arguments, rfl⟩
  | noArgument closing => exact ⟨_, drops_next closing rfl, rfl⟩
  | @argument _ q _ _ _ _ _ _ _ ihe ih =>
      obtain ⟨first, argument, rfl⟩ := ihe
      obtain ⟨later, arguments, rfl⟩ := ih
      have separators := (drops_pastComma q).trans (drops_pastLines q.pastComma)
      exact ⟨_, argument.trans (separators.trans arguments), rfl⟩
  | @noOperator p => exact ⟨[], .nothing p.cursor, List.append_nil _⟩
  | @operator p _ _ _ _ left right e _ sign _ _ _ _ ihr ih =>
      obtain ⟨first, operand, rfl⟩ := ihr
      obtain ⟨later, operators, spelled⟩ := ih
      have path := (yields_of_listed sign (by decide)).trans (operand.trans operators)
      refine ⟨_, path, ?_⟩
      show left.spelling ++ (p.current :: (right.spelling ++ later)) = e.spelling
      rw [← spelled, Expr.spelling]
      simp
  | expr _ _ ihl ih =>
      obtain ⟨first, operand, rfl⟩ := ihl
      obtain ⟨later, operators, spelled⟩ := ih
      exact ⟨_, operand.trans operators, spelled⟩
  | noParameter closing => exact ⟨_, drops_next closing rfl, rfl⟩
  | @parameter p _ s _ name colon type _ _ ih =>
      obtain ⟨later, parameters, rfl⟩ := ih
      have separators := (drops_pastComma (p.next.next.next.withScopes s)).trans
        (drops_pastLines _)
      have path := (yields_typing name colon type).trans (separators.trans parameters)
      exact ⟨_, path, rfl⟩
  | @noReturn p _ => exact ⟨[], .nothing p.cursor, rfl⟩
  | returns arrow type =>
      exact ⟨_, (drops_next arrow rfl).trans (yields_next type rfl (by decide)), rfl⟩
  | @function p q r u ps type _ s _ _ _ keyword name opening _ _ _ _ _ _ _ ihp ihr ihb =>
      obtain ⟨_, parameters, rfl⟩ := ihp
      obtain ⟨_, returns, rfl⟩ := ihr
      obtain ⟨inside, body, spelled⟩ := ihb
      have head := (yields_next keyword rfl (by decide)).trans
        ((yields_next name rfl (by decide)).trans (drops_next opening rfl))
      have lines : Yields p.next.next.next.cursor
          (p.next.next.next.withScopes s).pastLines.cursor [] := drops_pastLines p.next.next.next
      have signature := head.trans ((lines.trans parameters).trans returns)
      refine ⟨_, signature.trans ((drops_pastLines r).trans body), inside, spelled, ?_⟩
      simp [Signature.spelling]
  | conditional _ ih => exact ih
  | @lastLink _ q _ _ _ keyword _ _ _ ihc ihb =>
      obtain ⟨_, condition, rfl⟩ := ihc
      obtain ⟨inside, body, spelled⟩ := ihb
      have path := (drops_next keyword rfl).trans
        (condition.trans ((drops_pastLines q).trans body))
      exact ⟨_, path, inside, [], spelled, rfl, by simp⟩
  | @elseLink _ q r _ _ _ _ keyword _ _ more _ _ ihc ihb ihe =>
      obtain ⟨_, condition, rfl⟩ := ihc
      obtain ⟨inside, body, spelled⟩ := ihb
      obtain ⟨behind, otherwise, spelledElse⟩ := ihe
      have link := (drops_next keyword rfl).trans
        (condition.trans ((drops_pastLines q).trans body))
      have word := (drops_pastLines r).trans ((drops_next more rfl).trans (drops_pastLines _))
      exact ⟨_, link.trans (word.trans otherwise), inside, behind, spelled, spelledElse, by simp⟩
  | @nextLink _ q r _ _ _ _ _ _ _ _ keyword _ _ more _ _ _ _ ihc ihb ihe =>
      obtain ⟨_, condition, rfl⟩ := ihc
      obtain ⟨inside, body, spelled⟩ := ihb
      obtain ⟨behind, otherwise, spelledElse⟩ := ihe
      have link := (drops_next keyword rfl).trans
        (condition.trans ((drops_pastLines q).trans body))
      have word := (drops_pastLines r).trans ((drops_next more rfl).trans (drops_pastLines _))
      exact ⟨_, link.trans (word.trans otherwise), inside, behind, spelled, spelledElse, by simp⟩
  | @repeatWhile _ q _ _ _ keyword _ _ ihc ihb =>
      obtain ⟨_, condition, rfl⟩ := ihc
      obtain ⟨inside, body, spelled⟩ := ihb
      have path := (drops_next keyword rfl).trans
        (condition.trans ((drops_pastLines q).trans body))
      exact ⟨_, path, inside, spelled, by simp⟩
  | leaveLoop keyword => exact ⟨_, yields_next keyword rfl (by decide), rfl⟩
  | nextRound keyword => exact ⟨_, yields_next keyword rfl (by decide), rfl⟩
  | giveNothingBack keyword =>
      exact ⟨_, yields_next keyword rfl (by decide), keyword, .inr ⟨rfl, rfl⟩⟩
  | giveBack keyword _ _ ih =>
      obtain ⟨_, value, rfl⟩ := ih
      exact ⟨_, (yields_next keyword rfl (by decide)).trans value, keyword, .inl rfl⟩
  | declare keyword name colon type =>
      exact ⟨_, (drops_next keyword rfl).trans (yields_typing name colon type), rfl⟩
  | initialise keyword name colon type sign _ _ _ ih =>
      obtain ⟨_, value, rfl⟩ := ih
      have head := (drops_next keyword rfl).trans (yields_typing name colon type)
      exact ⟨_, head.trans ((drops_next sign rfl).trans value), rfl⟩
  | @assign p _ value _ name sign he _ _ ih =>
      obtain ⟨_, value, rfl⟩ := ih
      have head := (yields_next name rfl (by decide)).trans (drops_next sign rfl)
      refine ⟨_, head.trans value, ?_⟩
      show _ = p.current :: Expr.assignedSpelling _ _
      rw [he.plain p.current]
      rfl
  | @compound p _ value _ _ _ name sign _ _ _ _ ih =>
      obtain ⟨_, value, rfl⟩ := ih
      have head := (yields_next name rfl (by decide)).trans (yields_of_listed sign (by decide))
      refine ⟨_, head.trans value, ?_⟩
      have compound : p.next.current.kind.compoundOperator?.isSome := by
        unfold Parser.kind at sign
        rw [sign]
        rfl
      show _ = p.current :: Expr.assignedSpelling _ _
      rw [Expr.assignedSpelling, if_pos ⟨compound, rfl⟩]
      rfl
  | expression _ _ ih => exact ih
  | bareAttribute keyword => exact ⟨_, yields_next keyword rfl (by decide), rfl⟩
  | attributeValue keyword _ _ _ _ _ _ ih =>
      obtain ⟨_, value, rfl⟩ := ih
      exact ⟨_, (yields_next keyword rfl (by decide)).trans value, rfl⟩
  | @imported p _ _ es ps type s _ _ keyword _ _ here _ _ same _ _ _ _ ihe ihr =>
      obtain ⟨_, arguments, rfl⟩ := ihe
      obtain ⟨_, returns, rfl⟩ := ihr
      have lines : Yields p.next.next.next.cursor
          (p.next.next.next.withScopes s).pastLines.cursor [] := drops_pastLines p.next.next.next
      have head := (yields_next keyword rfl (by decide)).trans (yields_application here)
      refine ⟨_, (head.trans (lines.trans arguments)).trans returns, ?_⟩
      show _ = Signature.spelling _
      rw [spelling_importedParameters same]
      rfl
  | statement _ _ ih => exact ih
  | @emptyBody p _ => exact ⟨[], .nothing p.cursor, rfl⟩
  | @body _ q _ _ _ _ _ _ _ ihs ih =>
      obtain ⟨first, statement, spelled⟩ := ihs
      obtain ⟨later, statements, spelledRest⟩ := ih
      have path := statement.trans ((drops_pastSeparators q).trans statements)
      exact ⟨_, path, first, later, spelled, spelledRest, rfl⟩
  | @block p q _ opening _ closing ih =>
      obtain ⟨inside, body, spelled⟩ := ih
      have start : Yields p.next.cursor p.next.inBlock.pastSeparators.cursor [] :=
        drops_pastSeparators p.next.inBlock
      have finish : Yields q.cursor q.outOfBlock.next.cursor [] := drops_next closing rfl
      have path := (drops_next opening rfl).trans (start.trans (body.trans finish))
      rw [List.append_nil] at path
      exact ⟨inside, path, spelled⟩
  | framed _ _ _ _ ih => exact ih
  | @emptyFile p _ => exact ⟨[], drops_pastSeparators p, rfl⟩
  | @file p _ _ _ _ _ _ _ ihs ih =>
      obtain ⟨first, statement, spelled⟩ := ihs
      obtain ⟨later, statements, spelledRest⟩ := ih
      have path := (drops_pastSeparators p).trans (statement.trans statements)
      exact ⟨_, path, first, later, spelled, spelledRest, rfl⟩

/-! ## §4. Files. -/

/-- The tokens in front of the first end token. -/
def inner (tokens : List Token) : List Token :=
  tokens.takeWhile fun token => token.kind ≠ .eof

/-- Passing over inner tokens takes them off the tokens ahead. -/
theorem Cursor.Over.ahead {P : Token → Prop} {c d : Cursor} (h : Over P c d) :
    ∃ passed, c.ahead = passed ++ d.ahead ∧ ∀ token ∈ passed, P token := by
  induction h with
  | refl c => exact ⟨[], rfl, fun _ hm => nomatch hm⟩
  | @step c d hp _ ih =>
      obtain ⟨passed, split, all⟩ := ih
      cases ha : c.ahead with
      | nil =>
          have same : c.advance = c := by simp [advance, ha]
          rw [same, ha] at split
          exact ⟨passed, split, all⟩
      | cons token rest =>
          have current : c.current = token := by simp [current, peek, ha]
          have behind : c.advance.ahead = rest := by simp [advance, ha]
          rw [current] at hp
          rw [behind] at split
          exact ⟨token :: passed, by rw [split]; rfl, List.forall_mem_cons.2 ⟨hp, all⟩⟩

/-- The inner tokens are those in front of an end token without one among
them. -/
theorem inner_append {before behind : List Token} (all : ∀ token ∈ before, token.Inner)
    (ending : behind.head?.all fun token => token.kind = .eof) :
    inner (before ++ behind) = before := by
  unfold inner
  have through : ∀ token ∈ before, decide (token.kind ≠ .eof) = true :=
    fun token hm => decide_eq_true (all token hm)
  rw [List.takeWhile_append_of_pos through]
  cases behind with
  | nil => simp
  | cons token rest =>
      have stop : token.kind = .eof := by simpa using ending
      simp [stop]

/-- What is ahead of a cursor on an end token begins with it, or is empty. -/
theorem Cursor.head?_ahead {c : Cursor} (ending : c.current.kind = .eof) :
    c.ahead.head?.all fun token => token.kind = .eof := by
  cases ha : c.ahead with
  | nil => rfl
  | cons token rest =>
      have current : c.current = token := by simp [current, peek, ha]
      simpa [current] using ending

theorem inner_append_final (tokens : List Token) {final : Token} (ending : final.kind = .eof) :
    inner (tokens ++ [final]) = inner tokens := by
  unfold inner
  induction tokens with
  | nil => simp [ending]
  | cons token rest ih => rw [List.cons_append, List.takeWhile_cons, List.takeWhile_cons, ih]

/-- The inner tokens of a list are ahead of the cursor at its start. -/
theorem inner_ofTokens (tokens : List Token) :
    inner (Cursor.ofTokens tokens).ahead = inner tokens := by
  unfold Cursor.ofTokens
  cases tokens using List.reverseRecOn with
  | nil => rfl
  | append_singleton rest last =>
      simp only [List.getLast?_append, List.getLast?_singleton, Option.some_or]
      split
      · next ending =>
        rw [List.dropLast_concat, inner_append_final rest ending]
      · rfl

/-- **A file is read from the tokens in front of the first end token.** -/
theorem Reads.ahead_file {ss : List Stmt} {tokens : List Token} {q : Parser}
    (h : Reads (.file ss) (Parser.ofTokens tokens) q) :
    (Parser.ofTokens tokens).cursor.ahead =
      ImpFront.inner tokens ++ q.cursor.ahead := by
  obtain ⟨passed, split, all⟩ := h.inner.ahead
  have whole : ImpFront.inner (Cursor.ofTokens tokens).ahead = passed := by
    show ImpFront.inner (Parser.ofTokens tokens).cursor.ahead = passed
    rw [split]
    exact inner_append all (Cursor.head?_ahead h.ending)
  rw [split, ← inner_ofTokens, whole]

variable {file : String} {tokens : List Token} {program : Program} {p : Parser}

theorem kept_inner_subset (tokens : List Token) : kept (inner tokens) ⊆ tokens :=
  fun _ hm => (List.takeWhile_sublist _).subset (List.mem_of_mem_filter hm)

/-- The kept tokens in front of the first end token are a reading of the tree. -/
theorem spelled_inner (h : parse file tokens = (.ok program, p)) :
    program.Spelled (kept (inner tokens)) := by
  obtain ⟨read, -⟩ := Grammar.reads_file h
  obtain ⟨_, ⟨passed, split, rfl⟩, spelled⟩ := read.spelled
  have whole : inner tokens = passed := List.append_cancel_right (read.ahead_file.symm.trans split)
  rw [whole]
  exact spelled

/-- The reading is the only one unless a null stands at the place of a
`return`. -/
theorem spelling_of_unmixed (h : parse file tokens = (.ok program, p))
    (unmixed : Unmixed tokens) : program.spelling = kept (inner tokens) :=
  ((spelled_inner h).eq_spelling (unmixed.subset (kept_inner_subset tokens))).symm

/-- **An accepted tree is spelled with the tokens of its file.**  The kept
tokens in front of the first end token are a reading of the tree, in order,
none lost and none twice.  Unless a null stands at the place of a `return`,
they are what the tree alone says they are. -/
theorem spelled_of_accepted (h : parse file tokens = (.ok program, p)) :
    program.Spelled (kept (inner tokens)) ∧
      (Unmixed tokens → program.spelling = kept (inner tokens)) :=
  ⟨spelled_inner h, spelling_of_unmixed h⟩

theorem spelled_calledAhead :
    (parse "" calledAhead).1 = .ok calledAheadTree ∧
      calledAheadTree.spelling = kept (inner calledAhead) :=
  ⟨tree_calledAhead,
    (spelled_of_accepted parse_calledAhead).2 (by unfold Unmixed calledAhead; decide)⟩

/-! ## §5. Files that come from a text. -/

end ImpFront
