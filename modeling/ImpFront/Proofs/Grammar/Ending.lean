/-
  ImpFront.Proofs.Grammar.Ending
  ──────────────────────────────
  **WHERE A FILE ENDS.**

  A list of tokens may have end tokens before its last one.  No phrase goes
  past any of them, so a file that can be read ends at the first.

      Reads phrase p q   →  no end token lies between p and q
      Reads (.file ss)   →  q stands on the first end token

  The induction is on the phrase: a rule takes a token only when it has seen
  its kind, and the end of the tokens is not among those kinds.
-/
import ImpFront.Proofs.Grammar.Lookahead

namespace ImpFront

open Cursor (Over)

/-- The token is no end token. -/
def Token.Inner (token : Token) : Prop :=
  token.kind ≠ .eof

namespace Parser

variable {p : Parser}

/-! ## §1. Single tokens. -/

theorem inner_next {kind : Kind} (h : p.kind = kind) (inner : kind ≠ .eof) :
    Over Token.Inner p.cursor p.next.cursor := by
  refine .one fun ending => inner ?_
  rw [← h]
  exact ending

/-- A token is no end token if a table without an entry for the end knows it. -/
theorem inner_of_listed {α : Type} {table : Kind → Option α} {entry : α}
    (h : table p.kind = some entry) (ending : table .eof = none) :
    Over Token.Inner p.cursor p.next.cursor := by
  refine inner_next rfl fun same => ?_
  rw [same, ending] at h
  cases h

theorem inner_pastLines (p : Parser) : Over Token.Inner p.cursor p.pastLines.cursor :=
  over_pastLines (fun _ h => by rw [Token.Inner, h]; decide) p

theorem inner_pastComma (p : Parser) : Over Token.Inner p.cursor p.pastComma.cursor :=
  over_pastComma (fun _ h => by rw [Token.Inner, h]; decide) p

theorem inner_pastSeparators (p : Parser) :
    Over Token.Inner p.cursor p.pastSeparators.cursor :=
  over_pastSeparators (fun _ h => Kind.ne_of_isTerminator h rfl) p

theorem inner_application (h : p.atApplication = true) :
    Over Token.Inner p.cursor p.next.next.cursor := by
  obtain ⟨name, opening⟩ := kind_of_atApplication h
  exact (inner_next name (by decide)).trans (inner_next opening (by decide))

/-- A name, a colon and a type. -/
theorem inner_typing (name : p.kind = .identifier) (colon : p.next.kind = .colon)
    (type : p.next.next.kind = .identifier) :
    Over Token.Inner p.cursor p.next.next.next.cursor :=
  ((inner_next name (by decide)).trans (inner_next colon (by decide))).trans
    (inner_next type (by decide))

end Parser

/-! ## §2. Phrases. -/

open ImpFront.Parser

/-- **No phrase goes past an end token.** -/
theorem Reads.inner {phrase : Phrase} {p q : Parser} (h : Reads phrase p q) :
    Over Token.Inner p.cursor q.cursor := by
  induction h with
  | literal type => exact inner_of_listed type rfl
  | unary rule _ _ ih => exact (inner_of_listed rule rfl).trans ih
  | grouping opening _ closing ih =>
      exact ((inner_next opening (by decide)).trans ih).trans (inner_next closing (by decide))
  | builtin name => exact inner_next name (by decide)
  | attached name => exact inner_next name (by decide)
  | reference name => exact inner_next name (by decide)
  | @call p _ _ here _ _ ih =>
      exact ((inner_application here).trans (inner_pastLines p.next.next)).trans ih
  | noArgument closing => exact inner_next closing (by decide)
  | @argument _ q _ _ _ _ _ _ _ ihe ih =>
      exact (ihe.trans ((inner_pastComma q).trans (inner_pastLines _))).trans ih
  | noOperator => exact .refl _
  | operator sign _ _ _ _ ihr ih => exact ((inner_of_listed sign rfl).trans ihr).trans ih
  | expr _ _ ihl ih => exact ihl.trans ih
  | noParameter closing => exact inner_next closing (by decide)
  | @parameter p _ s _ name colon type _ _ ih =>
      have separators := (inner_pastComma (p.next.next.next.withScopes s)).trans
        (inner_pastLines _)
      exact ((inner_typing name colon type).trans separators).trans ih
  | noReturn => exact .refl _
  | returns arrow type =>
      exact (inner_next arrow (by decide)).trans (inner_next type (by decide))
  | @function p q r u _ _ _ s t _ _ keyword name opening _ _ _ _ _ _ _ ihp ihr ihb =>
      have head := ((inner_next keyword (by decide)).trans (inner_next name (by decide))).trans
        (inner_next opening (by decide))
      have lines : Over Token.Inner p.next.next.next.cursor
          (p.next.next.next.withScopes s).pastLines.cursor := inner_pastLines p.next.next.next
      exact (((head.trans (lines.trans ihp)).trans ihr).trans (inner_pastLines r)).trans ihb
  | conditional _ ih => exact ih
  | @lastLink _ q _ _ _ keyword _ _ _ ihc ihb =>
      exact (((inner_next keyword (by decide)).trans ihc).trans (inner_pastLines q)).trans ihb
  | @elseLink _ q r _ _ _ _ keyword _ _ more _ _ ihc ihb ihe =>
      have link := (((inner_next keyword (by decide)).trans ihc).trans
        (inner_pastLines q)).trans ihb
      have word := (inner_pastLines r).trans ((inner_next more (by decide)).trans
        (inner_pastLines _))
      exact (link.trans word).trans ihe
  | @nextLink _ q r _ _ _ _ _ _ _ _ keyword _ _ more _ _ _ _ ihc ihb ihe =>
      have link := (((inner_next keyword (by decide)).trans ihc).trans
        (inner_pastLines q)).trans ihb
      have word := (inner_pastLines r).trans ((inner_next more (by decide)).trans
        (inner_pastLines _))
      exact (link.trans word).trans ihe
  | @repeatWhile _ q _ _ _ keyword _ _ ihc ihb =>
      exact (((inner_next keyword (by decide)).trans ihc).trans (inner_pastLines q)).trans ihb
  | leaveLoop keyword => exact inner_next keyword (by decide)
  | nextRound keyword => exact inner_next keyword (by decide)
  | giveNothingBack keyword => exact inner_next keyword (by decide)
  | giveBack keyword _ _ ih => exact (inner_next keyword (by decide)).trans ih
  | declare keyword name colon type =>
      exact (inner_next keyword (by decide)).trans (inner_typing name colon type)
  | initialise keyword name colon type sign _ _ _ ih =>
      exact (((inner_next keyword (by decide)).trans (inner_typing name colon type)).trans
        (inner_next sign (by decide))).trans ih
  | assign name sign _ _ _ ih =>
      exact ((inner_next name (by decide)).trans (inner_next sign (by decide))).trans ih
  | compound name sign _ _ _ _ ih =>
      exact ((inner_next name (by decide)).trans (inner_of_listed sign rfl)).trans ih
  | expression _ _ ih => exact ih
  | bareAttribute keyword => exact inner_next keyword (by decide)
  | attributeValue keyword _ _ _ _ _ _ ih => exact (inner_next keyword (by decide)).trans ih
  | @imported p _ _ _ _ _ s _ _ keyword _ _ here _ _ _ _ _ _ _ ihe ihr =>
      have lines : Over Token.Inner p.next.next.next.cursor
          (p.next.next.next.withScopes s).pastLines.cursor := inner_pastLines p.next.next.next
      have head := (inner_next keyword (by decide)).trans (inner_application here)
      exact (head.trans (lines.trans ihe)).trans ihr
  | statement _ _ ih => exact ih
  | emptyBody => exact .refl _
  | @body _ q _ _ _ _ _ _ _ ihs ih => exact (ihs.trans (inner_pastSeparators q)).trans ih
  | @block p q _ opening _ closing ih =>
      have start : Over Token.Inner p.next.cursor p.next.inBlock.pastSeparators.cursor :=
        inner_pastSeparators p.next.inBlock
      have finish : Over Token.Inner q.cursor q.outOfBlock.next.cursor :=
        inner_next closing (by decide)
      exact ((inner_next opening (by decide)).trans (start.trans ih)).trans finish
  | framed _ _ _ _ ih => exact ih
  | @emptyFile p _ => exact inner_pastSeparators p
  | @file p _ _ _ _ _ _ _ ihs ih => exact ((inner_pastSeparators p).trans ihs).trans ih

/-- A file is read up to an end token. -/
theorem Reads.ending {ss : List Stmt} {p q : Parser} (h : Reads (.file ss) p q) :
    q.kind = .eof := by
  generalize hp : Phrase.file ss = phrase at h
  induction h generalizing ss with
  | emptyFile ending => exact ending
  | file _ _ _ _ ih => exact ih rfl
  | _ => cases hp

/-! ## §3. The first end token. -/

namespace Cursor

variable {c d : Cursor}

/-- No end token lies behind. -/
def Clear (c : Cursor) : Prop :=
  ∀ token ∈ c.behind, token.Inner

theorem clear_ofTokens (tokens : List Token) : (ofTokens tokens).Clear := by
  intro token hm
  rw [behind_ofTokens] at hm
  cases hm

theorem Clear.over (clear : c.Clear) (h : Over Token.Inner c d) : d.Clear := by
  induction h with
  | refl => exact clear
  | @step c d inner _ ih =>
      refine ih fun token hm => ?_
      unfold advance at hm
      split at hm
      · exact clear token hm
      · next head rest ha =>
        have current : c.current = head := by simp [current, peek, ha]
        rcases List.mem_cons.1 hm with rfl | hm
        · exact current ▸ inner
        · exact clear token hm

/-- An end token with none behind it is the first one. -/
theorem Clear.findIdx?_eq (clear : c.Clear) (ending : c.current.kind = .eof) :
    c.tokens.findIdx? (fun token => token.kind = .eof) = some c.index := by
  have split : c.tokens = c.behind.reverse ++ c.rest := by simp [tokens, rest]
  have head : ∃ later, c.rest = c.current :: later := by
    cases h : c.rest with
    | nil => simp [rest] at h
    | cons token later =>
        have := c.head?_rest
        rw [h, List.head?_cons, Option.some.injEq] at this
        exact ⟨later, by rw [this]⟩
  obtain ⟨later, hl⟩ := head
  rw [split, hl, List.findIdx?_append, List.findIdx?_cons]
  have none : c.behind.reverse.findIdx? (fun token => token.kind = .eof) = none := by
    rw [List.findIdx?_eq_none_iff]
    intro token hm
    exact decide_eq_false (clear token (List.mem_reverse.1 hm))
  simp [none, ending, index]

end Cursor

end ImpFront
