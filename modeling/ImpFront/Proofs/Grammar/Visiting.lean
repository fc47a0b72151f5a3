/-
  ImpFront.Proofs.Grammar.Visiting
  ────────────────────────────────
  **WHERE READING COMES BY.**

  A parser is visited if reading a file gets as far as to it, whatever becomes
  of the rest.  The places that are told apart are those between two phrases
  of the grammar: in front of the rest of the file, of a statement, of a link
  in a chain of conditions, of a block, and of the rest of a body.

      file ──→ statement ──→ block ──→ body ──→ statement ──→ …
        └─ behind a statement ─→ file     └─ behind a statement ─→ body

  Each constructor goes on from a visited place over phrases that have been
  read.  What holds at the start and goes over phrases holds wherever reading
  comes by.
-/
import ImpFront.Proofs.Grammar.Keeping

namespace ImpFront

open Scopes (Proper Kept)

/-! ## §1. The head of a function. -/

/-- From `p` on the head of a function is read, and `r` stands behind it, with
the function open and its name bound. -/
inductive Heads : Parser → Signature → Parser → Prop where
  | intro {p q r : Parser} {ps type s t} :
      p.kind = .kwFunc → p.next.kind = .identifier → p.next.next.kind = .openParen →
      Scopes.enter .function p.scopes = .ok () s →
      Reads (.parameters ps) (p.next.next.next.withScopes s).pastLines q →
      Reads (.returns type) q r →
      Scopes.define (Signature.symbol ⟨p.current, p.next.current, ps, type⟩) r.scopes
        = .ok () t →
      Heads p ⟨p.current, p.next.current, ps, type⟩ (r.pastLines.withScopes t)

/-! ## §2. Places. -/

/-- The sort of a place. -/
inductive Place where
  /-- In front of the rest of a file. -/
  | file
  /-- In front of a statement. -/
  | statement
  /-- In front of a link of a chain of conditions. -/
  | chain
  /-- In front of a block, in its frame. -/
  | block
  /-- In front of the rest of a body. -/
  | body
  deriving DecidableEq

/-- Reading the tokens comes by the parser, at a place of the sort. -/
inductive Visits (tokens : List Token) : Place → Parser → Prop where
  | start : Visits tokens .file (.ofTokens tokens)
  -- Statements of the file
  | first {p} :
      Visits tokens .file p → p.pastSeparators.kind ≠ .eof →
      Visits tokens .statement p.pastSeparators
  | behind {p q s} :
      Visits tokens .file p → p.pastSeparators.kind ≠ .eof →
      Reads (.statement s) p.pastSeparators q →
      Visits tokens .file q
  -- Statements of a block
  | opening {p} :
      Visits tokens .block p → p.kind = .openCurly →
      Visits tokens .body p.next.inBlock.pastSeparators
  | inner {p} :
      Visits tokens .body p → p.kind ≠ .closeCurly → p.kind ≠ .eof →
      Visits tokens .statement p
  | behindInner {p q s} :
      Visits tokens .body p → p.kind ≠ .closeCurly → p.kind ≠ .eof →
      Reads (.statement s) p q →
      Visits tokens .body q.pastSeparators
  -- Blocks of a statement
  | function {p r signature} :
      Visits tokens .statement p → Heads p signature r →
      Visits tokens .block r
  | loop {p q condition s} :
      Visits tokens .statement p → p.kind = .kwWhile →
      Reads (.expr .lowest condition) p.next q →
      Scopes.enter .loop q.scopes = .ok () s →
      Visits tokens .block (q.pastLines.withScopes s)
  | conditional {p} :
      Visits tokens .statement p → p.kind = .kwIf →
      Visits tokens .chain p
  | link {p q condition s} :
      Visits tokens .chain p → Reads (.expr .lowest condition) p.next q →
      Scopes.enter .conditional q.scopes = .ok () s →
      Visits tokens .block (q.pastLines.withScopes s)
  | otherwise {p q r condition body s} :
      Visits tokens .chain p → Reads (.expr .lowest condition) p.next q →
      Reads (.framed .conditional body) q.pastLines r →
      r.pastLines.kind = .kwElse → r.pastLines.next.pastLines.kind ≠ .kwIf →
      Scopes.enter .conditional r.scopes = .ok () s →
      Visits tokens .block (r.pastLines.next.pastLines.withScopes s)
  | nextLink {p q r condition body s} :
      Visits tokens .chain p → Reads (.expr .lowest condition) p.next q →
      Reads (.framed .conditional body) q.pastLines r →
      r.pastLines.kind = .kwElse → r.pastLines.next.pastLines.kind = .kwIf →
      Scopes.enter .conditional r.scopes = .ok () s →
      Visits tokens .chain (r.pastLines.next.pastLines.withScopes s)

/-! ## §3. What holds wherever reading comes by. -/

/-- Behind the head of a function the scopes are as they should be. -/
theorem Heads.proper {p r : Parser} {signature : Signature} (h : Heads p signature r)
    (hs : Proper p.scopes) : Proper r.scopes := by
  cases h with
  | @intro q r ps type s t keyword _ _ he hp hr hd =>
      have parameters : Kept s q.scopes := hp.kept rfl (hs.entered he)
      have returns : Kept q.scopes r.scopes := hr.kept rfl parameters.proper
      exact returns.proper.define (Signature.sorted_symbol (.inl keyword)) hd

/-- **Wherever reading comes by the scopes are as they should be.** -/
theorem Visits.proper {tokens : List Token} {place : Place} {p : Parser}
    (h : Visits tokens place p) : Proper p.scopes := by
  induction h with
  | start => exact .empty
  | first _ _ ih => exact ih
  | behind _ _ hstatement ih => exact (hstatement.kept rfl ih).proper
  | opening _ _ ih => exact ih
  | inner _ _ _ ih => exact ih
  | behindInner _ _ _ hstatement ih => exact (hstatement.kept rfl ih).proper
  | function _ hhead ih => exact hhead.proper ih
  | loop _ _ hcondition he ih =>
      exact (hcondition.kept_expression rfl ih).proper.entered he
  | conditional _ _ ih => exact ih
  | link _ hcondition he ih =>
      exact (hcondition.kept_expression rfl ih).proper.entered he
  | otherwise _ hcondition hbody _ _ he ih =>
      have condition := hcondition.kept_expression rfl ih
      exact (hbody.kept rfl condition.proper).proper.entered he
  | nextLink _ hcondition hbody _ _ he ih =>
      have condition := hcondition.kept_expression rfl ih
      exact (hbody.kept rfl condition.proper).proper.entered he

theorem Heads.inAttribute {p r : Parser} {signature : Signature} (h : Heads p signature r)
    (hs : Proper p.scopes) : r.scopes.inAttribute = false := by
  cases h with
  | @intro q r ps type s t keyword _ _ he hp hr hd =>
      have parameters : Kept s q.scopes := hp.kept rfl (hs.entered he)
      have returns : Kept q.scopes r.scopes := hr.kept rfl parameters.proper
      have named : Kept r.scopes t :=
        .define returns.proper (Signature.sorted_symbol (.inl keyword)) hd
      show t.inAttribute = false
      rw [((parameters.trans returns).trans named).inAttribute]
      exact Scopes.inAttribute_of_enter he (by decide)

/-- **No statement is read in the value of an attribute.** -/
theorem Visits.inAttribute {tokens : List Token} {place : Place} {p : Parser}
    (h : Visits tokens place p) : p.scopes.inAttribute = false := by
  induction h with
  | start => rfl
  | first _ _ ih => exact ih
  | behind hfile _ hstatement ih => exact (hstatement.kept rfl hfile.proper).inAttribute.trans ih
  | opening _ _ ih => exact ih
  | inner _ _ _ ih => exact ih
  | behindInner hbody _ _ hstatement ih =>
      exact (hstatement.kept rfl hbody.proper).inAttribute.trans ih
  | function hstatement hhead => exact hhead.inAttribute hstatement.proper
  | loop _ _ _ he => exact Scopes.inAttribute_of_enter he (by decide)
  | conditional _ _ ih => exact ih
  | link _ _ he => exact Scopes.inAttribute_of_enter he (by decide)
  | otherwise _ _ _ _ _ he => exact Scopes.inAttribute_of_enter he (by decide)
  | nextLink _ _ _ _ _ he => exact Scopes.inAttribute_of_enter he (by decide)

end ImpFront
