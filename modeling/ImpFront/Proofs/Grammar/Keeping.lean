/-
  ImpFront.Proofs.Grammar.Keeping
  ───────────────────────────────
  **WHAT A PHRASE DOES TO THE SCOPES.**

  Two inductions over `Reads`: expressions note calls and do nothing else,
  and through every other phrase goes what goes through each thing that it
  does, `Kept` in the first place.  That a function is taken out of the
  globals before it is defined there is seen to be without effect: its name
  was free when the function was opened, and nothing has been bound globally
  since.
-/
import ImpFront.Proofs.Grammar.Reading
import ImpFront.Proofs.Scope.Keeping
import ImpFront.Proofs.Typing

namespace ImpFront

open Scopes (Regular Proper Marks Kept Carried)

variable {phrase : Phrase} {p q : Parser}

/-! ## §1. Expressions. -/

/-- **An expression notes calls, and that is all.** -/
theorem Reads.marks (h : Reads phrase p q) (expression : phrase.isExpression = true)
    (hs : Regular p.scopes) : Regular q.scopes ∧ Marks p.scopes q.scopes := by
  induction h with
  | literal => exact ⟨hs, .refl _⟩
  | unary _ _ _ ih => exact ih rfl hs
  | grouping _ _ _ ih => exact ih rfl hs
  | builtin => exact ⟨hs, .refl _⟩
  | attached => exact ⟨hs, .refl _⟩
  | reference => exact ⟨hs, .refl _⟩
  | call _ _ _ ih =>
      obtain ⟨regular, marks⟩ := ih rfl (hs.mark _)
      exact ⟨regular, (Marks.mark hs _).trans marks⟩
  | noArgument => exact ⟨hs, .refl _⟩
  | @argument _ q _ _ _ _ _ _ _ ihe ih =>
      obtain ⟨regular, first⟩ := ihe rfl hs
      have same : q.pastComma.pastLines.scopes = q.scopes := by simp
      rw [same] at ih
      obtain ⟨regular, rest⟩ := ih rfl regular
      exact ⟨regular, first.trans rest⟩
  | noOperator => exact ⟨hs, .refl _⟩
  | operator _ _ _ _ _ ihr ih =>
      obtain ⟨regular, right⟩ := ihr rfl hs
      obtain ⟨regular, rest⟩ := ih rfl regular
      exact ⟨regular, right.trans rest⟩
  | expr _ _ ihl ih =>
      obtain ⟨regular, left⟩ := ihl rfl hs
      obtain ⟨regular, rest⟩ := ih rfl regular
      exact ⟨regular, left.trans rest⟩
  | _ => cases expression

/-- What goes through the noting of calls goes through expressions. -/
theorem Reads.carried_expression {R : Scopes → Scopes → Prop} (h : Reads phrase p q)
    (hR : Carried R) (expression : phrase.isExpression = true) (hs : Proper p.scopes) :
    R p.scopes q.scopes := by
  obtain ⟨regular, marks⟩ := h.marks expression hs.regular
  exact hR.marks hs regular marks

/-- An expression keeps the scopes. -/
theorem Reads.kept_expression (h : Reads phrase p q) (expression : phrase.isExpression = true)
    (hs : Proper p.scopes) : Kept p.scopes q.scopes :=
  h.carried_expression Kept.carried expression hs

/-! ## §2. Symbols that are bound. -/

namespace Symbol

theorem sorted_of_identifier {symbol : Symbol} (h : symbol.declared.kind = .identifier)
    (hf : symbol.isFunction = false) : symbol.Sorted := by
  unfold Sorted declaredBase BaseType.ofDeclaration
  rw [h, hf]
  simp [BaseType.ofName_ne_function]

end Symbol

theorem Signature.sorted_symbol {signature : Signature}
    (h : signature.keyword.kind = .kwFunc ∨ signature.keyword.kind = .attribute) :
    signature.symbol.Sorted := by
  have base : signature.symbol.declaredBase = .function := by
    unfold Symbol.declaredBase BaseType.ofDeclaration Signature.symbol
    rcases h with h | h
    · simp only [h]
    · simp only [h]
  exact iff_of_true base rfl

/-! ## §3. Other phrases. -/

/-- **What goes through everything that phrases do goes through phrases.** -/
theorem Reads.carried {R : Scopes → Scopes → Prop} (h : Reads phrase p q) (hR : Carried R)
    (other : phrase.isExpression = false) (hs : Proper p.scopes) : R p.scopes q.scopes := by
  induction h with
  | noParameter => exact hR.refl hs
  | @parameter p q s ps _ _ type hd _ ih =>
      have bound := hR.define hs (Symbol.sorted_of_identifier type rfl) hd
      have same : (p.next.next.next.withScopes s).pastComma.pastLines.scopes = s := by simp
      rw [same] at ih
      exact hR.trans bound (ih rfl (hR.kept bound).proper)
  | noReturn => exact hR.refl hs
  | returns => exact hR.refl hs
  | @function p q r u ps type body s t v w keyword _ _ he _ hr hd hb hx hw ihp ihr ihb =>
      have sorted : (Signature.symbol ⟨p.current, p.next.current, ps, type⟩).Sorted :=
        Signature.sorted_symbol (.inl keyword)
      have parameters := ihp rfl (hs.entered he)
      have head : R s r.scopes := hR.trans parameters (ihr rfl (hR.kept parameters).proper)
      have bound := hR.define (hR.kept head).proper sorted hd
      have body := ihb rfl (hR.kept bound).proper
      have left := hR.function hs he (hR.trans (hR.trans head bound) body) hx
      -- taking the name out is without effect, since it is bound no more
      obtain ⟨-, absent⟩ := Kept.name_of_function hs he (hR.kept head) sorted hd (hR.kept body) hx
      have gone : (v.delete p.next.current.value).2 = v := Scopes.delete_of_absent absent
      rw [gone] at hw
      exact hR.trans left (hR.define (hR.kept left).proper sorted hw)
  | conditional _ ih => exact ih rfl hs
  | lastLink _ hc _ _ _ ihb =>
      have condition := hc.carried_expression hR rfl hs
      exact hR.trans condition (ihb rfl (hR.kept condition).proper)
  | elseLink _ hc _ _ _ _ _ ihb ihe =>
      have condition := hc.carried_expression hR rfl hs
      have body := ihb rfl (hR.kept condition).proper
      exact hR.trans (hR.trans condition body) (ihe rfl (hR.kept body).proper)
  | nextLink _ hc _ _ _ he _ hx _ ihb ihl =>
      have condition := hc.carried_expression hR rfl hs
      have body := ihb rfl (hR.kept condition).proper
      have proper := (hR.kept body).proper
      have link := hR.framed proper (by decide) he (ihl rfl (proper.entered he)) hx
      exact hR.trans (hR.trans condition body) link
  | repeatWhile _ hc _ _ ihb =>
      have condition := hc.carried_expression hR rfl hs
      exact hR.trans condition (ihb rfl (hR.kept condition).proper)
  | leaveLoop => exact hR.refl hs
  | nextRound => exact hR.refl hs
  | giveNothingBack => exact hR.refl hs
  | giveBack _ _ he => exact he.carried_expression hR rfl hs
  | declare _ _ _ type _ hd => exact hR.define hs (Symbol.sorted_of_identifier type rfl) hd
  | initialise _ _ _ type _ he _ hd =>
      have initial := he.carried_expression hR rfl hs
      have bound := hR.define (hR.kept initial).proper (Symbol.sorted_of_identifier type rfl) hd
      exact hR.trans initial bound
  | assign _ _ he => exact he.carried_expression hR rfl hs
  | compound _ _ he => exact he.carried_expression hR rfl hs
  | expression _ he => exact he.carried_expression hR rfl hs
  | bareAttribute => exact hR.refl hs
  | attributeValue _ _ hn _ he _ hx =>
      exact hR.framed hs (by decide) hn (he.carried_expression hR rfl (hs.entered hn)) hx
  | @imported p q r es ps type s t u keyword _ hn _ _ ha _ _ hd _ hx _ ihr =>
      have proper := hs.entered hn
      have arguments := ha.carried_expression hR rfl proper
      have returns := ihr rfl (hR.kept arguments).proper
      have bound := hR.define (hR.kept returns).proper (Signature.sorted_symbol (.inr keyword)) hd
      exact hR.framed hs (by decide) hn (hR.trans (hR.trans arguments returns) bound) hx
  | statement _ _ ih => exact ih rfl hs
  | emptyBody => exact hR.refl hs
  | body _ _ _ _ ihs ihr =>
      have first := ihs rfl hs
      exact hR.trans first (ihr rfl (hR.kept first).proper)
  | block _ _ _ ih => exact ih rfl hs
  | framed hk he _ hx ih =>
      refine hR.framed hs ?_ he (ih rfl (hs.entered he)) hx
      rcases hk with rfl | rfl <;> decide
  | emptyFile => exact hR.refl hs
  | file _ _ _ ihs ihr =>
      have first := ihs rfl hs
      exact hR.trans first (ihr rfl (hR.kept first).proper)
  | _ => cases other

/-- **Every other phrase keeps the scopes.** -/
theorem Reads.kept (h : Reads phrase p q) (other : phrase.isExpression = false)
    (hs : Proper p.scopes) : Kept p.scopes q.scopes :=
  h.carried Kept.carried other hs

end ImpFront
