/-
  ImpFront.Proofs.Acceptance.Writing
  ──────────────────────────────────
  **HOW A TREE MAY BE WRITTEN.**

  The concrete syntax of the language, as the texts that a tree may be read
  from.  A statement is written in front of a rest, since an `if` without an
  `else` says something about the tokens behind it:

      list       element  gap  element  gap  …  element  gap
      gap        a comma or none, then line ends
      if         if  condition  lines  block  otherwise
      otherwise  lines else lines block          or
                 lines else lines if …           or
                 nothing, and no `else` behind the line ends that follow

  What is read is written so, by one induction over the grammar.  Two things
  can be seen from it.  An `else` belongs to the `if` whose body it follows,
  at every depth, and the line ends behind a chain are left alone.  And the
  comma of a list is optional: between two elements there is one at most, but
  there need not be any.
-/
import Mathlib
import ImpFront.Proofs.Acceptance.Chains
import ImpFront.Proofs.Acceptance.Compound
import ImpFront.Proofs.Acceptance.Declaring
import ImpFront.Proofs.Acceptance.Layout

namespace ImpFront

open Cursor (Over)
open Grammar (standardOperand? standardPrecedence?)

/-! ## §1. Languages of tokens. -/

/-- This token, provided that its kind fits. -/
def thisToken (fits : Kind → Prop) (token : Token) : Language Token :=
  {w | w = [token] ∧ fits token.kind}

/-- This token, provided that it is of that kind. -/
def thisWord (kind : Kind) (token : Token) : Language Token :=
  thisToken (· = kind) token

/-- This name. -/
def thisName (name : Token) : Language Token :=
  thisWord .identifier name

/-- Line ends, in any number. -/
def lineEnds : Language Token :=
  {w | ∀ token ∈ w, token.kind = .newline}

/-- The sign of a binary operator. -/
def binarySign (operator : Kind) (sign : Token) : Language Token :=
  thisToken (fun kind => kind = operator ∧ (standardPrecedence? kind).isSome) sign

/-- The sign of a unary operator. -/
def unarySign (operator : Kind) (sign : Token) : Language Token :=
  thisToken (fun kind => kind = operator ∧ standardOperand? kind = some .unary) sign

/-- The sign of a compound assignment. -/
def compoundSign (operator : Kind) (sign : Token) : Language Token :=
  thisToken (fun kind => kind.compoundOperator? = some operator) sign

/-- No tokens, and only on this condition. -/
def nothingIf (condition : Prop) : Language Token :=
  {w | w = [] ∧ condition}

/-- A text in as many parentheses as one likes. -/
def grouped (l : Language Token) : Language Token :=
  {w | ∃ n : ℕ, w ∈ oneToken .openParen ^ n * (l * oneToken .closeParen ^ n)}

/-- What stands behind an element of a list: a comma or none, then line
ends. -/
def listGap : Language Token :=
  (1 + oneToken .comma) * lineEnds

/-- The elements of a list. -/
def listed : List (Language Token) → Language Token
  | [] => 1
  | l :: ls => l * (listGap * listed ls)

/-- A list in its parentheses. -/
def enumeration (ls : List (Language Token)) : Language Token :=
  oneToken .openParen * (lineEnds * (listed ls * oneToken .closeParen))

/-- An `else` behind line ends, and anything after it. -/
def elseNext : Language Token :=
  lineEnds * (oneToken .kwElse * ⊤)

/-- Statements between braces, and a rest. -/
def enclosed (statements : Language Token → Language Token) (rest : Language Token) :
    Language Token :=
  oneToken .openCurly * (separators * statements (oneToken .closeCurly * rest))

/-! ## §2. How a tree is written. -/

namespace Expr

mutual

/-- How an expression is written. -/
def written : Expr → Language Token
  | .binary operator sign left right _ =>
    grouped (left.written * (binarySign operator sign * right.written))
  | .unary operator sign operand _ =>
    grouped (unarySign operator sign * operand.written)
  | .call name arguments _ => grouped (thisName name * enumeration (writtenEach arguments))
  | .literal token type =>
    grouped (thisToken (fun kind => BaseType.ofLiteral? kind = some type) token)
  | .reference name _ => grouped (thisName name)

/-- How each of some expressions is written. -/
def writtenEach : List Expr → List (Language Token)
  | [] => []
  | e :: es => e.written :: writtenEach es

end

/-- What stands behind the name of a variable in a compound assignment. -/
def compounded : Expr → Language Token
  | .binary operator sign _ right _ =>
    compoundSign operator sign * right.written
  | _ => 0

/-- What stands behind the name of a variable that is given a value. -/
def assigned (value : Expr) : Language Token :=
  oneToken .assign * value.written + value.compounded

/-- What stands behind a `return`: its value, or nothing if that has been
inserted. -/
def returned (keyword : Token) (value : Expr) : Language Token :=
  value.written + nothingIf (value = .literal (insertedNull keyword) .null)

end Expr

/-- A name and its type. -/
def typing (name type : Token) : Language Token :=
  thisName name * (oneToken .colon * thisName type)

/-- How a parameter is written: a name with its type in a function, a type in
an import. -/
def Parameter.written (parameter : Parameter) : Language Token :=
  match parameter.name with
  | none => grouped (thisName parameter.type)
  | some name => typing name parameter.type

/-- How the type is written that a function returns. -/
def writtenReturn : Option Token → Language Token
  | none => 1
  | some type => oneToken .arrow * thisName type

/-- How a signature is written behind a keyword of that kind. -/
def Signature.written (kind : Kind) (signature : Signature) : Language Token :=
  thisWord kind signature.keyword
    * (thisName signature.name * (enumeration (signature.parameters.map Parameter.written)
      * writtenReturn signature.returns))

/-- How an attribute is written. -/
def Attribute.written (attached : Attribute) : Language Token :=
  match attached.value with
  | none => thisWord .attribute attached.token
  | some (.expression value) => thisWord .attribute attached.token * value.written
  | some (.imported signature) => signature.written .attribute

mutual

/-- How a statement is written in front of a rest. -/
def Stmt.written : Stmt → Language Token → Language Token
  | .function signature body, rest =>
    signature.written .kwFunc * (lineEnds * enclosed (writtenAll body) rest)
  | .declare name type none, rest => oneToken .kwVar * (typing name type * rest)
  | .declare name type (some value), rest =>
    oneToken .kwVar * (typing name type * (oneToken .assign * (value.written * rest)))
  | .conditional condition body otherwise, rest =>
    oneToken .kwIf * (condition.written
      * (lineEnds * enclosed (writtenAll body) (otherwise.written rest)))
  | .repeatWhile condition body, rest =>
    oneToken .kwWhile * (condition.written * (lineEnds * enclosed (writtenAll body) rest))
  | .leaveLoop keyword, rest => thisWord .kwBreak keyword * rest
  | .nextRound keyword, rest => thisWord .kwContinue keyword * rest
  | .giveBack keyword value, rest =>
    thisWord .kwReturn keyword * (value.returned keyword * rest)
  | .assign name value, rest => thisName name * (value.assigned * rest)
  | .attribute attached, rest => attached.written * rest
  | .expression value, rest => value.written * rest

/-- How a chain of conditions goes on behind a body. -/
def Otherwise.written : Otherwise → Language Token → Language Token
  | .nothing, rest => rest ⊓ elseNextᶜ
  | .block body, rest =>
    lineEnds * (oneToken .kwElse * (lineEnds * enclosed (writtenAll body) rest))
  | .chain condition body otherwise, rest =>
    lineEnds * (oneToken .kwElse * (lineEnds * (oneToken .kwIf * (condition.written
      * (lineEnds * enclosed (writtenAll body) (otherwise.written rest))))))

/-- How statements are written in front of a rest. -/
def writtenAll : List Stmt → Language Token → Language Token
  | [], rest => rest
  | s :: ss, rest => s.written (separators * writtenAll ss rest)

end

/-- How a file is written, up to an end token. -/
def Program.written (program : Program) : Language Token :=
  separators * writtenAll program.clauses (oneToken .eof * ⊤)

/-- The chain of conditions ends without an `else`. -/
def Otherwise.isOpen : Otherwise → Bool
  | .nothing => true
  | .block _ => false
  | .chain _ _ otherwise => otherwise.isOpen

/-! ## §3. Texts of the languages. -/

section Texts

variable {l m : Language Token} {token : Token} {w : List Token}

theorem mem_thisToken_mul {fits : Kind → Prop} (h : fits token.kind) (hw : w ∈ m) :
    token :: w ∈ thisToken fits token * m :=
  Language.append_mem_mul (a := [token]) ⟨rfl, h⟩ hw

theorem mem_oneToken_mul {kind : Kind} (h : token.kind = kind) (hw : w ∈ m) :
    token :: w ∈ oneToken kind * m :=
  Language.append_mem_mul (a := [token]) ⟨token, rfl, h⟩ hw

theorem le_grouped (l : Language Token) : l ≤ grouped l := by
  intro w hw
  refine ⟨0, ?_⟩
  rwa [pow_zero, pow_zero, one_mul, mul_one]

theorem group_le_grouped (l : Language Token) :
    oneToken .openParen * (grouped l * oneToken .closeParen) ≤ grouped l := by
  intro w hw
  obtain ⟨opening, ho, _, hv, rfl⟩ := Language.mem_mul.1 hw
  obtain ⟨inside, ⟨n, hi⟩, closing, hc, rfl⟩ := Language.mem_mul.1 hv
  refine ⟨n + 1, ?_⟩
  have longer := Language.append_mem_mul ho (Language.append_mem_mul hi hc)
  rw [pow_succ', pow_succ]
  simpa only [mul_assoc] using longer

/-- An expression may be put in parentheses. -/
theorem Expr.group_le_written (e : Expr) :
    oneToken .openParen * (e.written * oneToken .closeParen) ≤ e.written := by
  cases e with
  | binary | unary | call | literal | reference => exact group_le_grouped _

theorem mem_mul_of_le {k : Language Token} (h : l ≤ k) (hw : w ∈ l * m) : w ∈ k * m :=
  mul_le_mul_left h m hw

theorem mem_grouped_mul (h : w ∈ l * m) : w ∈ grouped l * m :=
  mem_mul_of_le (le_grouped l) h

theorem mem_lineEnds_mul (hw : w ∈ m) : w ∈ lineEnds * m :=
  Language.append_mem_mul (a := []) (List.forall_mem_nil _) hw

theorem mem_separators_mul (hw : w ∈ m) : w ∈ separators * m :=
  Language.append_mem_mul (a := []) (List.forall_mem_nil _) hw

theorem mem_listGap_mul (hw : w ∈ m) : w ∈ listGap * m := by
  rw [listGap, mul_assoc, add_mul, one_mul]
  exact .inl (mem_lineEnds_mul hw)

theorem mem_comma_mul (h : token.kind = .comma) (hw : w ∈ m) : token :: w ∈ listGap * m := by
  rw [listGap, mul_assoc, add_mul]
  exact .inr (mem_oneToken_mul h (mem_lineEnds_mul hw))

end Texts

/-! ## §4. The tokens in front of a parser. -/

namespace Parser

variable {p : Parser} {m : Language Token}

theorem rest_thisToken {fits : Kind → Prop} (h : fits p.kind) (inner : p.kind ≠ .eof)
    (hm : p.next.cursor.rest ∈ m) : p.cursor.rest ∈ thisToken fits p.current * m := by
  rw [Cursor.rest_eq_cons inner]
  exact mem_thisToken_mul h hm

theorem rest_thisWord {kind : Kind} (h : p.kind = kind) (inner : kind ≠ .eof)
    (hm : p.next.cursor.rest ∈ m) : p.cursor.rest ∈ thisWord kind p.current * m :=
  rest_thisToken h (by rwa [h]) hm

theorem rest_name (h : p.kind = .identifier) (hm : p.next.cursor.rest ∈ m) :
    p.cursor.rest ∈ thisName p.current * m :=
  rest_thisWord h (by decide) hm

theorem rest_oneToken {kind : Kind} (h : p.kind = kind) (inner : kind ≠ .eof)
    (hm : p.next.cursor.rest ∈ m) : p.cursor.rest ∈ oneToken kind * m := by
  have cons : p.cursor.rest = p.current :: p.next.cursor.rest :=
    Cursor.rest_eq_cons (show p.kind ≠ .eof by rwa [h])
  rw [cons]
  exact mem_oneToken_mul h hm

theorem rest_past {test : Kind → Bool} {l : Language Token}
    (passed : ∀ w : List Token, (∀ token ∈ w, test token.kind = true) → w ∈ l)
    (hm : (p.past test).cursor.rest ∈ m) : p.cursor.rest ∈ l * m := by
  obtain ⟨w, split, all⟩ := (Over.skip p.cursor test).ahead
  have whole : p.cursor.rest = w ++ (p.past test).cursor.rest := by
    unfold Cursor.rest
    rw [split, List.append_assoc]
    rfl
  rw [whole]
  exact Language.append_mem_mul (passed w all) hm

theorem rest_pastLines (hm : p.pastLines.cursor.rest ∈ m) : p.cursor.rest ∈ lineEnds * m :=
  rest_past (fun _ all token hw => eq_of_beq (all token hw)) hm

theorem rest_pastSeparators (hm : p.pastSeparators.cursor.rest ∈ m) :
    p.cursor.rest ∈ separators * m :=
  rest_past (fun _ all => all) hm

/-- Behind an element of a list. -/
theorem rest_listGap (hm : p.pastComma.pastLines.cursor.rest ∈ m) :
    p.cursor.rest ∈ listGap * m := by
  have lines : p.pastComma.cursor.rest ∈ lineEnds * m := rest_pastLines hm
  rw [listGap, mul_assoc, add_mul, one_mul, Language.mem_add]
  unfold pastComma at lines
  split at lines
  · next comma => exact .inr (rest_oneToken comma (by decide) lines)
  · exact .inl lines

/-- A file ends at an end token, whatever stands behind it. -/
theorem rest_ending (h : p.kind = .eof) : p.cursor.rest ∈ oneToken .eof * ⊤ := by
  have first : p.cursor.rest.head? = some p.current := p.cursor.head?_rest
  obtain ⟨more, whole⟩ := List.head?_eq_some_iff.1 first
  have anything : more ∈ (⊤ : Language Token) := trivial
  rw [whole]
  exact mem_oneToken_mul h anything

/-- An `else` comes next if one stands behind the line ends. -/
theorem rest_mem_elseNext : p.cursor.rest ∈ elseNext ↔ p.pastLines.kind = .kwElse := by
  constructor
  · intro h
    obtain ⟨lines, all, _, hv, split⟩ := Language.mem_mul.1 h
    obtain ⟨_, ⟨word, rfl, hword⟩, more, -, rfl⟩ := Language.mem_mul.1 hv
    induction lines generalizing p with
    | nil =>
        have here : p.kind = .kwElse := (Faces.kind split.symm).trans hword
        rw [pastLines_of_other (by rw [here]; decide)]
        exact here
    | cons line lines ih =>
        have hline : line.kind = .newline := all line (List.mem_cons_self ..)
        have here : p.kind = .newline := (Faces.kind split.symm).trans hline
        have behind : p.next.cursor.rest = lines ++ ([word] ++ more) :=
          Faces.next split.symm (by rw [hline]; decide)
        rw [pastLines_of_line here]
        refine ih ?_ (fun token ht => all token (List.mem_cons_of_mem _ ht)) behind.symm
        rw [behind]
        exact Language.append_mem_mul
          (fun token ht => all token (List.mem_cons_of_mem _ ht))
          (Language.append_mem_mul ⟨word, rfl, hword⟩ trivial)
  · intro h
    exact rest_pastLines (rest_oneToken h (by decide) trivial)

end Parser

/-! ## §5. What is read is written so. -/

/-- The types that an import takes are written as its arguments are. -/
theorem written_importedParameters {es : List Expr} {ps : List Parameter}
    (h : es.mapM Statement.importedParameter = .ok ps) :
    Expr.writtenEach es = ps.map Parameter.written := by
  induction es generalizing ps with
  | nil =>
      cases h
      rfl
  | cons e rest ih =>
      rw [List.mapM_cons] at h
      cases e with
      | reference name type =>
          cases hr : rest.mapM Statement.importedParameter with
          | error error => rw [hr] at h; cases h
          | ok later =>
              rw [hr] at h
              cases h
              rw [Expr.writtenEach, ih hr]
              rfl
      | _ => cases h

/-- What makes a text of a second language of every text of a first one. -/
def completing (l m : Language Token) : Language Token :=
  {w | ∀ front ∈ l, front ++ w ∈ m}

/-- How a phrase is written in front of a rest.  The operators behind an
operand make an expression of every text of that operand. -/
def Phrase.written : Phrase → Language Token → Language Token
  | .operand e, rest | .expr _ e, rest => e.written * rest
  | .operators _ left e, rest => completing left.written (e.written * rest)
  | .arguments es, rest => listed (Expr.writtenEach es) * (oneToken .closeParen * rest)
  | .parameters ps, rest =>
    listed (ps.map Parameter.written) * (oneToken .closeParen * rest)
  | .returns type, rest => writtenReturn type * rest
  | .clause s, rest | .statement s, rest => s.written rest
  | .body ss, rest => writtenAll ss rest
  | .block ss, rest | .framed _ ss, rest => enclosed (writtenAll ss) rest
  | .chain condition ss otherwise, rest =>
    (Stmt.conditional condition ss otherwise).written rest
  | .file ss, rest => separators * writtenAll ss rest

open ImpFront.Parser

/-- A token that a table knows is no end token, if the table does not know
that one. -/
theorem Parser.kind_ne_eof_of_listed {α : Type} {table : Kind → Option α} {p : Parser} {entry : α}
    (h : table p.kind = some entry) (final : table .eof = none) : p.kind ≠ .eof := by
  intro ending
  rw [ending, final] at h
  cases h

/-- A list in its parentheses, at an application. -/
theorem Parser.rest_enumeration {p : Parser} {ls : List (Language Token)} {m : Language Token}
    (opening : p.kind = .openParen)
    (hm : p.next.pastLines.cursor.rest ∈ listed ls * (oneToken .closeParen * m)) :
    p.cursor.rest ∈ enumeration ls * m := by
  have inside := rest_oneToken opening (by decide) (rest_pastLines hm)
  simpa only [enumeration, mul_assoc] using inside

/-- **What is read is written as the concrete syntax says.** -/
theorem Reads.written {phrase : Phrase} {p q : Parser} (h : Reads phrase p q) :
    ∀ rest : Language Token, q.cursor.rest ∈ rest → p.cursor.rest ∈ phrase.written rest := by
  induction h with
  | literal type =>
      intro rest hq
      exact mem_grouped_mul (rest_thisToken type (kind_ne_eof_of_listed type rfl) hq)
  | @unary p _ operand _ rule _ _ ih =>
      intro rest hq
      have signed : p.cursor.rest ∈ unarySign p.kind p.current * (operand.written * rest) :=
        rest_thisToken ⟨rfl, rule⟩ (kind_ne_eof_of_listed rule rfl) (ih rest hq)
      refine mem_grouped_mul ?_
      simpa only [mul_assoc] using signed
  | @grouping _ _ e opening _ closing ih =>
      intro rest hq
      have inside := ih _ (rest_oneToken closing (by decide) hq)
      have group := rest_oneToken opening (by decide) inside
      refine mem_mul_of_le (Expr.group_le_written e) ?_
      simpa only [Phrase.written, mul_assoc] using group
  | builtin name | attached name | reference name =>
      intro rest hq
      exact mem_grouped_mul (rest_name name hq)
  | call here _ _ ih =>
      intro rest hq
      obtain ⟨name, opening⟩ := kind_of_atApplication here
      have applied := rest_name name (rest_enumeration opening (ih rest hq))
      refine mem_grouped_mul ?_
      simpa only [mul_assoc] using applied
  | noArgument closing =>
      intro rest hq
      have last := rest_oneToken closing (by decide) hq
      rwa [← one_mul (_ * rest)] at last
  | argument _ _ _ _ ihe ih =>
      intro rest hq
      have element := ihe _ (rest_listGap (ih rest hq))
      simpa only [Phrase.written, Expr.writtenEach, listed, mul_assoc] using element
  | noOperator =>
      intro rest hq front hfront
      exact Language.append_mem_mul hfront hq
  | @operator p q _ _ _ left right e type sign _ _ _ _ ihr ih =>
      intro rest hq front hfront
      -- the text between the sign and the next operator is that of the right side
      obtain ⟨operand, hoperand, _, rfl, split⟩ := Language.mem_mul.1 (ihr {q.cursor.rest} rfl)
      have inner : p.kind ≠ .eof := kind_ne_eof_of_listed sign rfl
      have fits : p.current.kind = p.kind ∧ (standardPrecedence? p.current.kind).isSome :=
        ⟨rfl, Option.isSome_of_eq_some sign⟩
      have longer : front ++ p.current :: operand ∈ (Expr.binary p.kind p.current left right
          type).written :=
        le_grouped _ (Language.append_mem_mul hfront (mem_thisToken_mul fits hoperand))
      have cons : p.cursor.rest = p.current :: p.next.cursor.rest := Cursor.rest_eq_cons inner
      rw [cons, ← split]
      simpa using ih rest hq _ longer
  | @expr _ q _ _ _ _ _ _ ihl ih =>
      intro rest hq
      obtain ⟨operand, hoperand, _, rfl, split⟩ := Language.mem_mul.1 (ihl {q.cursor.rest} rfl)
      rw [← split]
      exact ih rest hq operand hoperand
  | noParameter closing =>
      intro rest hq
      have last := rest_oneToken closing (by decide) hq
      rwa [← one_mul (_ * rest)] at last
  | parameter name colon type _ _ ih =>
      intro rest hq
      have gap := rest_listGap (ih rest hq)
      have element := rest_name name (rest_oneToken colon (by decide) (rest_name type gap))
      simpa only [Phrase.written, List.map_cons, Parameter.written, typing, listed, mul_assoc]
        using element
  | @noReturn p _ =>
      intro rest hq
      have same : p.cursor.rest ∈ 1 * rest := by rwa [one_mul]
      exact same
  | returns arrow type =>
      intro rest hq
      have behind := rest_oneToken arrow (by decide) (rest_name type hq)
      simpa only [Phrase.written, writtenReturn, mul_assoc] using behind
  | @function p _ r _ _ _ _ _ _ _ _ keyword name opening _ _ _ _ _ _ _ ihp ihr ihb =>
      intro rest hq
      have body : r.cursor.rest ∈ lineEnds * _ := rest_pastLines (ihb rest hq)
      have parameters := rest_enumeration opening (ihp _ (ihr _ body))
      have head := rest_thisWord keyword (by decide) (rest_name name parameters)
      simpa only [Phrase.written, Stmt.written, Signature.written, mul_assoc] using head
  | conditional _ ih => exact ih
  | lastLink keyword _ _ last ihc ihb =>
      intro rest hq
      have body := ihb (rest ⊓ elseNextᶜ) ⟨hq, fun next => last (rest_mem_elseNext.1 next)⟩
      exact rest_oneToken keyword (by decide) (ihc _ (rest_pastLines body))
  | elseLink keyword _ _ more _ _ ihc ihb ihe =>
      intro rest hq
      have word := rest_oneToken more (by decide) (rest_pastLines (ihe rest hq))
      have body := rest_pastLines (ihb _ (rest_pastLines word))
      exact rest_oneToken keyword (by decide) (ihc _ body)
  | nextLink keyword _ _ more _ _ _ _ ihc ihb ihe =>
      intro rest hq
      have word := rest_oneToken more (by decide) (rest_pastLines (ihe rest hq))
      have body := rest_pastLines (ihb _ (rest_pastLines word))
      exact rest_oneToken keyword (by decide) (ihc _ body)
  | repeatWhile keyword _ _ ihc ihb =>
      intro rest hq
      have body := rest_pastLines (ihb rest hq)
      exact rest_oneToken keyword (by decide) (ihc _ body)
  | leaveLoop keyword | nextRound keyword | bareAttribute keyword =>
      intro rest hq
      exact rest_thisWord keyword (by decide) hq
  | @giveNothingBack p keyword =>
      intro rest hq
      have nothing : p.next.cursor.rest ∈ Expr.returned p.current
          (.literal (Expr.insertedNull p.current) .null) * rest :=
        Language.append_mem_mul (a := []) (.inr ⟨rfl, rfl⟩) hq
      exact rest_thisWord keyword (by decide) nothing
  | giveBack keyword _ _ ih =>
      intro rest hq
      exact rest_thisWord keyword (by decide) (mem_mul_of_le le_sup_left (ih rest hq))
  | declare keyword name colon type =>
      intro rest hq
      have behind := rest_name name (rest_oneToken colon (by decide) (rest_name type hq))
      have head := rest_oneToken keyword (by decide) behind
      simpa only [Phrase.written, Stmt.written, typing, mul_assoc] using head
  | initialise keyword name colon type sign _ _ _ ih =>
      intro rest hq
      have value := rest_oneToken sign (by decide) (ih rest hq)
      have behind := rest_name name (rest_oneToken colon (by decide) (rest_name type value))
      have head := rest_oneToken keyword (by decide) behind
      simpa only [Phrase.written, Stmt.written, typing, mul_assoc] using head
  | @assign p _ value _ name sign _ _ _ ih =>
      intro rest hq
      have plain := rest_oneToken sign (by decide) (ih rest hq)
      rw [Phrase.written, ← mul_assoc] at plain
      exact rest_name name (mem_mul_of_le le_sup_left plain)
  | @compound p _ value _ operator type name sign _ _ _ _ ih =>
      intro rest hq
      have short : p.next.cursor.rest ∈ compoundSign operator p.next.current
          * (value.written * rest) :=
        rest_thisToken sign (kind_ne_eof_of_listed sign rfl) (ih rest hq)
      rw [← mul_assoc] at short
      exact rest_name name (mem_mul_of_le le_sup_right short)
  | expression _ _ ih => exact ih
  | attributeValue keyword _ _ _ _ _ _ ih =>
      intro rest hq
      have head := rest_thisWord keyword (by decide) (ih rest hq)
      simpa only [Phrase.written, Stmt.written, Attribute.written, mul_assoc] using head
  | imported keyword _ _ here _ _ same _ _ _ _ ihe ihr =>
      intro rest hq
      obtain ⟨name, opening⟩ := kind_of_atApplication here
      have arguments := ihe _ (ihr rest hq)
      rw [Phrase.written, written_importedParameters same] at arguments
      have head := rest_thisWord keyword (by decide)
        (rest_name name (rest_enumeration opening arguments))
      simpa only [Phrase.written, Stmt.written, Attribute.written, Signature.written, mul_assoc]
        using head
  | statement _ _ ih => exact ih
  | emptyBody => exact fun _ hq => hq
  | body _ _ _ _ ihs ih =>
      intro rest hq
      exact ihs _ (rest_pastSeparators (ih rest hq))
  | @block p q ss opening _ closing ih =>
      intro rest hq
      have closed : q.cursor.rest ∈ oneToken .closeCurly * rest :=
        rest_oneToken closing (by decide) hq
      have inside : p.next.cursor.rest ∈ separators * _ :=
        rest_pastSeparators (p := p.next.inBlock) (ih _ closed)
      exact rest_oneToken opening (by decide) inside
  | framed _ _ _ _ ih => exact ih
  | emptyFile => exact fun _ hq => rest_pastSeparators hq
  | file _ _ _ ihs ih =>
      intro rest hq
      exact rest_pastSeparators (ihs _ (ih rest hq))

/-! ## §6. Conditions. -/

/-- **No `else` is left over.**  However the rest of a chain is written, an
`else` comes next exactly if there is a rest. -/
theorem Otherwise.mem_elseNext_iff {otherwise : Otherwise} {rest : Language Token}
    {w : List Token} (h : w ∈ otherwise.written rest) :
    w ∈ elseNext ↔ otherwise ≠ .nothing := by
  cases otherwise with
  | nothing => exact iff_of_false h.2 fun other => other rfl
  | block | chain =>
      obtain ⟨lines, all, _, hv, rfl⟩ := Language.mem_mul.1 h
      obtain ⟨word, hword, more, -, rfl⟩ := Language.mem_mul.1 hv
      have anything : more ∈ (⊤ : Language Token) := trivial
      have next := Language.append_mem_mul all (Language.append_mem_mul hword anything)
      exact iff_of_true next nofun

/-- A chain ends with the closing brace of its last body, and no `else` comes
next behind a chain without one. -/
theorem Reads.ends_chain {condition : Expr} {body : List Stmt} {otherwise : Otherwise}
    {p q : Parser} (h : Reads (.chain condition body otherwise) p q) :
    (∃ closing, q.cursor.behind.head? = some closing ∧ closing.kind = .closeCurly)
      ∧ (otherwise.isOpen = true → q.pastLines.kind ≠ .kwElse) := by
  generalize hphrase : Phrase.chain condition body otherwise = phrase at h
  induction h generalizing condition body otherwise with
  | lastLink _ _ block last =>
      cases hphrase
      exact ⟨block.behind_framed, fun _ => last⟩
  | elseLink _ _ _ _ _ block =>
      cases hphrase
      exact ⟨block.behind_framed, nofun⟩
  | nextLink _ _ _ _ _ _ _ _ _ _ ih =>
      cases hphrase
      obtain ⟨closing, next⟩ := ih rfl
      exact ⟨closing, next⟩
  | _ => cases hphrase

/-- What begins with an `if` is a chain of conditions. -/
theorem Reads.chain_of_clause {s : Stmt} {p q : Parser} (h : Reads (.clause s) p q)
    (keyword : p.kind = .kwIf) :
    ∃ condition body otherwise, s = .conditional condition body otherwise
      ∧ Reads (.chain condition body otherwise) p q := by
  cases h with
  | conditional chain => exact ⟨_, _, _, rfl, chain⟩
  | function other | repeatWhile other | leaveLoop other | nextRound other
  | giveNothingBack other | giveBack other | declare other | initialise other | assign other
  | compound other | bareAttribute other | attributeValue other | imported other =>
      rw [keyword] at other
      cases other
  | expression other =>
      rw [keyword] at other
      obtain ⟨name, -⟩ | opening := other
      · cases name
      · cases opening

/-- **An `else` belongs to the `if` whose body it follows.**  A condition that
is read, wherever it begins, takes the tokens up to the closing brace of its
last body and none of the line ends behind it, written as the concrete syntax
says.  If the chain itself ends without an `else`, none comes next behind it.
And behind the body of each `if` in it, at every depth, an `else` comes next
exactly if the chain of that `if` goes on, and then it is the one that the chain
goes on with. -/
theorem attached_of_conditional {p q : Parser} {s : Stmt} (keyword : p.kind = .kwIf)
    (h : Grammar.standard.statementOf .conditional p = .ok s q) :
    ∃ condition body otherwise, s = .conditional condition body otherwise
      ∧ p.cursor.rest ∈ s.written {q.cursor.rest}
      ∧ (∃ closing, q.cursor.behind.head? = some closing ∧ closing.kind = .closeCurly)
      ∧ (otherwise.isOpen = true → q.pastLines.kind ≠ .kwElse)
      ∧ ∀ chain ∈ s.chains, chain.AttachedWithin p q := by
  have read : Reads (.clause s) p.silent q.silent :=
    Statement.reads_conditional Grammar.reads_statement keyword h
  obtain ⟨condition, body, otherwise, rfl, chain⟩ := read.chain_of_clause keyword
  obtain ⟨closing, next⟩ := chain.ends_chain
  exact ⟨condition, body, otherwise, rfl, read.written {q.cursor.rest} rfl, closing, next,
    read.attached_chains⟩

/-- `if 1 {`, `if 2 { }`, `else if 3 { } else { }`, `}` and `4`, with line
ends in between. -/
def nestedConditions : List Token :=
  [word 0 .kwIf "if", word 3 .integer "1", word 5 .openCurly "\x7b", word 6 .newline "\n",
    word 7 .kwIf "if", word 10 .integer "2", word 12 .openCurly "\x7b",
    word 14 .closeCurly "\x7d", word 15 .newline "\n", word 16 .kwElse "else",
    word 21 .kwIf "if", word 24 .integer "3", word 26 .openCurly "\x7b",
    word 28 .closeCurly "\x7d", word 30 .kwElse "else", word 35 .openCurly "\x7b",
    word 37 .closeCurly "\x7d", word 38 .newline "\n", word 39 .closeCurly "\x7d",
    word 40 .newline "\n", word 41 .newline "\n", word 42 .integer "4"]

theorem endsWell_nestedConditions :
    endsWell (Grammar.standard.statementOf .conditional) (Parser.ofTokens nestedConditions)
      = true := by
  decide +kernel

/-- The condition in that file takes its tokens up to the brace in front of
the last line ends. -/
theorem attached_nestedConditions :
    ∃ s q, Grammar.standard.statementOf .conditional (Parser.ofTokens nestedConditions) = .ok s q
      ∧ (Parser.ofTokens nestedConditions).cursor.rest ∈ s.written {q.cursor.rest}
      ∧ ∃ closing, q.cursor.behind.head? = some closing ∧ closing.kind = .closeCurly := by
  obtain ⟨s, q, h⟩ := exists_of_endsWell endsWell_nestedConditions
  obtain ⟨_, _, _, -, written, closing, -⟩ :=
    attached_of_conditional (p := Parser.ofTokens nestedConditions) rfl h
  exact ⟨s, q, h, written, closing⟩

/-! ## §7. Files. -/

/-- **Every list is written as the concrete syntax says.**  The tokens of an
accepted file are a text of its tree.  In every call, every import and every
function in it, there is one comma at most between two elements, directly
behind the first of them, and beside it there are line ends only. -/
theorem written_of_accepted {file : String} {tokens : List Token} {program : Program} {p : Parser}
    (h : parse file tokens = (.ok program, p)) :
    (Cursor.ofTokens tokens).rest ∈ program.written := by
  obtain ⟨read, -⟩ := Grammar.reads_file h
  exact read.written (oneToken .eof * ⊤) (rest_ending read.ending)

/-- `@import_symbol g(i32,`, `i64)`, `f(1 g(2, 3),`, `)` and
`func f(a: i32, b: i32) { }`, with line ends in between. -/
def scattered : List Token :=
  [word 0 .attribute "@import_symbol", word 15 .identifier "g", word 16 .openParen "(",
    word 17 .identifier "i32", word 20 .comma ",", word 21 .newline "\n",
    word 22 .identifier "i64", word 25 .closeParen ")", word 26 .newline "\n",
    word 27 .identifier "f", word 28 .openParen "(", word 29 .integer "1",
    word 31 .identifier "g", word 32 .openParen "(", word 33 .integer "2", word 34 .comma ",",
    word 36 .integer "3", word 37 .closeParen ")", word 38 .comma ",", word 39 .newline "\n",
    word 40 .closeParen ")", word 41 .newline "\n", word 42 .kwFunc "func",
    word 47 .identifier "f", word 48 .openParen "(", word 49 .identifier "a", word 50 .colon ":",
    word 52 .identifier "i32", word 55 .comma ",", word 57 .identifier "b", word 58 .colon ":",
    word 60 .identifier "i32", word 63 .closeParen ")", word 65 .openCurly "\x7b",
    word 67 .closeCurly "\x7d"]

/-- The tree of that file. -/
def scatteredTree : Program where
  attributes :=
    [⟨word 0 .attribute "@import_symbol",
      some (.imported ⟨word 0 .attribute "@import_symbol", word 15 .identifier "g",
        [⟨none, word 17 .identifier "i32"⟩, ⟨none, word 22 .identifier "i64"⟩], none⟩)⟩]
  statements :=
    [.expression (.call (word 27 .identifier "f")
        [.literal (word 29 .integer "1") .integer,
          .call (word 31 .identifier "g")
            [.literal (word 33 .integer "2") .integer,
              .literal (word 36 .integer "3") .integer] none] none),
      .function ⟨word 42 .kwFunc "func", word 47 .identifier "f",
        [⟨some (word 49 .identifier "a"), word 52 .identifier "i32"⟩,
          ⟨some (word 57 .identifier "b"), word 60 .identifier "i32"⟩], none⟩ []]

theorem tree_scattered : (parse "" scattered).1 = .ok scatteredTree := by
  cbv

theorem parse_scattered : parse "" scattered = (.ok scatteredTree, (parse "" scattered).2) := by
  rw [← tree_scattered]

/-- A file with a comma in front of a line end, with a comma missing, and with
one behind the last argument. -/
theorem written_scattered :
    (parse "" scattered).1 = .ok scatteredTree
      ∧ (Cursor.ofTokens scattered).rest ∈ scatteredTree.written :=
  ⟨tree_scattered, written_of_accepted parse_scattered⟩

/-- `@import_symbol g(i32 i64)`, `f(1 2)` and `func f(a: i32 b: i32) { }`. -/
def unseparated : List Token :=
  [word 0 .attribute "@import_symbol", word 15 .identifier "g", word 16 .openParen "(",
    word 17 .identifier "i32", word 21 .identifier "i64", word 24 .closeParen ")",
    word 25 .newline "\n", word 26 .identifier "f", word 27 .openParen "(",
    word 28 .integer "1", word 30 .integer "2", word 31 .closeParen ")", word 32 .newline "\n",
    word 33 .kwFunc "func", word 38 .identifier "f", word 39 .openParen "(",
    word 40 .identifier "a", word 41 .colon ":", word 43 .identifier "i32",
    word 47 .identifier "b", word 48 .colon ":", word 50 .identifier "i32",
    word 53 .closeParen ")", word 55 .openCurly "\x7b", word 57 .closeCurly "\x7d"]

/-- The tree of that file. -/
def unseparatedTree : Program where
  attributes :=
    [⟨word 0 .attribute "@import_symbol",
      some (.imported ⟨word 0 .attribute "@import_symbol", word 15 .identifier "g",
        [⟨none, word 17 .identifier "i32"⟩, ⟨none, word 21 .identifier "i64"⟩], none⟩)⟩]
  statements :=
    [.expression (.call (word 26 .identifier "f")
        [.literal (word 28 .integer "1") .integer, .literal (word 30 .integer "2") .integer] none),
      .function ⟨word 33 .kwFunc "func", word 38 .identifier "f",
        [⟨some (word 40 .identifier "a"), word 43 .identifier "i32"⟩,
          ⟨some (word 47 .identifier "b"), word 50 .identifier "i32"⟩], none⟩ []]

/-- **Lists without commas are accepted,** in a call, an import and a
function. -/
theorem accepted_unseparated :
    (parse "" unseparated).1 = .ok unseparatedTree
      ∧ ∀ token ∈ unseparated, token.kind ≠ .comma := by
  refine ⟨by cbv, ?_⟩
  decide

end ImpFront
