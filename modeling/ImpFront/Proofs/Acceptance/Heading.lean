/-
  ImpFront.Proofs.Acceptance.Heading
  ──────────────────────────────────
  **SIGNATURES AS THEY MAY BE WRITTEN.**

  The signature of a function is a name, a list in parentheses, and perhaps an
  arrow and a type.  In the list of an import there are types, and in that of
  a function there are names with types:

      @import_symbol  name ( type  gap …  )  -> type
      func            name ( name : type  gap …  )  -> type

  Here the texts are taken apart from the front, token by token, in the order
  in which they are read.  Parameters are always read if their names are free.
  The types of an import are read in the frame of an attribute, as names of
  values are, so that each of them has to be known there.  And of both texts
  the bare tokens show the same type for a call further up.
-/
import ImpFront.Proofs.Acceptance.Writing
import ImpFront.Proofs.Grammar.Foretelling

namespace ImpFront

open Cursor (Over)
open Grammar (standardOperand? standardPrecedence?)

/-! ## §1. The first token of a text. -/

/-- The first token of each text is of such a kind, and there is one. -/
def StartsWith (fits : Kind → Prop) (l : Language Token) : Prop :=
  ∀ w ∈ l, ∃ token more, w = token :: more ∧ fits token.kind

namespace StartsWith

variable {fits fits' : Kind → Prop} {l m : Language Token}

theorem mono (h : StartsWith fits l) (weaker : ∀ kind, fits kind → fits' kind) :
    StartsWith fits' l := by
  intro w hw
  obtain ⟨token, more, rfl, first⟩ := h w hw
  exact ⟨token, more, rfl, weaker _ first⟩

theorem mul (h : StartsWith fits l) (m : Language Token) : StartsWith fits (l * m) := by
  intro w hw
  obtain ⟨u, hu, v, -, rfl⟩ := Language.mem_mul.1 hw
  obtain ⟨token, more, rfl, first⟩ := h u hu
  exact ⟨token, more ++ v, rfl, first⟩

theorem thisWord (kind : Kind) (token : Token) : StartsWith (· = kind) (thisWord kind token) := by
  rintro w ⟨rfl, same⟩
  exact ⟨token, [], rfl, same⟩

theorem thisName (name : Token) : StartsWith (· = .identifier) (thisName name) :=
  thisWord .identifier name

theorem oneToken (kind : Kind) : StartsWith (· = kind) (oneToken kind) := by
  rintro w ⟨token, rfl, same⟩
  exact ⟨token, [], rfl, same⟩

theorem of_one (h : StartsWith fits m) : StartsWith fits (1 * m) := by
  rwa [one_mul]

/-- A run of tokens that fit may stand in front. -/
theorem run (all : ∀ w ∈ l, ∀ token ∈ w, fits token.kind) (h : StartsWith fits m) :
    StartsWith fits (l * m) := by
  intro w hw
  obtain ⟨u, hu, v, hv, rfl⟩ := Language.mem_mul.1 hw
  cases u with
  | nil => exact h v hv
  | cons token more => exact ⟨token, more ++ v, rfl, all _ hu token (List.mem_cons_self ..)⟩

theorem lineEnds (h : StartsWith fits m) (line : fits .newline) :
    StartsWith fits (lineEnds * m) := by
  refine run (fun w hw token ht => ?_) h
  rw [hw token ht]
  exact line

end StartsWith

/-! ## §2. Passing the tokens of a text. -/

namespace Parser

variable {p : Parser} {l m : Language Token} {token : Token} {kind : Kind}

theorem kind_of_startsWith {fits : Kind → Prop} (h : p.cursor.rest ∈ m)
    (starts : StartsWith fits m) : fits p.kind := by
  obtain ⟨token, more, split, first⟩ := starts _ h
  rwa [Faces.kind (show p.Faces (token :: more) from split)]

theorem of_thisWord (h : p.cursor.rest ∈ thisWord kind token * m) (inner : kind ≠ .eof) :
    p.current = token ∧ p.kind = kind ∧ p.next.cursor.rest ∈ m := by
  obtain ⟨_, ⟨rfl, fits⟩, v, hv, split⟩ := Language.mem_mul.1 h
  have faces : p.Faces (token :: v) := split.symm
  have fits : token.kind = kind := fits
  have behind : p.next.cursor.rest = v := faces.next (by rwa [fits])
  exact ⟨faces.current, faces.kind.trans fits, by rwa [behind]⟩

theorem of_thisName (h : p.cursor.rest ∈ thisName token * m) :
    p.current = token ∧ p.kind = .identifier ∧ p.next.cursor.rest ∈ m :=
  of_thisWord h (by decide)

theorem of_oneToken (h : p.cursor.rest ∈ oneToken kind * m) (inner : kind ≠ .eof) :
    p.kind = kind ∧ p.next.cursor.rest ∈ m := by
  obtain ⟨_, ⟨token, rfl, fits⟩, v, hv, split⟩ := Language.mem_mul.1 h
  have faces : p.Faces (token :: v) := split.symm
  have behind : p.next.cursor.rest = v := faces.next (by rwa [fits])
  exact ⟨faces.kind.trans fits, by rwa [behind]⟩

/-- A run of tokens is passed up to one that is not to be passed. -/
theorem of_run {test : Kind → Bool} (h : p.cursor.rest ∈ l * m)
    (all : ∀ w ∈ l, ∀ token ∈ w, test token.kind = true)
    (stop : StartsWith (fun kind => test kind = false) m) (final : test .eof = false) :
    (p.past test).cursor.rest ∈ m := by
  obtain ⟨w, hw, v, hv, split⟩ := Language.mem_mul.1 h
  have passed := all w hw
  clear h hw
  induction w generalizing p with
  | nil =>
      have here : p.cursor.rest ∈ m := by rwa [← show v = p.cursor.rest from split]
      rwa [past_of_neg (kind_of_startsWith here stop)]
  | cons token w ih =>
      obtain ⟨first, passed⟩ := List.forall_mem_cons.1 passed
      have faces : p.Faces (token :: (w ++ v)) := split.symm
      have inner : token.kind ≠ .eof := by
        intro ending
        rw [ending, final] at first
        cases first
      rw [past_of_pos (by rwa [faces.kind])]
      exact ih (faces.next inner).symm passed

theorem of_lineEnds (h : p.cursor.rest ∈ lineEnds * m) (stop : StartsWith (· ≠ .newline) m) :
    p.pastLines.cursor.rest ∈ m :=
  of_run h (fun _ hw token ht => beq_iff_eq.2 (hw token ht))
    (stop.mono fun _ other => beq_eq_false_iff_ne.2 other) rfl

theorem of_separators (h : p.cursor.rest ∈ separators * m)
    (stop : StartsWith (fun kind => kind.isTerminator = false) m) :
    p.pastSeparators.cursor.rest ∈ m :=
  of_run h (fun _ hw => hw) stop rfl

/-- Behind an element of a list its comma and the line ends are passed. -/
theorem of_listGap (h : p.cursor.rest ∈ listGap * m)
    (stop : StartsWith (fun kind => kind ≠ .comma ∧ kind ≠ .newline) m) :
    p.pastComma.pastLines.cursor.rest ∈ m := by
  have lines : StartsWith (· ≠ .newline) m := stop.mono fun _ other => other.2
  rw [listGap, mul_assoc, add_mul, one_mul, Language.mem_add] at h
  unfold pastComma
  rcases h with h | h
  · have other : p.kind ≠ .comma :=
      kind_of_startsWith h ((stop.mono fun _ other => other.1).lineEnds (by decide))
    rw [if_neg (show p.current.kind ≠ .comma from other)]
    exact of_lineEnds h lines
  · obtain ⟨comma, behind⟩ := of_oneToken h (by decide)
    rw [if_pos (show p.current.kind = .comma from comma)]
    exact of_lineEnds behind lines

end Parser

/-! ## §3. Lists of names. -/

section Lists

variable {p q : Parser} {m : Language Token} {ls : List (Language Token)}

theorem StartsWith.listed (starts : ∀ l ∈ ls, StartsWith (· = .identifier) l)
    (m : Language Token) :
    StartsWith (fun kind => kind = .identifier ∨ kind = .closeParen)
      (listed ls * (ImpFront.oneToken .closeParen * m)) := by
  cases ls with
  | nil =>
      refine StartsWith.of_one ?_
      exact ((StartsWith.oneToken .closeParen).mul m).mono fun _ => .inr
  | cons l ls =>
      obtain ⟨first, -⟩ := List.forall_mem_cons.1 starts
      exact ((first.mul _).mul _).mono fun _ => .inl

/-- A list in its parentheses is open behind the line ends. -/
theorem Parser.of_enumeration (starts : ∀ l ∈ ls, StartsWith (· = .identifier) l)
    (h : p.cursor.rest ∈ enumeration ls * m) :
    p.kind = .openParen
      ∧ p.next.pastLines.cursor.rest ∈ listed ls * (oneToken .closeParen * m) := by
  rw [enumeration, mul_assoc, mul_assoc, mul_assoc] at h
  obtain ⟨opening, behind⟩ := Parser.of_oneToken h (by decide)
  refine ⟨opening, Parser.of_lineEnds behind ((StartsWith.listed starts m).mono ?_)⟩
  rintro kind (rfl | rfl) <;> decide

/-- The rest of a list behind an element and its comma. -/
theorem Parser.of_listGap_listed
    (starts : ∀ l ∈ ls, StartsWith (· = .identifier) l)
    (h : p.cursor.rest ∈ listGap * (listed ls * (oneToken .closeParen * m))) :
    p.pastComma.pastLines.cursor.rest ∈ listed ls * (oneToken .closeParen * m) := by
  refine Parser.of_listGap h ((StartsWith.listed starts m).mono ?_)
  rintro kind (rfl | rfl) <;> decide

/-- Behind an element there may be a comma and line ends. -/
theorem StartsWith.listGap {fits : Kind → Prop} (h : StartsWith fits m) (comma : fits .comma)
    (line : fits .newline) : StartsWith fits (listGap * m) := by
  rw [ImpFront.listGap, mul_assoc]
  refine .run ?_ (h.lineEnds line)
  rintro w (rfl | ⟨_, rfl, kind⟩) token ht
  · cases ht
  · rw [List.mem_singleton.1 ht, kind]
    exact comma

/-- A signature begins with its keyword, its name and an open list. -/
theorem Parser.of_signature {kind : Kind} {keyword name : Token} {l : Language Token}
    (inner : kind ≠ .eof) (starts : ∀ l ∈ ls, StartsWith (· = .identifier) l)
    (h : p.cursor.rest ∈ thisWord kind keyword * (thisName name * (enumeration ls * l)) * m) :
    p.current = keyword ∧ p.next.current = name ∧ p.kind = kind ∧ p.next.kind = .identifier
      ∧ p.next.next.kind = .openParen
      ∧ p.next.next.next.pastLines.cursor.rest
          ∈ listed ls * (oneToken .closeParen * (l * m)) := by
  rw [mul_assoc, mul_assoc, mul_assoc] at h
  obtain ⟨isKeyword, kind, h⟩ := Parser.of_thisWord h inner
  obtain ⟨isName, name, h⟩ := Parser.of_thisName h
  obtain ⟨opening, h⟩ := Parser.of_enumeration starts h
  exact ⟨isKeyword, isName, kind, name, opening, h⟩

end Lists

theorem startsWith_typing (name type : Token) : StartsWith (· = .identifier) (typing name type) :=
  (StartsWith.thisName name).mul _

/-- The type behind an arrow is read, if there is an arrow. -/
theorem Reads.returns_written {p : Parser} {m : Language Token} {returns : Option Token}
    (h : p.cursor.rest ∈ writtenReturn returns * m) (stop : StartsWith (· ≠ .arrow) m) :
    ∃ q, Reads (.returns returns) p q ∧ q.scopes = p.scopes ∧ q.cursor.rest ∈ m := by
  cases returns with
  | none =>
      rw [writtenReturn, one_mul] at h
      exact ⟨p, .noReturn (Parser.kind_of_startsWith h stop), rfl, h⟩
  | some type =>
      rw [writtenReturn, mul_assoc] at h
      obtain ⟨arrow, h⟩ := Parser.of_oneToken h (by decide)
      obtain ⟨rfl, name, behind⟩ := Parser.of_thisName h
      exact ⟨p.next.next, .returns arrow name, rfl, behind⟩

/-! ## §4. The types of an import. -/

/-- In the value of an attribute the name of a type has a meaning: it is built
in, or bound. -/
def Scopes.KnowsType (s : Scopes) (name : String) : Prop :=
  (DeclaredType.builtin? name).isSome ∨ (s.lookup? name).isSome

section Types

variable {p q : Parser} {m : Language Token} {types : List Token}

theorem startsWith_types (types : List Token) :
    ∀ l ∈ types.map thisName, StartsWith (· = .identifier) l := by
  intro l hl
  obtain ⟨type, -, rfl⟩ := List.mem_map.1 hl
  exact .thisName type

/-- In a list of types a type is no call and no operand. -/
theorem Parser.endsExpression_of_listed
    (h : p.cursor.rest ∈ listGap * (listed (types.map thisName) * (oneToken .closeParen * m))) :
    EndsExpression p.cursor.rest := by
  have ends : StartsWith (fun kind => standardPrecedence? kind = none ∧ kind ≠ .openParen)
      (listed (types.map thisName) * (oneToken .closeParen * m)) := by
    refine (StartsWith.listed (startsWith_types types) m).mono ?_
    rintro kind (rfl | rfl) <;> exact ⟨rfl, by decide⟩
  obtain ⟨token, more, split, first⟩ :=
    (ends.listGap ⟨rfl, by decide⟩ ⟨rfl, by decide⟩) _ h
  intro other hother
  rw [split] at hother
  obtain rfl := Option.some.inj hother
  exact first

/-- **In an attribute known types are read as arguments**, and they are the
types of the parameters. -/
theorem Reads.types_written (inside : p.scopes.inAttribute = true)
    (known : ∀ type ∈ types, p.scopes.KnowsType type.value)
    (h : p.cursor.rest ∈ listed (types.map thisName) * (oneToken .closeParen * m)) :
    ∃ es q, Reads (.arguments es) p q
      ∧ es.mapM Statement.importedParameter = .ok (types.map (⟨none, ·⟩))
      ∧ q.scopes = p.scopes ∧ q.cursor.rest ∈ m := by
  induction types generalizing p with
  | nil =>
      rw [List.map_nil, listed, one_mul] at h
      obtain ⟨closing, behind⟩ := Parser.of_oneToken h (by decide)
      exact ⟨[], p.next, .noArgument closing, rfl, rfl, behind⟩
  | cons type types ih =>
      obtain ⟨first, others⟩ := List.forall_mem_cons.1 known
      rw [List.map_cons, listed, mul_assoc, mul_assoc] at h
      obtain ⟨rfl, name, behind⟩ := Parser.of_thisName h
      have ending : EndsExpression p.next.cursor.rest := Parser.endsExpression_of_listed behind
      have alone : p.atApplication = false := by
        have other : p.next.kind ≠ .openParen := (ending _ p.next.cursor.head?_rest).2
        simp [Parser.atApplication, other]
      have operand : ∃ base, Reads (.operand (.reference p.current base)) p p.next := by
        cases hb : DeclaredType.builtin? p.current.value with
        | some builtin => exact ⟨_, .builtin name alone inside hb⟩
        | none =>
            rw [Scopes.KnowsType, hb] at first
            have visible := first.resolve_left (by decide)
            obtain ⟨symbol, hl⟩ := Option.isSome_iff_exists.1 visible
            exact ⟨_, .attached name alone inside hb hl⟩
      obtain ⟨base, operand⟩ := operand
      obtain ⟨es, q, read, parameters, scopes, rest⟩ := ih (p := p.next.pastComma.pastLines)
        (by simpa using inside) (by simpa using others)
        (Parser.of_listGap_listed (startsWith_types types) behind)
      refine ⟨_ :: es, q, .argument ?_ ?_ (operand.alone rfl ending .lowest) read, ?_, ?_, rest⟩
      · rw [name]
        decide
      · rw [name]
        decide
      · rw [List.mapM_cons, parameters]
        rfl
      · rw [scopes]
        simp

/-- A name that is no call and no operand of an operator is known, if it is
read in an attribute. -/
theorem Reads.knows_name {limit : Precedence} {e : Expr} (read : Reads (.expr limit e) p q)
    (inside : p.scopes.inAttribute = true) (name : p.kind = .identifier)
    (ending : EndsExpression p.next.cursor.rest) :
    p.scopes.KnowsType p.current.value ∧ q = p.next := by
  obtain ⟨last, other⟩ := ending _ p.next.cursor.head?_rest
  cases read with
  | @expr _ r _ _ _ _ operand more =>
    have known : p.scopes.KnowsType p.current.value ∧ r = p.next := by
      cases operand with
      | builtin _ _ _ known => exact ⟨.inl (Option.isSome_of_eq_some known), rfl⟩
      | attached _ _ _ _ found => exact ⟨.inr (Option.isSome_of_eq_some found), rfl⟩
      | reference _ _ outside =>
          rw [inside] at outside
          cases outside
      | call here => exact absurd (Parser.kind_of_atApplication here).2 other
      | literal kind | unary kind | grouping kind =>
          rw [name] at kind
          cases kind
    obtain ⟨known, rfl⟩ := known
    cases more with
    | noOperator => exact ⟨known, rfl⟩
    | operator sign =>
        rw [show standardPrecedence? p.next.kind = none from last] at sign
        cases sign

/-- **Types that are read as arguments are known.** -/
theorem Reads.knows_types {es : List Expr} (read : Reads (.arguments es) p q)
    (inside : p.scopes.inAttribute = true)
    (h : p.cursor.rest ∈ listed (types.map thisName) * (oneToken .closeParen * m)) :
    ∀ type ∈ types, p.scopes.KnowsType type.value := by
  induction types generalizing p es with
  | nil => exact List.forall_mem_nil _
  | cons type types ih =>
      rw [List.map_cons, listed, mul_assoc, mul_assoc] at h
      obtain ⟨rfl, name, behind⟩ := Parser.of_thisName h
      have ending : EndsExpression p.next.cursor.rest := Parser.endsExpression_of_listed behind
      cases read with
      | noArgument closing =>
          rw [name] at closing
          cases closing
      | argument _ _ first rest =>
          obtain ⟨known, rfl⟩ := first.knows_name inside name ending
          have others := ih rest (by simpa using inside)
            (Parser.of_listGap_listed (startsWith_types types) behind)
          exact List.forall_mem_cons.2 ⟨known, by simpa using others⟩

end Types

/-! ## §5. The parameters of a function. -/

theorem Scopes.lookup?_opened (s : Scopes) (kind : FrameKind) (name : String) :
    (s.opened kind).lookup? name = s.lookup? name := by
  rw [lookup?_eq, local?_opened]
  rfl

/-- Every name that is not visible can be bound: no condition is open, and no
call waits at this level. -/
structure Scopes.Unclaimed (s : Scopes) : Prop where
  unconditional : s.inConditional = false
  further : ∀ name call, s.pending? name = some call → call.level < s.level

/-- The name of the symbol has come in, and nothing else has changed. -/
structure Scopes.Gains (symbol : Symbol) (s t : Scopes) : Prop where
  visible : ∀ name, t.lookup? name = if name = symbol.key then some symbol else s.lookup? name
  waiting : ∀ name, t.pending? name = if name = symbol.key then none else s.pending? name

/-- A name that is not visible is bound, and no call is answered. -/
theorem Scopes.Unclaimed.define {s : Scopes} (h : s.Unclaimed) (symbol : Symbol)
    (free : s.lookup? symbol.key = none) :
    ∃ t, Scopes.define symbol s = .ok () t ∧ t.Unclaimed
      ∧ (∀ name, t.pending? name = s.pending? name)
      ∧ ∀ name, t.lookup? name = if name = symbol.key then some symbol else s.lookup? name := by
  have defined : Scopes.define symbol s = .ok () ((s.settled symbol).bind symbol) := by
    refine define_ok_iff.2 ⟨h.unconditional, fun call hp hl => ?_, free, rfl⟩
    exact absurd (h.further _ call hp) (Nat.not_lt_of_le hl)
  have unsettled : s.settles symbol = false := by
    unfold Scopes.settles
    cases hp : s.pending? symbol.key with
    | none => simp
    | some call => simp [Nat.not_le_of_lt (h.further _ call hp)]
  have pending : ∀ name, ((s.settled symbol).bind symbol).pending? name = s.pending? name := by
    intro name
    rw [pending?_define defined, unsettled]
    simp
  refine ⟨_, defined, ⟨?_, fun name call hp => ?_⟩, pending, fun name => lookup?_define defined⟩
  · rw [inConditional_congr (s := s) (by simp), h.unconditional]
  · rw [pending] at hp
    rw [level_define defined]
    exact h.further name call hp

/-- The names of some parameters. -/
def parameterNames (ps : List Parameter) : List String :=
  (parameterSymbols ps).map Symbol.key

section Parameters

variable {p : Parser} {m : Language Token} {ps : List Parameter}

theorem startsWith_parameters (named : ∀ parameter ∈ ps, parameter.name.isSome = true) :
    ∀ l ∈ ps.map Parameter.written, StartsWith (· = .identifier) l := by
  intro l hl
  obtain ⟨⟨name, type⟩, hm, rfl⟩ := List.mem_map.1 hl
  obtain ⟨name, rfl⟩ := Option.isSome_iff_exists.1 (named _ hm)
  exact startsWith_typing name type

/-- **Parameters with free names are read**, whatever their types. -/
theorem Reads.parameters_written (named : ∀ parameter ∈ ps, parameter.name.isSome = true)
    (unclaimed : p.scopes.Unclaimed) (distinct : (parameterNames ps).Nodup)
    (free : ∀ name ∈ parameterNames ps, p.scopes.lookup? name = none)
    (h : p.cursor.rest ∈ listed (ps.map Parameter.written) * (oneToken .closeParen * m)) :
    ∃ q, Reads (.parameters ps) p q ∧ q.scopes.Unclaimed
      ∧ (∀ name, q.scopes.pending? name = p.scopes.pending? name)
      ∧ (∀ name ∉ parameterNames ps, q.scopes.lookup? name = p.scopes.lookup? name)
      ∧ q.cursor.rest ∈ m := by
  induction ps generalizing p with
  | nil =>
      rw [List.map_nil, listed, one_mul] at h
      obtain ⟨closing, behind⟩ := Parser.of_oneToken h (by decide)
      exact ⟨p.next, .noParameter closing, unclaimed, fun _ => rfl, fun _ _ => rfl, behind⟩
  | cons parameter ps ih =>
      obtain ⟨first, namedRest⟩ := List.forall_mem_cons.1 named
      obtain ⟨name, type⟩ := parameter
      obtain ⟨name, rfl⟩ := Option.isSome_iff_exists.1 first
      have names : parameterNames (⟨some name, type⟩ :: ps) = name.value :: parameterNames ps := rfl
      rw [names] at distinct free
      obtain ⟨apart, distinctRest⟩ := List.nodup_cons.1 distinct
      obtain ⟨unbound, freeRest⟩ := List.forall_mem_cons.1 free
      have h : p.cursor.rest ∈ typing name type * (listGap * listed (ps.map Parameter.written))
          * (oneToken .closeParen * m) := h
      rw [typing, mul_assoc, mul_assoc, mul_assoc, mul_assoc] at h
      obtain ⟨rfl, isName, h⟩ := Parser.of_thisName h
      obtain ⟨colon, h⟩ := Parser.of_oneToken h (by decide)
      obtain ⟨rfl, isType, h⟩ := Parser.of_thisName h
      obtain ⟨s, defined, unclaimed, pending, visible⟩ :=
        unclaimed.define ⟨p.current, p.next.next.current, .parameter⟩ unbound
      have others : ∀ other ∈ parameterNames ps, s.lookup? other = none := by
        intro other ho
        rw [visible, if_neg, freeRest other ho]
        rintro rfl
        exact apart ho
      obtain ⟨q, read, clear, waiting, hidden, rest⟩ := ih
        (p := (p.next.next.next.withScopes s).pastComma.pastLines) namedRest
        (by simpa using unclaimed) distinctRest (by simpa using others)
        (Parser.of_listGap_listed (p := p.next.next.next.withScopes s)
          (startsWith_parameters namedRest) h)
      simp only [Parser.scopes_pastLines, Parser.scopes_pastComma, Parser.scopes_withScopes]
        at waiting hidden
      refine ⟨q, .parameter isName colon isType defined read, clear, ?_, ?_, rest⟩
      · intro other
        rw [waiting, pending]
      · intro other ho
        rw [names] at ho
        obtain ⟨different, ho⟩ := not_or.1 (mt List.mem_cons.2 ho)
        rw [hidden other ho, visible]
        exact if_neg different

end Parameters

/-! ## §6. Functions without a body. -/

/-- The names of a function and of its parameters are different, and none of
them is visible. -/
def Signature.Fresh (signature : Signature) (s : Scopes) : Prop :=
  (signature.name.value :: parameterNames signature.parameters).Nodup
    ∧ ∀ name ∈ signature.name.value :: parameterNames signature.parameters, s.lookup? name = none

section Functions

variable {p : Parser} {m : Language Token} {signature : Signature}

/-- An empty block is read. -/
theorem Reads.block_written (h : p.cursor.rest ∈ enclosed (writtenAll []) m) :
    ∃ q, Reads (.block []) p q ∧ q.scopes = p.scopes ∧ q.cursor.rest ∈ m := by
  obtain ⟨opening, h⟩ := Parser.of_oneToken h (by decide)
  have stop : StartsWith (fun kind => kind.isTerminator = false) (oneToken .closeCurly * m) :=
    ((StartsWith.oneToken _).mul m).mono (by rintro _ rfl; rfl)
  have inside : p.next.inBlock.pastSeparators.cursor.rest ∈ oneToken .closeCurly * m :=
    Parser.of_separators (p := p.next.inBlock) h stop
  obtain ⟨closing, behind⟩ := Parser.of_oneToken inside (by decide)
  exact ⟨p.next.inBlock.pastSeparators.outOfBlock.next, .block opening (.emptyBody closing) closing,
    rfl, behind⟩

/-- The head of a function is read. -/
theorem Heads.written (named : ∀ parameter ∈ signature.parameters, parameter.name.isSome = true)
    (outermost : p.scopes.frames = []) (regular : Scopes.Regular p.scopes)
    (fresh : signature.Fresh p.scopes)
    (h : p.cursor.rest ∈ signature.written .kwFunc * (lineEnds * m))
    (stop : StartsWith (fun kind => kind ≠ .arrow ∧ kind ≠ .newline) m) :
    ∃ r, Heads p signature r ∧ (∀ name, r.scopes.pending? name = p.scopes.pending? name)
      ∧ r.cursor.rest ∈ m := by
  obtain ⟨keyword, name, parameters, returns⟩ := signature
  obtain ⟨distinct, free⟩ := fresh
  obtain ⟨apart, distinct⟩ := List.nodup_cons.1 distinct
  obtain ⟨unbound, free⟩ := List.forall_mem_cons.1 free
  have level : p.scopes.level = 0 := by rw [← regular.level_eq, outermost]; rfl
  have entered : Scopes.enter .function p.scopes = .ok () (p.scopes.opened .function) :=
    Scopes.enter_ok_iff.2 ⟨by simp [Scopes.inFunction, level], rfl⟩
  have unclaimed : (p.scopes.opened .function).Unclaimed := by
    constructor
    · simp [Scopes.inConditional, Scopes.opened, outermost]
    · intro waiting call hp
      have at_most : call.level ≤ p.scopes.level := regular.pending_le hp
      exact Nat.lt_succ_of_le at_most
  have hidden := p.scopes.lookup?_opened .function
  obtain ⟨rfl, rfl, isKeyword, isName, opening, h⟩ :=
    Parser.of_signature (by decide) (startsWith_parameters named) h
  obtain ⟨q, read, clear, waiting, other, h⟩ := Reads.parameters_written
    (p := (p.next.next.next.withScopes (p.scopes.opened .function)).pastLines) named unclaimed
    distinct (fun key hk => (hidden key).trans (free key hk)) h
  have lines : StartsWith (· ≠ .arrow) (lineEnds * m) :=
    (stop.mono fun _ other => other.1).lineEnds (by decide)
  obtain ⟨r, returns, same, h⟩ := Reads.returns_written h lines
  rw [← same] at clear waiting other
  obtain ⟨t, defined, -, pending, -⟩ := clear.define
    (Signature.symbol ⟨p.current, p.next.current, parameters, _⟩)
    ((other _ apart).trans ((hidden _).trans unbound))
  refine ⟨r.pastLines.withScopes t, .intro isKeyword isName opening entered read returns defined,
    fun name => (pending name).trans (waiting name), ?_⟩
  exact Parser.of_lineEnds h (stop.mono fun _ other => other.2)

/-- **A function without a body is read** if its names are fresh, whatever
its types.  All that is left of it is its name. -/
theorem Reads.function_written
    (named : ∀ parameter ∈ signature.parameters, parameter.name.isSome = true)
    (outermost : p.scopes.frames = []) (proper : Scopes.Proper p.scopes)
    (fresh : signature.Fresh p.scopes)
    (h : p.cursor.rest ∈ (Stmt.function signature []).written m) :
    ∃ q, Reads (.clause (.function signature [])) p q
      ∧ Scopes.Gains signature.symbol p.scopes q.scopes ∧ q.cursor.rest ∈ m := by
  have h : p.cursor.rest ∈ signature.written .kwFunc * (lineEnds * enclosed (writtenAll []) m) := h
  have stop : StartsWith (fun kind => kind ≠ .arrow ∧ kind ≠ .newline)
      (enclosed (writtenAll []) m) :=
    ((StartsWith.oneToken .openCurly).mul _).mono (by rintro _ rfl; decide)
  obtain ⟨r, heads, pending, h⟩ := Heads.written named outermost proper.regular fresh h stop
  obtain ⟨u, block, same, behind⟩ := Reads.block_written h
  obtain ⟨t, lifecycle⟩ := heads.lifecycle block proper
  obtain ⟨w, defined⟩ := lifecycle.defines
  have declares := lifecycle.declares defined
  have exits := lifecycle.exits
  have nothing : ((u.scopes.closed .function p.scopes.frames).delete signature.name.value).2
      = u.scopes.closed .function p.scopes.frames := congrArg Prod.snd lifecycle.deletes_nothing
  have bound := defined
  rw [← nothing] at bound
  refine ⟨u.withScopes w, ?_, ⟨declares.visible, fun name => ?_⟩, behind⟩
  · cases heads with
    | intro keyword name opening he hp hr hd =>
      exact .function keyword name opening he hp hr hd block exits bound
  · show w.pending? name = _
    split
    · next own => rw [own, declares.answered]
    · next other =>
      cases hp : p.scopes.pending? name with
      | some call => exact declares.waiting name call other hp
      | none => rw [declares.left name other, same, pending, hp]; rfl

end Functions

/-! ## §7. Imports. -/

/-- How a signature is written behind an attribute, with the bare types. -/
def Signature.writtenImport (signature : Signature) : Language Token :=
  thisWord .attribute signature.keyword * (thisName signature.name
    * (enumeration ((signature.parameters.map Parameter.type).map thisName)
      * writtenReturn signature.returns))

section Imports

variable {p q : Parser} {m : Language Token} {signature : Signature}

/-- Parameters without names are made of their types. -/
theorem map_type_of_nameless {ps : List Parameter}
    (nameless : ∀ parameter ∈ ps, parameter.name = none) :
    (ps.map Parameter.type).map (⟨none, ·⟩) = ps := by
  rw [List.map_map]
  refine (List.map_congr_left (g := id) fun parameter hm => ?_).trans (List.map_id _)
  show Parameter.mk none parameter.type = parameter
  rw [← nameless parameter hm]

theorem Kind.ne_of_ending {kind other : Kind} (h : kind.isTerminator = true ∨ kind = .eof)
    (plain : other.isTerminator = false) (inner : other ≠ .eof) : kind ≠ other := by
  rcases h with separates | rfl
  · exact Kind.ne_of_isTerminator separates plain
  · exact inner.symm

theorem Parser.atAttributeEnd_of_ending (h : p.kind.isTerminator = true ∨ p.kind = .eof) :
    p.atAttributeEnd = true := by
  unfold Parser.atAttributeEnd
  generalize p.kind = kind at h
  rcases h with separates | rfl
  · rcases Kind.isTerminator_iff.1 separates with rfl | rfl <;> rfl
  · rfl

/-- In the frame of an attribute the same types are known. -/
theorem Scopes.knowsType_opened (s : Scopes) (kind : FrameKind) (name : String) :
    (s.opened kind).KnowsType name ↔ s.KnowsType name := by
  rw [KnowsType, lookup?_opened]
  rfl

/-- What an import does to the scopes outside functions. -/
theorem Scopes.imports {s : Scopes} (symbol : Symbol) (function : symbol.isFunction = true)
    (outermost : s.frames = []) (regular : Regular s) (free : s.lookup? symbol.key = none) :
    ∃ t u, define symbol (s.opened .attribute) = .ok () t ∧ exit .attribute t = .ok () u
      ∧ Gains symbol s u := by
  have level : (s.opened .attribute).level = 0 := by
    show s.level = 0
    rw [← regular.level_eq, outermost]
    rfl
  have frames : ((s.opened .attribute).settled symbol).frames = [.attribute] := by
    rw [frames_settled]
    show .attribute :: s.frames = [.attribute]
    rw [outermost]
  have defined : define symbol (s.opened .attribute)
      = .ok () { (s.opened .attribute).settled symbol with
          globals := s.globals.insert symbol.key symbol } := by
    refine define_ok_iff.2 ⟨?_, fun _ _ _ => function, by rw [lookup?_opened, free], ?_⟩
    · rw [inConditional, ← frames_settled (s := s.opened .attribute) symbol, frames]
      rfl
    · rw [bind_of_global (by rw [frames]; rfl), globals_settled]
      rfl
  refine ⟨_, _, defined, exit_ok_iff.2 ⟨.attribute, [], frames, rfl, rfl⟩, fun name => ?_,
    fun name => ?_⟩
  · show (s.globals.insert symbol.key symbol).get? name = _
    rw [Table.get?_insert, lookup?, outermost]
    rfl
  · -- outside functions every call of the name is answered
    show ((s.opened .attribute).settled symbol).pending? name = _
    rw [pending?_settled]
    have same : (s.opened .attribute).pending? = s.pending? := rfl
    by_cases own : name = symbol.key
    · subst own
      rw [if_pos rfl]
      cases hp : s.pending? symbol.key with
      | none => simp [same, hp]
      | some call =>
          have answered : (s.opened .attribute).settles symbol = true := by
            simp [settles, function, same, hp, level]
          simp [answered]
    · rw [if_neg own, if_neg fun settled => own settled.2, same]

/-- **An import is read** if its name is free and its types are known.  All
that is left of it is its name. -/
theorem Reads.import_written
    (nameless : ∀ parameter ∈ signature.parameters, parameter.name = none)
    (importing : signature.keyword.value = Token.importAttribute)
    (outermost : p.scopes.frames = []) (regular : Scopes.Regular p.scopes)
    (free : p.scopes.lookup? signature.name.value = none)
    (known : ∀ parameter ∈ signature.parameters, p.scopes.KnowsType parameter.type.value)
    (h : p.cursor.rest ∈ signature.writtenImport * m)
    (stop : StartsWith (fun kind => kind.isTerminator = true ∨ kind = .eof) m) :
    ∃ q, Reads (.clause (.attribute ⟨signature.keyword, some (.imported signature)⟩)) p q
      ∧ Scopes.Gains signature.symbol p.scopes q.scopes ∧ q.cursor.rest ∈ m := by
  obtain ⟨keyword, name, parameters, returns⟩ := signature
  have entered : Scopes.enter .attribute p.scopes = .ok () (p.scopes.opened .attribute) :=
    Scopes.enter_ok_iff.2 ⟨nofun, rfl⟩
  obtain ⟨rfl, rfl, isKeyword, isName, opening, h⟩ :=
    Parser.of_signature (by decide) (startsWith_types _) h
  have inner : ∀ type ∈ parameters.map Parameter.type,
      (p.scopes.opened .attribute).KnowsType type.value := by
    intro type ht
    obtain ⟨parameter, hm, rfl⟩ := List.mem_map.1 ht
    exact (p.scopes.knowsType_opened .attribute _).2 (known parameter hm)
  obtain ⟨es, q, read, same, scopes, h⟩ := Reads.types_written
    (p := (p.next.next.next.withScopes (p.scopes.opened .attribute)).pastLines) rfl inner h
  rw [map_type_of_nameless nameless] at same
  obtain ⟨r, type, unchanged, h⟩ :=
    Reads.returns_written h (stop.mono fun _ ends => Kind.ne_of_ending ends rfl (by decide))
  obtain ⟨t, u, defined, exits, gains⟩ := Scopes.imports
    (Signature.symbol ⟨p.current, p.next.current, parameters, returns⟩) rfl outermost
    regular free
  have here : p.next.atApplication = true := by
    simp [Parser.atApplication, isName, opening]
  have ends : r.atAttributeEnd = true :=
    Parser.atAttributeEnd_of_ending (Parser.kind_of_startsWith h stop)
  have scopes : r.scopes = p.scopes.opened .attribute := unchanged.trans scopes
  rw [← scopes] at defined
  exact ⟨r.withScopes u, .imported isKeyword (Parser.atStatementEnd_of_kind isName (by decide))
    entered here importing read same type defined ends exits, gains, h⟩

/-- **The types of an import that is read are known.** -/
theorem Reads.knows_import {s : Stmt} (read : Reads (.clause s) p q)
    (h : p.cursor.rest ∈ signature.writtenImport * m) :
    ∀ parameter ∈ signature.parameters, p.scopes.KnowsType parameter.type.value := by
  obtain ⟨keyword, name, parameters, returns⟩ := signature
  obtain ⟨rfl, rfl, isKeyword, isName, opening, h⟩ :=
    Parser.of_signature (by decide) (startsWith_types _) h
  cases read with
  | bareAttribute _ ends =>
      rw [Parser.atStatementEnd_of_kind isName (by decide)] at ends
      cases ends
  | attributeValue _ _ _ alone =>
      simp [Parser.atApplication, isName, opening] at alone
  | @imported _ q _ _ _ _ s _ _ _ _ entered _ _ arguments =>
      obtain ⟨-, rfl⟩ := Scopes.enter_ok_iff.1 entered
      have known := arguments.knows_types rfl h
      intro parameter hm
      exact (p.scopes.knowsType_opened .attribute _).1 (known _ (List.mem_map_of_mem hm))
  | conditional chain =>
      have other : p.kind = .kwIf := by cases chain <;> assumption
      rw [isKeyword] at other
      cases other
  | function other | repeatWhile other | leaveLoop other | nextRound other
  | giveNothingBack other | giveBack other | declare other | initialise other | assign other
  | compound other =>
      rw [isKeyword] at other
      cases other
  | expression other =>
      rw [isKeyword] at other
      obtain ⟨name, -⟩ | opening := other
      · cases name
      · cases opening

end Imports

/-! ## §8. What bare tokens show of a signature. -/

/-- No token of a text announces a function. -/
def QuietText (l : Language Token) : Prop :=
  ∀ w ∈ l, ∀ token ∈ w, token.Quiet

namespace QuietText

variable {l m : Language Token}

theorem mul (h : QuietText l) (h' : QuietText m) : QuietText (l * m) := by
  intro w hw token ht
  obtain ⟨u, hu, v, hv, rfl⟩ := Language.mem_mul.1 hw
  rcases List.mem_append.1 ht with ht | ht
  · exact h u hu token ht
  · exact h' v hv token ht

theorem oneToken {kind : Kind} (h : kind ≠ .kwFunc ∧ kind ≠ .attribute) :
    QuietText (oneToken kind) := by
  rintro w ⟨token, rfl, same⟩ other ht
  rw [List.mem_singleton.1 ht]
  exact Token.quiet_of_kind same h

theorem thisName (name : Token) : QuietText (thisName name) := by
  rintro w ⟨rfl, same⟩ other ht
  rw [List.mem_singleton.1 ht]
  exact Token.quiet_of_kind same (by decide)

theorem separators : QuietText separators := fun _ hw token ht =>
  Token.quiet_of_isTerminator (hw token ht)

theorem lineEnds : QuietText lineEnds := fun _ hw token ht =>
  Token.quiet_of_kind (hw token ht) (by decide)

theorem writtenReturn (returns : Option Token) : QuietText (writtenReturn returns) := by
  cases returns with
  | none => rintro w rfl token ht; cases ht
  | some type => exact (oneToken (by decide)).mul (thisName type)

end QuietText

/-- Bare tokens show a call of the function its type, and to a call in the
middle of a list what stands behind the next one. -/
structure Signature.ShownBy (signature : Signature) (w : List Token) : Prop where
  ahead : ∀ name, returnTypeAhead? name none w
    = if name = signature.name.value then signature.returnBase? else none
  behind : typeBehindParameters? w = signature.returnBase?

section Shown

variable {m : Language Token} {ls : List (Language Token)} {w : List Token}

/-- No token of a list of names closes the list or announces a function. -/
theorem inward_of_mem_listed
    (plain : ∀ l ∈ ls, ∀ u ∈ l, ∀ token ∈ u, token.kind = .identifier ∨ token.kind = .colon) :
    ∀ u ∈ listed ls, ∀ token ∈ u, token.Quiet ∧ token.kind ≠ .closeParen := by
  induction ls with
  | nil => rintro - rfl token ht; cases ht
  | cons l ls ih =>
      intro u hu token ht
      obtain ⟨first, others⟩ := List.forall_mem_cons.1 plain
      obtain ⟨element, helement, _, hrest, rfl⟩ := Language.mem_mul.1 hu
      obtain ⟨gap, hgap, rest, hrest, rfl⟩ := Language.mem_mul.1 hrest
      obtain ⟨comma, hcomma, lines, hlines, rfl⟩ := Language.mem_mul.1 hgap
      simp only [List.mem_append] at ht
      rcases ht with ht | (ht | ht) | ht
      · rcases first element helement token ht with kind | kind <;>
          exact ⟨Token.quiet_of_kind kind (by decide), by rw [kind]; decide⟩
      · rcases hcomma with rfl | ⟨_, rfl, kind⟩
        · cases ht
        · rw [List.mem_singleton.1 ht]
          exact ⟨Token.quiet_of_kind kind (by decide), by rw [kind]; decide⟩
      · exact ⟨QuietText.lineEnds _ hlines token ht, by rw [hlines token ht]; decide⟩
      · exact ih others rest (by assumption) token ht

/-- A list in its parentheses, and what stands behind it. -/
theorem exists_of_mem_enumeration
    (plain : ∀ l ∈ ls, ∀ u ∈ l, ∀ token ∈ u, token.kind = .identifier ∨ token.kind = .colon)
    (h : w ∈ enumeration ls * m) :
    ∃ opening inside closing v, w = opening :: (inside ++ closing :: v)
      ∧ opening.kind = .openParen ∧ closing.kind = .closeParen
      ∧ (∀ token ∈ inside, token.Quiet ∧ token.kind ≠ .closeParen) ∧ v ∈ m := by
  rw [enumeration, mul_assoc, mul_assoc, mul_assoc] at h
  obtain ⟨_, ⟨opening, rfl, isOpening⟩, _, behind, rfl⟩ := Language.mem_mul.1 h
  obtain ⟨lines, hlines, _, list, rfl⟩ := Language.mem_mul.1 behind
  obtain ⟨inside, hinside, _, finish, rfl⟩ := Language.mem_mul.1 list
  obtain ⟨_, ⟨closing, rfl, isClosing⟩, v, hv, rfl⟩ := Language.mem_mul.1 finish
  refine ⟨opening, lines ++ inside, closing, v, by simp, isOpening, isClosing, ?_, hv⟩
  intro token ht
  rcases List.mem_append.1 ht with ht | ht
  · exact ⟨QuietText.lineEnds _ hlines token ht, by rw [hlines token ht]; decide⟩
  · exact inward_of_mem_listed plain inside hinside token ht

/-- Behind the parameters bare tokens show the type that is written there. -/
theorem typeBehindParameters?_written {closing : Token} {returns : Option Token}
    (h : closing.kind = .closeParen) (hw : w ∈ writtenReturn returns * m)
    (stop : StartsWith (· ≠ .arrow) m) :
    typeBehindParameters? (closing :: w) = returns.map fun type => .ofName type.value := by
  rw [typeBehindParameters?_closing h]
  cases returns with
  | some type =>
      obtain ⟨_, hfront, v, -, rfl⟩ := Language.mem_mul.1 hw
      obtain ⟨_, ⟨arrow, rfl, isArrow⟩, _, ⟨rfl, -⟩, rfl⟩ := Language.mem_mul.1 hfront
      exact if_pos isArrow
  | none =>
      rw [writtenReturn, one_mul] at hw
      obtain ⟨token, more, rfl, other⟩ := stop w hw
      cases more with
      | nil => rfl
      | cons => exact if_neg other

/-- **A signature that is written is shown.** -/
theorem Signature.shownBy_of_written {signature : Signature} {kind : Kind}
    (plain : ∀ l ∈ ls, ∀ u ∈ l, ∀ token ∈ u, token.kind = .identifier ∨ token.kind = .colon)
    (announces : signature.keyword.announcesFunction = true)
    (h : w ∈ thisWord kind signature.keyword * (thisName signature.name
      * (enumeration ls * (writtenReturn signature.returns * m))))
    (stop : StartsWith (· ≠ .arrow) m) (quiet : QuietText m) : signature.ShownBy w := by
  obtain ⟨_, ⟨rfl, -⟩, _, named, rfl⟩ := Language.mem_mul.1 h
  obtain ⟨_, ⟨rfl, isName⟩, _, behind, rfl⟩ := Language.mem_mul.1 named
  obtain ⟨opening, inside, closing, v, rfl, isOpening, isClosing, within, hv⟩ :=
    exists_of_mem_enumeration plain behind
  have shown := typeBehindParameters?_written isClosing hv stop
  have nothing : ∀ name, returnTypeAhead? name none v = none := by
    intro name
    have all := (QuietText.writtenReturn signature.returns).mul quiet v hv
    rw [← List.append_nil v, returnTypeAhead?_append all]
    rfl
  constructor
  · intro name
    refine (returnTypeAhead?_head announces isName isOpening isClosing within name).trans ?_
    rw [shown, nothing]
    rfl
  · have keyword : signature.keyword.kind ≠ .closeParen := by
      intro same
      simp [Token.announcesFunction, same] at announces
    have isName : signature.name.kind = .identifier := isName
    simp only [List.singleton_append]
    rw [typeBehindParameters?_cons keyword, typeBehindParameters?_cons (by rw [isName]; decide),
      typeBehindParameters?_cons (by rw [isOpening]; decide),
      typeBehindParameters?_append fun token ht => (within token ht).2]
    exact shown

end Shown

end ImpFront
