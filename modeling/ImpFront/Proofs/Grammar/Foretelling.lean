/-
  ImpFront.Proofs.Grammar.Foretelling
  ───────────────────────────────────
  **WHAT IS FOUND AHEAD IN A PRINTED TREE.**

  The type of a call in front of its function is read from bare tokens.
  Where these are the printed form of a tree, what is found there is the
  function that the tree mentions next:

      Foretells own tokens later  :  for each name but `own`,
        the type that bare `tokens` show is that of the function which is
        bound outside functions next, and none is bound in the open one

  The property is carried from the end of a file to its front.  Only a
  function changes anything about it; all else is made of tokens that
  announce none and of mentions that bind none.
-/
import ImpFront.Proofs.Grammar.Lookahead
import ImpFront.Proofs.Tree.Printing

namespace ImpFront

/-! ## §1. Bare tokens. -/

section Scan

variable {token : Token} {before rest : List Token}

/-- What stands in front of the first token matters only if it announces a
function. -/
theorem returnTypeAhead?_of_quiet (h : token.Quiet) (name : String) (tokens : List Token) :
    returnTypeAhead? name (some token) tokens = returnTypeAhead? name none tokens := by
  have h : token.announcesFunction = false := h
  cases tokens with
  | nil => rfl
  | cons first rest => simp [returnTypeAhead?, h]

theorem returnTypeAhead?_cons (h : token.Quiet) (name : String) :
    returnTypeAhead? name none (token :: rest) = returnTypeAhead? name none rest := by
  rw [← returnTypeAhead?_of_quiet h name rest, returnTypeAhead?]
  rfl

theorem returnTypeAhead?_append (h : ∀ token ∈ before, token.Quiet) (name : String) :
    returnTypeAhead? name none (before ++ rest) = returnTypeAhead? name none rest := by
  induction before with
  | nil => rfl
  | cons token tokens ih =>
      obtain ⟨first, h⟩ := List.forall_mem_cons.1 h
      rw [List.cons_append, returnTypeAhead?_cons first, ih h]

theorem typeBehindParameters?_cons (h : token.kind ≠ .closeParen) (rest : List Token) :
    typeBehindParameters? (token :: rest) = typeBehindParameters? rest := by
  simp [typeBehindParameters?, h]

theorem typeBehindParameters?_append (h : ∀ token ∈ before, token.kind ≠ .closeParen)
    (rest : List Token) : typeBehindParameters? (before ++ rest) = typeBehindParameters? rest := by
  induction before with
  | nil => rfl
  | cons token tokens ih =>
      obtain ⟨first, h⟩ := List.forall_mem_cons.1 h
      rw [List.cons_append, typeBehindParameters?_cons first, ih h]

/-- Behind the parenthesis an arrow announces the type. -/
theorem typeBehindParameters?_closing (h : token.kind = .closeParen) :
    typeBehindParameters? (token :: rest)
      = match rest with
        | arrow :: type :: _ => if arrow.kind = .arrow then some (.ofName type.value) else none
        | _ => none := by
  match rest with
  | [] => simp [typeBehindParameters?, h]
  | [_] => simp [typeBehindParameters?, h]
  | _ :: _ :: _ => simp [typeBehindParameters?, h]

/-- At the head of a function bare tokens show what stands behind its first
closing parenthesis, and for other names what is further down. -/
theorem returnTypeAhead?_head {keyword name opening closing : Token} {inside : List Token}
    (announces : keyword.announcesFunction = true) (isName : name.kind = .identifier)
    (isOpening : opening.kind = .openParen) (isClosing : closing.kind = .closeParen)
    (plain : ∀ token ∈ inside, token.Quiet ∧ token.kind ≠ .closeParen) (other : String) :
    returnTypeAhead? other none (keyword :: name :: opening :: (inside ++ closing :: rest))
      = if other = name.value then typeBehindParameters? (closing :: rest)
        else returnTypeAhead? other none rest := by
  have quiet : ∀ {token : Token} {kind : Kind}, token.kind = kind →
      kind ≠ .kwFunc ∧ kind ≠ .attribute → token.Quiet := Token.quiet_of_kind
  have first : returnTypeAhead? other none
        (keyword :: name :: opening :: (inside ++ closing :: rest))
      = returnTypeAhead? other (some keyword)
        (name :: opening :: (inside ++ closing :: rest)) := by
    rw [returnTypeAhead?]
    rfl
  rw [first, returnTypeAhead?]
  by_cases same : other = name.value
  · rw [if_pos same, if_pos (by simp [announces, isName, same, isOpening]),
      typeBehindParameters?_cons (by rw [isOpening]; decide),
      typeBehindParameters?_append fun token ht => (plain token ht).2]
  · have different : ¬name.value = other := fun h => same h.symm
    rw [if_neg same, if_neg (by simp [different]), returnTypeAhead?_of_quiet
      (quiet isName (by decide)), returnTypeAhead?_cons (quiet isOpening (by decide)),
      returnTypeAhead?_append fun token ht => (plain token ht).1,
      returnTypeAhead?_cons (quiet isClosing (by decide))]

/-- A token that announces a function is followed by a name. -/
theorem returnTypeAhead?_of_not_identifier {previous : Option Token}
    (h : token.kind ≠ .identifier) (name : String) :
    returnTypeAhead? name previous (token :: rest)
      = returnTypeAhead? name (some token) rest := by
  simp [returnTypeAhead?, h]

end Scan

/-! ## §2. Signatures. -/

/-- The tokens of a parameter are names and colons. -/
def Parameter.Plain (parameter : Parameter) : Prop :=
  ∀ token ∈ parameter.print, token.kind = .identifier ∨ token.kind = .colon

theorem Parameter.Named.plain {parameter : Parameter} (h : parameter.Named) :
    parameter.Plain := by
  obtain ⟨⟨name, same, hn⟩, ht⟩ := h
  intro token hm
  rw [print, same] at hm
  rcases List.mem_cons.1 hm with rfl | hm
  · exact .inl hn
  rcases List.mem_cons.1 hm with rfl | hm
  · exact .inr rfl
  · rw [List.mem_singleton.1 hm]
    exact .inl ht

theorem Parameter.Builtin.plain {parameter : Parameter} (h : parameter.Builtin) :
    parameter.Plain := by
  obtain ⟨same, ht, -⟩ := h
  intro token hm
  rw [print, same] at hm
  rw [List.mem_singleton.1 hm]
  exact .inl ht

/-- Only the last token behind an opening parenthesis is a closing one. -/
theorem printParameters_eq_concat {ps : List Parameter} (h : ∀ p ∈ ps, p.Plain) :
    ∃ tokens, printParameters ps = tokens ++ [Kind.closeParen.sign]
      ∧ ∀ token ∈ tokens, token.kind = .identifier ∨ token.kind = .colon
          ∨ token.kind = .comma := by
  induction ps with
  | nil => exact ⟨[], rfl, List.forall_mem_nil _⟩
  | cons p rest ih =>
      obtain ⟨plain, h⟩ := List.forall_mem_cons.1 h
      obtain ⟨tokens, same, ht⟩ := ih h
      refine ⟨p.print ++ (separator .comma rest ++ tokens), ?_, ?_⟩
      · rw [printParameters, same, List.append_assoc, List.append_assoc]
      · intro token hm
        rcases List.mem_append.1 hm with hm | hm
        · exact (plain token hm).imp_right .inl
        rcases List.mem_append.1 hm with hm | hm
        · cases rest with
          | nil => cases hm
          | cons => rw [List.mem_singleton.1 hm]; exact .inr (.inr rfl)
        · exact ht token hm

theorem quiet_printReturns {returns : Option Token}
    (h : ∀ type, returns = some type → type.kind = .identifier) :
    ∀ token ∈ printReturns returns, token.Quiet := by
  cases returns with
  | none => exact nofun
  | some type =>
      intro token hm
      rcases List.mem_cons.1 hm with rfl | hm
      · exact Token.quiet_of_kind rfl (by decide)
      · rw [List.mem_singleton.1 hm]
        exact Token.quiet_of_kind (h type rfl) (by decide)

/-- The type behind parameters is the one that is printed there. -/
theorem typeBehindParameters?_print {closing : Token} (h : closing.kind = .closeParen)
    (returns : Option Token) {rest : List Token}
    (stop : ∀ token, rest.head? = some token → token.kind ≠ .arrow) :
    typeBehindParameters? (closing :: (printReturns returns ++ rest))
      = returns.map fun type => .ofName type.value := by
  rw [typeBehindParameters?_closing h]
  cases returns with
  | some type => rfl
  | none =>
      match rest, stop with
      | [], _ => rfl
      | [_], _ => rfl
      | token :: _ :: _, stop => exact if_neg (stop token rfl)

/-- **At a signature bare tokens show its type**, and for other names what is
behind it. -/
theorem Signature.returnTypeAhead?_print {signature : Signature} {form : Parameter → Prop}
    (announces : signature.keyword.announcesFunction = true) (formed : signature.Formed form)
    (plain : ∀ p, form p → p.Plain) {rest : List Token}
    (stop : ∀ token, rest.head? = some token → token.kind ≠ .arrow) (name : String) :
    returnTypeAhead? name none (signature.print ++ rest)
      = if name = signature.name.value then signature.returnBase?
        else returnTypeAhead? name none rest := by
  obtain ⟨hn, hps, hr⟩ := formed
  obtain ⟨tokens, same, ht⟩ := printParameters_eq_concat fun p hp => plain p (hps p hp)
  have inside : ∀ token ∈ tokens, token.Quiet ∧ token.kind ≠ .closeParen := by
    intro token hm
    rcases ht token hm with hk | hk | hk <;>
      exact ⟨Token.quiet_of_kind hk (by decide), by rw [hk]; decide⟩
  have split : signature.print ++ rest = signature.keyword :: signature.name
      :: Kind.openParen.sign :: (tokens ++ Kind.closeParen.sign
        :: (printReturns signature.returns ++ rest)) := by
    rw [print, same]
    simp
  rw [split, returnTypeAhead?_head announces hn rfl rfl inside,
    typeBehindParameters?_print rfl _ stop, returnTypeAhead?_append (quiet_printReturns hr)]
  rfl

/-! ## §3. What announces no function. -/

/-- The mention is about no function. -/
def Mention.isInner : Mention → Bool
  | .opens kind => kind ≠ .function
  | .binds symbol => !symbol.isFunction
  | .completes _ => false
  | _ => true

section Inner

variable {name : String} {inside : Bool} {mentions later : List Mention}

theorem localAhead?_inner (h : ∀ mention ∈ mentions, mention.isInner = true) :
    localAhead? name (mentions ++ later) = localAhead? name later := by
  induction mentions with
  | nil => rfl
  | cons mention rest ih =>
      obtain ⟨first, h⟩ := List.forall_mem_cons.1 h
      rw [← ih h]
      cases mention with
      | binds symbol =>
          have value : symbol.isFunction = false := by simpa [Mention.isInner] using first
          exact if_neg (by simp [Symbol.names, value])
      | completes symbol => cases first
      | _ => rfl

theorem globalAhead?_inner (h : ∀ mention ∈ mentions, mention.isInner = true) :
    globalAhead? name inside (mentions ++ later) = globalAhead? name inside later := by
  induction mentions with
  | nil => rfl
  | cons mention rest ih =>
      obtain ⟨first, h⟩ := List.forall_mem_cons.1 h
      rw [← ih h]
      cases mention with
      | opens kind =>
          cases kind with
          | function => cases first
          | _ => rfl
      | binds symbol =>
          have value : symbol.isFunction = false := by simpa [Mention.isInner] using first
          exact if_neg (by simp [Symbol.names, value])
      | completes symbol => cases first
      | _ => rfl

end Inner

theorem quiet_sign (kind : Kind) (h : kind ≠ .kwFunc ∧ kind ≠ .attribute) :
    Token.Quiet kind.sign :=
  Token.quiet_of_kind rfl h

theorem quiet_separator {α : Type} (kind : Kind) (h : kind ≠ .kwFunc ∧ kind ≠ .attribute)
    (more : List α) : ∀ token ∈ separator kind more, token.Quiet := by
  intro token hm
  cases more with
  | nil => cases hm
  | cons =>
      rw [List.mem_singleton.1 hm]
      exact quiet_sign kind h

theorem quiet_inParens {tokens : List Token} (h : ∀ token ∈ tokens, token.Quiet) :
    ∀ token ∈ inParens tokens, token.Quiet := by
  intro token hm
  rcases List.mem_cons.1 hm with rfl | hm
  · exact quiet_sign _ (by decide)
  rcases List.mem_append.1 hm with hm | hm
  · exact h token hm
  · rw [List.mem_singleton.1 hm]
    exact quiet_sign _ (by decide)

theorem quiet_inBraces {tokens : List Token} (h : ∀ token ∈ tokens, token.Quiet) :
    ∀ token ∈ inBraces tokens, token.Quiet := by
  intro token hm
  rcases List.mem_cons.1 hm with rfl | hm
  · exact quiet_sign _ (by decide)
  rcases List.mem_append.1 hm with hm | hm
  · exact h token hm
  · rw [List.mem_singleton.1 hm]
    exact quiet_sign _ (by decide)

theorem Expr.quiet_of_fitting {e : Expr} (h : e.Fitting) : e.token.Quiet := by
  cases e with
  | binary operator token left right type =>
      obtain ⟨entry, he⟩ := Option.isSome_iff_exists.1 h.2
      exact Token.quiet_of_kind rfl (Kind.quiet_of_listed he rfl rfl)
  | unary operator token operand type =>
      exact Token.quiet_of_kind rfl (Kind.quiet_of_listed h.2 rfl rfl)
  | call name arguments returns => exact Token.quiet_of_kind h (by decide)
  | literal token type =>
      have known := Kind.standardOperand?_of_literal h
      exact Token.quiet_of_kind rfl (Kind.quiet_of_listed known rfl rfl)
  | reference name type => exact Token.quiet_of_kind h (by decide)

mutual

/-- **No token of an expression announces a function.** -/
theorem Expr.quiet_print : ∀ {e : Expr}, e.Formed → ∀ token ∈ e.print, token.Quiet
  | .binary operator token left right type, h => by
      obtain ⟨fitting, h⟩ := List.forall_mem_cons.1 h
      obtain ⟨hl, hr⟩ := List.forall_mem_append.1 h
      refine List.forall_mem_append.2 ⟨quiet_inParens (Expr.quiet_print hl), ?_⟩
      exact List.forall_mem_cons.2
        ⟨Expr.quiet_of_fitting fitting, quiet_inParens (Expr.quiet_print hr)⟩
  | .unary operator token operand type, h => by
      obtain ⟨fitting, h⟩ := List.forall_mem_cons.1 h
      exact List.forall_mem_cons.2
        ⟨Expr.quiet_of_fitting fitting, quiet_inParens (Expr.quiet_print h)⟩
  | .call name arguments returns, h => by
      obtain ⟨fitting, h⟩ := List.forall_mem_cons.1 h
      refine List.forall_mem_cons.2 ⟨Expr.quiet_of_fitting fitting, ?_⟩
      exact List.forall_mem_cons.2 ⟨quiet_sign _ (by decide), Expr.quiet_printArguments h⟩
  | .literal token type, h =>
      List.forall_mem_singleton.2 (Expr.quiet_of_fitting (Expr.formed_self h))
  | .reference name type, h =>
      List.forall_mem_singleton.2 (Expr.quiet_of_fitting (Expr.formed_self h))

theorem Expr.quiet_printArguments : ∀ {es : List Expr},
    (∀ node ∈ Expr.nodesOfAll es, node.Fitting) → ∀ token ∈ Expr.printArguments es, token.Quiet
  | [], _ => List.forall_mem_singleton.2 (quiet_sign _ (by decide))
  | e :: rest, h => by
      obtain ⟨he, hr⟩ := List.forall_mem_append.1 h
      refine List.forall_mem_append.2 ⟨Expr.quiet_print he, ?_⟩
      exact List.forall_mem_append.2
        ⟨quiet_separator .comma (by decide) rest, Expr.quiet_printArguments hr⟩

end

/-! ## §4. Statements inside functions. -/

mutual

/-- No token of a statement inside a function announces a function. -/
theorem Stmt.quiet_print : ∀ {s : Stmt}, s.Formed true → ∀ token ∈ s.print, token.Quiet
  | .function _ _, h => nomatch h.1
  | .declare name type none, ⟨hn, ht⟩ => by
      have name := Token.quiet_of_kind hn (by decide)
      have type := Token.quiet_of_kind ht (by decide)
      simp only [Stmt.print, List.forall_mem_cons]
      exact ⟨quiet_sign _ (by decide), name, quiet_sign _ (by decide), type, List.forall_mem_nil _⟩
  | .declare name type (some value), ⟨hn, ht, hv⟩ => by
      have name := Token.quiet_of_kind hn (by decide)
      have type := Token.quiet_of_kind ht (by decide)
      simp only [Stmt.print, List.forall_mem_cons]
      exact ⟨quiet_sign _ (by decide), name, quiet_sign _ (by decide), type,
        quiet_sign _ (by decide), Expr.quiet_print hv⟩
  | .conditional condition body otherwise, ⟨hc, hb, ho⟩ => by
      simp only [Stmt.print, List.forall_mem_cons, List.forall_mem_append]
      exact ⟨quiet_sign _ (by decide), Expr.quiet_print hc, quiet_inBraces (quiet_printAll hb),
        Otherwise.quiet_print ho⟩
  | .repeatWhile condition body, ⟨hc, hb⟩ => by
      simp only [Stmt.print, List.forall_mem_cons, List.forall_mem_append]
      exact ⟨quiet_sign _ (by decide), Expr.quiet_print hc, quiet_inBraces (quiet_printAll hb)⟩
  | .leaveLoop keyword, h => List.forall_mem_singleton.2 (Token.quiet_of_kind h (by decide))
  | .nextRound keyword, h => List.forall_mem_singleton.2 (Token.quiet_of_kind h (by decide))
  | .giveBack keyword value, ⟨hk, hv⟩ =>
      List.forall_mem_cons.2 ⟨Token.quiet_of_kind hk (by decide), Expr.quiet_print hv⟩
  | .assign name value, ⟨hn, hv⟩ => by
      simp only [Stmt.print, List.forall_mem_cons]
      exact ⟨Token.quiet_of_kind hn (by decide), quiet_sign _ (by decide), Expr.quiet_print hv⟩
  | .attribute _, h => nomatch h
  | .expression value, h => quiet_inParens (Expr.quiet_print h)

theorem Otherwise.quiet_print : ∀ {otherwise : Otherwise}, otherwise.Formed true →
    ∀ token ∈ otherwise.print, token.Quiet
  | .nothing, _ => nofun
  | .block body, h =>
      List.forall_mem_cons.2 ⟨quiet_sign _ (by decide), quiet_inBraces (quiet_printAll h)⟩
  | .chain condition body otherwise, ⟨hc, hb, ho⟩ => by
      simp only [Otherwise.print, List.forall_mem_cons, List.forall_mem_append]
      exact ⟨quiet_sign _ (by decide), quiet_sign _ (by decide), Expr.quiet_print hc,
        quiet_inBraces (quiet_printAll hb), Otherwise.quiet_print ho⟩

theorem quiet_printAll : ∀ {ss : List Stmt}, FormedAll true ss →
    ∀ token ∈ printAll ss, token.Quiet
  | [], _ => nofun
  | s :: rest, ⟨hs, hr⟩ => by
      refine List.forall_mem_append.2 ⟨Stmt.quiet_print hs, ?_⟩
      exact List.forall_mem_append.2 ⟨quiet_separator .newline (by decide) rest, quiet_printAll hr⟩

end

mutual

/-- A statement inside a function mentions no other function. -/
theorem Stmt.inner_mentions : ∀ {s : Stmt}, s.Formed true →
    ∀ mention ∈ s.mentions, mention.isInner = true
  | .function _ _, h => nomatch h.1
  | .declare name type none, _ => by simp [Stmt.mentions, Mention.isInner, Symbol.isFunction]
  | .declare name type (some value), _ => by
      simp [Stmt.mentions, Mention.isInner, Symbol.isFunction]
  | .conditional condition body otherwise, ⟨_, hb, ho⟩ => by
      simp only [Stmt.mentions, List.forall_mem_cons, List.forall_mem_append]
      exact ⟨rfl, rfl, inner_mentionsOfAll hb, rfl, Otherwise.inner_mentions ho⟩
  | .repeatWhile condition body, ⟨_, hb⟩ => by
      simp only [Stmt.mentions, List.forall_mem_cons, List.forall_mem_append]
      exact ⟨rfl, rfl, inner_mentionsOfAll hb, rfl, List.forall_mem_nil _⟩
  | .leaveLoop keyword, _ => by simp [Stmt.mentions]
  | .nextRound keyword, _ => by simp [Stmt.mentions]
  | .giveBack keyword value, _ => by simp [Stmt.mentions, Mention.isInner]
  | .assign name value, _ => by simp [Stmt.mentions, Mention.isInner]
  | .attribute _, h => nomatch h
  | .expression value, _ => by simp [Stmt.mentions, Mention.isInner]

theorem Otherwise.inner_mentions : ∀ {otherwise : Otherwise}, otherwise.Formed true →
    ∀ mention ∈ otherwise.mentions, mention.isInner = true
  | .nothing, _ => by simp [Otherwise.mentions]
  | .block body, h => by
      simp only [Otherwise.mentions, List.forall_mem_cons, List.forall_mem_append]
      exact ⟨rfl, inner_mentionsOfAll h, rfl, List.forall_mem_nil _⟩
  | .chain condition body otherwise, ⟨_, hb, ho⟩ => by
      simp only [Otherwise.mentions, List.forall_mem_cons, List.forall_mem_append]
      exact ⟨rfl, rfl, rfl, inner_mentionsOfAll hb, rfl, Otherwise.inner_mentions ho, rfl,
        List.forall_mem_nil _⟩

theorem inner_mentionsOfAll : ∀ {ss : List Stmt}, FormedAll true ss →
    ∀ mention ∈ mentionsOfAll ss, mention.isInner = true
  | [], _ => by simp [mentionsOfAll]
  | _ :: _, ⟨hs, hr⟩ =>
      List.forall_mem_append.2 ⟨Stmt.inner_mentions hs, inner_mentionsOfAll hr⟩

end

/-! ## §5. Foretelling. -/

/-- For every name but that of the open function the tokens show the type of
the function that is bound outside functions next, and no function is bound
in the open one. -/
def Foretells (own : Option String) (tokens : List Token) (later : List Mention) : Prop :=
  ∀ name, own ≠ some name →
    (own.isSome = true → localAhead? name later = none)
      ∧ (globalAhead? name own.isSome later).bind Symbol.returnBase?
        = returnTypeAhead? name none tokens

namespace Foretells

variable {own : Option String} {before rest : List Token} {mentions later : List Mention}

theorem nil : Foretells none [Kind.eof.sign] [] :=
  fun _ _ => ⟨nofun, rfl⟩

/-- What announces no function and mentions none changes nothing. -/
theorem inner (h : Foretells own rest later) (quiet : ∀ token ∈ before, token.Quiet)
    (inner : ∀ mention ∈ mentions, mention.isInner = true) :
    Foretells own (before ++ rest) (mentions ++ later) := by
  intro name other
  rw [localAhead?_inner inner, globalAhead?_inner inner, returnTypeAhead?_append quiet]
  exact h name other

theorem tokens (h : Foretells own rest later) (quiet : ∀ token ∈ before, token.Quiet) :
    Foretells own (before ++ rest) later := by
  intro name other
  rw [returnTypeAhead?_append quiet]
  exact h name other

theorem sign (h : Foretells own rest later) (kind : Kind)
    (quiet : kind ≠ .kwFunc ∧ kind ≠ .attribute) : Foretells own (kind.sign :: rest) later := by
  intro name other
  rw [returnTypeAhead?_cons (quiet_sign kind quiet)]
  exact h name other

theorem mention (h : Foretells own rest later) (mention : Mention)
    (inner : mention.isInner = true) : Foretells own rest (mention :: later) := by
  have inner : ∀ other ∈ [mention], other.isInner = true := List.forall_mem_singleton.2 inner
  intro name other
  rw [← List.singleton_append, localAhead?_inner inner, globalAhead?_inner inner]
  exact h name other

/-- A keyword and a value are passed. -/
theorem value {value : Expr} (h : Foretells own rest later) (formed : value.Formed)
    (kind : Kind) (quiet : kind ≠ .kwFunc ∧ kind ≠ .attribute) :
    Foretells own (kind.sign :: (value.print ++ rest)) (.evaluates value :: later) :=
  ((h.tokens (Expr.quiet_print formed)).mention (.evaluates value) rfl).sign kind quiet

/-- In front of a function that ends, all but its own name is as behind it. -/
theorem completes (h : Foretells none rest later) (symbol : Symbol) :
    Foretells (some symbol.key) (Kind.closeCurly.sign :: rest) (.completes symbol :: later) := by
  intro name other
  have hidden : ¬symbol.names name = true := by
    rw [Symbol.names, Bool.and_eq_true, beq_iff_eq]
    exact fun named => other (congrArg some named.2)
  have behind : globalAhead? name true (.completes symbol :: later)
      = globalAhead? name false later := if_neg hidden
  refine ⟨fun _ => rfl, ?_⟩
  rw [returnTypeAhead?_cons (quiet_sign _ (by decide))]
  show (globalAhead? name true (.completes symbol :: later)).bind _ = _
  rw [behind]
  exact (h name nofun).2

end Foretells

/-- No parameter is a function. -/
theorem inner_parameterSymbols (ps : List Parameter) :
    ∀ mention ∈ (parameterSymbols ps).map Mention.binds, mention.isInner = true := by
  intro mention hm
  obtain ⟨symbol, hs, rfl⟩ := List.mem_map.1 hm
  obtain ⟨parameter, -, hp⟩ := List.mem_filterMap.1 hs
  obtain ⟨name, -, rfl⟩ := Option.map_eq_some_iff.1 hp
  rfl

theorem Signature.names_symbol {signature : Signature} {name : String} :
    signature.symbol.names name = true ↔ name = signature.name.value := by
  rw [Symbol.names, Bool.and_eq_true, beq_iff_eq]
  exact ⟨fun named => named.2.symm, fun same => ⟨rfl, same.symm⟩⟩

/-- Inside a function its own binding answers nothing outside. -/
theorem globalAhead?_signature (signature : Signature) {body later : List Mention}
    (inner : ∀ mention ∈ body, mention.isInner = true) (name : String) :
    globalAhead? name false (.opens .function :: ((parameterSymbols signature.parameters).map .binds
        ++ .binds signature.symbol :: (body ++ .completes signature.symbol :: later)))
      = if name = signature.name.value then some signature.symbol
        else globalAhead? name false later := by
  have head : globalAhead? name false
        (.opens .function :: ((parameterSymbols signature.parameters).map .binds
          ++ .binds signature.symbol :: (body ++ .completes signature.symbol :: later)))
      = globalAhead? name true (body ++ .completes signature.symbol :: later) :=
    globalAhead?_inner (inner_parameterSymbols signature.parameters)
  rw [head, globalAhead?_inner inner]
  simp only [globalAhead?, Signature.names_symbol]

/-- **In front of a function all is foretold that is foretold behind it.** -/
theorem Foretells.function {signature : Signature} {body : List Stmt} {rest : List Token}
    {later : List Mention} (h : Foretells none rest later)
    (keyword : signature.keyword.kind = .kwFunc) (formed : signature.Formed Parameter.Named)
    (hb : FormedAll true body) :
    Foretells none ((Stmt.function signature body).print ++ rest)
      ((Stmt.function signature body).mentions ++ later) := by
  intro name _
  refine ⟨nofun, ?_⟩
  have announces : signature.keyword.announcesFunction = true := by
    simp [Token.announcesFunction, keyword]
  have mentions : (Stmt.function signature body).mentions ++ later
      = .opens .function :: ((parameterSymbols signature.parameters).map .binds
        ++ .binds signature.symbol
          :: (mentionsOfAll body ++ .completes signature.symbol :: later)) := by
    simp [Stmt.mentions]
  have tokens : (Stmt.function signature body).print ++ rest
      = signature.print ++ (inBraces (printAll body) ++ rest) := by
    rw [Stmt.print, List.append_assoc]
  rw [mentions, tokens, signature.returnTypeAhead?_print announces formed
    (fun _ => Parameter.Named.plain) (by simp)]
  show (globalAhead? name false _).bind _ = _
  rw [globalAhead?_signature signature (inner_mentionsOfAll hb)]
  split
  · exact signature.returnBase?_symbol
  · rw [returnTypeAhead?_append (quiet_inBraces (quiet_printAll hb))]
    exact (h name nofun).2

/-- What has no function in it is passed. -/
theorem Foretells.inside {s : Stmt} {own : Option String} {rest : List Token}
    {later : List Mention} (h : Foretells own rest later) (formed : s.Formed true) :
    Foretells own (s.print ++ rest) (s.mentions ++ later) :=
  h.inner (Stmt.quiet_print formed) (Stmt.inner_mentions formed)

/-- Around a body in braces nothing is foretold but what is in it. -/
theorem Foretells.framed {body : List Stmt} {own : Option String} {rest : List Token}
    {later : List Mention} (h : Foretells own rest later) (kind : FrameKind)
    (inner : kind ≠ .function)
    (hb : ∀ {rest later}, Foretells own rest later →
      Foretells own (printAll body ++ rest) (mentionsOfAll body ++ later)) :
    Foretells own (inBraces (printAll body) ++ rest)
      (.opens kind :: (mentionsOfAll body ++ .closes kind :: later)) := by
  have behind := (h.mention (.closes kind) rfl).sign .closeCurly (by decide)
  rw [inBraces_append]
  exact ((hb behind).sign .openCurly (by decide)).mention (.opens kind) (decide_eq_true inner)

mutual

/-- **What is foretold behind a statement is foretold in front of it.** -/
theorem Stmt.foretells : ∀ {s : Stmt} {own : Option String} {rest : List Token}
    {later : List Mention}, s.Formed own.isSome → Foretells own rest later →
      Foretells own (s.print ++ rest) (s.mentions ++ later)
  | .function _ _, none, _, _, ⟨_, keyword, formed, hb⟩, h => h.function keyword formed hb
  | .function _ _, some _, _, _, formed, _ => nomatch formed.1
  | .conditional condition body otherwise, own, rest, later, ⟨hc, hb, ho⟩, h => by
      have behind := (Otherwise.foretells ho h).framed .conditional (by decide)
        (foretells_all hb)
      simpa [Stmt.print, Stmt.mentions] using behind.value hc .kwIf (by decide)
  | .repeatWhile condition body, own, rest, later, ⟨hc, hb⟩, h => by
      have behind := h.framed .loop (by decide) (foretells_all hb)
      simpa [Stmt.print, Stmt.mentions] using behind.value hc .kwWhile (by decide)
  -- the others are the same inside a function and outside
  | .declare _ _ none, _, _, _, formed, h | .declare _ _ (some _), _, _, _, formed, h
  | .leaveLoop _, _, _, _, formed, h | .nextRound _, _, _, _, formed, h
  | .giveBack _ _, _, _, _, formed, h | .assign _ _, _, _, _, formed, h
  | .attribute _, _, _, _, formed, h | .expression _, _, _, _, formed, h => h.inside formed

theorem Otherwise.foretells : ∀ {otherwise : Otherwise} {own : Option String}
    {rest : List Token} {later : List Mention}, otherwise.Formed own.isSome →
      Foretells own rest later →
      Foretells own (otherwise.print ++ rest) (otherwise.mentions ++ later)
  | .nothing, _, _, _, _, h => h
  | .block body, own, rest, later, hb, h => by
      have behind := h.framed .conditional (by decide)
        (foretells_all hb)
      simpa [Otherwise.print, Otherwise.mentions] using behind.sign .kwElse (by decide)
  | .chain condition body otherwise, own, rest, later, ⟨hc, hb, ho⟩, h => by
      have outer := h.mention (.closes .conditional) rfl
      have behind := (Otherwise.foretells ho outer).framed .conditional (by decide)
        (foretells_all hb)
      have link := (behind.value hc .kwIf (by decide)).mention (.opens .conditional) rfl
      simpa [Otherwise.print, Otherwise.mentions] using link.sign .kwElse (by decide)

theorem foretells_all : ∀ {ss : List Stmt} {own : Option String} {rest : List Token}
    {later : List Mention}, FormedAll own.isSome ss → Foretells own rest later →
      Foretells own (printAll ss ++ rest) (mentionsOfAll ss ++ later)
  | [], _, _, _, _, h => h
  | s :: more, own, rest, later, ⟨hs, hm⟩, h => by
      have behind := (foretells_all hm h).tokens (quiet_separator .newline (by decide) more)
      simpa [printAll, mentionsOfAll] using Stmt.foretells hs behind

end

/-! ## §6. Files. -/

/-- A line may end in front of the tokens. -/
def EndsLine (rest : List Token) : Prop :=
  ∀ token, rest.head? = some token → token.kind ≠ .identifier ∧ token.kind ≠ .arrow

/-- An attribute announces a function only if one is imported by it. -/
theorem returnTypeAhead?_attribute {token : Token} {rest : List Token}
    (h : ∀ next, rest.head? = some next → next.kind ≠ .identifier) (name : String) :
    returnTypeAhead? name none (token :: rest) = returnTypeAhead? name none rest := by
  have first : returnTypeAhead? name none (token :: rest)
      = returnTypeAhead? name (some token) rest := by
    rw [returnTypeAhead?]
    rfl
  rw [first]
  cases rest with
  | nil => rfl
  | cons next rest =>
      rw [returnTypeAhead?_of_not_identifier (h next rfl),
        returnTypeAhead?_of_not_identifier (h next rfl)]

theorem Attribute.foretells {attached : Attribute} {rest : List Token} {later : List Mention}
    (formed : attached.Formed) (ending : EndsLine rest) (h : Foretells none rest later) :
    Foretells none (attached.print ++ rest) (attached.mentions ++ later) := by
  obtain ⟨kind, value⟩ := formed
  obtain ⟨token, found⟩ := attached
  match found, value with
  | none, _ =>
      intro name other
      show _ ∧ _ = returnTypeAhead? name none (token :: rest)
      rw [returnTypeAhead?_attribute fun next hn => (ending next hn).1]
      exact h name other
  | some (.expression value), formed =>
      have inner : ∀ mention ∈ [Mention.opens .attribute, .evaluates value, .closes .attribute],
          mention.isInner = true := by simp [Mention.isInner]
      have behind := h.inner (quiet_inParens (Expr.quiet_print formed)) inner
      intro name other
      show _ ∧ _ = returnTypeAhead? name none (token :: (inParens value.print ++ rest))
      rw [returnTypeAhead?_attribute]
      · exact behind name other
      · intro next hn
        obtain rfl := Option.some.inj hn
        decide
  | some (.imported signature), ⟨same, known, formed⟩ =>
      have announces : signature.keyword.announcesFunction = true := by
        have kind : token.kind = .attribute := kind
        have known : token.value = Token.importAttribute := known
        rw [same]
        simp [Token.announcesFunction, kind, known]
      intro name other
      refine ⟨nofun, ?_⟩
      show (globalAhead? name false (.opens .attribute :: .binds signature.symbol
        :: .closes .attribute :: later)).bind _
        = returnTypeAhead? name none (signature.print ++ rest)
      rw [signature.returnTypeAhead?_print announces formed (fun _ => Parameter.Builtin.plain)
        fun next hn => (ending next hn).2]
      have bound : globalAhead? name false (.opens .attribute :: .binds signature.symbol
          :: .closes .attribute :: later)
          = if name = signature.name.value then some signature.symbol
            else globalAhead? name false later := by
        simp only [globalAhead?, Bool.not_false, Bool.true_and, Signature.names_symbol]
      rw [bound]
      split
      · exact signature.returnBase?_symbol
      · exact (h name nofun).2

theorem endsLine_separator (more : List Stmt) (rest : List Token) :
    EndsLine (separator .newline more ++ (printAll more ++ Kind.eof.sign :: rest)) := by
  intro token ht
  cases more with
  | nil =>
      obtain rfl := Option.some.inj ht
      decide
  | cons =>
      obtain rfl := Option.some.inj ht
      decide

/-- **In a printed file all functions are foretold.** -/
theorem foretells_file : ∀ {ss : List Stmt}, (∀ s ∈ ss, s.FormedOutside) →
    Foretells none (printAll ss ++ [Kind.eof.sign]) (mentionsOfAll ss)
  | [], _ => .nil
  | s :: more, h => by
      obtain ⟨hs, hm⟩ := List.forall_mem_cons.1 h
      have behind := (foretells_file hm).tokens (quiet_separator .newline (by decide) more)
      have whole : Foretells none
          (s.print ++ (separator .newline more ++ (printAll more ++ [Kind.eof.sign])))
          (s.mentions ++ mentionsOfAll more) := by
        cases s with
        | «attribute» attached =>
            exact Attribute.foretells hs (endsLine_separator more []) behind
        | _ => exact Stmt.foretells (show Stmt.Formed false _ from hs) behind
      simpa [printAll, mentionsOfAll] using whole

end ImpFront
