/-
  ImpFront.Proofs.Acceptance.Reserved
  ───────────────────────────────────
  **A NAME THAT IS CALLED IS KEPT FOR A FUNCTION.**

  Reading a phrase is a trace of what the phrase mentions.  So a name that is
  called in a body, where it is hidden, is reserved there: what the body binds
  to it later is a function.

  That holds at the top level without exception, and in a function unless the
  name waits already when the function is opened.  Then it goes on waiting
  further out, and in the function it is as free as if it had not been called.
-/
import Mathlib
import ImpFront.Proofs.Acceptance.Soundness
import ImpFront.Proofs.Scope.Trace

namespace ImpFront

open Scopes (Regular Proper Kept)

variable {phrase : Phrase} {p q : Parser}

/-! ## §1. Expressions. -/

/-- The names are those that the phrase calls. -/
def Phrase.Calls : Phrase → List Token → Prop
  | .operand e, names | .expr _ e, names => names = e.callees
  | .operators _ left e, names => left.callees ++ names = e.callees
  | .arguments es, names => names = Expr.calleesOfAll es
  | _, _ => True

/-- **An expression notes its calls, from left to right.** -/
theorem Reads.marked (h : Reads phrase p q) (expression : phrase.isExpression = true) :
    ∃ names, phrase.Calls names ∧ q.scopes = p.scopes.markAll names := by
  induction h with
  | literal => exact ⟨[], rfl, rfl⟩
  | unary _ _ _ ih =>
      obtain ⟨names, rfl, marked⟩ := ih rfl
      exact ⟨_, (Expr.callees_unary ..).symm, marked⟩
  | grouping _ _ _ ih => exact ih rfl
  | builtin => exact ⟨[], rfl, rfl⟩
  | attached => exact ⟨[], rfl, rfl⟩
  | reference => exact ⟨[], rfl, rfl⟩
  | call _ _ _ ih =>
      obtain ⟨names, rfl, marked⟩ := ih rfl
      exact ⟨_, (Expr.callees_call ..).symm, marked⟩
  | noArgument => exact ⟨[], rfl, rfl⟩
  | @argument _ q _ _ _ _ _ _ _ ihe ih =>
      obtain ⟨first, rfl, head⟩ := ihe rfl
      obtain ⟨later, rfl, tail⟩ := ih rfl
      have same : q.pastComma.pastLines.scopes = q.scopes := by simp
      refine ⟨_, (Expr.calleesOfAll_cons ..).symm, ?_⟩
      rw [Scopes.markAll_append, ← head, ← same]
      exact tail
  | noOperator => exact ⟨[], List.append_nil _, rfl⟩
  | @operator _ _ _ _ _ left right e _ _ _ _ _ _ ihr ih =>
      obtain ⟨first, rfl, head⟩ := ihr rfl
      obtain ⟨later, calls, tail⟩ := ih rfl
      refine ⟨right.callees ++ later, ?_, ?_⟩
      · show left.callees ++ (right.callees ++ later) = e.callees
        rw [← calls, Expr.callees_binary, List.append_assoc]
      · rw [tail, head, ← Scopes.markAll_append]
        rfl
  | expr _ _ ihl ih =>
      obtain ⟨first, rfl, head⟩ := ihl rfl
      obtain ⟨later, calls, tail⟩ := ih rfl
      exact ⟨_, calls, by rw [tail, head, ← Scopes.markAll_append]⟩
  | _ => cases expression

/-- A value is evaluated where it is read. -/
theorem Reads.evaluates {limit : Precedence} {e value : Expr} (h : Reads (.expr limit e) p q)
    (same : value.callees = e.callees) : (Mention.evaluates value).Acts p.scopes q.scopes := by
  obtain ⟨_, rfl, marked⟩ := h.marked rfl
  rw [marked, ← same]
  exact .evaluates

/-- Names alone call nothing. -/
theorem Expr.calleesOfAll_of_isReference {es : List Expr} (h : ∀ e ∈ es, e.isReference = true) :
    calleesOfAll es = [] := by
  induction es with
  | nil => rfl
  | cons e rest ih =>
      rw [calleesOfAll_cons, ih fun other hm => h other (List.mem_cons_of_mem e hm)]
      cases e with
      | reference => rfl
      | _ => cases h _ List.mem_cons_self

/-! ## §2. Statements. -/

theorem Reads.trace_parameters (h : Reads phrase p q) {ps : List Parameter}
    (hp : phrase = .parameters ps) :
    Trace p.scopes ((parameterSymbols ps).map .binds) q.scopes := by
  induction h generalizing ps with
  | noParameter =>
      cases hp
      exact .nil
  | @parameter p q s _ _ _ _ hd _ ih =>
      cases hp
      have same : (p.next.next.next.withScopes s).pastComma.pastLines.scopes = s := by simp
      rw [same] at ih
      exact .cons (.binds hd) (ih rfl)
  | _ => cases hp

/-- A function is opened, its names are bound, its body is gone through, and
its name is bound outside. -/
theorem Trace.function {s s' r t t' u w : Scopes} {signature : Signature} {body : List Stmt}
    (he : Scopes.enter .function s = .ok () s')
    (hp : Trace s' ((parameterSymbols signature.parameters).map .binds) r)
    (hd : Scopes.define signature.symbol r = .ok () t) (hb : Trace t (mentionsOfAll body) t')
    (hx : Scopes.exit .function t' = .ok () u) (hw : Scopes.define signature.symbol u = .ok () w) :
    Trace s (Stmt.function signature body).mentions w :=
  .cons (.opens he) (hp.append (.cons (.binds hd) (hb.append (.one (.completes hx hw)))))

/-- **What is read is a trace of what it mentions.** -/
theorem Reads.trace (h : Reads phrase p q) (loud : phrase.isQuiet = false)
    (hs : Proper p.scopes) : Trace p.scopes phrase.mentions q.scopes := by
  induction h with
  | conditional _ ih => exact ih rfl hs
  | lastLink _ hc _ _ _ ihb =>
      have condition := hc.kept_expression rfl hs
      exact .cons (hc.evaluates rfl) (ihb rfl condition.proper)
  | @elseLink _ q r _ condition body body' _ hc hb _ _ _ _ ihb ihe =>
      have behind := hc.kept_expression rfl hs
      have first : Trace q.scopes (.opens .conditional
        :: (mentionsOfAll body ++ [.closes .conditional])) r.scopes := ihb rfl behind.proper
      have second : Trace r.scopes (.opens .conditional
        :: (mentionsOfAll body' ++ [.closes .conditional])) _ :=
        ihe rfl (hb.kept rfl behind.proper).proper
      have trace := Trace.cons (hc.evaluates rfl) (first.append second)
      simpa [Phrase.mentions, Otherwise.mentions] using trace
  | @nextLink _ q r _ condition body condition' body' otherwise _ _ _ hc hb _ _ he _ hx _ ihb ihl =>
      have behind := hc.kept_expression rfl hs
      have body_ := hb.kept rfl behind.proper
      have first : Trace q.scopes (.opens .conditional
        :: (mentionsOfAll body ++ [.closes .conditional])) r.scopes := ihb rfl behind.proper
      have link := ihl rfl (body_.proper.entered he)
      have second := Trace.cons (.opens he) (link.append (.one (.closes (by decide) hx)))
      have trace := Trace.cons (hc.evaluates rfl) (first.append second)
      simpa [Phrase.mentions, Otherwise.mentions] using trace
  | repeatWhile _ hc _ _ ihb =>
      have condition := hc.kept_expression rfl hs
      exact .cons (hc.evaluates rfl) (ihb rfl condition.proper)
  | leaveLoop => exact .nil
  | nextRound => exact .nil
  | @giveNothingBack p => exact .one (.evaluates (s := p.scopes))
  | giveBack _ _ hv => exact .one (hv.evaluates rfl)
  | declare _ _ _ _ _ hd => exact .one (.binds hd)
  | initialise _ _ _ _ _ hv _ hd =>
      exact .cons (hv.evaluates rfl) (.cons .initialises (.one (.binds hd)))
  | assign _ _ hv => exact .cons (hv.evaluates rfl) (.one .assigns)
  | compound _ _ hv =>
      exact .cons (hv.evaluates (by rw [Expr.callees_binary]; rfl)) (.one .assigns)
  | expression _ hv => exact .one (hv.evaluates rfl)
  | bareAttribute => exact .nil
  | attributeValue _ _ he _ hv _ hx =>
      exact .cons (.opens he) (.cons (hv.evaluates rfl) (.one (.closes (by decide) hx)))
  | @imported p q r es ps type s t u _ _ he _ _ ha hm hr hd _ hx =>
      -- the arguments of an import are names, so that nothing is called among them
      obtain ⟨_, rfl, marked⟩ := ha.marked rfl
      have names := Statement.isReference_of_importedParameter hm
      rw [Expr.calleesOfAll_of_isReference names] at marked
      rw [hr.scopes_returns, marked] at hd
      exact .cons (.opens he) (.cons (.binds hd) (.one (.closes (by decide) hx)))
  | statement _ _ ih => exact ih rfl hs
  | emptyBody => exact .nil
  | body _ _ hf _ ihs ihr =>
      exact (ihs rfl hs).append (ihr rfl (hf.kept rfl hs).proper)
  | block _ _ _ ih => exact ih rfl hs
  | @framed _ _ kind _ _ _ hk he _ hx ih =>
      have framed : kind ≠ .function := by
        rcases hk with rfl | rfl <;> decide
      have inside := ih rfl (hs.entered he)
      exact .cons (.opens he) (inside.append (.one (.closes framed hx)))
  | emptyFile => exact .nil
  | file _ hf _ ihs ihr => exact (ihs rfl hs).append (ihr rfl (hf.kept rfl hs).proper)
  | @function p q r u ps type body s t v w keyword _ _ he hp hr hd hb hx hw _ _ ihb =>
      have proper : Proper s := hs.entered he
      have parameters : Kept s q.scopes := hp.kept rfl proper
      have head : Kept s r.scopes := parameters.trans (hr.kept rfl parameters.proper)
      have sorted : (Signature.symbol ⟨p.current, p.next.current, ps, type⟩).Sorted :=
        Signature.sorted_symbol (.inl keyword)
      have bound := Kept.define head.proper sorted hd
      have behind := hb.kept rfl bound.proper
      -- behind the function its name is free, so that taking it out changes nothing
      obtain ⟨-, absent⟩ := Kept.name_of_function hs he head sorted hd behind hx
      have gone : (v.delete p.next.current.value).2 = v := Scopes.delete_of_absent absent
      rw [gone] at hw
      have names := hp.trace_parameters rfl
      rw [hr.scopes_returns] at hd
      exact Trace.function he names hd (ihb rfl bound.proper) hx hw
  | _ => cases loud

/-! ## §3. Files. -/

/-- The mentions lie in one body: in that of the open function, or between two
places of the top level. -/
def Context.SameBody (c : Context) (between : List Mention) : Prop :=
  if c.locals.isSome then ∀ symbol, Mention.completes symbol ∉ between
  else (c.afterAll between).locals = none

/-- Behind some first mentions of a file a name is called, where it is hidden,
and a symbol of that name is bound later in the same body. -/
inductive CalledThenBound (mentions : List Mention) : List Mention → Symbol → Prop where
  | intro {before value between symbol behind} :
      mentions = before ++ .evaluates value :: (between ++ .binds symbol :: behind) →
      value.Calls symbol.key →
      (Context.start.afterAll before).lookup? symbol.key = none →
      (Context.start.afterAll before).SameBody between →
      CalledThenBound mentions before symbol

variable {file : String} {tokens : List Token} {program : Program}

/-- **A file is a trace from empty scopes.** -/
theorem trace_of_accepted (h : parse file tokens = (.ok program, p)) :
    Trace .empty program.mentions p.scopes := by
  obtain ⟨read, -⟩ := Grammar.reads_file h
  exact read.trace rfl .empty

/-- Behind a hidden call a name is reserved where the next symbol is bound in
the same body, or it was called outside that body. -/
theorem Scopes.Recalls.reserved {s t : Scopes} {before between : List Mention} {value : Expr}
    {name : String} (recalls : s.Recalls before) (calls : value.Calls name)
    (hidden : (Context.start.afterAll before).lookup? name = none)
    (body : (Context.start.afterAll before).SameBody between)
    (trace : Trace (s.markAll value.callees) between t) :
    t.Reserved name ∨ CalledOutside name before := by
  have hs : Regular s := recalls.regular
  have later := recalls.evaluates value
  have marks := (Scopes.marks_markAll hs value.callees).2
  obtain ⟨token, hm, rfl⟩ := calls
  rw [← recalls.context, Scopes.lookup?_context hs] at hidden
  obtain ⟨call, hp⟩ := Option.isSome_iff_exists.1 (Scopes.isSome_pending?_markAll hs hm hidden)
  rw [Context.SameBody, ← recalls.context, Scopes.isSome_locals_context] at body
  by_cases inside : s.inFunction = true
  · rw [if_pos inside] at body
    by_cases level : call.level < s.level
    -- the name waits further out, which it has not come to by this call
    · rcases Scopes.pending?_markAll hs hp with old | ⟨-, same, -, -⟩
      · exact .inr (recalls.outside old level)
      · omega
    · have here : (s.markAll value.callees).Reserved token.value := by
        refine .inr ⟨call, hp, ?_⟩
        rw [marks.level]
        omega
      exact .inl (here.run later.regular (by rwa [marks.inFunction]) trace body)
  · rw [if_neg inside] at body
    have outside : s.level = 0 := by simpa [Scopes.inFunction] using inside
    have here : (s.markAll value.callees).ReservedOutside token.value := by
      refine .inr ⟨call, hp, ?_⟩
      have := later.regular.pending_le hp
      rw [marks.level, outside] at this
      omega
    have context := (later.run trace).context
    rw [List.append_assoc, Context.afterAll_append, ← recalls.context] at context
    have top : t.context.locals = none := by
      rw [context]
      exact body
    have bottom : t.level = 0 := by
      have := congrArg Option.isSome top
      rw [Scopes.isSome_locals_context] at this
      simpa [Scopes.inFunction] using this
    exact .inl ((here.run later.regular trace).reserved bottom)

/-- **What is bound to a name behind a call in the same body is a function**,
unless that body is a function's and the name was called in front of the
function as well. -/
theorem function_of_calledThenBound {before : List Mention} {symbol : Symbol}
    (h : parse file tokens = (.ok program, p))
    (bound : CalledThenBound program.mentions before symbol) :
    symbol.isFunction = true ∨ CalledOutside symbol.key before := by
  cases bound with
  | intro split calls hidden body =>
      have trace := trace_of_accepted h
      rw [split] at trace
      obtain ⟨s, front, trace⟩ := trace.split
      have recalls : s.Recalls _ := Scopes.Recalls.empty.run front
      obtain ⟨_, evaluates, trace⟩ := trace.head
      cases evaluates
      obtain ⟨t, between, trace⟩ := trace.split
      obtain ⟨_, binds, -⟩ := trace.head
      cases binds with
      | binds hd =>
          rcases recalls.reserved calls hidden body between with reserved | outside
          · exact .inl (reserved.isFunction hd)
          · exact .inr outside

/-! ## §4. A name that is called in two bodies. -/

/-- `foo(); func g() { foo(); var foo: i32 }; func foo() {}`.  The first call
waits outside `g`, and the second one changes nothing about that. -/
def calledTwice : List Token :=
  [word 0 .identifier "foo", word 3 .openParen "(", word 4 .closeParen ")",
    word 5 .semicolon ";", word 7 .kwFunc "func", word 12 .identifier "g",
    word 13 .openParen "(", word 14 .closeParen ")", word 16 .openCurly "\x7b",
    word 18 .identifier "foo", word 21 .openParen "(", word 22 .closeParen ")",
    word 23 .semicolon ";", word 25 .kwVar "var", word 29 .identifier "foo",
    word 32 .colon ":", word 34 .identifier "i32", word 38 .closeCurly "\x7d",
    word 39 .semicolon ";", word 41 .kwFunc "func", word 46 .identifier "foo",
    word 49 .openParen "(", word 50 .closeParen ")", word 52 .openCurly "\x7b",
    word 53 .closeCurly "\x7d"]

/-- The tree of that file. -/
def calledTwiceTree : Program where
  attributes := []
  statements :=
    [.expression (.call (word 0 .identifier "foo") [] none),
      .function ⟨word 7 .kwFunc "func", word 12 .identifier "g", [], none⟩
        [.expression (.call (word 18 .identifier "foo") [] none),
          .declare (word 29 .identifier "foo") (word 34 .identifier "i32") none],
      .function ⟨word 41 .kwFunc "func", word 46 .identifier "foo", [], none⟩ []]

/-- The variable in that file. -/
def localFoo : Symbol :=
  ⟨word 29 .identifier "foo", word 34 .identifier "i32", .variable⟩

/-- What that file mentions in front of the second call. -/
def beforeSecondCall : List Mention :=
  [.evaluates (.call (word 0 .identifier "foo") [] none), .opens .function,
    .binds (Signature.symbol ⟨word 7 .kwFunc "func", word 12 .identifier "g", [], none⟩)]

theorem tree_calledTwice : (parse "" calledTwice).1 = .ok calledTwiceTree := by
  cbv

theorem parse_calledTwice :
    parse "" calledTwice = (.ok calledTwiceTree, (parse "" calledTwice).2) := by
  rw [← tree_calledTwice]

theorem calledThenBound_calledTwice :
    CalledThenBound calledTwiceTree.mentions beforeSecondCall localFoo := by
  have split : calledTwiceTree.mentions
      = beforeSecondCall ++ .evaluates (.call (word 18 .identifier "foo") [] none)
        :: ([] ++ .binds localFoo :: calledTwiceTree.mentions.drop 5) := rfl
  have calls : (Expr.call (word 18 .identifier "foo") [] none).Calls localFoo.key :=
    ⟨word 18 .identifier "foo", List.mem_cons_self, rfl⟩
  have hidden : (Context.start.afterAll beforeSecondCall).lookup? localFoo.key = none := rfl
  have body : (Context.start.afterAll beforeSecondCall).SameBody [] := fun _ => nofun
  exact .intro split calls hidden body

theorem calledOutside_calledTwice :
    (parse "" calledTwice).1 = .ok calledTwiceTree ∧ CalledOutside "foo" beforeSecondCall := by
  refine ⟨tree_calledTwice, ?_⟩
  rcases function_of_calledThenBound parse_calledTwice calledThenBound_calledTwice with h | h
  · cases h
  · exact h

/-- **An accepted file with a variable of a name that was called in the same
body.** -/
theorem variable_of_calledThenBound :
    (parse "" calledTwice).1 = .ok calledTwiceTree ∧
      ∃ before, CalledThenBound calledTwiceTree.mentions before localFoo
        ∧ localFoo.isFunction = false :=
  ⟨tree_calledTwice, beforeSecondCall, calledThenBound_calledTwice, rfl⟩

end ImpFront
