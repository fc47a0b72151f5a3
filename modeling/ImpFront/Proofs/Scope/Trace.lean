/-
  ImpFront.Proofs.Scope.Trace
  ───────────────────────────
  **WHAT MENTIONS DO TO SCOPES.**

  Each mention of a tree is a step of the scopes: a construct is opened or
  closed, a name is bound, the calls of a value are noted.  A trace is a run
  of such steps, and three facts about waiting calls go along with it:

      a name waits                    →  it was called while it was hidden
      it waits outside an open function
                                      →  that call stood before the function
      it was called, and is hidden    →  it waits, at the level of the call
                                         or further out

  So a name that was called in a body waits there until a function answers
  it, unless an earlier call made it wait further out.
-/
import ImpFront.Proofs.Scope.Keeping

namespace ImpFront

/-! ## §1. Calls in expressions. -/

namespace Expr

/-- The name that an expression calls. -/
def callee? : Expr → Option Token
  | .call name _ _ => some name
  | _ => none

/-- The names called in an expression, from left to right. -/
def callees (e : Expr) : List Token :=
  e.nodes.filterMap callee?

/-- The names called in some expressions, from left to right. -/
def calleesOfAll (es : List Expr) : List Token :=
  (nodesOfAll es).filterMap callee?

/-- The name is called in the expression. -/
def Calls (e : Expr) (name : String) : Prop :=
  ∃ token ∈ e.callees, token.value = name

theorem callees_binary (operator : Kind) (token : Token) (left right : Expr) (type : BaseType) :
    (Expr.binary operator token left right type).callees = left.callees ++ right.callees := by
  simp only [callees, nodes, List.filterMap_cons, callee?, List.filterMap_append]

theorem callees_unary (operator : Kind) (token : Token) (operand : Expr) (type : BaseType) :
    (Expr.unary operator token operand type).callees = operand.callees := by
  simp only [callees, nodes, List.filterMap_cons, callee?]

theorem callees_call (name : Token) (arguments : List Expr) (returns : Option BaseType) :
    (Expr.call name arguments returns).callees = name :: calleesOfAll arguments := by
  simp only [callees, calleesOfAll, nodes, List.filterMap_cons, callee?]

@[simp] theorem callees_literal (token : Token) (type : BaseType) :
    (Expr.literal token type).callees = [] := rfl

@[simp] theorem callees_reference (name : Token) (type : BaseType) :
    (Expr.reference name type).callees = [] := rfl

@[simp] theorem calleesOfAll_nil : calleesOfAll [] = [] := rfl

theorem calleesOfAll_cons (e : Expr) (rest : List Expr) :
    calleesOfAll (e :: rest) = e.callees ++ calleesOfAll rest := by
  simp only [callees, calleesOfAll, nodesOfAll, List.filterMap_append]

end Expr

namespace Scopes

variable {s t : Scopes} {name : String}

/-! ## §2. Noting some calls. -/

/-- The scopes in which some calls are noted, one after the other. -/
def markAll (s : Scopes) (names : List Token) : Scopes :=
  names.foldl (fun s name => s.mark name) s

@[simp] theorem markAll_nil (s : Scopes) : s.markAll [] = s := rfl

@[simp] theorem markAll_cons (s : Scopes) (token : Token) (names : List Token) :
    s.markAll (token :: names) = (s.mark token).markAll names := rfl

theorem markAll_append (s : Scopes) (names more : List Token) :
    s.markAll (names ++ more) = (s.markAll names).markAll more :=
  List.foldl_append

theorem marks_markAll (hs : Regular s) (names : List Token) :
    Regular (s.markAll names) ∧ Marks s (s.markAll names) := by
  induction names generalizing s with
  | nil => exact ⟨hs, .refl s⟩
  | cons token rest ih =>
      obtain ⟨regular, marks⟩ := ih (hs.mark token)
      exact ⟨regular, (Marks.mark hs token).trans marks⟩

/-- A name that waits behind some calls has waited before, or it is hidden,
one of the calls is its, and it waits at the level of that call. -/
theorem pending?_markAll (hs : Regular s) {names : List Token} {call : Pending}
    (hp : (s.markAll names).pending? name = some call) :
    s.pending? name = some call ∨
      s.pending? name = none ∧ call.level = s.level ∧ s.lookup? name = none
        ∧ ∃ token ∈ names, token.value = name := by
  induction names generalizing s with
  | nil => exact .inl hp
  | cons token rest ih =>
      rcases ih (hs.mark token) hp with before | ⟨absent, level, hidden, later, hm, same⟩
      · rw [pending?_mark fun _ => hs.pending_le] at before
        split at before
        · next new =>
          obtain ⟨rfl, hidden, absent⟩ := new
          obtain rfl := Option.some.inj before
          exact .inr ⟨absent, rfl, hidden, token, List.mem_cons_self, rfl⟩
        · exact .inl before
      · rw [lookup?_mark] at hidden
        rw [level_mark] at level
        rw [pending?_mark fun _ => hs.pending_le] at absent
        split at absent
        · cases absent
        · exact .inr ⟨absent, level, hidden, later, List.mem_cons_of_mem _ hm, same⟩

/-- A hidden name waits behind its calls. -/
theorem isSome_pending?_markAll (hs : Regular s) {names : List Token} {token : Token}
    (hm : token ∈ names) (hidden : s.lookup? token.value = none) :
    ((s.markAll names).pending? token.value).isSome = true := by
  induction names generalizing s with
  | nil => cases hm
  | cons first rest ih =>
      rcases List.mem_cons.1 hm with rfl | hm
      · obtain ⟨call, hp⟩ := Option.isSome_iff_exists.1 (isSome_pending?_mark hs hidden)
        rw [markAll_cons, (marks_markAll (hs.mark token) rest).2.pending hp]
        rfl
      · exact ih (hs.mark first) hm (by rwa [lookup?_mark])

/-! ## §3. Defining and leaving. -/

theorem level_define {symbol : Symbol} (h : define symbol s = .ok () t) : t.level = s.level := by
  obtain ⟨-, -, -, rfl⟩ := define_ok_iff.1 h
  simp

theorem lookup?_define {symbol : Symbol} (h : define symbol s = .ok () t) :
    t.lookup? name = if name = symbol.key then some symbol else s.lookup? name := by
  obtain ⟨-, -, -, rfl⟩ := define_ok_iff.1 h
  rw [lookup?_bind, lookup?_settled]

theorem globals_define {symbol : Symbol} (h : define symbol s = .ok () t) (name : String) :
    t.globals.get? name = if s.frames.any Frame.isFunction = false ∧ name = symbol.key
      then some symbol else s.globals.get? name := by
  obtain ⟨-, -, -, rfl⟩ := define_ok_iff.1 h
  rw [globals_bind, frames_settled, globals_settled]

theorem pending?_define {symbol : Symbol} (h : define symbol s = .ok () t) :
    t.pending? name
      = if s.settles symbol = true ∧ name = symbol.key then none else s.pending? name := by
  obtain ⟨-, -, -, rfl⟩ := define_ok_iff.1 h
  rw [← pending?_settled, pending?, pending_bind]
  rfl

/-- What waits behind a definition has waited before. -/
theorem pending?_of_define {symbol : Symbol} {call : Pending} (h : define symbol s = .ok () t)
    (hp : t.pending? name = some call) : s.pending? name = some call := by
  rw [pending?_define h] at hp
  split at hp
  · cases hp
  · exact hp

/-- Behind a function the same names wait, no deeper than outside. -/
theorem closed_function_pending? {call : Pending} {outer : List Frame}
    (hp : s.pending? name = some call) :
    (s.closed .function outer).pending? name
      = some { call with level := min call.level (s.level - 1) } := by
  show (clampPending (s.level - 1) s.pending).get? name = _
  rw [clampPending, Table.get?_map, show s.pending.get? name = some call from hp]
  rfl

theorem pending?_closed_function {call : Pending} {outer : List Frame}
    (hp : (s.closed .function outer).pending? name = some call) :
    ∃ deep, s.pending? name = some deep ∧ call.level = min deep.level (s.level - 1) := by
  have hp : (clampPending (s.level - 1) s.pending).get? name = some call := hp
  rw [clampPending, Table.get?_map, Option.map_eq_some_iff] at hp
  obtain ⟨deep, hdeep, rfl⟩ := hp
  exact ⟨deep, hdeep, rfl⟩

end Scopes

open Scopes (Regular Marks)

/-! ## §4. Steps and runs. -/

/-- What a mention does to the scopes. -/
inductive Mention.Acts : Mention → Scopes → Scopes → Prop where
  | opens {kind s t} : Scopes.enter kind s = .ok () t → Acts (.opens kind) s t
  | closes {kind s t} : kind ≠ .function → Scopes.exit kind s = .ok () t → Acts (.closes kind) s t
  | binds {symbol s t} : Scopes.define symbol s = .ok () t → Acts (.binds symbol) s t
  | completes {symbol s t u} : Scopes.exit .function s = .ok () t →
      Scopes.define symbol t = .ok () u → Acts (.completes symbol) s u
  | evaluates {value s} : Acts (.evaluates value) s (s.markAll value.callees)
  | initialises {type value s} : Acts (.initialises type value) s s
  | assigns {name value s} : Acts (.assigns name value) s s

/-- Mentions lead from one scopes to another. -/
inductive Trace : Scopes → List Mention → Scopes → Prop where
  | nil {s} : Trace s [] s
  | cons {s t u mention later} : Mention.Acts mention s t → Trace t later u →
      Trace s (mention :: later) u

namespace Trace

variable {s t u : Scopes} {mentions later : List Mention} {mention : Mention}

theorem one (h : mention.Acts s t) : Trace s [mention] t :=
  .cons h .nil

theorem append (h : Trace s mentions t) (h' : Trace t later u) : Trace s (mentions ++ later) u := by
  induction h with
  | nil => exact h'
  | cons acts _ ih => exact .cons acts (ih h')

theorem head (h : Trace s (mention :: later) u) : ∃ t, mention.Acts s t ∧ Trace t later u := by
  cases h with
  | cons acts hlater => exact ⟨_, acts, hlater⟩

theorem split {before : List Mention} (h : Trace s (before ++ later) u) :
    ∃ t, Trace s before t ∧ Trace t later u := by
  induction before generalizing s with
  | nil => exact ⟨s, .nil, h⟩
  | cons mention rest ih =>
      cases h with
      | cons acts hrest =>
          obtain ⟨t, hbefore, hlater⟩ := ih hrest
          exact ⟨t, .cons acts hbefore, hlater⟩

end Trace

namespace Mention.Acts

variable {s t : Scopes} {mention : Mention}

theorem regular (h : mention.Acts s t) (hs : Regular s) : Regular t := by
  cases h with
  | opens he =>
      obtain ⟨outside, rfl⟩ := Scopes.enter_ok_iff.1 he
      exact hs.opened outside
  | closes _ hx =>
      obtain ⟨frame, outer, hf, hk, rfl⟩ := Scopes.exit_ok_iff.1 hx
      exact hs.closed hf hk
  | binds hd => exact hs.define hd
  | completes hx hd =>
      obtain ⟨frame, outer, hf, hk, rfl⟩ := Scopes.exit_ok_iff.1 hx
      exact (hs.closed hf hk).define hd
  | evaluates => exact (Scopes.marks_markAll hs _).1
  | initialises => exact hs
  | assigns => exact hs

/-- The scopes go on as the context does. -/
theorem context (h : mention.Acts s t) (hs : Regular s) : t.context = s.context.after mention := by
  cases h with
  | opens he =>
      obtain ⟨outside, rfl⟩ := Scopes.enter_ok_iff.1 he
      exact Scopes.context_opened hs outside
  | closes hn hx =>
      obtain ⟨frame, outer, hf, hk, rfl⟩ := Scopes.exit_ok_iff.1 hx
      exact Scopes.context_closed hf hk hn
  | binds hd => exact Scopes.context_define hs hd
  | completes hx hd => exact Scopes.context_completed hs hx hd
  | evaluates => exact (Scopes.marks_markAll hs _).2.context
  | initialises => rfl
  | assigns => rfl

end Mention.Acts

/-! ## §5. Calls that wait. -/

namespace Context

/-- The context behind some mentions. -/
def afterAll (c : Context) (mentions : List Mention) : Context :=
  mentions.foldl after c

@[simp] theorem afterAll_nil (c : Context) : c.afterAll [] = c := rfl

@[simp] theorem afterAll_cons (c : Context) (mention : Mention) (later : List Mention) :
    c.afterAll (mention :: later) = (c.after mention).afterAll later := rfl

theorem afterAll_append (c : Context) (mentions later : List Mention) :
    c.afterAll (mentions ++ later) = (c.afterAll mentions).afterAll later :=
  List.foldl_append

end Context

/-- Among the first mentions of a file the name is called while it is hidden. -/
inductive CalledHidden (name : String) : List Mention → Prop where
  | intro {before value behind} :
      (Context.start.afterAll before).lookup? name = none → value.Calls name →
      CalledHidden name (before ++ .evaluates value :: behind)

/-- Among the first mentions of a file a function is opened that stays open,
and in front of it the name is called while it is hidden. -/
inductive CalledOutside (name : String) : List Mention → Prop where
  | intro {outer inner} :
      CalledHidden name outer → (∀ symbol, Mention.completes symbol ∉ inner) →
      CalledOutside name (outer ++ .opens .function :: inner)

theorem CalledHidden.append {name : String} {before : List Mention} (h : CalledHidden name before)
    (behind : List Mention) : CalledHidden name (before ++ behind) := by
  cases h with
  | intro hidden calls =>
      rw [List.append_assoc, List.cons_append]
      exact .intro hidden calls

theorem CalledOutside.concat {name : String} {before : List Mention} {mention : Mention}
    (h : CalledOutside name before) (stays : ∀ symbol, mention ≠ .completes symbol) :
    CalledOutside name (before ++ [mention]) := by
  cases h with
  | intro called inside =>
      rw [List.append_assoc, List.cons_append]
      refine .intro called fun symbol hm => ?_
      rcases List.mem_append.1 hm with hm | hm
      · exact inside symbol hm
      · exact stays symbol (List.mem_singleton.1 hm).symm

/-- What scopes tell of the mentions that led to them. -/
structure Scopes.Recalls (s : Scopes) (before : List Mention) : Prop where
  regular : Regular s
  context : s.context = Context.start.afterAll before
  /-- A name that waits was called. -/
  called : ∀ {name call}, s.pending? name = some call → CalledHidden name before
  /-- A name that waits further out was called further out. -/
  outside : ∀ {name call}, s.pending? name = some call → call.level < s.level →
    CalledOutside name before

namespace Scopes.Recalls

variable {s t : Scopes} {before : List Mention} {mention : Mention}

theorem empty : Recalls .empty [] where
  regular := Scopes.regular_empty
  context := rfl
  called h := by cases h
  outside h := by cases h

/-- A step that adds no waiting call and opens no function. -/
theorem keep (h : s.Recalls before) (acts : mention.Acts s t)
    (stays : ∀ symbol, mention ≠ .completes symbol) (level : t.level = s.level)
    (fewer : ∀ {name call}, t.pending? name = some call → s.pending? name = some call) :
    t.Recalls (before ++ [mention]) where
  regular := acts.regular h.regular
  context := by
    rw [acts.context h.regular, h.context, Context.afterAll_append]
    rfl
  called hp := (h.called (fewer hp)).append _
  outside hp hl := (h.outside (fewer hp) (level ▸ hl)).concat stays

theorem opens {kind : FrameKind} (h : s.Recalls before)
    (he : Scopes.enter kind s = .ok () t) : t.Recalls (before ++ [.opens kind]) := by
  have acts : (Mention.opens kind).Acts s t := .opens he
  obtain ⟨-, rfl⟩ := Scopes.enter_ok_iff.1 he
  by_cases hk : kind = .function
  · subst hk
    refine ⟨acts.regular h.regular, ?_, fun hp => (h.called hp).append _, fun hp _ => ?_⟩
    · rw [acts.context h.regular, h.context, Context.afterAll_append]
      rfl
    -- what waits in front of the function was called there
    · exact .intro (h.called hp) fun _ hm => nomatch hm
  · exact h.keep acts (fun _ => nofun) (by simp [Scopes.opened, hk]) id

theorem completes {symbol : Symbol} {u : Scopes} (h : s.Recalls before)
    (hx : Scopes.exit .function s = .ok () t) (hd : Scopes.define symbol t = .ok () u) :
    u.Recalls (before ++ [.completes symbol]) := by
  have acts : (Mention.completes symbol).Acts s u := .completes hx hd
  have regular := acts.regular h.regular
  obtain ⟨frame, outer, hf, hk, rfl⟩ := Scopes.exit_ok_iff.1 hx
  have level : u.level = 0 := by
    rw [level_define hd]
    have := h.regular.level_le
    show s.level - 1 = 0
    omega
  refine ⟨regular, ?_, fun hp => ?_, fun hp hl => ?_⟩
  · rw [acts.context h.regular, h.context, Context.afterAll_append]
    rfl
  · obtain ⟨deep, hdeep, -⟩ := pending?_closed_function (pending?_of_define hd hp)
    exact (h.called hdeep).append _
  · rw [level] at hl
    exact absurd hl (Nat.not_lt_zero _)

theorem evaluates (h : s.Recalls before) (value : Expr) :
    (s.markAll value.callees).Recalls (before ++ [.evaluates value]) := by
  have acts : (Mention.evaluates value).Acts s (s.markAll value.callees) := .evaluates
  have marks := (marks_markAll h.regular value.callees).2
  refine ⟨acts.regular h.regular, ?_, fun hp => ?_, fun hp hl => ?_⟩
  · rw [acts.context h.regular, h.context, Context.afterAll_append]
    rfl
  · rcases pending?_markAll h.regular hp with old | ⟨-, -, hidden, calls⟩
    · exact (h.called old).append _
    · rw [← lookup?_context h.regular, h.context] at hidden
      exact .intro hidden calls
  · rw [marks.level] at hl
    rcases pending?_markAll h.regular hp with old | ⟨-, level, -, -⟩
    · exact (h.outside old hl).concat fun _ => nofun
    · omega

/-- **Every step is recalled.** -/
theorem step (h : s.Recalls before) (acts : mention.Acts s t) :
    t.Recalls (before ++ [mention]) := by
  cases acts with
  | opens he => exact h.opens he
  | @closes kind _ _ hn hx =>
      have acts := Mention.Acts.closes hn hx
      obtain ⟨frame, outer, hf, hk, rfl⟩ := Scopes.exit_ok_iff.1 hx
      have pending : (s.closed kind outer).pending = s.pending := by simp [Scopes.closed, hn]
      refine h.keep acts (by simp) (by simp [Scopes.closed, hn]) fun hp => ?_
      rwa [pending?, pending] at hp
  | binds hd =>
      exact h.keep (.binds hd) (by simp) (level_define hd) (pending?_of_define hd)
  | completes hx hd => exact h.completes hx hd
  | evaluates => exact h.evaluates _
  | initialises => exact h.keep .initialises (by simp) rfl id
  | assigns => exact h.keep .assigns (by simp) rfl id

/-- **Every run is recalled.** -/
theorem run {mentions : List Mention} (h : s.Recalls before) (trace : Trace s mentions t) :
    t.Recalls (before ++ mentions) := by
  induction trace generalizing before with
  | nil => rwa [List.append_nil]
  | @cons _ _ _ mention later acts _ ih =>
      have := ih (h.step acts)
      rwa [List.append_assoc] at this

end Scopes.Recalls

/-! ## §6. Names that only functions may take. -/

namespace Scopes

variable {s t : Scopes} {name : String} {mention : Mention}

/-- No variable of the name can be bound: it is visible, or it waits at this
level. -/
def Reserved (name : String) (s : Scopes) : Prop :=
  (s.lookup? name).isSome = true ∨ ∃ call, s.pending? name = some call ∧ s.level ≤ call.level

/-- No variable of the name can be bound outside functions. -/
def ReservedOutside (name : String) (s : Scopes) : Prop :=
  (s.globals.get? name).isSome = true ∨ ∃ call, s.pending? name = some call ∧ call.level = 0

theorem Reserved.isFunction {symbol : Symbol} (h : s.Reserved symbol.key)
    (hd : define symbol s = .ok () t) : symbol.isFunction = true := by
  obtain ⟨-, required, free, -⟩ := define_ok_iff.1 hd
  rcases h with visible | ⟨call, hp, hl⟩
  · rw [free] at visible
    cases visible
  · exact required call hp hl

theorem ReservedOutside.reserved (h : s.ReservedOutside name) (hl : s.level = 0) :
    s.Reserved name := by
  rcases h with visible | ⟨call, hp, level⟩
  · left
    rw [lookup?_eq]
    cases s.local? name with
    | none => exact visible
    | some symbol => rfl
  · exact .inr ⟨call, hp, by omega⟩

/-- In a function a name stays reserved until the function ends. -/
theorem Reserved.step (h : s.Reserved name) (hs : Regular s) (inside : s.inFunction = true)
    (acts : mention.Acts s t) (stays : ∀ symbol, mention ≠ .completes symbol) :
    t.Reserved name ∧ t.inFunction = true := by
  cases acts with
  | @opens kind _ _ he =>
      obtain ⟨outside, rfl⟩ := enter_ok_iff.1 he
      have hk : kind ≠ .function := fun same => outside ⟨same, inside⟩
      have level : (s.opened kind).level = s.level := by simp [opened, hk]
      refine ⟨?_, by rwa [inFunction, level]⟩
      unfold Reserved
      rw [level, lookup?_eq, local?_opened]
      rw [Reserved, lookup?_eq] at h
      exact h
  | @closes kind _ _ hn hx =>
      obtain ⟨frame, outer, hf, hk, rfl⟩ := exit_ok_iff.1 hx
      have same : s.closed kind outer = { s with frames := outer } := by simp [closed, hn]
      have locals := local?_closed hf hk hn name
      rw [same] at locals ⊢
      refine ⟨?_, inside⟩
      unfold Reserved
      rw [lookup?_eq, locals]
      rw [Reserved, lookup?_eq] at h
      exact h
  | @binds symbol _ _ hd =>
      refine ⟨?_, by rwa [inFunction, level_define hd]⟩
      by_cases hn : name = symbol.key
      · left
        rw [lookup?_define hd, if_pos hn]
        rfl
      · rcases h with visible | ⟨call, hp, hl⟩
        · left
          rwa [lookup?_define hd, if_neg hn]
        · right
          refine ⟨call, ?_, by rwa [level_define hd]⟩
          rw [pending?_define hd, if_neg fun h => hn h.2]
          exact hp
  | completes => exact absurd rfl (stays _)
  | @evaluates value =>
      have marks := (marks_markAll hs value.callees).2
      refine ⟨?_, by rwa [marks.inFunction]⟩
      rcases h with visible | ⟨call, hp, hl⟩
      · left
        rwa [marks.lookup?]
      · exact .inr ⟨call, marks.pending hp, by rwa [marks.level]⟩
  | initialises => exact ⟨h, inside⟩
  | assigns => exact ⟨h, inside⟩

theorem Reserved.run {mentions : List Mention} (h : s.Reserved name) (hs : Regular s)
    (inside : s.inFunction = true) (trace : Trace s mentions t)
    (stays : ∀ symbol, Mention.completes symbol ∉ mentions) : t.Reserved name := by
  induction trace with
  | nil => exact h
  | cons acts _ ih =>
      have first := h.step hs inside acts fun symbol same =>
        stays symbol (same ▸ List.mem_cons_self)
      exact ih first.1 (acts.regular hs) first.2 fun symbol hm =>
        stays symbol (List.mem_cons_of_mem _ hm)

/-- To define a name does not free another one outside functions. -/
theorem ReservedOutside.define {symbol : Symbol} (h : s.ReservedOutside name) (hs : Regular s)
    (hd : define symbol s = .ok () t) : t.ReservedOutside name := by
  have globals := globals_define hd name
  rcases h with visible | ⟨call, hp, level⟩
  · left
    rw [globals]
    split
    · rfl
    · exact visible
  · by_cases settled : s.settles symbol = true ∧ name = symbol.key
    -- a name that waits outside is answered outside only
    · obtain ⟨settles, rfl⟩ := settled
      have outside : s.frames.any Frame.isFunction = false := by
        simp only [Scopes.settles, hp, Option.any_some, Bool.and_eq_true,
          decide_eq_true_eq] at settles
        have := hs.any_isFunction
        rw [← Bool.not_eq_true, this]
        omega
      left
      rw [globals, if_pos ⟨outside, rfl⟩]
      rfl
    · right
      refine ⟨call, ?_, level⟩
      rw [pending?_define hd, if_neg settled]
      exact hp

/-- Outside functions a name stays reserved to the end of the file. -/
theorem ReservedOutside.step (h : s.ReservedOutside name) (hs : Regular s)
    (acts : mention.Acts s t) : t.ReservedOutside name := by
  cases acts with
  | opens he =>
      obtain ⟨-, rfl⟩ := enter_ok_iff.1 he
      exact h
  | @closes kind _ _ hn hx =>
      obtain ⟨frame, outer, -, -, rfl⟩ := exit_ok_iff.1 hx
      have same : s.closed kind outer = { s with frames := outer } := by simp [closed, hn]
      rw [same]
      exact h
  | binds hd => exact h.define hs hd
  | completes hx hd =>
      obtain ⟨frame, outer, hf, hk, rfl⟩ := exit_ok_iff.1 hx
      refine ReservedOutside.define ?_ (hs.closed hf hk) hd
      rcases h with visible | ⟨call, hp, level⟩
      · exact .inl visible
      · refine .inr ⟨_, closed_function_pending? hp, ?_⟩
        show min call.level _ = 0
        omega
  | @evaluates value =>
      have marks := (marks_markAll hs value.callees).2
      rcases h with visible | ⟨call, hp, level⟩
      · left
        rwa [marks.globals]
      · exact .inr ⟨call, marks.pending hp, level⟩
  | initialises => exact h
  | assigns => exact h

theorem ReservedOutside.run {mentions : List Mention} (h : s.ReservedOutside name)
    (hs : Regular s) (trace : Trace s mentions t) : t.ReservedOutside name := by
  induction trace with
  | nil => exact h
  | cons acts _ ih => exact ih (h.step hs acts) (acts.regular hs)

end Scopes

end ImpFront
