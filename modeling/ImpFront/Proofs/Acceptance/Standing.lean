/-
  ImpFront.Proofs.Acceptance.Standing
  ───────────────────────────────────
  **SCOPES IN FRONT OF LAWFUL MENTIONS.**

  An account is carried back from the end of a file, where reading is known
  to succeed.  Here the way leads forward, and it is the tree that is known:
  its mentions are lawful, each in its context, and no name is both called in
  front of its function and bound as a variable.

      Stands whole s later   :  the mentions of the file are `whole`, those in
        front of `later` lead to the scopes `s`, and what waits in `s` is
        answered in `later`

  Then the next mention can act on the scopes, and behind it they stand in
  front of the rest.  At the end nothing waits.
-/
import ImpFront.Proofs.Acceptance.Account
import ImpFront.Proofs.Scope.Trace

namespace ImpFront

open Scopes (Regular Proper)

/-! ## §1. Lawful mentions. -/

/-- A mention is allowed in its context, its types go together, and its calls
have the types of their functions. -/
structure Mention.Lawful (c : Context) (mention : Mention) (later : List Mention) : Prop where
  allowed : mention.Scoped c later
  typed : mention.Typed c later
  agrees : mention.Agrees c later

theorem Always.lawful {c : Context} {mentions : List Mention}
    (allowed : Always Mention.Scoped c mentions) (typed : Always Mention.Typed c mentions)
    (agrees : Always Mention.Agrees c mentions) : Always Mention.Lawful c mentions := by
  induction mentions generalizing c with
  | nil => trivial
  | cons mention later ih =>
      exact ⟨⟨allowed.1, typed.1, agrees.1⟩, ih allowed.2 typed.2 agrees.2⟩

/-- No name that is called while it is hidden is bound as a variable or as a
parameter. -/
def KeepsApart (mentions : List Mention) : Prop :=
  ∀ symbol, .binds symbol ∈ mentions → CalledHidden symbol.key mentions →
    symbol.isFunction = true

/-- No name that a file calls in front of its function is bound in the file as
a variable or as a parameter. -/
def Program.KeepsApart (program : Program) : Prop :=
  ImpFront.KeepsApart program.mentions

/-! ## §2. Scopes and contexts. -/

namespace Scopes

variable {s : Scopes}

theorem inConditional_of_context (h : .conditional ∉ s.context.frames) :
    s.inConditional = false := by
  refine List.any_eq_false.2 fun frame hf hk => h ?_
  rw [beq_iff_eq] at hk
  exact List.mem_map.2 ⟨frame, hf, hk⟩

/-- The innermost frame is of the kind that the context says. -/
theorem exit_of_context {kind : FrameKind} {outer : List FrameKind}
    (h : s.context.frames = kind :: outer) :
    ∃ frame frames, s.frames = frame :: frames ∧ frame.kind = kind := by
  obtain ⟨frame, frames, hf, hk, -⟩ := List.map_eq_cons_iff.1 h
  exact ⟨frame, frames, hf, hk⟩

end Scopes

/-! ## §3. Standing. -/

/-- The mentions of the file in front of `later` lead to the scopes, and what
comes is lawful and answers what waits. -/
structure Scopes.Stands (whole : List Mention) (s : Scopes) (later : List Mention) : Prop where
  apart : KeepsApart whole
  proper : Proper s
  recalls : ∃ before, whole = before ++ later ∧ s.Recalls before
  lawful : Always Mention.Lawful s.context later
  answered : ∀ {name call}, s.pending? name = some call →
    (answer? s.inFunction (decide (0 < call.level)) name later).isSome = true

namespace Scopes.Stands

variable {s t : Scopes} {whole later : List Mention} {mention : Mention}

theorem start {mentions : List Mention} (apart : KeepsApart mentions)
    (h : Always Mention.Lawful .start mentions) : Stands mentions .empty mentions where
  apart := apart
  proper := .empty
  recalls := ⟨[], rfl, .empty⟩
  lawful := h
  answered hp := by cases hp

/-- At the end of a file nothing waits. -/
theorem pending?_eq_none (h : Stands whole s []) (hl : s.inFunction = false) :
    ∀ name, s.pending? name = none := by
  intro name
  cases hp : s.pending? name with
  | none => rfl
  | some call =>
      have answered := h.answered hp
      rw [hl] at answered
      cases hd : decide (0 < call.level) <;> rw [hd] at answered <;> cases answered

/-- Behind a mention that acts the rest is to come. -/
theorem step (h : Stands whole s (mention :: later)) (acts : mention.Acts s t)
    (proper : Proper t)
    (answered : ∀ {name call}, t.pending? name = some call →
      (answer? t.inFunction (decide (0 < call.level)) name later).isSome = true) :
    Stands whole t later where
  apart := h.apart
  proper := proper
  recalls := by
    obtain ⟨before, rfl, recalls⟩ := h.recalls
    exact ⟨before ++ [mention], by simp, recalls.step acts⟩
  lawful := acts.context h.proper.regular ▸ h.lawful.2
  answered := answered

theorem opens {kind : FrameKind} (h : Stands whole s (.opens kind :: later)) :
    ∃ t, Scopes.enter kind s = .ok () t ∧ Stands whole t later := by
  have outside : ¬(kind = .function ∧ s.inFunction) := by
    rintro ⟨hk, inside⟩
    have none : s.context.locals = none := h.lawful.1.allowed hk
    rw [← isSome_locals_context, none] at inside
    cases inside
  have enters : Scopes.enter kind s = .ok () (s.opened kind) := enter_ok_iff.2 ⟨outside, rfl⟩
  refine ⟨_, enters, h.step (.opens enters) (h.proper.opened outside) fun {name call} hp => ?_⟩
  have answered := h.answered (show s.pending? name = some call from hp)
  by_cases hk : kind = .function
  -- outside a function calls wait for a global one, and they go on to do so inside
  · subst hk
    have bottom : s.level = 0 := by simpa [inFunction] using outside
    have shallow : call.level = 0 := by
      have := h.proper.regular.pending_le (show s.pending? name = some call from hp)
      omega
    rw [inFunction_eq_false bottom, shallow] at answered
    rw [inFunction_eq_true (s := s.opened .function) (by simp [opened]), shallow]
    exact answered
  · have level : (s.opened kind).inFunction = s.inFunction := by simp [inFunction, opened, hk]
    rw [level]
    rwa [answer?_opens hk] at answered

theorem closes {kind : FrameKind} {outer : List FrameKind}
    (h : Stands whole s (.closes kind :: later)) (hn : kind ≠ .function)
    (frames : s.context.frames = kind :: outer) :
    ∃ t, Scopes.exit kind s = .ok () t ∧ Stands whole t later := by
  obtain ⟨frame, outer, hf, hk⟩ := exit_of_context frames
  have exits : Scopes.exit kind s = .ok () (s.closed kind outer) :=
    exit_ok_iff.2 ⟨frame, outer, hf, hk, rfl⟩
  have same : s.closed kind outer = { s with frames := outer } := by simp [closed, hn]
  refine ⟨_, exits, h.step (.closes hn exits) (h.proper.closed hf hk) fun {name call} hp => ?_⟩
  rw [same] at hp ⊢
  exact h.answered hp

theorem binds {symbol : Symbol} (h : Stands whole s (.binds symbol :: later))
    (sorted : symbol.Sorted) :
    ∃ t, Scopes.define symbol s = .ok () t ∧ Stands whole t later := by
  have hs : Regular s := h.proper.regular
  obtain ⟨free, unconditional⟩ := h.lawful.1.allowed
  have required : ∀ call, s.pending? symbol.key = some call → s.level ≤ call.level →
      symbol.isFunction = true := by
    intro call hp _
    obtain ⟨before, rfl, recalls⟩ := h.recalls
    exact h.apart symbol (by simp) ((recalls.called hp).append _)
  have defines : Scopes.define symbol s = .ok () ((s.settled symbol).bind symbol) :=
    define_ok_iff.2 ⟨inConditional_of_context unconditional, required,
      (lookup?_context hs _).symm.trans free, rfl⟩
  refine ⟨_, defines, h.step (.binds defines) (h.proper.define sorted defines)
    fun {name call} hp => ?_⟩
  have waits := pending?_of_define defines hp
  have answered := h.answered waits
  rw [inFunction, level_define defines]
  by_cases named : symbol.names name = true
  · obtain ⟨function, rfl⟩ := Symbol.names_iff.1 named
    -- a function that leaves a call of its name waiting is local, and the call is not
    have shallow : ¬s.level ≤ call.level := by
      intro deep
      rw [pending?_define defines, if_pos ⟨by simp [settles, waits, function, deep], rfl⟩] at hp
      cases hp
    have single := hs.level_le
    have bottom : call.level = 0 := by omega
    rw [inFunction_eq_true (show 0 < s.level by omega), bottom,
      show decide (0 < 0) = false from rfl, answer?_binds_of_shallow] at answered
    rwa [bottom, decide_eq_true (show 0 < s.level by omega)]
  · rwa [answer?_binds_of_not_names named] at answered

theorem completes {symbol : Symbol} {outer : List FrameKind}
    (h : Stands whole s (.completes symbol :: later)) (function : symbol.isFunction = true)
    (sorted : symbol.Sorted) (frames : s.context.frames = .function :: outer) :
    ∃ t u, Scopes.exit .function s = .ok () t
      ∧ Scopes.define symbol (t.delete symbol.key).2 = .ok () u
      ∧ u.context = s.context.after (.completes symbol) ∧ Stands whole u later := by
  have hs : Regular s := h.proper.regular
  obtain ⟨-, free, unconditional⟩ := h.lawful.1.allowed
  obtain ⟨frame, outer, hf, hk⟩ := exit_of_context frames
  have exits : Scopes.exit .function s = .ok () (s.closed .function outer) :=
    exit_ok_iff.2 ⟨frame, outer, hf, hk, rfl⟩
  have closed := h.proper.closed hf hk
  have bottom : (s.closed .function outer).level = 0 := by
    have := hs.level_le
    show s.level - 1 = 0
    omega
  have absent : (s.closed .function outer).lookup? symbol.key = none :=
    lookup?_eq_none_iff.2 ⟨closed.regular.local?_eq_none bottom _, free⟩
  have unconditional : (s.closed .function outer).inConditional = false := by
    refine inConditional_of_context fun hm => unconditional ?_
    show FrameKind.conditional ∈ s.frames.map Frame.kind
    rw [hf]
    exact List.mem_cons_of_mem _ hm
  have defines : Scopes.define symbol (s.closed .function outer) = .ok () _ :=
    define_ok_iff.2 ⟨unconditional, fun _ _ _ => function, absent, rfl⟩
  refine ⟨_, _, exits, (delete_of_absent absent).symm ▸ defines,
    context_completed hs exits defines,
    h.step (.completes exits defines) (closed.define sorted defines) fun {name call} hp => ?_⟩
  have waits := pending?_of_define defines hp
  obtain ⟨deep, hdeep, level⟩ := pending?_closed_function waits
  have other : ¬symbol.names name = true := by
    intro named
    obtain ⟨-, rfl⟩ := Symbol.names_iff.1 named
    have settles : (s.closed .function outer).settles symbol = true := by
      simp [settles, waits, function, bottom]
    rw [pending?_define defines, if_pos ⟨settles, rfl⟩] at hp
    cases hp
  have shallow : decide (0 < call.level) = false := by
    have : s.level - 1 = 0 := bottom
    rw [decide_eq_false_iff_not]
    omega
  have answered := h.answered hdeep
  rw [inFunction, level_define defines, bottom, shallow]
  simpa [answer?, localAhead?, globalAhead?, other] using answered

theorem evaluates {value : Expr} (h : Stands whole s (.evaluates value :: later)) :
    Stands whole (s.markAll value.callees) later := by
  have hs : Regular s := h.proper.regular
  obtain ⟨regular, marks⟩ := marks_markAll hs value.callees
  refine h.step .evaluates (h.proper.marks regular marks) fun {name call} hp => ?_
  rw [marks.inFunction]
  rcases pending?_markAll hs hp with old | ⟨-, level, hidden, token, hm, rfl⟩
  · exact h.answered old
  -- a call that is new waits at this level, and has a function later on
  · obtain ⟨node, hn, called⟩ := List.mem_filterMap.1 hm
    cases node with
    | call name arguments returns =>
        obtain rfl := Option.some.inj called
        obtain ⟨bound, hb⟩ := h.lawful.1.allowed _ hn
        unfold Context.callee? at hb
        rw [lookup?_context hs, hidden, isSome_locals_context] at hb
        rw [level]
        exact Option.isSome_iff_exists.2 ⟨bound, hb⟩
    | _ => cases called

theorem initialises {type : Token} {value : Expr}
    (h : Stands whole s (.initialises type value :: later)) : Stands whole s later :=
  h.step .initialises h.proper h.answered

theorem assigns {name : Token} {value : Expr}
    (h : Stands whole s (.assigns name value :: later)) : Stands whole s later :=
  h.step .assigns h.proper h.answered

end Scopes.Stands

end ImpFront
