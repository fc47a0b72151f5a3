/-
  ImpFront.Proofs.Acceptance.Account
  ──────────────────────────────────
  **SCOPES THAT ARE ACCOUNTED FOR.**

  `Accounted tokens s ahead later`: with the scopes `s` in front of the
  mentions `later`,

    • every waiting call is answered by one of them,
    • the types that are read ahead are those of the declarations in them,
    • each of them is sound in its context.

  The end of an accepted file is accounted for, since no call waits there and
  nothing is mentioned.  From there the account is carried BACK, over one
  operation on the scopes at a time: what comes later is known by then.
-/
import ImpFront.Proofs.Acceptance.Judgement
import ImpFront.Proofs.Scope.Keeping

namespace ImpFront

/-! ## §1. Functions ahead. -/

theorem Symbol.names_iff {symbol : Symbol} {name : String} :
    symbol.names name = true ↔ symbol.isFunction = true ∧ symbol.key = name := by
  simp [names]

theorem firstAhead?_of_localAhead? {name : String} {later : List Mention}
    (h : (localAhead? name later).isSome = true) : (firstAhead? name later).isSome = true := by
  induction later with
  | nil => cases h
  | cons mention later ih =>
      cases mention with
      | binds symbol =>
          unfold localAhead? at h
          unfold firstAhead?
          split at h
          · next named => rw [if_pos named]; rfl
          · next other => rw [if_neg other]; exact ih h
      | completes => cases h
      | _ => exact ih h

/-- A function that is bound globally later is declared later, unless it is the
one that is open. -/
theorem firstAhead?_of_globalAhead? {name : String} {later : List Mention} {c : Context}
    (allowed : Always Mention.Scoped c later)
    (h : (globalAhead? name c.locals.isSome later).isSome = true) :
    (firstAhead? name later).isSome = true
      ∨ ∃ symbol, c.locals.bind (fun locals => locals name) = some symbol
          ∧ symbol.isFunction = true := by
  induction later generalizing c with
  | nil => cases h
  | cons mention later ih =>
      obtain ⟨here, rest⟩ := allowed
      cases mention with
      | opens kind =>
          -- a new function begins without names
          by_cases hk : kind = .function
          · subst hk
            rcases ih rest h with first | ⟨symbol, hl, -⟩
            · exact .inl first
            · cases hl
          · have same : (c.after (.opens kind)).locals = c.locals := if_neg hk
            have step : globalAhead? name c.locals.isSome (.opens kind :: later)
                = globalAhead? name c.locals.isSome later := by
              cases kind with
              | function => exact absurd rfl hk
              | _ => rfl
            rw [step, ← same] at h
            rw [← same]
            exact ih rest h
      | binds symbol =>
          by_cases named : symbol.names name = true
          · left
            unfold firstAhead?
            rw [if_pos named]
            rfl
          · have first : firstAhead? name (.binds symbol :: later) = firstAhead? name later :=
              if_neg named
            unfold globalAhead? at h
            rw [if_neg (by simp [named])] at h
            rw [first]
            -- another name is bound, among the globals or among the locals
            cases hl : c.locals with
            | none =>
                have same : (c.after (.binds symbol)).locals = none := by
                  simp [Context.after, hl]
                rw [hl, ← same] at h
                rcases ih rest h with first | ⟨other, found, -⟩
                · exact .inl first
                · rw [same] at found
                  cases found
            | some locals =>
                have same : (c.after (.binds symbol)).locals
                    = some (Context.extend symbol locals) := by
                  simp [Context.after, hl]
                rw [hl] at h
                have inside : (c.after (.binds symbol)).locals.isSome = (some locals).isSome := by
                  rw [same]
                  rfl
                rw [← inside] at h
                rcases ih rest h with first | ⟨other, found, function⟩
                · exact .inl first
                · right
                  rw [same, Option.bind_some, Context.extend] at found
                  split at found
                  · next key =>
                      obtain rfl := Option.some.inj found
                      exact absurd (Symbol.names_iff.2 ⟨function, key.symm⟩) named
                  · exact ⟨other, found, function⟩
      | closes kind => exact ih (c := c.after (.closes kind)) rest h
      -- a function that ends has its own name bound inside it
      | completes symbol =>
          obtain ⟨own, -⟩ := here
          unfold globalAhead? at h
          split at h
          · next named =>
              obtain ⟨function, rfl⟩ := Symbol.names_iff.1 named
              exact .inr ⟨symbol, own, function⟩
          · rcases ih rest h with first | ⟨other, found, -⟩
            · exact .inl first
            · cases found
      | _ => exact ih rest h

/-- **A call that is answered later has a declaration ahead.** -/
theorem Context.firstAhead?_of_callee? {c : Context} {name : String} {later : List Mention}
    {bound : Symbol} (allowed : Always Mention.Scoped c later) (hidden : c.lookup? name = none)
    (h : c.callee? name later = some bound) : (firstAhead? name later).isSome = true := by
  obtain ⟨notLocal, -⟩ := Option.or_eq_none_iff.1 hidden
  unfold callee? at h
  rw [hidden] at h
  rcases Option.or_eq_some_iff.1 h with near | ⟨-, far⟩
  · split at near
    · exact firstAhead?_of_localAhead? (by rw [near]; rfl)
    · cases near
  · rcases firstAhead?_of_globalAhead? allowed (by rw [far]; rfl) with first | ⟨symbol, hl, -⟩
    · exact first
    · rw [notLocal] at hl
      cases hl

/-! ## §2. Answers. -/

/-- The function that answers a waiting call.  A function is open if `inside`,
and one bound in it answers the call if that is `deep`. -/
def answer? (inside deep : Bool) (name : String) (later : List Mention) : Option Symbol :=
  (if deep then localAhead? name later else none).or (globalAhead? name inside later)

section Answers

variable {inside deep : Bool} {name : String} {symbol : Symbol} {later : List Mention}

theorem answer?_opens {kind : FrameKind} (h : kind ≠ .function) :
    answer? inside deep name (.opens kind :: later) = answer? inside deep name later := by
  cases kind with
  | function => exact absurd rfl h
  | _ => rfl

theorem answer?_binds_of_names (named : symbol.names name = true) (h : inside = deep) :
    (answer? inside deep name (.binds symbol :: later)).isSome = true := by
  subst h
  cases inside with
  | true => simp [answer?, localAhead?, named]
  | false => simp [answer?, globalAhead?, named]

theorem answer?_binds_of_not_names (other : ¬symbol.names name = true) :
    answer? inside deep name (.binds symbol :: later) = answer? inside deep name later := by
  simp [answer?, localAhead?, globalAhead?, other]

/-- A local function answers no call that waits for a global one. -/
theorem answer?_binds_of_shallow :
    answer? true false name (.binds symbol :: later) = answer? true false name later := by
  simp [answer?, globalAhead?]

theorem answer?_completes
    (h : symbol.names name = true ∨ (answer? false false name later).isSome = true) :
    (answer? inside deep name (.completes symbol :: later)).isSome = true := by
  by_cases named : symbol.names name = true
  · simp [answer?, globalAhead?, named]
  · have rest := h.resolve_left named
    simpa [answer?, globalAhead?, localAhead?, named] using rest

end Answers

/-! ## §3. Accounts. -/

/-- A mention is allowed, its types go together, and its calls are typed as
the tokens foretell. -/
structure Mention.Sound (tokens : List Token) (c : Context) (mention : Mention)
    (later : List Mention) : Prop where
  allowed : mention.Scoped c later
  typed : mention.Typed c later
  foretold : mention.Foretold tokens c later

/-- The scopes `s`, with the types `ahead` read ahead, are accounted for by
what is mentioned later. -/
structure Accounted (tokens : List Token) (s : Scopes) (ahead : String → Option BaseType)
    (later : List Mention) : Prop where
  answered : ∀ {name call}, s.pending? name = some call →
    (answer? s.inFunction (decide (0 < call.level)) name later).isSome = true
  declared : ∀ {name first}, firstAhead? name later = some first →
    Declares tokens first (ahead name)
  sound : Always (Mention.Sound tokens) s.context later

namespace Accounted

open Scopes (Regular Marks Proper)

variable {tokens : List Token} {s t u : Scopes} {ahead : String → Option BaseType}
  {later : List Mention}

/-- At the end of a file there is nothing left to account for. -/
theorem nil (h : ∀ name, s.pending? name = none) : Accounted tokens s ahead [] where
  answered hp := by
    rw [h] at hp
    cases hp
  declared hf := by cases hf
  sound := trivial

theorem congr {ahead' : String → Option BaseType} (acc : Accounted tokens s ahead later)
    (h : ∀ name, ahead name = ahead' name) : Accounted tokens s ahead' later := by
  rw [← funext h]
  exact acc

theorem marked (h : Marks s t) (acc : Accounted tokens t ahead later) :
    Accounted tokens s ahead later where
  answered hp := by
    rw [← h.inFunction]
    exact acc.answered (h.pending hp)
  declared := acc.declared
  sound := by
    rw [← h.context]
    exact acc.sound

theorem opened (hs : Regular s) {kind : FrameKind} {a : Unit}
    (he : Scopes.enter kind s = .ok a t) (acc : Accounted tokens t ahead later) :
    Accounted tokens s ahead (.opens kind :: later) := by
  obtain ⟨h, rfl⟩ := Scopes.enter_ok_iff.1 he
  refine ⟨fun {name call} hp => ?_, acc.declared, ⟨⟨fun hk => ?_, trivial, trivial⟩, ?_⟩⟩
  · have waits : (s.opened kind).pending? name = some call := hp
    have answered := acc.answered waits
    by_cases hk : kind = .function
    · subst hk
      have outside : s.level = 0 := by simpa [Scopes.inFunction] using h
      have shallow : call.level = 0 := by
        have := hs.pending_le hp
        omega
      rw [Scopes.inFunction_eq_true (s := s.opened .function) (by simp [Scopes.opened]),
        shallow] at answered
      rw [Scopes.inFunction_eq_false outside, shallow]
      exact answered
    · have level : (s.opened kind).inFunction = s.inFunction := by
        simp [Scopes.inFunction, Scopes.opened, hk]
      rw [answer?_opens hk, ← level]
      exact answered
  · have outside : s.inFunction = false := by simpa [hk] using h
    simp [Scopes.context, outside]
  · rw [← Scopes.context_opened hs h]
    exact acc.sound

theorem closed {kind : FrameKind} (hn : kind ≠ .function) {a : Unit}
    (hx : Scopes.exit kind s = .ok a t) (acc : Accounted tokens t ahead later) :
    Accounted tokens s ahead (.closes kind :: later) := by
  obtain ⟨frame, outer, hf, hk, rfl⟩ := Scopes.exit_ok_iff.1 hx
  refine ⟨fun {name call} hp => ?_, acc.declared, ⟨⟨trivial, trivial, trivial⟩, ?_⟩⟩
  · have pending : (s.closed kind outer).pending = s.pending := by simp [Scopes.closed, hn]
    have level : (s.closed kind outer).inFunction = s.inFunction := by
      simp [Scopes.inFunction, Scopes.closed, hn]
    have waits : (s.closed kind outer).pending? name = some call := by
      unfold Scopes.pending?
      rw [pending]
      exact hp
    rw [← level]
    exact acc.answered waits
  · rw [← Scopes.context_closed hf hk hn]
    exact acc.sound

/-- **A name that is bound answers the calls that it settles, and no others.** -/
theorem bound (hs : Regular s) {symbol : Symbol} {a : Unit}
    (hd : Scopes.define symbol s = .ok a t) (acc : Accounted tokens t ahead later)
    {before : String → Option BaseType}
    (declared : ∀ {name first}, firstAhead? name (.binds symbol :: later) = some first →
      Declares tokens first (before name)) :
    Accounted tokens s before (.binds symbol :: later) := by
  have context := Scopes.context_define hs hd
  obtain ⟨unconditional, required, free, rfl⟩ := Scopes.define_ok_iff.1 hd
  have level : ((s.settled symbol).bind symbol).inFunction = s.inFunction := by
    simp [Scopes.inFunction]
  refine ⟨fun {name call} hp => ?_, declared, ⟨⟨⟨?_, ?_⟩, trivial, trivial⟩, ?_⟩⟩
  · have le := hs.pending_le hp
    have single := hs.level_le
    -- either the binding settles the call, or the call waits for what comes behind
    by_cases settles : s.settles symbol = true ∧ name = symbol.key
    · obtain ⟨settles, rfl⟩ := settles
      simp only [Scopes.settles, hp, Bool.and_eq_true, Option.any_some, decide_eq_true_eq]
        at settles
      obtain ⟨function, deep⟩ := settles
      refine answer?_binds_of_names (Symbol.names_iff.2 ⟨function, rfl⟩) ?_
      have same : s.level = call.level := by omega
      rw [Scopes.inFunction, same]
    · have waits : ((s.settled symbol).bind symbol).pending? name = some call := by
        unfold Scopes.pending?
        rw [Scopes.pending_bind]
        show (s.settled symbol).pending? name = some call
        rw [Scopes.pending?_settled, if_neg settles]
        exact hp
      have answered := acc.answered waits
      rw [level] at answered
      by_cases named : symbol.names name = true
      · obtain ⟨function, rfl⟩ := Symbol.names_iff.1 named
        -- a function of the name that settles nothing is local, and the call is not
        have shallow : ¬s.level ≤ call.level := by
          intro deep
          refine settles ⟨?_, rfl⟩
          simp [Scopes.settles, hp, function, deep]
        have bottom : call.level = 0 := by omega
        rw [Scopes.inFunction_eq_true (show 0 < s.level by omega), bottom] at answered ⊢
        rw [show decide (0 < 0) = false from rfl] at answered ⊢
        rw [answer?_binds_of_shallow]
        exact answered
      · rw [answer?_binds_of_not_names named]
        exact answered
  · rw [Scopes.lookup?_context hs]
    exact free
  · exact Scopes.conditional_notMem unconditional
  · rw [← context]
    exact acc.sound

/-- A variable or a parameter is declared by no function. -/
theorem boundValue (hs : Regular s) {symbol : Symbol} (value : symbol.isFunction = false)
    {a : Unit} (hd : Scopes.define symbol s = .ok a t)
    (acc : Accounted tokens t ahead later) : Accounted tokens s ahead (.binds symbol :: later) := by
  refine acc.bound hs hd fun {name first} hf => acc.declared ?_
  have other : ¬symbol.names name = true := by
    rw [Symbol.names_iff]
    simp [value]
  rwa [firstAhead?, if_neg other] at hf

/-- In front of a function the type ahead is the one that it declares. -/
theorem boundFunction (hs : Regular s) {symbol : Symbol} (function : symbol.isFunction = true)
    {a : Unit} (hd : Scopes.define symbol s = .ok a t) {type : Option BaseType}
    (declares : Declares tokens symbol type) (acc : Accounted tokens t ahead later) :
    Accounted tokens s (fun name => if name = symbol.key then type else ahead name)
      (.binds symbol :: later) := by
  refine acc.bound hs hd fun {name first} hf => ?_
  unfold firstAhead? at hf
  split at hf
  · next named =>
      obtain ⟨-, rfl⟩ := Symbol.names_iff.1 named
      obtain rfl := Option.some.inj hf
      rw [if_pos rfl]
      exact declares
  · next other =>
      have hn : name ≠ symbol.key := by
        rintro rfl
        exact other (Symbol.names_iff.2 ⟨function, rfl⟩)
      rw [if_neg hn]
      exact acc.declared hf

/-- **The end of a function answers what waits for it outside.** -/
theorem completed (hs : Regular s) {symbol : Symbol} (function : symbol.isFunction = true)
    {a b : Unit} (hx : Scopes.exit .function s = .ok a t)
    (hd : Scopes.define symbol t = .ok b u) (own : s.local? symbol.key = some symbol)
    (acc : Accounted tokens u ahead later) :
    Accounted tokens s ahead (.completes symbol :: later) := by
  have context := Scopes.context_completed hs hx hd
  obtain ⟨unconditional, -, free, rfl⟩ := Scopes.define_ok_iff.1 hd
  obtain ⟨-, free⟩ := Scopes.lookup?_eq_none_iff.1 free
  obtain ⟨frame, outer, hf, hk, rfl⟩ := Scopes.exit_ok_iff.1 hx
  have inside : 0 < s.level := by
    have count := hs.level_eq
    rw [hf, List.countP_cons, if_pos (by simp [Frame.isFunction, hk])] at count
    omega
  have single := hs.level_le
  have bottom : (s.closed .function outer).level = 0 := by
    show s.level - 1 = 0
    omega
  refine ⟨fun {name call} hp => answer?_completes ?_, acc.declared,
    ⟨⟨⟨?_, ?_, ?_⟩, trivial, trivial⟩, ?_⟩⟩
  · by_cases named : symbol.names name = true
    · exact .inl named
    · right
      -- calls of other names go on waiting behind the function
      have other : ¬((s.closed .function outer).settles symbol = true ∧ name = symbol.key) := by
        rintro ⟨-, rfl⟩
        exact named (Symbol.names_iff.2 ⟨function, rfl⟩)
      -- what waited inside waits outside from here on
      have clamped : (s.closed .function outer).pending? name
          = some { call with level := min call.level (s.level - 1) } := by
        show (Scopes.clampPending (s.level - 1) s.pending).get? name = _
        rw [Scopes.clampPending, Table.get?_map]
        show (s.pending? name).map _ = _
        rw [hp]
        rfl
      have waits : (((s.closed .function outer).settled symbol).bind symbol).pending? name
          = some { call with level := min call.level (s.level - 1) } := by
        unfold Scopes.pending?
        rw [Scopes.pending_bind]
        show ((s.closed .function outer).settled symbol).pending? name = _
        rw [Scopes.pending?_settled, if_neg other, clamped]
      have answered := acc.answered waits
      have level : (((s.closed .function outer).settled symbol).bind symbol).inFunction
          = false := Scopes.inFunction_eq_false (by simpa using bottom)
      have shallow : decide (0 < min call.level (s.level - 1)) = false := by
        rw [decide_eq_false_iff_not]
        omega
      rw [level] at answered
      simpa only [shallow] using answered
  · unfold Scopes.context
    rw [Scopes.inFunction_eq_true inside]
    exact own
  · exact free
  · have outside := Scopes.conditional_notMem unconditional
    intro hm
    have frames : s.context.frames = .function :: (s.closed .function outer).context.frames := by
      show s.frames.map Frame.kind = .function :: outer.map Frame.kind
      rw [hf, List.map_cons, hk]
    rw [frames] at hm
    rcases List.mem_cons.1 hm with hm | hm
    · cases hm
    · exact outside hm
  · rw [← context]
    exact acc.sound

end Accounted

end ImpFront
