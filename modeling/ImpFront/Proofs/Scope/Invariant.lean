/-
  ImpFront.Proofs.Scope.Invariant
  ───────────────────────────────
  **WHAT HOLDS OF SCOPES AT ALL TIMES.**

  Scopes start empty and change by five operations, in any order and whether
  or not they succeed.  `Regular` is what every such run keeps:

      level      — the open functions are counted, and there is at most one
      keys       — every symbol stands under its own name
      disjoint   — no name is both local and global
      pending    — a waiting call waits no deeper than the present level, its
                   name is not global, and not local at its own level

  The last clause is what makes a definition harmless when it fails: a call
  is settled before the name is looked up, but a name that waits at this level
  is never visible.

      define symbol (after operations) = .error e t  →  t = after operations
-/
import ImpFront.Proofs.Scope.Laws

namespace ImpFront

namespace Scopes

/-! ## §1. Runs of operations. -/

/-- One operation on scopes. -/
inductive Operation where
  | enter (kind : FrameKind)
  | exit (kind : FrameKind)
  | define (symbol : Symbol)
  | delete (name : String)
  | mark (token : Token)
  deriving DecidableEq

/-- The state that a step leaves, whether it succeeds or not. -/
def stateAfter {ε α : Type} : EStateM.Result ε Scopes α → Scopes
  | .ok _ s => s
  | .error _ s => s

/-- The scopes after an operation, whether it succeeds or not. -/
def Operation.apply (s : Scopes) : Operation → Scopes
  | .enter kind => stateAfter (Scopes.enter kind s)
  | .exit kind => stateAfter (Scopes.exit kind s)
  | .define symbol => stateAfter (Scopes.define symbol s)
  | .delete name => (s.delete name).2
  | .mark token => s.mark token

/-- The scopes after some operations. -/
def run (s : Scopes) (operations : List Operation) : Scopes :=
  operations.foldl Operation.apply s

/-- The scopes after some operations from the beginning of a file. -/
def after (operations : List Operation) : Scopes :=
  empty.run operations

/-! ## §2. The invariant. -/

/-- What holds of scopes at all times. -/
structure Regular (s : Scopes) : Prop where
  /-- The level counts the open functions. -/
  level_eq : s.frames.countP Frame.isFunction = s.level
  /-- No function is open inside another. -/
  level_le : s.level ≤ 1
  /-- A local symbol stands under its own name. -/
  local_key : ∀ {name symbol}, s.local? name = some symbol → symbol.key = name
  /-- A global symbol stands under its own name. -/
  global_key : ∀ {name symbol}, s.globals.get? name = some symbol → symbol.key = name
  /-- No name is both local and global. -/
  disjoint : ∀ {name symbol}, s.local? name = some symbol → s.globals.get? name = none
  /-- A call waits no deeper than the present level. -/
  pending_le : ∀ {name call}, s.pending? name = some call → call.level ≤ s.level
  /-- A waiting name is not global. -/
  pending_global : ∀ {name call}, s.pending? name = some call → s.globals.get? name = none
  /-- A name that waits at the present level is not local. -/
  pending_local : ∀ {name call}, s.pending? name = some call → s.level ≤ call.level →
    s.local? name = none

theorem regular_empty : Regular empty where
  level_eq := rfl
  level_le := Nat.zero_le 1
  local_key h := by cases h
  global_key h := by cases h
  disjoint h := by cases h
  pending_le h := by cases h
  pending_global h := by cases h
  pending_local h := by cases h

namespace Regular

variable {s : Scopes}

/-- A function is open exactly at a level above the lowest. -/
theorem any_isFunction (hs : Regular s) :
    s.frames.any Frame.isFunction = true ↔ 0 < s.level := by
  rw [← hs.level_eq, List.countP_pos_iff]
  simp

/-- Outside functions no name is local. -/
theorem local?_eq_none (hs : Regular s) (h : s.level = 0) (name : String) :
    s.local? name = none := by
  apply local?_of_global
  have := hs.any_isFunction
  rw [← Bool.not_eq_true, this]
  omega

/-- A name that waits at the present level is not visible. -/
theorem pending_lookup (hs : Regular s) {name : String} {call : Pending}
    (hp : s.pending? name = some call) (hl : s.level ≤ call.level) :
    s.lookup? name = none :=
  lookup?_eq_none_iff.2 ⟨hs.pending_local hp hl, hs.pending_global hp⟩

/-! ## §3. Every operation keeps it. -/

theorem opened (hs : Regular s) {kind : FrameKind}
    (h : ¬(kind = .function ∧ s.inFunction)) : Regular (s.opened kind) := by
  have deeper : s.level ≤ (s.opened kind).level := by
    show s.level ≤ if kind = .function then s.level + 1 else s.level
    split <;> omega
  refine ⟨?_, ?_, ?_, hs.global_key, ?_, ?_, hs.pending_global, ?_⟩
  · show (Frame.fresh kind :: s.frames).countP Frame.isFunction = _
    rw [List.countP_cons, hs.level_eq]
    cases kind <;> rfl
  · show (if kind = .function then s.level + 1 else s.level) ≤ 1
    split
    · next hk =>
        have : ¬0 < s.level := by simpa [hk, inFunction] using h
        omega
    · exact hs.level_le
  · intro name symbol hl
    exact hs.local_key (local?_opened kind name ▸ hl)
  · intro name symbol hl
    exact hs.disjoint (local?_opened kind name ▸ hl)
  · intro name call hp
    exact Nat.le_trans (hs.pending_le hp) deeper
  · intro name call hp hl
    rw [local?_opened]
    exact hs.pending_local hp (Nat.le_trans deeper hl)

theorem closed (hs : Regular s) {kind : FrameKind} {frame : Frame} {outer : List Frame}
    (hf : s.frames = frame :: outer) (hk : frame.kind = kind) :
    Regular (s.closed kind outer) := by
  have count := hs.level_eq
  rw [hf, List.countP_cons] at count
  by_cases hfun : kind = .function
  · have hframe : frame.isFunction = true := by simp [Frame.isFunction, hk, hfun]
    simp only [hframe, ↓reduceIte] at count
    have hlevel := hs.level_le
    have same : s.closed kind outer
        = ⟨s.globals, outer, clampPending (s.level - 1) s.pending, s.level - 1⟩ := by
      simp [Scopes.closed, hfun]
    rw [same]
    -- the function was the only one, so that no frame further out holds a name
    have bare : ∀ name, outer.findSome? (·.get? name) = none := by
      intro name
      refine List.findSome?_eq_none_iff.2 fun inner hm => ?_
      have : outer.countP Frame.isFunction = 0 := by omega
      exact Frame.get?_of_not_isFunction name (by simpa using List.countP_eq_zero.1 this inner hm)
    have pending : ∀ {name call}, (clampPending (s.level - 1) s.pending).get? name = some call →
        ∃ deep, s.pending? name = some deep ∧ call.level = min deep.level (s.level - 1) := by
      intro name call hp
      rw [clampPending, Table.get?_map, Option.map_eq_some_iff] at hp
      obtain ⟨deep, hd, rfl⟩ := hp
      exact ⟨deep, hd, rfl⟩
    refine ⟨?_, ?_, ?_, hs.global_key, ?_, ?_, ?_, fun _ _ => bare _⟩
    · show outer.countP Frame.isFunction = s.level - 1
      omega
    · show s.level - 1 ≤ 1
      omega
    · intro name symbol hl
      exact absurd (hl.symm.trans (bare name)) (by simp)
    · intro name symbol hl
      exact absurd (hl.symm.trans (bare name)) (by simp)
    · intro name call hp
      obtain ⟨deep, -, hc⟩ := pending hp
      show call.level ≤ s.level - 1
      omega
    · intro name call hp
      obtain ⟨deep, hd, -⟩ := pending hp
      exact hs.pending_global hd
  · have hframe : frame.isFunction = false := by simp [Frame.isFunction, hk, hfun]
    simp only [hframe, Bool.false_eq_true, ↓reduceIte] at count
    have locals := local?_closed hf hk hfun
    have same : s.closed kind outer = { s with frames := outer } := by
      simp [Scopes.closed, hfun]
    rw [same] at locals ⊢
    refine ⟨by simpa using count, hs.level_le, ?_, hs.global_key, ?_, hs.pending_le,
      hs.pending_global, ?_⟩
    · intro name symbol hl
      exact hs.local_key (locals name ▸ hl)
    · intro name symbol hl
      exact hs.disjoint (locals name ▸ hl)
    · intro name call hp hl
      rw [locals]
      exact hs.pending_local hp hl

theorem settled (hs : Regular s) (symbol : Symbol) : Regular (s.settled symbol) := by
  unfold Scopes.settled
  split
  · have pending : ∀ {name call}, (s.pending.erase symbol.key).get? name = some call →
        s.pending? name = some call := by
      intro name call hp
      rw [Table.get?_erase] at hp
      split at hp
      · cases hp
      · exact hp
    exact { hs with
      pending_le := fun hp => hs.pending_le (pending hp)
      pending_global := fun hp => hs.pending_global (pending hp)
      pending_local := fun hp hl => hs.pending_local (pending hp) hl }
  · exact hs

/-- After it is settled a name waits at a shallower level only. -/
theorem pending_settled {symbol : Symbol}
    (required : ∀ call, s.pending? symbol.key = some call → s.level ≤ call.level →
      symbol.isFunction = true)
    {call : Pending} (hp : (s.settled symbol).pending? symbol.key = some call) :
    call.level < s.level := by
  unfold Scopes.settled at hp
  split at hp
  · simp [pending?, Table.get?_erase] at hp
  · next unsettled =>
      rw [settles, hp] at unsettled
      refine Nat.lt_of_not_le fun hl => unsettled ?_
      simp [required call hp hl, hl]

theorem bind (hs : Regular s) {symbol : Symbol} (free : s.lookup? symbol.key = none)
    (waits : ∀ call, s.pending? symbol.key = some call → call.level < s.level) :
    Regular (s.bind symbol) := by
  obtain ⟨hlocal, hglobal⟩ := lookup?_eq_none_iff.1 free
  have inside := hs.any_isFunction
  refine ⟨?_, ?_, ?_, ?_, ?_, ?_, ?_, ?_⟩
  · rw [Frame.countP_isFunction_of_kinds (map_kind_bind symbol), level_bind, hs.level_eq]
  · rw [level_bind]
    exact hs.level_le
  · intro name found hl
    rw [local?_bind] at hl
    split at hl
    · next hn => rw [hn.2, ← Option.some.inj hl]
    · exact hs.local_key hl
  · intro name found hg
    rw [globals_bind] at hg
    split at hg
    · next hn => rw [hn.2, ← Option.some.inj hg]
    · exact hs.global_key hg
  · intro name found hl
    rw [local?_bind] at hl
    rw [globals_bind]
    split at hl
    · next hn => simp [hn.1, hn.2, hglobal]
    · next hn =>
        have := hs.disjoint hl
        split
        -- the name that is bound was free on both sides
        · next hm => simp [hm.2, hlocal] at hl
        · exact this
  · intro name call hp
    rw [level_bind]
    exact hs.pending_le (by simpa [pending?] using hp)
  · intro name call hp
    have hp : s.pending? name = some call := by simpa [pending?] using hp
    rw [globals_bind, hs.pending_global hp]
    split
    · next hn =>
        -- a global name is bound at the lowest level, where nothing waits deeper
        have := waits call (hn.2 ▸ hp)
        have := inside.2 (by omega)
        simp [hn.1] at this
    · rfl
  · intro name call hp hl
    have hp : s.pending? name = some call := by simpa [pending?] using hp
    rw [level_bind] at hl
    rw [local?_bind, hs.pending_local hp hl]
    split
    · next hn => exact absurd (waits call (hn.2 ▸ hp)) (Nat.not_lt.2 hl)
    · rfl

theorem define (hs : Regular s) {t : Scopes} {symbol : Symbol} {a : Unit}
    (h : Scopes.define symbol s = .ok a t) : Regular t := by
  obtain ⟨-, required, free, rfl⟩ := define_ok_iff.1 h
  refine (hs.settled symbol).bind (by simpa using free) fun call hp => ?_
  rw [level_settled]
  exact pending_settled required hp

/-- **A refused definition changes nothing.**  The call that it would answer is
settled before the name is looked up, but then the name cannot be visible. -/
theorem define_error_eq (hs : Regular s) {t : Scopes} {symbol : Symbol} {e : Error}
    (h : Scopes.define symbol s = .error e t) : t = s := by
  rcases define_error h with h | ⟨settled, taken⟩
  · exact h
  -- the name would wait at this level and be visible, which is excluded
  · simp only [settles, Bool.and_eq_true, Option.any_eq_true] at settled
    obtain ⟨-, call, hp, hl⟩ := settled
    have free := hs.pending_lookup hp (by simpa using hl)
    simp [free] at taken

theorem delete (hs : Regular s) (name : String) : Regular (s.delete name).2 := by
  cases hl : s.local? name with
  | none =>
      rw [delete_of_global hl]
      have globals : ∀ {other}, (s.globals.erase name).get? other = none
          ∨ (s.globals.erase name).get? other = s.globals.get? other := by
        intro other
        rw [Table.get?_erase]
        split <;> simp
      refine { hs with
        global_key := fun hg => ?_
        disjoint := fun hd => ?_
        pending_global := fun hp => ?_ }
      · rcases globals with h | h
        · exact absurd (h.symm.trans hg) (by simp)
        · exact hs.global_key (h ▸ hg)
      · rcases globals with h | h
        · exact h
        · exact h.trans (hs.disjoint hd)
      · rcases globals with h | h
        · exact h
        · exact h.trans (hs.pending_global hp)
  | some symbol =>
      have one : s.frames.countP Frame.isFunction ≤ 1 := hs.level_eq ▸ hs.level_le
      obtain ⟨frames, hd, hk, hg⟩ := delete_of_local one hl
      rw [hd]
      have count := Frame.countP_isFunction_of_kinds hk
      have locals : ∀ {other found}, frames.findSome? (·.get? other) = some found →
          s.local? other = some found := by
        intro other found hf
        rw [hg] at hf
        split at hf
        · cases hf
        · exact hf
      refine { hs with
        level_eq := count.trans hs.level_eq
        local_key := fun hf => hs.local_key (locals hf)
        disjoint := fun hf => hs.disjoint (locals hf)
        pending_local := fun {other call} hp hle => ?_ }
      show frames.findSome? (·.get? other) = none
      rw [hg, hs.pending_local hp hle]
      simp

theorem mark (hs : Regular s) (token : Token) : Regular (s.mark token) := by
  have locals : ∀ name, (s.mark token).local? name = s.local? name := by
    intro name
    rw [local?, local?, frames_mark]
  have pending : ∀ {name call}, (s.mark token).pending? name = some call →
      s.pending? name = some call ∨ (s.lookup? name = none ∧ call.level = s.level) := by
    intro name call hp
    rw [pending?_mark fun call => hs.pending_le] at hp
    split at hp
    · next hn =>
        cases hp
        exact .inr ⟨hn.2.1, rfl⟩
    · exact .inl hp
  refine ⟨?_, ?_, ?_, ?_, ?_, ?_, ?_, ?_⟩
  · rw [frames_mark, level_mark]
    exact hs.level_eq
  · rw [level_mark]
    exact hs.level_le
  · intro name symbol hl
    exact hs.local_key (locals name ▸ hl)
  · rw [globals_mark]
    exact hs.global_key
  · intro name symbol hl
    rw [globals_mark]
    exact hs.disjoint (locals name ▸ hl)
  · intro name call hp
    rw [level_mark]
    rcases pending hp with h | ⟨-, h⟩
    · exact hs.pending_le h
    · omega
  · intro name call hp
    rw [globals_mark]
    rcases pending hp with h | ⟨h, -⟩
    · exact hs.pending_global h
    · exact (lookup?_eq_none_iff.1 h).2
  · intro name call hp hl
    rw [level_mark] at hl
    rw [locals]
    rcases pending hp with h | ⟨h, -⟩
    · exact hs.pending_local h hl
    · exact (lookup?_eq_none_iff.1 h).1

/-- **One operation keeps the invariant, whether it succeeds or not.** -/
theorem apply (hs : Regular s) (operation : Operation) : Regular (operation.apply s) := by
  cases operation with
  | enter kind =>
      show Regular (stateAfter (Scopes.enter kind s))
      cases h : Scopes.enter kind s with
      | ok a t =>
          obtain ⟨allowed, rfl⟩ := enter_ok_iff.1 h
          exact hs.opened allowed
      | error e t => exact (enter_error h).symm ▸ hs
  | exit kind =>
      show Regular (stateAfter (Scopes.exit kind s))
      cases h : Scopes.exit kind s with
      | ok a t =>
          obtain ⟨frame, outer, hf, hk, rfl⟩ := exit_ok_iff.1 h
          exact hs.closed hf hk
      | error e t => exact (exit_error h).symm ▸ hs
  | define symbol =>
      show Regular (stateAfter (Scopes.define symbol s))
      cases h : Scopes.define symbol s with
      | ok a t => exact hs.define h
      | error e t => exact (hs.define_error_eq h).symm ▸ hs
  | delete name => exact hs.delete name
  | mark token => exact hs.mark token

end Regular

/-- **Whatever is done to scopes, the invariant holds.** -/
theorem regular_run {s : Scopes} (hs : Regular s) (operations : List Operation) :
    Regular (s.run operations) := by
  induction operations generalizing s with
  | nil => exact hs
  | cons operation rest ih => exact ih (hs.apply operation)

theorem regular_after (operations : List Operation) : Regular (after operations) :=
  regular_run regular_empty operations

/-! ## §4. Failures change nothing. -/

/-- **Operations are atomic:** after any run of operations from the beginning of
a file, one that fails leaves the globals, the frames with their names, the
waiting calls and the level as they were. -/
theorem failed_operation_unchanged (operations : List Operation) :
    (∀ kind e t, enter kind (after operations) = .error e t → t = after operations)
      ∧ (∀ kind e t, exit kind (after operations) = .error e t → t = after operations)
      ∧ (∀ symbol e t, define symbol (after operations) = .error e t →
          t = after operations) := by
  refine ⟨fun _ _ _ h => enter_error h, fun _ _ _ h => exit_error h, fun _ _ _ h => ?_⟩
  exact (regular_after operations).define_error_eq h

/-- The name `f` at the beginning of a file. -/
def sampleName : Token := ⟨.identifier, "f", ⟨0, 1, 1⟩⟩

/-- `f` is called, and then a function is opened that has a variable `f`. -/
def shadowedCall : List Operation :=
  [.mark sampleName, .enter .function, .define ⟨sampleName, sampleName, .variable⟩]

/-- Behind these operations each sort of operation can fail.  The last one
fails although the call of `f` still waits. -/
theorem failed_operation_unchanged_shadowed :
    enter .function (after shadowedCall) = .error .alreadyInFunction (after shadowedCall)
      ∧ exit .loop (after shadowedCall)
        = .error (.mismatch .loop .function) (after shadowedCall)
      ∧ (∃ e, define ⟨sampleName, sampleName, .function none⟩ (after shadowedCall)
        = .error e (after shadowedCall)) := by
  obtain ⟨enters, exits, defines⟩ := failed_operation_unchanged shadowedCall
  refine ⟨?_, ?_, ?_⟩
  · have failed : enter .function (after shadowedCall) = .error .alreadyInFunction
        (stateAfter (enter .function (after shadowedCall))) := rfl
    rw [enters _ _ _ failed] at failed
    exact failed
  · have failed : exit .loop (after shadowedCall) = .error (.mismatch .loop .function)
        (stateAfter (exit .loop (after shadowedCall))) := rfl
    rw [exits _ _ _ failed] at failed
    exact failed
  · have failed : define ⟨sampleName, sampleName, .function none⟩ (after shadowedCall)
        = .error _ (stateAfter
          (define ⟨sampleName, sampleName, .function none⟩ (after shadowedCall))) := rfl
    rw [defines _ _ _ failed] at failed
    exact ⟨_, failed⟩

end Scopes

end ImpFront
