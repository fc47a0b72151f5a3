/-
  ImpFront.Proofs.Scope.Laws
  ──────────────────────────
  **WHAT THE OPERATIONS ON SCOPES DO.**

  Each operation is taken apart once: when it succeeds, what it leaves, and
  what it leaves when it fails.

      enter, exit   — a failure changes nothing
      define        — a failure changes nothing, unless the name was waiting
                      at this level and is visible all the same
      mark          — a visible name is left alone

  After that the operations are not unfolded again.
-/
import ImpFront.Proofs.Outcome

namespace ImpFront

namespace Frame

/-- The frame of an open function. -/
def isFunction (frame : Frame) : Bool :=
  frame.kind == .function

@[simp] theorem isFunction_function (locals : Table Symbol) :
    (function locals).isFunction = true := rfl

@[simp] theorem isFunction_conditional : conditional.isFunction = false := rfl

@[simp] theorem isFunction_loop : loop.isFunction = false := rfl

@[simp] theorem isFunction_attribute : attribute.isFunction = false := rfl

@[simp] theorem get?_fresh (kind : FrameKind) (name : String) :
    (fresh kind).get? name = none := by
  cases kind <;> rfl

@[simp] theorem get?_function (locals : Table Symbol) (name : String) :
    (function locals).get? name = locals.get? name := rfl

/-- Frames of the same kinds are functions in the same number. -/
theorem countP_isFunction_of_kinds {frames frames' : List Frame}
    (h : frames.map kind = frames'.map kind) :
    frames.countP isFunction = frames'.countP isFunction := by
  have count : ∀ fs : List Frame, fs.countP isFunction = (fs.map kind).countP (· == .function) := by
    intro fs
    rw [List.countP_map]
    rfl
  rw [count, h, ← count]

theorem eq_function_of_isFunction :
    ∀ {frame : Frame}, frame.isFunction = true → ∃ locals, frame = function locals
  | .function locals, _ => ⟨locals, rfl⟩
  | .conditional, h => by simp at h
  | .loop, h => by simp at h
  | .attribute, h => by simp at h

/-- Only a function holds names. -/
theorem get?_of_not_isFunction (name : String) :
    ∀ {frame : Frame}, frame.isFunction = false → frame.get? name = none
  | .function _, h => by simp at h
  | .conditional, _ => rfl
  | .loop, _ => rfl
  | .attribute, _ => rfl

end Frame

namespace Scopes

variable {s t : Scopes}

/-! ## §1. Looking up. -/

/-- The binding of a name in the open frames. -/
def local? (s : Scopes) (name : String) : Option Symbol :=
  s.frames.findSome? (·.get? name)

theorem lookup?_eq (s : Scopes) (name : String) :
    s.lookup? name = (s.local? name).or (s.globals.get? name) := rfl

theorem lookup?_eq_none_iff {name : String} :
    s.lookup? name = none ↔ s.local? name = none ∧ s.globals.get? name = none := by
  rw [lookup?_eq, Option.or_eq_none_iff]

/-- A name that is not visible is the fault of the text. -/
theorem declaredType_error_stage {token : Token} {e : Error}
    (h : s.declaredType token = .error e) : e.cause.stage = .semantic := by
  unfold declaredType at h
  split at h
  · cases h
  · rw [← Except.error.inj h]
    rfl

/-! ## §2. Frames. -/

/-- The scopes with one more frame. -/
def opened (kind : FrameKind) (s : Scopes) : Scopes :=
  { s with
    frames := .fresh kind :: s.frames
    level := if kind = .function then s.level + 1 else s.level }

/-- The scopes with the frames that are left when the innermost one goes. -/
def closed (kind : FrameKind) (outer : List Frame) (s : Scopes) : Scopes :=
  if kind = .function then
    { s with
      frames := outer
      level := s.level - 1
      pending := clampPending (s.level - 1) s.pending }
  else { s with frames := outer }

@[simp] theorem local?_opened (kind : FrameKind) (name : String) :
    (s.opened kind).local? name = s.local? name := by
  simp [local?, opened]

/-- Local names go with the function that holds them, and with nothing else. -/
theorem local?_closed {kind : FrameKind} {frame : Frame} {outer : List Frame}
    (hf : s.frames = frame :: outer) (hk : frame.kind = kind) (hn : kind ≠ .function)
    (name : String) : (s.closed kind outer).local? name = s.local? name := by
  have bare : frame.isFunction = false := by simp [Frame.isFunction, hk, hn]
  simp [local?, closed, hn, hf, Frame.get?_of_not_isFunction name bare]

theorem enter_ok_iff {kind : FrameKind} {a : Unit} :
    enter kind s = .ok a t ↔ ¬(kind = .function ∧ s.inFunction) ∧ s.opened kind = t := by
  unfold enter opened
  by_cases h : kind = .function ∧ s.inFunction = true
  · simp [h]
  · have : (decide (kind = .function) && s.inFunction) = false := by
      simpa using h
    simp [this, h]

theorem enter_error {kind : FrameKind} {e : FrameError} (h : enter kind s = .error e t) :
    t = s := by
  unfold enter at h
  split at h
  · exact (EStateM.Result.error.inj h).2.symm
  · cases h

/-- The only reason why a frame cannot be opened. -/
theorem enter_error_eq {kind : FrameKind} {e : FrameError} (h : enter kind s = .error e t) :
    e = .alreadyInFunction := by
  unfold enter at h
  split at h
  · exact (EStateM.Result.error.inj h).1.symm
  · cases h

theorem exit_ok_iff {kind : FrameKind} {a : Unit} :
    exit kind s = .ok a t
      ↔ ∃ frame outer, s.frames = frame :: outer ∧ frame.kind = kind
          ∧ s.closed kind outer = t := by
  unfold exit closed
  cases s.frames with
  | nil => simp
  | cons frame outer =>
      by_cases hk : frame.kind = kind
      · by_cases hf : kind = .function
        · simp [hk, hf, and_assoc]
        · simp [hk, hf, and_assoc]
      · simp [hk, and_assoc]

theorem exit_error {kind : FrameKind} {e : FrameError} (h : exit kind s = .error e t) :
    t = s := by
  unfold exit at h
  split at h
  · exact (EStateM.Result.error.inj h).2.symm
  · split at h
    · exact (EStateM.Result.error.inj h).2.symm
    · split at h <;> cases h

/-! ## §3. Definitions. -/

/-- The scopes in which the call that a definition answers waits no more. -/
def settled (symbol : Symbol) (s : Scopes) : Scopes :=
  if s.settles symbol then { s with pending := s.pending.erase symbol.key } else s

@[simp] theorem lookup?_settled (symbol : Symbol) (name : String) :
    (s.settled symbol).lookup? name = s.lookup? name := by
  unfold settled
  split <;> rfl

@[simp] theorem frames_settled (symbol : Symbol) : (s.settled symbol).frames = s.frames := by
  unfold settled
  split <;> rfl

@[simp] theorem globals_settled (symbol : Symbol) : (s.settled symbol).globals = s.globals := by
  unfold settled
  split <;> rfl

@[simp] theorem level_settled (symbol : Symbol) : (s.settled symbol).level = s.level := by
  unfold settled
  split <;> rfl

theorem pending?_settled (symbol : Symbol) (name : String) :
    (s.settled symbol).pending? name
      = if s.settles symbol = true ∧ name = symbol.key then none else s.pending? name := by
  unfold settled
  split
  · next h => simp [pending?, Table.get?_erase, h]
  · next h => simp [h]

private theorem settle_ok_iff {symbol : Symbol} {a : Unit} :
    settle symbol s = .ok a t
      ↔ (∀ call, s.pending? symbol.key = some call → s.level ≤ call.level →
            symbol.isFunction = true)
          ∧ s.settled symbol = t := by
  unfold settle settled settles
  cases s.pending? symbol.key with
  | none => simp
  | some call =>
      by_cases hl : s.level ≤ call.level
      · cases symbol.isFunction with
        | true => simp [hl]
        | false => simp [hl, Nat.not_lt.2 hl]
      · simp [hl]

private theorem settle_error {symbol : Symbol} {e : Error} (h : settle symbol s = .error e t) :
    t = s := by
  unfold settle at h
  split at h
  · split at h
    · split at h
      · cases h
      · exact (EStateM.Result.error.inj h).2.symm
    · cases h
  · cases h

private theorem refuseConditional_ok_iff {symbol : Symbol} {a : Unit} :
    refuseConditional symbol s = .ok a t ↔ s.inConditional = false ∧ s = t := by
  unfold refuseConditional
  cases s.inConditional <;> simp

private theorem refuseConditional_error {symbol : Symbol} {e : Error}
    (h : refuseConditional symbol s = .error e t) : t = s := by
  unfold refuseConditional at h
  split at h
  · exact (EStateM.Result.error.inj h).2.symm
  · cases h

private theorem refuseTaken_ok_iff {symbol : Symbol} {a : Unit} :
    refuseTaken symbol s = .ok a t ↔ s.lookup? symbol.key = none ∧ s = t := by
  unfold refuseTaken
  cases s.lookup? symbol.key <;> simp

private theorem refuseTaken_error {symbol : Symbol} {e : Error}
    (h : refuseTaken symbol s = .error e t) : (s.lookup? symbol.key).isSome ∧ t = s := by
  unfold refuseTaken at h
  split at h
  · next prior hp => exact ⟨by simp [hp], (EStateM.Result.error.inj h).2.symm⟩
  · cases h

/-- **When a name is defined:** not under a condition, not as a variable where
a function is awaited, and not twice. -/
theorem define_ok_iff {symbol : Symbol} {a : Unit} :
    define symbol s = .ok a t
      ↔ s.inConditional = false
          ∧ (∀ call, s.pending? symbol.key = some call → s.level ≤ call.level →
              symbol.isFunction = true)
          ∧ s.lookup? symbol.key = none
          ∧ (s.settled symbol).bind symbol = t := by
  unfold define
  simp only [bind_ok_iff, refuseConditional_ok_iff, settle_ok_iff, refuseTaken_ok_iff,
    modify_ok_iff]
  constructor
  · rintro ⟨_, _, ⟨hc, rfl⟩, _, _, ⟨hf, rfl⟩, _, _, ⟨hn, rfl⟩, rfl⟩
    exact ⟨hc, hf, by simpa using hn, rfl⟩
  · rintro ⟨hc, hf, hn, rfl⟩
    exact ⟨(), s, ⟨hc, rfl⟩, (), s.settled symbol, ⟨hf, rfl⟩, (), _,
      ⟨by simpa using hn, rfl⟩, rfl⟩

/-- A refused definition leaves the scopes alone.  The one exception is a name
that waits at this level and is visible all the same. -/
theorem define_error {symbol : Symbol} {e : Error} (h : define symbol s = .error e t) :
    t = s ∨ (s.settles symbol ∧ (s.lookup? symbol.key).isSome) := by
  unfold define at h
  simp only [bind_error_iff, refuseConditional_ok_iff, settle_ok_iff, modify_error_iff,
    refuseTaken_ok_iff] at h
  rcases h with h | ⟨_, _, ⟨_, rfl⟩, h | ⟨_, _, ⟨_, rfl⟩, h | ⟨_, _, _, h⟩⟩⟩
  · exact .inl (refuseConditional_error h)
  · exact .inl (settle_error h)
  · obtain ⟨taken, rfl⟩ := refuseTaken_error h
    rw [lookup?_settled] at taken
    by_cases hs : s.settles symbol
    · exact .inr ⟨hs, taken⟩
    · exact .inl (by simp [settled, hs])
  · exact h.elim

/-- A refused definition is the fault of the names in the text. -/
theorem define_error_stage {symbol : Symbol} {e : Error} (h : define symbol s = .error e t) :
    e.cause.stage = .semantic := by
  unfold define at h
  simp only [bind_error_iff, modify_error_iff] at h
  rcases h with h | ⟨_, _, _, h | ⟨_, _, _, h | ⟨_, _, _, h⟩⟩⟩
  · unfold refuseConditional at h
    split at h
    · rw [← (EStateM.Result.error.inj h).1]
      rfl
    · cases h
  · unfold settle at h
    split at h
    · split at h
      · split at h
        · cases h
        · rw [← (EStateM.Result.error.inj h).1]
          rfl
      · cases h
    · cases h
  · unfold refuseTaken at h
    split at h
    · rw [← (EStateM.Result.error.inj h).1]
      rfl
    · cases h
  · exact h.elim

/-! ## §4. Where a symbol goes. -/

private theorem bindInFrames?_cons {symbol : Symbol} {outer : List Frame} :
    ∀ {frame : Frame}, frame.isFunction = false →
      bindInFrames? symbol (frame :: outer) = (bindInFrames? symbol outer).map (frame :: ·)
  | .function _, h => by simp at h
  | .conditional, _ => rfl
  | .loop, _ => rfl
  | .attribute, _ => rfl

private theorem bindInFrames?_eq_none {symbol : Symbol} {frames : List Frame}
    (h : frames.any Frame.isFunction = false) : bindInFrames? symbol frames = none := by
  induction frames with
  | nil => rfl
  | cons frame outer ih =>
      simp only [List.any_cons, Bool.or_eq_false_iff] at h
      rw [bindInFrames?_cons h.1, ih h.2]
      rfl

private theorem bindInFrames?_eq_some {symbol : Symbol} {frames : List Frame}
    (h : frames.any Frame.isFunction = true) :
    ∃ bound, bindInFrames? symbol frames = some bound
      ∧ bound.map Frame.kind = frames.map Frame.kind
      ∧ ∀ name, bound.findSome? (·.get? name)
          = if name = symbol.key then some symbol else frames.findSome? (·.get? name) := by
  induction frames with
  | nil => simp at h
  | cons frame outer ih =>
      cases hf : frame.isFunction with
      | true =>
          obtain ⟨locals, rfl⟩ := Frame.eq_function_of_isFunction hf
          refine ⟨_, rfl, rfl, fun name => ?_⟩
          simp only [List.findSome?_cons, Frame.get?_function, Table.get?_insert]
          by_cases hn : name = symbol.key
          · simp [hn]
          · simp [hn]
      | false =>
          obtain ⟨bound, hb, hk, hg⟩ := ih (by simpa [hf] using h)
          refine ⟨frame :: bound, by rw [bindInFrames?_cons hf, hb]; rfl, by simp [hk],
            fun name => ?_⟩
          simpa [List.findSome?_cons, Frame.get?_of_not_isFunction name hf] using hg name

/-- Outside functions a symbol goes to the globals. -/
theorem bind_of_global {symbol : Symbol} (h : s.frames.any Frame.isFunction = false) :
    s.bind symbol = { s with globals := s.globals.insert symbol.key symbol } := by
  unfold bind
  rw [bindInFrames?_eq_none h]

/-- Inside a function a symbol goes to the innermost one. -/
theorem bind_of_local (symbol : Symbol) (h : s.frames.any Frame.isFunction = true) :
    ∃ frames, s.bind symbol = { s with frames }
      ∧ frames.map Frame.kind = s.frames.map Frame.kind
      ∧ ∀ name, frames.findSome? (·.get? name)
          = if name = symbol.key then some symbol else s.local? name := by
  obtain ⟨frames, hb, hk, hg⟩ := bindInFrames?_eq_some h
  exact ⟨frames, by rw [bind, hb], hk, hg⟩

/-- Without an open function there are no local names. -/
theorem local?_of_global (h : s.frames.any Frame.isFunction = false) (name : String) :
    s.local? name = none := by
  rw [local?, List.findSome?_eq_none_iff]
  intro frame hm
  have : frame.isFunction = false := by simpa using List.any_eq_false.1 h frame hm
  exact Frame.get?_of_not_isFunction name this

/-- Local names change in a function only. -/
theorem local?_bind (symbol : Symbol) (name : String) :
    (s.bind symbol).local? name
      = if s.frames.any Frame.isFunction ∧ name = symbol.key then some symbol
        else s.local? name := by
  cases h : s.frames.any Frame.isFunction with
  | false =>
      rw [bind_of_global h]
      simp [local?]
  | true =>
      obtain ⟨frames, hb, -, hg⟩ := bind_of_local symbol h
      rw [hb]
      simpa [local?] using hg name

/-- Global names change outside functions only. -/
theorem globals_bind (symbol : Symbol) (name : String) :
    (s.bind symbol).globals.get? name
      = if s.frames.any Frame.isFunction = false ∧ name = symbol.key then some symbol
        else s.globals.get? name := by
  cases h : s.frames.any Frame.isFunction with
  | false =>
      rw [bind_of_global h]
      simp [Table.get?_insert]
  | true =>
      obtain ⟨frames, hb, -, -⟩ := bind_of_local symbol h
      rw [hb]
      simp

/-- A symbol is found under its name, and the other names are left alone. -/
theorem lookup?_bind (symbol : Symbol) (name : String) :
    (s.bind symbol).lookup? name
      = if name = symbol.key then some symbol else s.lookup? name := by
  rw [lookup?_eq, local?_bind, globals_bind, lookup?_eq]
  by_cases hn : name = symbol.key
  · cases h : s.frames.any Frame.isFunction with
    | false => simp [hn, local?_of_global h]
    | true => simp [hn]
  · simp [hn]

@[simp] theorem level_bind (symbol : Symbol) : (s.bind symbol).level = s.level := by
  unfold bind
  split <;> rfl

@[simp] theorem pending_bind (symbol : Symbol) : (s.bind symbol).pending = s.pending := by
  unfold bind
  split <;> rfl

@[simp] theorem map_kind_bind (symbol : Symbol) :
    (s.bind symbol).frames.map Frame.kind = s.frames.map Frame.kind := by
  cases h : s.frames.any Frame.isFunction with
  | false => rw [bind_of_global h]
  | true =>
      obtain ⟨frames, hb, hk, -⟩ := bind_of_local symbol h
      rw [hb]
      exact hk

/-! ## §5. Taking a binding back. -/

private theorem deleteFromFrames?_cons {name : String} {outer : List Frame} :
    ∀ {frame : Frame}, frame.isFunction = false →
      deleteFromFrames? name (frame :: outer)
        = (deleteFromFrames? name outer).map fun found => (found.1, frame :: found.2)
  | .function _, h => by simp at h
  | .conditional, _ => rfl
  | .loop, _ => rfl
  | .attribute, _ => rfl

private theorem deleteFromFrames?_eq_none {name : String} {frames : List Frame}
    (h : frames.findSome? (·.get? name) = none) : deleteFromFrames? name frames = none := by
  induction frames with
  | nil => rfl
  | cons frame outer ih =>
      rw [List.findSome?_cons] at h
      cases hf : frame.isFunction with
      | true =>
          obtain ⟨locals, rfl⟩ := Frame.eq_function_of_isFunction hf
          cases hl : locals.get? name with
          | some symbol => simp [hl] at h
          | none => simp [deleteFromFrames?, hl, ih (by simpa [hl] using h)]
      | false =>
          rw [Frame.get?_of_not_isFunction name hf] at h
          rw [deleteFromFrames?_cons hf, ih h]
          rfl

private theorem deleteFromFrames?_eq_some {name : String} {symbol : Symbol}
    {frames : List Frame} (one : frames.countP Frame.isFunction ≤ 1)
    (h : frames.findSome? (·.get? name) = some symbol) :
    ∃ rest, deleteFromFrames? name frames = some (symbol, rest)
      ∧ rest.map Frame.kind = frames.map Frame.kind
      ∧ ∀ other, rest.findSome? (·.get? other)
          = if other = name then none else frames.findSome? (·.get? other) := by
  induction frames with
  | nil => simp at h
  | cons frame outer ih =>
      rw [List.findSome?_cons] at h
      cases hf : frame.isFunction with
      | true =>
          obtain ⟨locals, rfl⟩ := Frame.eq_function_of_isFunction hf
          -- this is the only function, so that nothing further out holds a name
          have bare : ∀ other, outer.findSome? (·.get? other) = none := by
            intro other
            rw [List.findSome?_eq_none_iff]
            intro frame hm
            refine Frame.get?_of_not_isFunction other ?_
            have : outer.countP Frame.isFunction = 0 := by
              simp only [List.countP_cons, Frame.isFunction_function, ↓reduceIte] at one
              omega
            simpa using List.countP_eq_zero.1 this frame hm
          have hl : locals.get? name = some symbol := by
            cases hl : locals.get? name with
            | some found => simpa [hl] using h
            | none => simp [hl, bare] at h
          refine ⟨.function (locals.erase name) :: outer, by simp [deleteFromFrames?, hl],
            rfl, fun other => ?_⟩
          simp only [List.findSome?_cons, Frame.get?_function, Table.get?_erase, bare]
          by_cases hn : other = name
          · simp [hn]
          · simp [hn]
      | false =>
          rw [Frame.get?_of_not_isFunction name hf] at h
          obtain ⟨rest, hd, hk, hg⟩ := ih (by simpa [List.countP_cons, hf] using one) h
          refine ⟨frame :: rest, by rw [deleteFromFrames?_cons hf, hd]; rfl, by simp [hk],
            fun other => ?_⟩
          simpa [List.findSome?_cons, Frame.get?_of_not_isFunction other hf] using hg other

/-- A name that is not local is taken from the globals. -/
theorem delete_of_global {name : String} (h : s.local? name = none) :
    (s.delete name).2 = { s with globals := s.globals.erase name } := by
  unfold delete
  rw [deleteFromFrames?_eq_none h]

/-- What is taken then is the global binding. -/
theorem fst_delete_of_global {name : String} (h : s.local? name = none) :
    (s.delete name).1 = s.globals.get? name := by
  unfold delete
  rw [deleteFromFrames?_eq_none h]

/-- A local name is taken from the open function. -/
theorem delete_of_local {name : String} {symbol : Symbol}
    (one : s.frames.countP Frame.isFunction ≤ 1) (h : s.local? name = some symbol) :
    ∃ frames, (s.delete name).2 = { s with frames }
      ∧ frames.map Frame.kind = s.frames.map Frame.kind
      ∧ ∀ other, frames.findSome? (·.get? other)
          = if other = name then none else s.local? other := by
  obtain ⟨frames, hd, hk, hg⟩ := deleteFromFrames?_eq_some one h
  exact ⟨frames, by rw [delete, hd], hk, hg⟩

private theorem map_kind_deleteFromFrames? {name : String} {found : Symbol × List Frame}
    {frames : List Frame} (h : deleteFromFrames? name frames = some found) :
    found.2.map Frame.kind = frames.map Frame.kind := by
  induction frames generalizing found with
  | nil => simp [deleteFromFrames?] at h
  | cons frame outer ih =>
      cases hf : frame.isFunction with
      | true =>
          obtain ⟨locals, rfl⟩ := Frame.eq_function_of_isFunction hf
          cases hl : locals.get? name with
          | some symbol =>
              simp only [deleteFromFrames?, hl, Option.some.injEq] at h
              rw [← h]
              rfl
          | none =>
              simp only [deleteFromFrames?, hl, Option.map_eq_some_iff] at h
              obtain ⟨inner, hi, rfl⟩ := h
              simp [ih hi]
      | false =>
          rw [deleteFromFrames?_cons hf, Option.map_eq_some_iff] at h
          obtain ⟨inner, hi, rfl⟩ := h
          simp [ih hi]

/-- Frames stay open when a name goes. -/
@[simp] theorem map_kind_delete (name : String) :
    (s.delete name).2.frames.map Frame.kind = s.frames.map Frame.kind := by
  unfold delete
  split
  · next symbol frames h => exact map_kind_deleteFromFrames? h
  · rfl

@[simp] theorem level_delete (name : String) : (s.delete name).2.level = s.level := by
  unfold delete
  split <;> rfl

/-! ## §6. Noting a call. -/

/-- To note a call changes the waiting calls only. -/
theorem mark_eq (s : Scopes) (token : Token) : ∃ pending, s.mark token = { s with pending } := by
  unfold mark
  split
  · exact ⟨s.pending, rfl⟩
  · split
    · split
      · exact ⟨_, rfl⟩
      · exact ⟨s.pending, rfl⟩
    · exact ⟨_, rfl⟩

@[simp] theorem frames_mark (token : Token) : (s.mark token).frames = s.frames := by
  obtain ⟨pending, h⟩ := s.mark_eq token
  rw [h]

@[simp] theorem globals_mark (token : Token) : (s.mark token).globals = s.globals := by
  obtain ⟨pending, h⟩ := s.mark_eq token
  rw [h]

@[simp] theorem level_mark (token : Token) : (s.mark token).level = s.level := by
  obtain ⟨pending, h⟩ := s.mark_eq token
  rw [h]

@[simp] theorem lookup?_mark (token : Token) (name : String) :
    (s.mark token).lookup? name = s.lookup? name := by
  unfold lookup?
  rw [frames_mark, globals_mark]

/-- A call is noted if its name is neither visible nor waiting.  That a name
waits at a deeper level than the present one never happens. -/
theorem pending?_mark {token : Token}
    (h : ∀ call, s.pending? token.value = some call → call.level ≤ s.level) (name : String) :
    (s.mark token).pending? name
      = if name = token.value ∧ s.lookup? name = none ∧ s.pending? name = none
        then some ⟨s.level, token⟩ else s.pending? name := by
  unfold mark
  by_cases hn : name = token.value
  · subst hn
    cases hv : s.lookup? token.value with
    | some symbol => simp
    | none =>
        cases hp : s.pending? token.value with
        | some call =>
            have := h call hp
            simp [Nat.not_lt.2 this, hp]
        | none => simp [pending?, Table.get?_insert]
  · split
    · simp [hn]
    · split
      · split
        · simp [hn, pending?, Table.get?_insert]
        · simp [hn]
      · simp [hn, pending?, Table.get?_insert]

/-! ## §7. The end of a file. -/

/-- A call that nothing answers is the fault of the text. -/
theorem unresolved?_stage {order : Table.Traversal Pending} {e : Error}
    (h : s.unresolved? order = some e) :
    e.cause.stage = .semantic := by
  unfold unresolved? at h
  split at h
  · cases h
  · rw [← Option.some.inj h]
    rfl

end Scopes

end ImpFront
