/-
  ImpFront.Proofs.Scope.Lifecycle
  ───────────────────────────────
  **A FUNCTION IS BOUND TWICE.**

  Its name is bound inside its own frame, for the sake of the body; it goes
  with the frame, is taken out of whatever table may hold it then, and is
  bound again one level further out:

      enter ─ parameters ─ define ─ body ─ exit ─ delete ─ define
        s'                  r  t      u     v       v        w

  The name was free when it was bound the first time, and nothing has been
  bound globally since.  So there is nothing to be taken out, nothing that
  could refuse the second binding, and nothing else that is left of the
  function but the calls which it could not answer.
-/
import ImpFront.Proofs.Scope.Trace

namespace ImpFront

namespace Scopes

variable {s t u v w : Scopes} {symbol : Symbol}

/-! ## §1. Calls that wait further out. -/

/-- On the same level, the calls that wait further out go on waiting. -/
structure Waits (s t : Scopes) : Prop where
  level : t.level = s.level
  further : ∀ {name call}, s.pending? name = some call → call.level < s.level →
    t.pending? name = some call

namespace Waits

theorem refl (s : Scopes) : Waits s s := ⟨rfl, fun hp _ => hp⟩

theorem trans (h : Waits s t) (h' : Waits t u) : Waits s u where
  level := h'.level.trans h.level
  further hp hl := h'.further (h.further hp hl) (h.level ▸ hl)

theorem marks (h : Marks s t) : Waits s t := ⟨h.level, fun hp _ => h.pending hp⟩

/-- A definition answers calls of its own level only. -/
theorem define (h : Scopes.define symbol s = .ok () t) : Waits s t where
  level := level_define h
  further {name call} hp hl := by
    rw [pending?_define h, if_neg]
    · exact hp
    · rintro ⟨settles, rfl⟩
      rw [Scopes.settles, hp] at settles
      simp only [Option.any_some, Bool.and_eq_true, decide_eq_true_eq] at settles
      omega

/-- What is opened and closed again. -/
theorem framed {kind : FrameKind} (hn : kind ≠ .function) {s' t' : Scopes}
    (he : enter kind s = .ok () s') (h : Waits s' t') (hx : exit kind t' = .ok () t) :
    Waits s t := by
  obtain ⟨-, rfl⟩ := enter_ok_iff.1 he
  obtain ⟨frame, outer, -, -, rfl⟩ := exit_ok_iff.1 hx
  have opened : (s.opened kind).level = s.level := by simp [Scopes.opened, hn]
  have closed : t'.closed kind outer = { t' with frames := outer } := by simp [Scopes.closed, hn]
  rw [closed]
  constructor
  · exact h.level.trans opened
  · intro name call hp hl
    exact h.further hp (opened ▸ hl)

/-- Nothing waits further out than where a function can be opened. -/
theorem function {s' : Scopes} (he : enter .function s = .ok () s') (kept : Kept s t) :
    Waits s t := by
  obtain ⟨outside, -⟩ := enter_ok_iff.1 he
  have bottom : s.level = 0 := by simpa [inFunction] using outside
  exact ⟨kept.level, fun _ hl => by omega⟩

/-- So they go on waiting through every phrase. -/
theorem carried : Carried fun s t => Kept s t ∧ Waits s t where
  kept h := h.1
  refl hs := ⟨.refl hs, .refl _⟩
  trans h h' := ⟨h.1.trans h'.1, h.2.trans h'.2⟩
  marks hs regular h := ⟨.marks hs regular h, .marks h⟩
  define hs sorted h := ⟨.define hs sorted h, .define h⟩
  framed hs hn he h hx := ⟨Kept.carried.framed hs hn he h.1 hx, .framed hn he h.2 hx⟩
  function hs he h hx := by
    have kept := Kept.carried.function hs he h.1 hx
    exact ⟨kept, .function he kept⟩

end Waits

/-! ## §2. Frames without names. -/

/-- Outside functions frames are told apart by their kinds. -/
theorem frames_eq_of_kinds {frames frames' : List Frame}
    (h : frames.map Frame.kind = frames'.map Frame.kind)
    (outside : frames'.countP Frame.isFunction = 0) : frames = frames' := by
  induction frames' generalizing frames with
  | nil => exact List.map_eq_nil_iff.1 h
  | cons frame' outer' ih =>
      obtain ⟨frame, outer, rfl, hkind, houter⟩ := List.map_eq_cons_iff.1 h
      rw [List.countP_cons] at outside
      have hframe : frame = frame' := by
        cases frame' with
        | function => simp at outside
        | conditional => cases frame <;> first | contradiction | rfl
        | loop => cases frame <;> first | contradiction | rfl
        | «attribute» => cases frame <;> first | contradiction | rfl
      rw [hframe, ih houter (by omega)]

theorem inConditional_congr (h : t.frames.map Frame.kind = s.frames.map Frame.kind) :
    t.inConditional = s.inConditional := by
  have kinds : ∀ frames : List Frame, (frames.any fun frame => frame.kind == .conditional)
      = (frames.map Frame.kind).any (· == .conditional) := by
    intro frames
    rw [List.any_map]
    rfl
  unfold inConditional
  rw [kinds, h, ← kinds]

/-! ## §3. From the head to the end of the body. -/

/-- A function is opened in `s`; behind its head, in `r`, its name is bound,
which gives `t`; and its body ends in `u`. -/
structure Lifecycle (symbol : Symbol) (s r t u : Scopes) : Prop where
  proper : Proper s
  function : symbol.isFunction = true
  sorted : symbol.Sorted
  /-- From the opened frame the head leads to `r`. -/
  head : ∃ s', enter .function s = .ok () s' ∧ Kept s' r ∧ Waits s' r
  /-- The name is bound for the body. -/
  placeholder : Scopes.define symbol r = .ok () t
  /-- The body closes what it opens. -/
  body : Kept t u
  waits : Waits t u

/-- What the declaration of a function makes of the scopes `s`, where its body
has ended in `u`. -/
structure Declares (symbol : Symbol) (s u w : Scopes) : Prop where
  /-- The name was free. -/
  free : s.lookup? symbol.key = none
  /-- It is the one global name that has come in, and no other has changed. -/
  globals : w.globals = s.globals.insert symbol.key symbol
  /-- It is visible, and else what was visible before. -/
  visible : ∀ name, w.lookup? name = if name = symbol.key then some symbol else s.lookup? name
  frames : w.frames = s.frames
  level : w.level = s.level
  /-- The name does not wait any more. -/
  answered : w.pending? symbol.key = none
  /-- What waits at the end of the body waits outside functions now. -/
  left : ∀ name, name ≠ symbol.key →
    w.pending? name = (u.pending? name).map fun call => { call with level := 0 }
  /-- What has waited before waits as it did. -/
  waiting : ∀ name call, name ≠ symbol.key → s.pending? name = some call →
    w.pending? name = some call

namespace Lifecycle

variable {r : Scopes} (h : Lifecycle symbol s r t u)
include h

/-- A function stands outside functions. -/
theorem outside : s.level = 0 := by
  obtain ⟨s', he, -, -⟩ := h.head
  obtain ⟨outside, -⟩ := enter_ok_iff.1 he
  simpa [inFunction] using outside

/-- Seen from the opened frame, head and body only keep. -/
theorem inside : Kept (s.opened .function) u ∧ Waits (s.opened .function) u := by
  obtain ⟨s', he, kept, waits⟩ := h.head
  obtain ⟨-, rfl⟩ := enter_ok_iff.1 he
  have bound := Kept.define kept.proper h.sorted h.placeholder
  exact ⟨(kept.trans bound).trans h.body, (waits.trans (.define h.placeholder)).trans h.waits⟩

theorem level_inside : u.level = 1 := by
  have level : u.level = s.level + 1 := h.inside.1.level
  rw [level, h.outside]

/-- **Neither the head, nor the first binding, nor the body touches a global
name.** -/
theorem globals_inside : r.globals = s.globals ∧ t.globals = s.globals ∧ u.globals = s.globals := by
  obtain ⟨s', he, kept, waits⟩ := h.head
  obtain ⟨-, rfl⟩ := enter_ok_iff.1 he
  have deeper : 0 < (s.opened .function).level := Nat.succ_pos s.level
  have head : r.globals = s.globals := kept.globals deeper
  have bound : t.globals = r.globals :=
    (Kept.define kept.proper h.sorted h.placeholder).globals (by rw [kept.level]; exact deeper)
  exact ⟨head, bound.trans head, h.inside.1.globals deeper⟩

/-- Behind the body the frame of the function lies innermost. -/
theorem frames_inside : ∃ frame, frame.kind = .function ∧ u.frames = frame :: s.frames := by
  have kinds := h.inside.1.kinds
  obtain ⟨frame, outer, hframes, hkind, houter⟩ := List.map_eq_cons_iff.1 kinds
  have none : s.frames.countP Frame.isFunction = 0 := by
    rw [h.proper.regular.level_eq, h.outside]
  rw [frames_eq_of_kinds houter none] at hframes
  exact ⟨frame, hkind, hframes⟩

/-- The function can be left. -/
theorem exits : exit .function u = .ok () (u.closed .function s.frames) := by
  obtain ⟨frame, hkind, hframes⟩ := h.frames_inside
  exact exit_ok_iff.2 ⟨frame, s.frames, hframes, hkind, rfl⟩

/-- Behind the function its frame and its level are gone. -/
theorem closed_eq : u.closed .function s.frames
    = ⟨s.globals, s.frames, clampPending 0 u.pending, 0⟩ := by
  have closed : u.closed .function s.frames
      = ⟨u.globals, s.frames, clampPending (u.level - 1) u.pending, u.level - 1⟩ := by
    simp [Scopes.closed]
  rw [closed, h.globals_inside.2.2, h.level_inside]

theorem lookup?_closed (name : String) :
    (u.closed .function s.frames).lookup? name = s.lookup? name := by
  rw [h.closed_eq]
  rfl

/-- The name was free in front of the function. -/
theorem free : s.lookup? symbol.key = none := by
  obtain ⟨s', he, kept, -⟩ := h.head
  rw [← h.lookup?_closed]
  exact (Kept.name_of_function h.proper he kept h.sorted h.placeholder h.body h.exits).2

/-- **There is nothing to take out.**  The name is bound nowhere once the frame
of the function is left. -/
theorem deletes_nothing : (u.closed .function s.frames).delete symbol.key
    = (none, u.closed .function s.frames) := by
  have absent : (u.closed .function s.frames).lookup? symbol.key = none := by
    rw [h.lookup?_closed, h.free]
  obtain ⟨hlocal, hglobal⟩ := lookup?_eq_none_iff.1 absent
  exact Prod.ext ((fst_delete_of_global hlocal).trans hglobal) (delete_of_absent absent)

/-- **The second binding cannot be refused.** -/
theorem defines : ∃ w, Scopes.define symbol (u.closed .function s.frames) = .ok () w := by
  obtain ⟨s', he, kept, -⟩ := h.head
  obtain ⟨-, rfl⟩ := enter_ok_iff.1 he
  obtain ⟨unconditional, -, -, -⟩ := define_ok_iff.1 h.placeholder
  refine ⟨_, define_ok_iff.2 ⟨?_, fun _ _ _ => h.function, ?_, rfl⟩⟩
  · -- the first binding has been refused under a condition
    rw [inConditional_congr kept.kinds] at unconditional
    have outer : s.inConditional = false := by
      simpa [inConditional, opened, Frame.fresh, Frame.kind] using unconditional
    rw [h.closed_eq]
    exact outer
  · rw [h.lookup?_closed, h.free]

/-- A call waits behind the function if it has waited at the end of the body,
and outside functions. -/
theorem pending?_closed (name : String) : (u.closed .function s.frames).pending? name
    = (u.pending? name).map fun call => { call with level := 0 } := by
  rw [h.closed_eq]
  show (clampPending 0 u.pending).get? name = _
  rw [clampPending, Table.get?_map]
  simp only [Nat.min_zero]
  rfl

/-- What waits outside functions goes through a function unchanged. -/
theorem pending?_closed_of_waiting {name : String} {call : Pending}
    (hp : s.pending? name = some call) :
    (u.closed .function s.frames).pending? name = some call := by
  have level : call.level = 0 := by
    have hle := h.proper.regular.pending_le hp
    rw [h.outside] at hle
    omega
  have further : call.level < (s.opened .function).level := by
    rw [level]
    exact Nat.succ_pos s.level
  rw [h.pending?_closed, h.inside.2.further hp further, Option.map_some, ← level]

/-- **What is left of a function**, once its name is bound again. -/
theorem declares (hw : Scopes.define symbol (u.closed .function s.frames) = .ok () w) :
    Declares symbol s u w := by
  have none : s.frames.any Frame.isFunction = false := by
    have inside := h.proper.regular.any_isFunction
    rw [← Bool.not_eq_true, inside, h.outside]
    exact Nat.lt_irrefl 0
  obtain ⟨-, -, -, bound⟩ := define_ok_iff.1 hw
  have global : w = { (u.closed .function s.frames).settled symbol with
      globals := s.globals.insert symbol.key symbol } := by
    rw [← bound, bind_of_global (by rw [frames_settled, h.closed_eq]; exact none), globals_settled,
      h.closed_eq]
  have other : ∀ name, name ≠ symbol.key →
      w.pending? name = (u.closed .function s.frames).pending? name := by
    intro name hname
    rw [pending?_define hw, if_neg fun settled => hname settled.2]
  refine ⟨h.free, by rw [global], ?_, ?_, ?_, ?_, ?_, ?_⟩
  · intro name
    rw [lookup?_define hw, h.lookup?_closed]
  · rw [global]
    show ((u.closed .function s.frames).settled symbol).frames = s.frames
    rw [frames_settled, h.closed_eq]
  · rw [level_define hw, h.closed_eq, h.outside]
  · -- a call of the name is answered, since it waits outside functions
    rw [pending?_define hw]
    split
    · rfl
    · next unsettled =>
      cases hp : (u.closed .function s.frames).pending? symbol.key with
      | none => rfl
      | some call =>
          refine (unsettled ⟨?_, rfl⟩).elim
          have level : (u.closed .function s.frames).level = 0 := by rw [h.closed_eq]
          rw [settles, hp, level]
          simp [h.function]
  · intro name hname
    rw [other name hname, h.pending?_closed]
  · intro name call hname hp
    rw [other name hname, h.pending?_closed_of_waiting hp]

end Lifecycle

end Scopes

end ImpFront
