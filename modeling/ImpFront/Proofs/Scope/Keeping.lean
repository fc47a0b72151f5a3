/-
  ImpFront.Proofs.Scope.Keeping
  ─────────────────────────────
  **WHAT READING LEAVES AS IT WAS.**

  An expression only notes calls (`Marks`).  A statement may also bind names,
  but it closes what it opens, forgets no local name, and binds nothing
  globally inside a function (`Kept`).  Both are preorders, so that they go
  through the phrases of the grammar one after the other.
-/
import ImpFront.Proofs.Scope.Context

namespace ImpFront

/-- A symbol is a function exactly if its declaring token says so. -/
def Symbol.Sorted (symbol : Symbol) : Prop :=
  symbol.declaredBase = .function ↔ symbol.isFunction = true

/-- A name without a value takes nothing when it goes. -/
theorem Table.erase_of_absent {α : Type} {t : Table α} {name : String}
    (h : t.get? name = none) : t.erase name = t := by
  apply Table.ext
  rw [Table.get?_eq_none_iff] at h
  refine List.filter_eq_self.2 fun entry he => ?_
  have : entry.1 ≠ name := fun same => h (same ▸ List.mem_map_of_mem he)
  simpa using this

namespace Scopes

variable {s t u : Scopes}

/-- To release a name that is not bound changes nothing. -/
theorem delete_of_absent {name : String} (h : s.lookup? name = none) :
    (s.delete name).2 = s := by
  obtain ⟨hl, hg⟩ := lookup?_eq_none_iff.1 h
  rw [delete_of_global hl, Table.erase_of_absent hg]

/-! ## §1. Noting calls. -/

/-- `t` is `s` with some calls noted. -/
structure Marks (s t : Scopes) : Prop where
  globals : t.globals = s.globals
  frames : t.frames = s.frames
  level : t.level = s.level
  /-- Calls that wait go on waiting. -/
  pending : ∀ {name call}, s.pending? name = some call → t.pending? name = some call

namespace Marks

theorem refl (s : Scopes) : Marks s s := ⟨rfl, rfl, rfl, id⟩

theorem trans (h : Marks s t) (h' : Marks t u) : Marks s u where
  globals := h'.globals.trans h.globals
  frames := h'.frames.trans h.frames
  level := h'.level.trans h.level
  pending hp := h'.pending (h.pending hp)

theorem mark (hs : Regular s) (token : Token) : Marks s (s.mark token) where
  globals := globals_mark token
  frames := frames_mark token
  level := level_mark token
  pending {name call} hp := by
    rw [pending?_mark (fun _ => hs.pending_le), if_neg]
    · exact hp
    · rintro ⟨-, -, absent⟩
      rw [absent] at hp
      cases hp

theorem lookup? (h : Marks s t) (name : String) : t.lookup? name = s.lookup? name := by
  unfold Scopes.lookup?
  rw [h.frames, h.globals]

theorem local? (h : Marks s t) (name : String) : t.local? name = s.local? name := by
  unfold Scopes.local?
  rw [h.frames]

theorem inFunction (h : Marks s t) : t.inFunction = s.inFunction := by
  unfold Scopes.inFunction
  rw [h.level]

theorem context (h : Marks s t) : t.context = s.context := by
  unfold Scopes.context
  rw [h.inFunction, h.globals, h.frames, funext h.local?]

end Marks

/-- What is called is visible or waits. -/
theorem isSome_pending?_mark (hs : Regular s) {token : Token}
    (h : s.lookup? token.value = none) : ((s.mark token).pending? token.value).isSome = true := by
  rw [pending?_mark (fun _ => hs.pending_le)]
  cases hp : s.pending? token.value with
  | none => simp [h]
  | some call => simp

/-! ## §2. Sorted names. -/

/-- Scopes as reading meets them: regular, with functions declared as such. -/
structure Proper (s : Scopes) : Prop where
  regular : Regular s
  sorted : ∀ {name symbol}, s.lookup? name = some symbol → symbol.Sorted

namespace Proper

theorem empty : Proper .empty where
  regular := regular_empty
  sorted h := by cases h

theorem marks (hs : Proper s) (regular : Regular t) (h : Marks s t) : Proper t where
  regular := regular
  sorted hl := hs.sorted (h.lookup? _ ▸ hl)

theorem opened (hs : Proper s) {kind : FrameKind} (h : ¬(kind = .function ∧ s.inFunction)) :
    Proper (s.opened kind) where
  regular := hs.regular.opened h
  sorted {name symbol} hl := by
    rw [lookup?_eq, local?_opened] at hl
    exact hs.sorted hl

theorem entered (hs : Proper s) {kind : FrameKind} {a : Unit} (he : enter kind s = .ok a t) :
    Proper t := by
  obtain ⟨outside, rfl⟩ := enter_ok_iff.1 he
  exact hs.opened outside

theorem closed (hs : Proper s) {kind : FrameKind} {frame : Frame} {outer : List Frame}
    (hf : s.frames = frame :: outer) (hk : frame.kind = kind) : Proper (s.closed kind outer) where
  regular := hs.regular.closed hf hk
  sorted {name symbol} hl := by
    by_cases hn : kind = .function
    · have level := hs.regular.level_le
      have outside : (s.closed kind outer).level = 0 := by
        simp only [Scopes.closed, hn, ↓reduceIte]
        omega
      have globals : (s.closed kind outer).globals = s.globals := by simp [Scopes.closed, hn]
      rw [lookup?_eq, (hs.regular.closed hf hk).local?_eq_none outside, globals,
        Option.none_or] at hl
      -- a global name was visible inside too, since no local one hides it
      have found : s.lookup? name = some symbol := by
        cases local_ : s.local? name with
        | none => rw [lookup?_eq, local_, hl, Option.none_or]
        | some other =>
            rw [hs.regular.disjoint local_] at hl
            cases hl
      exact hs.sorted found
    · have globals : (s.closed kind outer).globals = s.globals := by simp [Scopes.closed, hn]
      rw [lookup?_eq, local?_closed hf hk hn, globals] at hl
      exact hs.sorted hl

theorem define (hs : Proper s) {symbol : Symbol} (sorted : symbol.Sorted) {a : Unit}
    (h : Scopes.define symbol s = .ok a t) : Proper t where
  regular := hs.regular.define h
  sorted {name other} hl := by
    obtain ⟨-, -, -, rfl⟩ := define_ok_iff.1 h
    rw [lookup?_bind] at hl
    split at hl
    · obtain rfl := Option.some.inj hl
      exact sorted
    · rw [lookup?_settled] at hl
      exact hs.sorted hl

end Proper

/-! ## §3. Statements. -/

/-- Inside a frame of another sort one is not in the value of an attribute. -/
theorem inAttribute_of_enter {kind : FrameKind} {a : Unit}
    (h : enter kind s = .ok a t) (other : kind ≠ .attribute) : t.inAttribute = false := by
  obtain ⟨-, rfl⟩ := enter_ok_iff.1 h
  unfold inAttribute opened
  rw [List.head?_cons, Option.any_some, Frame.kind_fresh]
  exact beq_eq_false_iff_ne.2 other

/-- `t` is `s` with no more changed than statements change. -/
structure Kept (s t : Scopes) : Prop where
  proper : Proper t
  level : t.level = s.level
  kinds : t.frames.map Frame.kind = s.frames.map Frame.kind
  locals : ∀ {name symbol}, s.local? name = some symbol → t.local? name = some symbol
  globals : 0 < s.level → t.globals = s.globals

namespace Kept

theorem refl (hs : Proper s) : Kept s s := ⟨hs, rfl, rfl, id, fun _ => rfl⟩

theorem trans (h : Kept s t) (h' : Kept t u) : Kept s u where
  proper := h'.proper
  level := h'.level.trans h.level
  kinds := h'.kinds.trans h.kinds
  locals hl := h'.locals (h.locals hl)
  globals hs := (h'.globals (h.level ▸ hs)).trans (h.globals hs)

theorem marks (hs : Proper s) (regular : Regular t) (h : Marks s t) : Kept s t where
  proper := hs.marks regular h
  level := h.level
  kinds := by rw [h.frames]
  locals hl := h.local? _ ▸ hl
  globals _ := h.globals

theorem inAttribute (h : Kept s t) : t.inAttribute = s.inAttribute := by
  rw [← inAttribute_context, ← inAttribute_context]
  unfold Context.inAttribute Scopes.context
  rw [h.kinds]

theorem define (hs : Proper s) {symbol : Symbol} (sorted : symbol.Sorted) {a : Unit}
    (h : Scopes.define symbol s = .ok a t) : Kept s t where
  proper := hs.define sorted h
  level := by
    obtain ⟨-, -, -, rfl⟩ := define_ok_iff.1 h
    simp
  kinds := by
    obtain ⟨-, -, -, rfl⟩ := define_ok_iff.1 h
    simp
  locals {name other} hl := by
    obtain ⟨-, -, free, rfl⟩ := define_ok_iff.1 h
    have hn : name ≠ symbol.key := by
      rintro rfl
      rw [(lookup?_eq_none_iff.1 free).1] at hl
      cases hl
    rw [local?_bind, if_neg (fun taken => hn taken.2)]
    unfold Scopes.local?
    rw [frames_settled]
    exact hl
  globals hs' := by
    obtain ⟨-, -, -, rfl⟩ := define_ok_iff.1 h
    have inside : (s.settled symbol).frames.any Frame.isFunction = true := by
      rw [frames_settled]
      exact hs.regular.any_isFunction.2 hs'
    obtain ⟨frames, hb, -, -⟩ := bind_of_local symbol inside
    rw [hb]
    exact globals_settled symbol

/-- What is opened and closed again. -/
theorem framed (hs : Proper s) {kind : FrameKind} (hn : kind ≠ .function) {s' t' : Scopes}
    {a b : Unit} (he : enter kind s = .ok a s') (h : Proper s' → Kept s' t')
    (hx : exit kind t' = .ok b t) : Kept s t := by
  obtain ⟨outside, rfl⟩ := enter_ok_iff.1 he
  obtain ⟨frame, outer, hf, hk, rfl⟩ := exit_ok_iff.1 hx
  have h := h (hs.opened outside)
  have globals : (t'.closed kind outer).globals = t'.globals := by simp [closed, hn]
  have level : (t'.closed kind outer).level = t'.level := by simp [closed, hn]
  have opened : (s.opened kind).level = s.level := by simp [Scopes.opened, hn]
  refine ⟨h.proper.closed hf hk, by rw [level, h.level, opened], ?_, ?_, ?_⟩
  · have kinds := h.kinds
    rw [hf] at kinds
    have frames : (t'.closed kind outer).frames = outer := by simp [closed, hn]
    rw [frames]
    exact (List.cons.inj kinds).2
  · intro name symbol hl
    rw [local?_closed hf hk hn]
    refine h.locals ?_
    rw [local?_opened]
    exact hl
  · intro inside
    rw [globals]
    exact h.globals (opened ▸ inside)

/-- Behind a function nothing is left of it. -/
theorem function (hs : Proper s) {s' t' : Scopes} {a b : Unit}
    (he : enter .function s = .ok a s') (h : Proper s' → Kept s' t')
    (hx : exit .function t' = .ok b t) : Kept s t ∧ t.globals = s.globals := by
  obtain ⟨outside, rfl⟩ := enter_ok_iff.1 he
  obtain ⟨frame, outer, hf, hk, rfl⟩ := exit_ok_iff.1 hx
  have h := h (hs.opened outside)
  have bottom : s.level = 0 := by simpa [inFunction] using outside
  have level : t'.level = s.level + 1 := h.level
  have globals : (t'.closed .function outer).globals = s.globals :=
    h.globals (show 0 < s.level + 1 by omega)
  refine ⟨⟨h.proper.closed hf hk, ?_, ?_, ?_, fun _ => globals⟩, globals⟩
  · show t'.level - 1 = s.level
    omega
  · have kinds := h.kinds
    rw [hf] at kinds
    exact (List.cons.inj kinds).2
  · intro name symbol hl
    rw [hs.regular.local?_eq_none bottom] at hl
    cases hl

/-- At the end of a function its name is bound inside it, and not outside. -/
theorem name_of_function {s' r t' : Scopes} {symbol : Symbol} {a b c : Unit} (hs : Proper s)
    (he : enter .function s = .ok a s') (hr : Kept s' r) (sorted : symbol.Sorted)
    (hd : Scopes.define symbol r = .ok b t') (hu : Kept t' u)
    (hx : exit .function u = .ok c t) :
    u.local? symbol.key = some symbol ∧ t.lookup? symbol.key = none := by
  have inside : Kept s' u := (hr.trans (.define hr.proper sorted hd)).trans hu
  obtain ⟨kept, globals⟩ := function hs he (fun _ => inside) hx
  obtain ⟨outside, rfl⟩ := enter_ok_iff.1 he
  have bottom : s.level = 0 := by simpa [inFunction] using outside
  -- the name is bound one level up, where globals are left alone
  have open_ : 0 < r.level := by
    rw [hr.level]
    show 0 < s.level + 1
    omega
  obtain ⟨-, -, free, rfl⟩ := define_ok_iff.1 hd
  obtain ⟨-, free⟩ := lookup?_eq_none_iff.1 free
  refine ⟨hu.locals ?_, lookup?_eq_none_iff.2 ⟨?_, ?_⟩⟩
  · rw [local?_bind, frames_settled, hr.proper.regular.any_isFunction.2 open_]
    simp
  · exact kept.proper.regular.local?_eq_none (kept.level.trans bottom) symbol.key
  · rw [globals]
    rwa [hr.globals (show 0 < s.level + 1 by omega)] at free

end Kept

/-! ## §4. What goes through every phrase. -/

/-- A way for scopes to change that goes through everything a phrase does to
them. -/
structure Carried (R : Scopes → Scopes → Prop) : Prop where
  kept : ∀ {s t}, R s t → Kept s t
  refl : ∀ {s}, Proper s → R s s
  trans : ∀ {s t u}, R s t → R t u → R s u
  marks : ∀ {s t}, Proper s → Regular t → Marks s t → R s t
  define : ∀ {s t symbol}, Proper s → symbol.Sorted → Scopes.define symbol s = .ok () t → R s t
  framed : ∀ {s s' t' t kind}, Proper s → kind ≠ .function → enter kind s = .ok () s' →
    R s' t' → exit kind t' = .ok () t → R s t
  function : ∀ {s s' t' t}, Proper s → enter .function s = .ok () s' → R s' t' →
    exit .function t' = .ok () t → R s t

theorem Kept.carried : Carried Kept where
  kept := id
  refl := .refl
  trans := .trans
  marks := .marks
  define hs sorted h := .define hs sorted h
  framed hs hn he h hx := .framed hs hn he (fun _ => h) hx
  function hs he h hx := (Kept.function hs he (fun _ => h) hx).1

end Scopes

end ImpFront
