/-
  ImpFront.Proofs.Scope.Context
  ─────────────────────────────
  **SCOPES AS CONTEXTS.**

  Scopes hold tables, frames and waiting calls; a context holds only what a
  tree shows.  `Scopes.context` forgets the rest, and the operations on
  scopes become the steps of a context:

      enter kind     ↦  opens kind        define symbol  ↦  binds symbol
      exit kind      ↦  closes kind       mark token     ↦  nothing
      exit .function, and then define symbol  ↦  completes symbol
-/
import ImpFront.Proofs.Scope.Invariant
import ImpFront.Proofs.Tree.Mentions

namespace ImpFront

namespace Scopes

variable {s : Scopes}

/-- What a tree shows of scopes. -/
def context (s : Scopes) : Context where
  globals := s.globals.get?
  locals := if s.inFunction then some s.local? else none
  frames := s.frames.map Frame.kind

/-! ## §1. Looking. -/

theorem isSome_locals_context : s.context.locals.isSome = s.inFunction := by
  unfold context
  cases s.inFunction <;> rfl

theorem inFunction_eq_false (h : s.level = 0) : s.inFunction = false := by
  simp [inFunction, h]

theorem inFunction_eq_true (h : 0 < s.level) : s.inFunction = true := by
  simp [inFunction, h]

theorem lookup?_context (hs : Regular s) (name : String) :
    s.context.lookup? name = s.lookup? name := by
  rw [lookup?_eq]
  rcases Nat.eq_zero_or_pos s.level with h | h
  · simp [Context.lookup?, context, inFunction_eq_false h, hs.local?_eq_none h]
  · simp [Context.lookup?, context, inFunction_eq_true h]

theorem inAttribute_context : s.context.inAttribute = s.inAttribute := by
  unfold Context.inAttribute context inAttribute
  cases s.frames <;> rfl

theorem conditional_notMem (h : s.inConditional = false) :
    .conditional ∉ s.context.frames := by
  intro hm
  obtain ⟨frame, hf, hk⟩ := List.mem_map.1 hm
  have := List.any_eq_false.1 h frame hf
  simp [hk] at this

/-! ## §2. Steps. -/

theorem context_opened (hs : Regular s) {kind : FrameKind}
    (h : ¬(kind = .function ∧ s.inFunction)) :
    (s.opened kind).context = s.context.after (.opens kind) := by
  by_cases hk : kind = .function
  · have outside : s.level = 0 := by simpa [hk, inFunction] using h
    -- a function opens without any names
    have none : (s.opened kind).local? = fun _ => none := by
      funext name
      rw [local?_opened, hs.local?_eq_none outside]
    have inside : (s.opened kind).inFunction = true :=
      inFunction_eq_true (by simp [opened, hk])
    unfold context
    rw [inside, none]
    simp [Context.after, opened, hk]
  · have same : (s.opened kind).local? = s.local? := funext (local?_opened kind)
    have level : (s.opened kind).inFunction = s.inFunction := by
      simp [inFunction, opened, hk]
    unfold context
    rw [level, same]
    simp [Context.after, opened, hk]

theorem context_closed {kind : FrameKind} {frame : Frame} {outer : List Frame}
    (hf : s.frames = frame :: outer) (hk : frame.kind = kind) (hn : kind ≠ .function) :
    (s.closed kind outer).context = s.context.after (.closes kind) := by
  have same : (s.closed kind outer).local? = s.local? := funext (local?_closed hf hk hn)
  have level : (s.closed kind outer).inFunction = s.inFunction := by
    simp [inFunction, closed, hn]
  unfold context
  rw [level, same]
  simp [Context.after, closed, hn, hf]

theorem context_bind (hs : Regular s) (symbol : Symbol) :
    (s.bind symbol).context = s.context.after (.binds symbol) := by
  have level : (s.bind symbol).inFunction = s.inFunction := by simp [inFunction]
  have function := hs.any_isFunction
  rcases Nat.eq_zero_or_pos s.level with h | h
  · have outside : s.frames.any Frame.isFunction = false := by
      rw [← Bool.not_eq_true, function]
      omega
    have globals : (s.bind symbol).globals.get? = Context.extend symbol s.globals.get? := by
      funext name
      simp [globals_bind, outside, Context.extend]
    unfold context
    rw [level, globals, map_kind_bind, inFunction_eq_false h]
    rfl
  · have inside : s.frames.any Frame.isFunction = true := function.2 h
    have globals : (s.bind symbol).globals.get? = s.globals.get? := by
      funext name
      simp [globals_bind, inside]
    have locals : (s.bind symbol).local? = Context.extend symbol s.local? := by
      funext name
      simp [local?_bind, inside, Context.extend]
    unfold context
    rw [level, globals, locals, map_kind_bind, inFunction_eq_true h]
    rfl

@[simp] theorem context_settled (symbol : Symbol) : (s.settled symbol).context = s.context := by
  unfold context local? inFunction
  simp

/-- **To define a name is to bind it.** -/
theorem context_define (hs : Regular s) {t : Scopes} {symbol : Symbol} {a : Unit}
    (h : define symbol s = .ok a t) : t.context = s.context.after (.binds symbol) := by
  obtain ⟨-, -, -, rfl⟩ := define_ok_iff.1 h
  rw [context_bind (hs.settled symbol), context_settled]

/-- **To leave a function and to define its name is to complete it.** -/
theorem context_completed (hs : Regular s) {t u : Scopes} {symbol : Symbol} {a b : Unit}
    (hx : exit .function s = .ok a t) (h : define symbol t = .ok b u) :
    u.context = s.context.after (.completes symbol) := by
  obtain ⟨frame, outer, hf, hk, rfl⟩ := exit_ok_iff.1 hx
  have closed := hs.closed hf hk
  -- outside the function there are no local names to bind the symbol among
  have outside : (s.closed .function outer).inFunction = false := by
    have := hs.level_le
    refine inFunction_eq_false ?_
    show s.level - 1 = 0
    omega
  rw [context_define closed h]
  unfold context
  rw [outside, hf]
  rfl

end Scopes

end ImpFront
