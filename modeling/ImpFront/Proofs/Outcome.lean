/-
  ImpFront.Proofs.Outcome
  ───────────────────────
  **OUTCOMES OF STEPS.**

  A step on a state ends well, with a value, or badly, with an error; either
  way it leaves a state.  A sequence of steps ends well if every step does,
  and badly at the first one that does:

      (x >>= f) s = .ok b u     ↔  x ends well, and f goes on to end well
      (x >>= f) s = .error e u  ↔  x ends badly, or f goes on to end badly

  With the two equivalences a rule is taken apart into its steps by `simp`,
  and no later proof unfolds the sequencing.
-/
import ImpFront.Grammar.Parser

namespace ImpFront

variable {ε σ α β : Type} {s t u : σ}

/-! ## §1. Sequences. -/

theorem bind_apply (x : EStateM ε σ α) (f : α → EStateM ε σ β) (s : σ) :
    (x >>= f) s = match x s with
      | .ok a t => f a t
      | .error e t => .error e t := by
  show EStateM.bind x f s = _
  unfold EStateM.bind
  cases x s <;> rfl

theorem bind_ok_iff {x : EStateM ε σ α} {f : α → EStateM ε σ β} {b : β} :
    (x >>= f) s = .ok b u ↔ ∃ a t, x s = .ok a t ∧ f a t = .ok b u := by
  rw [bind_apply]
  cases x s <;> simp [and_assoc]

theorem bind_error_iff {x : EStateM ε σ α} {f : α → EStateM ε σ β} {e : ε} :
    (x >>= f) s = .error e u
      ↔ x s = .error e u ∨ ∃ a t, x s = .ok a t ∧ f a t = .error e u := by
  rw [bind_apply]
  cases x s <;> simp [and_assoc]

theorem pure_ok_iff {a b : α} :
    (pure a : EStateM ε σ α) s = .ok b t ↔ a = b ∧ s = t := by
  show EStateM.Result.ok a s = _ ↔ _
  rw [EStateM.Result.ok.injEq]

theorem get_ok_iff {a : σ} :
    (get : EStateM ε σ σ) s = .ok a t ↔ s = a ∧ s = t := by
  show EStateM.Result.ok s s = _ ↔ _
  rw [EStateM.Result.ok.injEq]

theorem modify_ok_iff {f : σ → σ} {a : PUnit} :
    (modify f : EStateM ε σ PUnit) s = .ok a t ↔ f s = t := by
  show EStateM.Result.ok PUnit.unit (f s) = _ ↔ _
  simp

theorem modify_error_iff {f : σ → σ} {e : ε} :
    (modify f : EStateM ε σ PUnit) s = .error e t ↔ False := by
  show EStateM.Result.ok PUnit.unit (f s) = _ ↔ _
  simp

theorem throw_ok_iff {e : ε} {a : α} :
    (throw e : EStateM ε σ α) s = .ok a t ↔ False := by
  show EStateM.Result.error e s = _ ↔ _
  simp

end ImpFront
