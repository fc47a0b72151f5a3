/-
  ImpFront.Proofs.Typing
  ──────────────────────
  **NO VALUE IS A FUNCTION.**

  The type of functions is that of names, never of values: no literal has it,
  no operation gives it, and no name of a type stands for it.
-/
import ImpFront.Typing

namespace ImpFront

namespace BaseType

theorem ofName_ne_function (name : String) : ofName name ≠ .function := by
  unfold ofName
  cases DeclaredType.ofName name <;> intro h <;> cases h

theorem isNumeric_ne_function {type : BaseType} (h : type.isNumeric = true) :
    type ≠ .function := by
  rintro rfl
  cases h

theorem ofLiteral?_ne_function {kind : Kind} : ofLiteral? kind ≠ some .function := by
  intro h
  unfold ofLiteral? at h
  split at h <;> cases h

theorem binary?_ne_function {left right : BaseType} : binary? left right ≠ some .function := by
  intro h
  unfold binary? at h
  split at h
  · cases h
  · cases h
  · split at h <;> cases h

/-- Two values of one type give a value of that type, if any. -/
theorem eq_of_binary?_self {type result : BaseType} (h : binary? type type = some result) :
    result = type := by
  cases type <;> cases h <;> rfl

end BaseType

end ImpFront
