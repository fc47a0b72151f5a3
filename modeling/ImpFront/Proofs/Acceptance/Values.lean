/-
  ImpFront.Proofs.Acceptance.Values
  ─────────────────────────────────
  **EXPRESSIONS IN AN ACCOUNT.**

  While an expression is read it is not known yet which function answers a
  call of a hidden name, only that the call waits and which type was read
  ahead for it.  That much is `Grounded`, it stays true while more is read,
  and in scopes that are accounted for it makes the expression sound.
-/
import ImpFront.Proofs.Acceptance.Account
import ImpFront.Proofs.Typing

namespace ImpFront

open Scopes (Regular Marks Proper)

variable {tokens : List Token} {s t : Scopes} {ahead : String → Option BaseType}
  {later : List Mention} {e : Expr}

/-! ## §1. What is known while reading. -/

/-- The name in an expression is one that reading lets pass. -/
def Expr.Held (s : Scopes) (ahead : String → Option BaseType) : Expr → Prop
  | .reference _ type => s.inAttribute = true ∨ type ≠ .function
  | .call name _ returns =>
    (∀ symbol, s.lookup? name.value = some symbol →
        symbol.isFunction = true ∧ returns = symbol.returnBase?)
      ∧ (s.lookup? name.value = none →
        (s.pending? name.value).isSome = true ∧ returns = ahead name.value)
  | .binary _ _ _ _ _ | .unary _ _ _ _ | .literal _ _ => True

/-- The type of an expression is found, and its name is let pass. -/
structure Expr.Grounded (s : Scopes) (ahead : String → Option BaseType) (e : Expr) : Prop where
  typed : e.Typed s.context
  held : e.Held s ahead

/-- What is known stays known while calls are noted. -/
theorem Expr.Grounded.marked (h : e.Grounded s ahead) (marks : Marks s t) :
    e.Grounded t ahead := by
  obtain ⟨typed, held⟩ := h
  refine ⟨marks.context ▸ typed, ?_⟩
  cases e with
  | reference name type =>
      have same : t.inAttribute = s.inAttribute := by
        unfold Scopes.inAttribute
        rw [marks.frames]
      exact held.imp_left fun attached => same.trans attached
  | call name arguments returns =>
      obtain ⟨visible, hidden⟩ := held
      refine ⟨fun symbol hl => visible symbol (marks.lookup? _ ▸ hl), fun hl => ?_⟩
      obtain ⟨waits, type⟩ := hidden (marks.lookup? _ ▸ hl)
      obtain ⟨call, hp⟩ := Option.isSome_iff_exists.1 waits
      exact ⟨by rw [marks.pending hp]; rfl, type⟩
  | _ => trivial

/-! ## §2. No value is a function. -/

theorem Symbol.returnBase?_ne_function (symbol : Symbol) :
    symbol.returnBase? ≠ some .function := by
  unfold returnBase?
  split
  · intro h
    exact BaseType.ofName_ne_function _ (Option.some.inj h)
  · intro h
    cases h

/-- **Outside attributes no value has the type of functions.** -/
theorem Expr.Grounded.base?_ne_function (h : e.Grounded s ahead)
    (outside : s.inAttribute = false) (values : ∀ name, ahead name ≠ some .function) :
    e.base? ≠ some .function := by
  obtain ⟨typed, held⟩ := h
  cases e with
  | binary operator token left right type =>
      obtain ⟨l, r, -, -, ht⟩ := typed
      intro hf
      obtain rfl := Option.some.inj hf
      exact BaseType.binary?_ne_function ht
  | unary operator token operand type =>
      intro hf
      exact BaseType.isNumeric_ne_function typed.2 (Option.some.inj hf)
  | literal token type =>
      intro hf
      obtain rfl := Option.some.inj hf
      exact BaseType.ofLiteral?_ne_function typed
  | reference name type =>
      intro hf
      rcases held with attached | value
      · rw [outside] at attached
        cases attached
      · exact value (Option.some.inj hf)
  | call name arguments returns =>
      obtain ⟨visible, hidden⟩ := held
      show returns ≠ some .function
      cases hl : s.lookup? name.value with
      | some symbol =>
          rw [(visible symbol hl).2]
          exact symbol.returnBase?_ne_function
      | none =>
          rw [(hidden hl).2]
          exact values name.value

/-! ## §3. What an account adds. -/

namespace Accounted

/-- **A call that waits has a function.** -/
theorem callee (hs : Regular s) (acc : Accounted tokens s ahead later) {name : String}
    (hidden : s.lookup? name = none) (waits : (s.pending? name).isSome = true) :
    ∃ bound, s.context.callee? name later = some bound := by
  obtain ⟨call, hp⟩ := Option.isSome_iff_exists.1 waits
  have answered := acc.answered hp
  have le := hs.pending_le hp
  refine Option.isSome_iff_exists.1 ?_
  unfold Context.callee?
  rw [Scopes.lookup?_context hs, hidden, Scopes.isSome_locals_context]
  show (answer? s.inFunction s.inFunction name later).isSome = true
  -- a call that waits outside is answered outside, one that waits inside by either
  rcases Nat.eq_zero_or_pos call.level with shallow | deep
  · have far : (globalAhead? name s.inFunction later).isSome = true := by
      simpa [answer?, shallow] using answered
    unfold answer?
    rw [Option.isSome_or, far, Bool.or_true]
  · rw [Scopes.inFunction_eq_true (show 0 < s.level by omega)] at answered ⊢
    rwa [decide_eq_true deep] at answered

theorem scoped_node (hs : Proper s) (acc : Accounted tokens s ahead later)
    (h : e.Grounded s ahead) : e.Scoped s.context later := by
  obtain ⟨typed, held⟩ := h
  cases e with
  | reference name type =>
      rcases held with attached | value
      · exact .inl (Scopes.inAttribute_context.trans attached)
      · by_cases attached : s.context.inAttribute = true
        · exact .inl attached
        · right
          simp only [Expr.Typed] at typed
          rw [if_neg fun here => attached here.1] at typed
          obtain ⟨symbol, hl, rfl⟩ := typed
          refine ⟨symbol, hl, Bool.eq_false_iff.2 fun function => value ?_⟩
          rw [Scopes.lookup?_context hs.regular] at hl
          exact (hs.sorted hl).2 function
  | call name arguments returns =>
      obtain ⟨visible, hidden⟩ := held
      show ∃ bound, s.context.callee? name.value later = some bound
      cases hl : s.lookup? name.value with
      | none => exact acc.callee hs.regular hl (hidden hl).1
      | some symbol =>
          have context := (Scopes.lookup?_context hs.regular name.value).trans hl
          exact ⟨symbol, Context.callee?_of_lookup? context (visible symbol hl).1 later⟩
  | _ => trivial

/-- **A value that is asked for is sound in an account.** -/
theorem evaluated (hs : Proper s) (grounded : ∀ node ∈ e.nodes, node.Grounded s ahead)
    (acc : Accounted tokens s ahead later) :
    Accounted tokens s ahead (.evaluates e :: later) := by
  refine ⟨acc.answered, acc.declared, ⟨⟨?_, ?_, ?_⟩, acc.sound⟩⟩
  · intro node hn
    exact acc.scoped_node hs (grounded node hn)
  · intro node hn
    refine ⟨(grounded node hn).typed, fun untyped => ?_⟩
    cases node with
    | call name arguments returns =>
        obtain rfl : returns = none := untyped
        exact ⟨name, arguments, rfl⟩
    | _ => cases untyped
  · intro name arguments returns hn
    obtain ⟨visible, hidden⟩ := (grounded _ hn).held
    obtain ⟨bound, hb⟩ := acc.scoped_node hs (grounded _ hn)
    refine ⟨bound, hb, ?_⟩
    rw [Scopes.lookup?_context hs.regular]
    cases hl : s.lookup? name.value with
    | some symbol =>
        left
        obtain ⟨function, type⟩ := visible symbol hl
        have context := (Scopes.lookup?_context hs.regular name.value).trans hl
        have same := Context.callee?_of_lookup? context function later
        obtain rfl := Option.some.inj (same.symm.trans hb)
        exact ⟨rfl, type⟩
    | none =>
        right
        have context : s.context.lookup? name.value = none := by
          rw [Scopes.lookup?_context hs.regular, hl]
        have allowed : Always Mention.Scoped s.context later :=
          acc.sound.imp fun _ _ _ h => h.1.allowed
        -- there is a declaration ahead, though it may be another one than the function called
        have isSome := Context.firstAhead?_of_callee? allowed context hb
        obtain ⟨first, hf⟩ := Option.isSome_iff_exists.1 isSome
        refine ⟨rfl, first, hf, ?_⟩
        rw [(hidden hl).2]
        exact acc.declared hf

theorem initialised {type : Token} (fits : e.base? = some (.ofName type.value))
    (acc : Accounted tokens s ahead later) :
    Accounted tokens s ahead (.initialises type e :: later) :=
  ⟨acc.answered, acc.declared, ⟨⟨trivial, fits, trivial⟩, acc.sound⟩⟩

theorem assigned (hs : Proper s) {name : Token} {symbol : Symbol}
    (hl : s.lookup? name.value = some symbol) (fits : e.base? = some symbol.declaredBase)
    (value : symbol.declaredBase ≠ .function) (acc : Accounted tokens s ahead later) :
    Accounted tokens s ahead (.assigns name e :: later) := by
  have context : s.context.lookup? name.value = some symbol := by
    rw [Scopes.lookup?_context hs.regular, hl]
  refine ⟨acc.answered, acc.declared,
    ⟨⟨⟨symbol, context, ?_⟩, ⟨symbol, context, fits⟩, trivial⟩, acc.sound⟩⟩
  exact Bool.eq_false_iff.2 fun function => value ((hs.sorted hl).2 function)

end Accounted

end ImpFront
