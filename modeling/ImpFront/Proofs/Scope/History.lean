/-
  ImpFront.Proofs.Scope.History
  ─────────────────────────────
  **CALLS AND THEIR ANSWERS.**

  A run of operations calls names that are not visible, and later defines
  functions.  A definition answers a call of its name if it stands in the same
  function, or outside all functions.  The scopes keep one entry for each
  waiting name and no more, yet the entry tells all there is to tell:

      no entry            ↔  every call of the name is answered
      an entry            ↔  its token is the first call that is not answered
      the entry's level   ↔  whether a definition here would answer that call

  All three are kept by one more operation, so that they hold of every run.
  The end of a file therefore finds the calls without an answer, and for each
  of their names the first.
-/
import ImpFront.Proofs.Scope.Sweep
import Mathlib.Data.List.Induction

namespace ImpFront

namespace Scopes

variable {operations : List Operation} {operation : Operation} {i j : Nat} {token : Token}
  {name : String} {order : Table.Traversal Pending}

/-! ## §1. Runs seen from within. -/

/-- The scopes in front of the operation at an index. -/
def before (operations : List Operation) (i : Nat) : Scopes :=
  after (operations.take i)

/-- The operation at index `i` notes a call of a name that is not visible. -/
def Calls (operations : List Operation) (i : Nat) (token : Token) : Prop :=
  operations[i]? = some (.mark token) ∧ (before operations i).lookup? token.value = none

/-- The operation at index `j` succeeds in defining a function. -/
def DefinesFunction (operations : List Operation) (j : Nat) (name : String) : Prop :=
  ∃ symbol t, operations[j]? = some (.define symbol)
    ∧ define symbol (before operations j) = .ok () t
    ∧ symbol.isFunction = true ∧ symbol.key = name

/-- A function that is open in front of the operation at index `i` is still
open in front of the one at index `j`. -/
def StaysOpen (operations : List Operation) (i j : Nat) : Prop :=
  ∀ k, i ≤ k → k ≤ j → (before operations k).inFunction = true

/-- A later definition answers the call at index `i`: one in the function that
was open there, or one outside all functions. -/
def Answered (operations : List Operation) (i : Nat) (name : String) : Prop :=
  ∃ j, i < j ∧ DefinesFunction operations j name
    ∧ (StaysOpen operations i j ∨ (before operations j).inFunction = false)

/-- The operation at index `i` notes a call that nothing answers. -/
def CallsInVain (operations : List Operation) (i : Nat) (token : Token) : Prop :=
  Calls operations i token ∧ ¬Answered operations i token.value

/-- The first call of a name that nothing answers. -/
def FirstInVain (operations : List Operation) (i : Nat) (token : Token) : Prop :=
  CallsInVain operations i token
    ∧ ∀ i' token', CallsInVain operations i' token' → token'.value = token.value → i ≤ i'

/-- A definition behind the whole run can answer a call at index `i`. -/
def Reaches (operations : List Operation) (i : Nat) : Prop :=
  StaysOpen operations i operations.length ∨ (after operations).inFunction = false

/-- The operation answers the waiting calls of a name, where they can be
answered. -/
def Answers (s : Scopes) (operation : Operation) (name : String) : Prop :=
  ∃ symbol t, operation = .define symbol ∧ define symbol s = .ok () t
    ∧ symbol.isFunction = true ∧ symbol.key = name

/-! ## §2. One more operation. -/

theorem after_concat (operations : List Operation) (operation : Operation) :
    after (operations ++ [operation]) = operation.apply (after operations) := by
  simp only [after, run, List.foldl_append, List.foldl_cons, List.foldl_nil]

theorem before_append (more : List Operation) (h : i ≤ operations.length) :
    before (operations ++ more) i = before operations i := by
  rw [before, List.take_append_of_le_length h, before]

theorem before_length (operations : List Operation) :
    before operations operations.length = after operations := by
  rw [before, List.take_length]

theorem getElem?_concat (operations : List Operation) (operation : Operation) (i : Nat) :
    (operations ++ [operation])[i]? = if i < operations.length then operations[i]?
      else if i = operations.length then some operation else none := by
  split
  · next h => exact List.getElem?_append_left h
  · next h =>
      split
      · next h' => rw [h', List.getElem?_concat_length]
      · next h' =>
          rw [List.getElem?_eq_none_iff, List.length_append, List.length_singleton]
          omega

theorem Calls.lt_length (h : Calls operations i token) : i < operations.length :=
  (List.getElem?_eq_some_iff.1 h.1).1

theorem DefinesFunction.lt_length (h : DefinesFunction operations j name) :
    j < operations.length := by
  obtain ⟨_, _, h, -⟩ := h
  exact (List.getElem?_eq_some_iff.1 h).1

/-- What is called in a longer run was called before, or is called last. -/
theorem calls_concat_iff :
    Calls (operations ++ [operation]) i token
      ↔ Calls operations i token
        ∨ i = operations.length ∧ operation = .mark token
          ∧ (after operations).lookup? token.value = none := by
  unfold Calls
  rw [getElem?_concat]
  split
  · next h =>
      rw [before_append _ (Nat.le_of_lt h)]
      simp [Nat.ne_of_lt h]
  · next h =>
      have absent : operations[i]? = none := List.getElem?_eq_none_iff.2 (Nat.le_of_not_lt h)
      split
      · next h' =>
          subst h'
          rw [before_append _ (Nat.le_refl _), before_length, absent]
          simp
      · next h' => simp [absent, h']

theorem definesFunction_concat_iff :
    DefinesFunction (operations ++ [operation]) j name
      ↔ DefinesFunction operations j name
        ∨ j = operations.length ∧ Answers (after operations) operation name := by
  unfold DefinesFunction Answers
  rw [getElem?_concat]
  split
  · next h =>
      rw [before_append _ (Nat.le_of_lt h)]
      simp [Nat.ne_of_lt h]
  · next h =>
      have absent : operations[j]? = none := List.getElem?_eq_none_iff.2 (Nat.le_of_not_lt h)
      split
      · next h' =>
          subst h'
          rw [before_append _ (Nat.le_refl _), before_length, absent]
          simp
      · next h' => simp [absent, h']

theorem staysOpen_append (more : List Operation) (h : j ≤ operations.length) :
    StaysOpen (operations ++ more) i j ↔ StaysOpen operations i j := by
  refine forall_congr' fun k => forall_congr' fun _ => forall_congr' fun hk => ?_
  rw [before_append _ (Nat.le_trans hk h)]

/-- A call that is not the last operation is answered before the last one, or by
it. -/
theorem answered_concat_iff (h : i < operations.length) :
    Answered (operations ++ [operation]) i name
      ↔ Answered operations i name
        ∨ Reaches operations i ∧ Answers (after operations) operation name := by
  unfold Answered Reaches
  constructor
  · rintro ⟨j, later, defined, place⟩
    rcases definesFunction_concat_iff.1 defined with defined | ⟨rfl, last⟩
    · have inside := Nat.le_of_lt defined.lt_length
      rw [staysOpen_append _ inside, before_append _ inside] at place
      exact .inl ⟨j, later, defined, place⟩
    · rw [staysOpen_append _ (Nat.le_refl _), before_append _ (Nat.le_refl _),
        before_length] at place
      exact .inr ⟨place, last⟩
  · rintro (⟨j, later, defined, place⟩ | ⟨place, last⟩)
    · have inside := Nat.le_of_lt defined.lt_length
      refine ⟨j, later, definesFunction_concat_iff.2 (.inl defined), ?_⟩
      rwa [staysOpen_append _ inside, before_append _ inside]
    · refine ⟨operations.length, h, definesFunction_concat_iff.2 (.inr ⟨rfl, last⟩), ?_⟩
      rwa [staysOpen_append _ (Nat.le_refl _), before_append _ (Nat.le_refl _), before_length]

/-- The last operation of a run is answered by none. -/
theorem not_answered_last : ¬Answered (operations ++ [operation]) operations.length name := by
  rintro ⟨j, later, defined, -⟩
  have := defined.lt_length
  rw [List.length_append, List.length_singleton] at this
  omega

/-- **Calls without an answer in a longer run:** those of the shorter one that
the last operation does not answer, and that operation if it calls. -/
theorem callsInVain_concat_iff :
    CallsInVain (operations ++ [operation]) i token
      ↔ CallsInVain operations i token
          ∧ ¬(Reaches operations i ∧ Answers (after operations) operation token.value)
        ∨ i = operations.length ∧ operation = .mark token
          ∧ (after operations).lookup? token.value = none := by
  unfold CallsInVain
  rw [calls_concat_iff]
  constructor
  · rintro ⟨calls | last, vain⟩
    · rw [answered_concat_iff calls.lt_length, not_or] at vain
      exact .inl ⟨⟨calls, vain.1⟩, vain.2⟩
    · exact .inr last
  · rintro (⟨⟨calls, vain⟩, still⟩ | ⟨rfl, last⟩)
    · refine ⟨.inl calls, ?_⟩
      rw [answered_concat_iff calls.lt_length, not_or]
      exact ⟨vain, still⟩
    · exact ⟨.inr ⟨rfl, last⟩, not_answered_last⟩

theorem CallsInVain.lt_length (h : CallsInVain operations i token) : i < operations.length :=
  h.1.lt_length

/-- What reaches an earlier call reaches a later one. -/
theorem Reaches.mono (h : Reaches operations i) (later : i ≤ j) : Reaches operations j :=
  h.imp (fun h k hk => h k (Nat.le_trans later hk)) id

theorem reaches_concat_iff (h : i ≤ operations.length) :
    Reaches (operations ++ [operation]) i
      ↔ StaysOpen operations i operations.length
        ∨ (operation.apply (after operations)).inFunction = false := by
  have length : (operations ++ [operation]).length = operations.length + 1 := by simp
  have last : before (operations ++ [operation]) (operations.length + 1)
      = operation.apply (after operations) := by
    rw [← length, before_length, after_concat]
  have split : StaysOpen (operations ++ [operation]) i (operations.length + 1)
      ↔ StaysOpen operations i operations.length
        ∧ (operation.apply (after operations)).inFunction = true := by
    rw [← staysOpen_append [operation] (Nat.le_refl _), ← last]
    constructor
    · intro all
      exact ⟨fun k hk hl => all k hk (by omega), all _ (by omega) (Nat.le_refl _)⟩
    · rintro ⟨all, final⟩ k hk hl
      rcases Nat.lt_or_ge k (operations.length + 1) with earlier | later
      · exact all k hk (by omega)
      · exact (Nat.le_antisymm hl later) ▸ final
  rw [Reaches, length, split, after_concat]
  cases (operation.apply (after operations)).inFunction <;> simp

/-! ## §3. What the waiting calls tell. -/

/-- The waiting calls of a run stand for the calls in it without an answer. -/
structure Summarised (operations : List Operation) : Prop where
  /-- What does not wait is answered. -/
  absent : ∀ {name}, (after operations).pending? name = none →
    ∀ i token, token.value = name → ¬CallsInVain operations i token
  /-- What waits is the first call without an answer, at a level that tells
  whether a definition reaches it. -/
  present : ∀ {name call}, (after operations).pending? name = some call →
    call.token.value = name ∧ ∃ i, FirstInVain operations i call.token
      ∧ ((after operations).level ≤ call.level ↔ Reaches operations i)

theorem summarised_nil : Summarised [] where
  absent _ i token _ vain := absurd vain.lt_length (Nat.not_lt_zero i)
  present h := by cases h

namespace Summarised

/-- An operation that neither calls nor answers keeps what the waiting calls
tell, if it keeps their tokens and moves their levels as it should. -/
theorem carry (hs : Summarised operations) {f : Pending → Pending}
    (same : ∀ i token, CallsInVain (operations ++ [operation]) i token
      ↔ CallsInVain operations i token)
    (pending : ∀ name, (operation.apply (after operations)).pending? name
      = ((after operations).pending? name).map f)
    (tokens : ∀ call, (f call).token = call.token)
    (levels : ∀ {name call i}, (after operations).pending? name = some call →
      i < operations.length → ((after operations).level ≤ call.level ↔ Reaches operations i) →
      ((operation.apply (after operations)).level ≤ (f call).level
        ↔ Reaches (operations ++ [operation]) i)) :
    Summarised (operations ++ [operation]) where
  absent {name} hp i token hn := by
    rw [after_concat, pending, Option.map_eq_none_iff] at hp
    rw [same]
    exact hs.absent hp i token hn
  present {name call} hp := by
    rw [after_concat, pending, Option.map_eq_some_iff] at hp
    obtain ⟨earlier, hp, rfl⟩ := hp
    obtain ⟨key, i, ⟨vain, first⟩, level⟩ := hs.present hp
    rw [tokens, after_concat]
    refine ⟨key, i, ⟨(same _ _).2 vain, fun i' token' vain' => ?_⟩,
      levels hp vain.lt_length level⟩
    exact first i' token' ((same _ _).1 vain')

/-- An operation that keeps waiting calls and level keeps what they tell. -/
theorem quiet (hs : Summarised operations)
    (same : ∀ i token, CallsInVain (operations ++ [operation]) i token
      ↔ CallsInVain operations i token)
    (pending : (operation.apply (after operations)).pending = (after operations).pending)
    (level : (operation.apply (after operations)).level = (after operations).level) :
    Summarised (operations ++ [operation]) := by
  refine hs.carry (f := id) same (fun name => ?_) (fun _ => rfl) fun {name call i} _ hi h => ?_
  · rw [pending?, pending, Option.map_id]
    rfl
  · rw [reaches_concat_iff (Nat.le_of_lt hi), inFunction, level]
    exact h

/-- What an operation does not call and does not answer. -/
theorem callsInVain_of_silent (operations : List Operation) (operation : Operation)
    (calls : ∀ token, operation ≠ .mark token)
    (answers : ∀ name, ¬Answers (after operations) operation name) (i : Nat) (token : Token) :
    CallsInVain (operations ++ [operation]) i token ↔ CallsInVain operations i token := by
  rw [callsInVain_concat_iff]
  simp [calls, answers]

/-! ## §4. Every operation keeps it. -/

theorem enter (hs : Summarised operations) (kind : FrameKind) :
    Summarised (operations ++ [.enter kind]) := by
  have same := callsInVain_of_silent operations (.enter kind)
    (fun _ h => nomatch h) (fun _ ⟨_, _, h, _⟩ => nomatch h)
  cases h : Scopes.enter kind (after operations) with
  | error e t =>
      obtain rfl := enter_error h
      have unchanged : (Operation.enter kind).apply (after operations) = after operations := by
        rw [Operation.apply, h, stateAfter]
      exact hs.quiet same (by rw [unchanged]) (by rw [unchanged])
  | ok a t =>
      obtain ⟨outside, rfl⟩ := enter_ok_iff.1 h
      have opened : (Operation.enter kind).apply (after operations)
          = (after operations).opened kind := by
        rw [Operation.apply, h, stateAfter]
      by_cases hk : kind = .function
      · subst hk
        have outside : (after operations).inFunction = false := by simpa using outside
        have inside : ((after operations).opened .function).inFunction = true :=
          decide_eq_true (Nat.succ_pos _)
        refine hs.carry (f := id) same (fun name => ?_) (fun _ => rfl)
          fun {name call i} hp hi _ => ?_
        · rw [opened, Option.map_id]
          rfl
        -- a call from outside waits further out than the new function
        · have le := (regular_after operations).pending_le hp
          rw [reaches_concat_iff (Nat.le_of_lt hi), opened, inside]
          refine iff_of_false (fun deeper => ?_) ?_
          · exact absurd (Nat.le_trans deeper le) (Nat.not_succ_le_self _)
          · rintro (stays | closed)
            · have last := stays operations.length (Nat.le_of_lt hi) (Nat.le_refl _)
              rw [before_length, outside] at last
              cases last
            · cases closed
      · exact hs.quiet same (by rw [opened]; rfl) (by rw [opened]; exact if_neg hk)

theorem exit (hs : Summarised operations) (kind : FrameKind) :
    Summarised (operations ++ [.exit kind]) := by
  have same := callsInVain_of_silent operations (.exit kind)
    (fun _ h => nomatch h) (fun _ ⟨_, _, h, _⟩ => nomatch h)
  cases h : Scopes.exit kind (after operations) with
  | error e t =>
      obtain rfl := exit_error h
      have unchanged : (Operation.exit kind).apply (after operations) = after operations := by
        rw [Operation.apply, h, stateAfter]
      exact hs.quiet same (by rw [unchanged]) (by rw [unchanged])
  | ok a t =>
      obtain ⟨frame, outer, -, -, rfl⟩ := exit_ok_iff.1 h
      have closed : (Operation.exit kind).apply (after operations)
          = (after operations).closed kind outer := by
        rw [Operation.apply, h, stateAfter]
      by_cases hk : kind = .function
      · subst hk
        -- outside the function every call that waits can be answered
        have outside : ((after operations).closed .function outer).level = 0 := by
          have := (regular_after operations).level_le
          show (after operations).level - 1 = 0
          omega
        refine hs.carry
          (f := fun call => ⟨min call.level ((after operations).level - 1), call.token⟩)
          same (fun name => ?_) (fun _ => rfl) fun {name call i} _ hi _ => ?_
        · rw [closed]
          exact Table.get?_map _ _ _
        · rw [reaches_concat_iff (Nat.le_of_lt hi), closed, inFunction, outside]
          exact iff_of_true (Nat.zero_le _) (.inr rfl)
      · exact hs.quiet same (by rw [closed, Scopes.closed, if_neg hk])
          (by rw [closed, Scopes.closed, if_neg hk])

theorem define (hs : Summarised operations) (symbol : Symbol) :
    Summarised (operations ++ [.define symbol]) := by
  cases h : Scopes.define symbol (after operations) with
  | error e t =>
      have refused : ∀ name, ¬Answers (after operations) (.define symbol) name := by
        rintro name ⟨other, u, ho, hd, -⟩
        cases ho
        rw [h] at hd
        cases hd
      have same := callsInVain_of_silent operations (.define symbol)
        (fun _ h => Operation.noConfusion h) refused
      have unchanged : (Operation.define symbol).apply (after operations) = after operations := by
        rw [Operation.apply, h, stateAfter, (regular_after operations).define_error_eq h]
      exact hs.quiet same (by rw [unchanged]) (by rw [unchanged])
  | ok a t =>
      obtain ⟨-, -, -, bound⟩ := define_ok_iff.1 h
      have applied : (Operation.define symbol).apply (after operations) = t := by
        rw [Operation.apply, h, stateAfter]
      have pending : ∀ name, t.pending? name
          = if (after operations).settles symbol = true ∧ name = symbol.key then none
            else (after operations).pending? name := by
        intro name
        rw [← bound, pending?, pending_bind]
        exact pending?_settled symbol name
      have level : t.level = (after operations).level := by
        rw [← bound, level_bind, level_settled]
      have answers : ∀ name, Answers (after operations) (.define symbol) name
          ↔ symbol.isFunction = true ∧ symbol.key = name := by
        intro name
        constructor
        · rintro ⟨other, u, ho, -, hf, hk⟩
          cases ho
          exact ⟨hf, hk⟩
        · rintro ⟨hf, hk⟩
          exact ⟨symbol, t, rfl, h, hf, hk⟩
      have vain : ∀ i token, CallsInVain (operations ++ [.define symbol]) i token
          ↔ CallsInVain operations i token
            ∧ ¬(Reaches operations i ∧ symbol.isFunction = true ∧ symbol.key = token.value) := by
        intro i token
        rw [callsInVain_concat_iff, answers]
        simp
      constructor
      · intro name hp i token hn called
        obtain ⟨called, still⟩ := (vain i token).1 called
        rw [after_concat, applied, pending] at hp
        split at hp
        -- the first call is answered, and with it all later ones
        · next settled =>
            obtain ⟨settled, rfl⟩ := settled
            rw [settles, Bool.and_eq_true, Option.any_eq_true] at settled
            obtain ⟨function, call, hc, hl⟩ := settled
            obtain ⟨key, i', ⟨-, first⟩, reached⟩ := hs.present hc
            have reaches := (reached.1 (of_decide_eq_true hl)).mono
              (first i token called (hn.trans key.symm))
            exact still ⟨reaches, function, hn.symm⟩
        · exact hs.absent hp i token hn called
      · intro name call hp
        rw [after_concat, applied, pending] at hp
        split at hp
        · cases hp
        · next unsettled =>
            obtain ⟨key, i, ⟨called, first⟩, reached⟩ := hs.present hp
            have remains : CallsInVain (operations ++ [.define symbol]) i call.token := by
              refine (vain i _).2 ⟨called, ?_⟩
              rintro ⟨reaches, function, named⟩
              refine unsettled ⟨?_, ?_⟩
              · rw [settles, function, named, key, hp]
                exact decide_eq_true (reached.2 reaches)
              · rw [← key, named]
            refine ⟨key, i, ⟨remains, fun i' token' vain' => ?_⟩, ?_⟩
            · exact first i' token' ((vain i' token').1 vain').1
            · have hi := called.lt_length
              rw [reaches_concat_iff (Nat.le_of_lt hi), after_concat, applied, inFunction, level]
              exact reached

theorem delete (hs : Summarised operations) (name : String) :
    Summarised (operations ++ [.delete name]) := by
  have same := callsInVain_of_silent operations (.delete name)
    (fun _ h => nomatch h) (fun _ ⟨_, _, h, _⟩ => nomatch h)
  obtain ⟨globals, frames, taken⟩ : ∃ globals frames,
      (Operation.delete name).apply (after operations)
        = { after operations with globals, frames } := by
    show ∃ globals frames, ((after operations).delete name).2 = _
    unfold Scopes.delete
    split
    · exact ⟨_, _, rfl⟩
    · exact ⟨_, _, rfl⟩
  exact hs.quiet same (by rw [taken]) (by rw [taken])

theorem mark (hs : Summarised operations) (token : Token) :
    Summarised (operations ++ [.mark token]) := by
  have regular := regular_after operations
  have pending : ∀ name, ((after operations).mark token).pending? name = _ :=
    pending?_mark fun _ => regular.pending_le
  have vain : ∀ i token', CallsInVain (operations ++ [.mark token]) i token'
      ↔ CallsInVain operations i token'
        ∨ i = operations.length ∧ token = token'
          ∧ (after operations).lookup? token'.value = none := by
    intro i token'
    rw [callsInVain_concat_iff]
    have silent : ¬Answers (after operations) (.mark token) token'.value :=
      fun ⟨_, _, h, _⟩ => nomatch h
    simp [silent]
  have reaches : ∀ {i}, i ≤ operations.length →
      (Reaches (operations ++ [.mark token]) i
        ↔ StaysOpen operations i operations.length ∨ (after operations).inFunction = false) := by
    intro i hi
    rw [reaches_concat_iff hi, Operation.apply, inFunction, level_mark]
    rfl
  constructor
  · intro name hp i token' hn called
    rw [after_concat, Operation.apply, pending] at hp
    split at hp
    · cases hp
    · next old =>
        rcases (vain i token').1 called with called | ⟨-, rfl, hidden⟩
        · exact hs.absent hp i token' hn called
        · exact old ⟨hn.symm, hn ▸ hidden, hp⟩
  · intro name call hp
    rw [after_concat, Operation.apply, pending] at hp
    rw [after_concat, Operation.apply, level_mark]
    split at hp
    -- the call is the first of its name
    · next new =>
        obtain ⟨rfl, hidden, absent⟩ := new
        cases hp
        refine ⟨rfl, operations.length, ⟨(vain _ _).2 (.inr ⟨rfl, rfl, hidden⟩), ?_⟩, ?_⟩
        · intro i' token' vain' named
          rcases (vain i' token').1 vain' with earlier | ⟨rfl, -⟩
          · exact absurd earlier (hs.absent absent i' token' named)
          · exact Nat.le_refl _
        · rw [reaches (Nat.le_refl _)]
          refine iff_of_true (Nat.le_refl _) ?_
          cases hi : (after operations).inFunction with
          | false => exact .inr rfl
          | true =>
              refine .inl fun k hk hl => ?_
              rw [Nat.le_antisymm hl hk, before_length, hi]
    · obtain ⟨key, i, ⟨called, first⟩, reached⟩ := hs.present hp
      have hi := called.lt_length
      refine ⟨key, i, ⟨(vain _ _).2 (.inl called), fun i' token' vain' named => ?_⟩, ?_⟩
      · rcases (vain i' token').1 vain' with earlier | ⟨rfl, -⟩
        · exact first i' token' earlier named
        · exact Nat.le_of_lt hi
      · rw [reaches (Nat.le_of_lt hi)]
        exact reached

/-- **One more operation keeps what the waiting calls tell.** -/
theorem concat (hs : Summarised operations) (operation : Operation) :
    Summarised (operations ++ [operation]) := by
  cases operation with
  | enter kind => exact hs.enter kind
  | exit kind => exact hs.exit kind
  | define symbol => exact hs.define symbol
  | delete name => exact hs.delete name
  | mark token => exact hs.mark token

end Summarised

/-- **The waiting calls of every run tell which calls are without an answer.** -/
theorem summarised (operations : List Operation) : Summarised operations := by
  induction operations using List.reverseRecOn with
  | nil => exact summarised_nil
  | append_singleton operations operation ih => exact ih.concat operation

/-! ## §5. The end of a run. -/

theorem FirstInVain.index_eq {token' : Token} (h : FirstInVain operations i token)
    (h' : FirstInVain operations j token') (same : token.value = token'.value) : i = j :=
  Nat.le_antisymm (h.2 j token' h'.1 same.symm) (h'.2 i token h.1 same)

theorem FirstInVain.mem (h : FirstInVain operations i token) : .mark token ∈ operations :=
  List.mem_of_getElem? h.1.1.1

/-- What waits are the first calls without an answer. -/
theorem mem_tokens_unanswered_iff :
    token ∈ ((after operations).unanswered order).map Pending.token
      ↔ ∃ i, FirstInVain operations i token := by
  have hs := summarised operations
  rw [List.mem_map]
  constructor
  · rintro ⟨call, waits, rfl⟩
    obtain ⟨name, hp⟩ := mem_unanswered_iff.1 waits
    obtain ⟨-, i, first, -⟩ := hs.present hp
    exact ⟨i, first⟩
  · rintro ⟨i, first⟩
    cases hp : (after operations).pending? token.value with
    | none => exact absurd first.1 (hs.absent hp i token rfl)
    | some call =>
        obtain ⟨key, j, first', -⟩ := hs.present hp
        -- two first calls of one name are one operation
        obtain rfl := first.index_eq first' key.symm
        have one : Operation.mark call.token = .mark token :=
          Option.some.inj (first'.1.1.1.symm.trans first.1.1.1)
        exact ⟨call, mem_unanswered_iff.2 ⟨_, hp⟩, Operation.mark.inj one⟩

/-- A name that is called in vain is so for a first time. -/
theorem mem_names_unanswered_iff :
    name ∈ (((after operations).unanswered order).map Pending.token).map Token.value
      ↔ ∃ i token, CallsInVain operations i token ∧ token.value = name := by
  rw [List.mem_map]
  constructor
  · rintro ⟨token, waits, named⟩
    obtain ⟨i, first⟩ := mem_tokens_unanswered_iff.1 waits
    exact ⟨i, token, first.1, named⟩
  · rintro ⟨i, token, vain, rfl⟩
    have hs := summarised operations
    cases hp : (after operations).pending? token.value with
    | none => exact absurd vain (hs.absent hp i token rfl)
    | some call =>
        exact ⟨call.token, List.mem_map_of_mem (mem_unanswered_iff.2 ⟨_, hp⟩), (hs.present hp).1⟩

/-- Tokens at one offset that are called in a run are one token. -/
def DistinctOffsets (operations : List Operation) : Prop :=
  ∀ a b, .mark a ∈ operations → .mark b ∈ operations →
    a.position.offset = b.position.offset → a = b

/-- The error names all that is called in vain: each such name once, at its
first call without an answer, the errors in the order of the file. -/
def Reports (operations : List Operation) (e : Error) : Prop :=
  ∃ first rest, e = missing first rest
    ∧ (first :: rest).Pairwise (fun a b => a.position.offset < b.position.offset)
    ∧ ((first :: rest).map Token.value).Nodup
    ∧ (∀ token, token ∈ first :: rest ↔ ∃ i, FirstInVain operations i token)
    ∧ ∀ name, name ∈ (first :: rest).map Token.value
        ↔ ∃ i token, CallsInVain operations i token ∧ token.value = name

/-- **The end of a file is exact:** a run may end there if and only if each of
its calls has an answer, and otherwise the error is about the first calls
without one, in whatever order the waiting calls are visited. -/
theorem unresolved?_after (operations : List Operation) (order : Table.Traversal Pending) :
    ((after operations).unresolved? order = none
        ↔ ∀ i token, Calls operations i token → Answered operations i token.value)
      ∧ (DistinctOffsets operations → ∀ e, (after operations).unresolved? order = some e →
          Reports operations e) := by
  have hs := summarised operations
  constructor
  · rw [unresolved?_eq_none_iff]
    constructor
    · intro none i token calls
      refine Classical.byContradiction fun unanswered => ?_
      exact hs.absent (none token.value) i token rfl ⟨calls, unanswered⟩
    · intro answered name
      refine Option.eq_none_iff_forall_ne_some.2 fun call hp => ?_
      obtain ⟨-, i, first, -⟩ := hs.present hp
      exact first.1.2 (answered i _ first.1.1)
  · intro distinct e he
    obtain ⟨first, rest, tokens, rfl⟩ := eq_missing_of_unresolved? he
    have once : ((first :: rest).map Token.value).Nodup := by
      rw [← tokens, List.map_map]
      exact nodup_unanswered fun _ _ hp => (hs.present hp).1
    have sorted : (first :: rest).Pairwise fun a b => a.position.offset ≤ b.position.offset := by
      rw [← tokens, List.pairwise_map]
      exact pairwise_unanswered _ order
    have called : ∀ token ∈ first :: rest, .mark token ∈ operations := by
      intro token hm
      obtain ⟨i, hf⟩ := mem_tokens_unanswered_iff.1 (tokens ▸ hm)
      exact hf.mem
    refine ⟨first, rest, rfl, ?_, once, fun token => tokens ▸ mem_tokens_unanswered_iff,
      fun name => tokens ▸ mem_names_unanswered_iff⟩
    -- different names are at different places
    refine (sorted.and (List.pairwise_map.1 once)).imp_of_mem fun {a b} ha hb ⟨le, ne⟩ => ?_
    refine Nat.lt_of_le_of_ne le fun same => ne ?_
    rw [distinct a b (called a ha) (called b hb) same]

/-- The name of a call or of a function, at an offset in the first line. -/
def nameAt (name : String) (offset : Nat) : Token :=
  ⟨.identifier, name, ⟨offset, 1, offset + 1⟩⟩

/-- `g` is called, and then, in a function, `f` and `h`.  The functions `g` and
`h` that follow are local, so that only the call of `h` is answered.  At last
`f` is called again. -/
def localAnswers : List Operation :=
  [.mark (nameAt "g" 9), .enter .function, .mark (nameAt "f" 5),
    .define ⟨nameAt "g" 6, nameAt "func" 6, .function none⟩, .mark (nameAt "h" 7),
    .define ⟨nameAt "h" 8, nameAt "func" 8, .function none⟩, .exit .function,
    .mark (nameAt "f" 11)]

theorem unresolved?_after_localAnswers :
    DistinctOffsets localAnswers
      ∧ (after localAnswers).unresolved? = some (missing (nameAt "f" 5) [nameAt "g" 9])
      ∧ Reports localAnswers (missing (nameAt "f" 5) [nameAt "g" 9]) := by
  have distinct : DistinctOffsets localAnswers := by
    intro a b ha hb
    simp only [localAnswers, List.mem_cons, Operation.mark.injEq, reduceCtorEq, List.not_mem_nil,
      or_false, false_or] at ha hb
    rcases ha with rfl | rfl | rfl | rfl <;> rcases hb with rfl | rfl | rfl | rfl <;>
      first | exact fun _ => rfl | exact fun h => nomatch h
  have reported :
      (after localAnswers).unresolved? = some (missing (nameAt "f" 5) [nameAt "g" 9]) := by
    decide
  exact ⟨distinct, reported, (unresolved?_after localAnswers .entry).2 distinct _ reported⟩

end Scopes

end ImpFront
