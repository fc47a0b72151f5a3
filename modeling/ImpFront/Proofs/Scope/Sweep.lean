/-
  ImpFront.Proofs.Scope.Sweep
  ───────────────────────────
  **THE END OF A FILE.**

  What is still waited for when a file ends is put in the order of the file:
  the first call becomes the error and the others its notes.  Each waiting
  name is there once, since there is one entry for each name.

      s.unresolved? = none            ↔  no name waits
      s.unresolved? = some (missing first rest)
                                      ↔  first :: rest are the calls that wait

  The table of what is waited for may be visited in any order.  Only calls at
  one offset can trade places by that.
-/
import ImpFront.Proofs.Scope.Representation
import Mathlib.Data.List.Sort

namespace ImpFront

theorem Table.mem_values_iff {α : Type} {t : Table α} {value : α} :
    value ∈ t.values ↔ ∃ name, t.get? name = some value := by
  simp only [values, List.mem_map, Prod.exists, exists_eq_right, mem_entries_iff]

namespace Scopes

variable {s : Scopes} {order order' : Table.Traversal Pending}

/-! ## §1. Calls in the order of the file. -/

/-- One call does not stand behind another. -/
def NotBehind (call other : Pending) : Prop :=
  call.token.position.offset ≤ other.token.position.offset

instance : DecidableRel NotBehind := fun call other =>
  inferInstanceAs (Decidable (call.token.position.offset ≤ other.token.position.offset))

instance : Std.Total NotBehind := ⟨fun _ _ => Nat.le_total _ _⟩

instance : IsTrans Pending NotBehind := ⟨fun _ _ _ => Nat.le_trans⟩

theorem insertInOrder_eq_orderedInsert (call : Pending) (calls : List Pending) :
    insertInOrder call calls = calls.orderedInsert NotBehind call := by
  induction calls with
  | nil => rfl
  | cons other rest ih =>
      rw [insertInOrder, List.orderedInsert_cons, ih]
      rfl

theorem unanswered_eq_insertionSort (s : Scopes) (order : Table.Traversal Pending) :
    s.unanswered order = (order.visit s.pending).insertionSort NotBehind := by
  have same : insertInOrder = List.orderedInsert NotBehind := by
    funext call calls
    exact insertInOrder_eq_orderedInsert call calls
  rw [unanswered, same]
  rfl

/-- Whatever the order of visits, the same calls are there. -/
theorem unanswered_perm (s : Scopes) (order : Table.Traversal Pending) :
    (s.unanswered order).Perm s.pending.values := by
  rw [unanswered_eq_insertionSort]
  exact (List.perm_insertionSort _ _).trans (order.perm _)

theorem mem_unanswered_iff {call : Pending} :
    call ∈ s.unanswered order ↔ ∃ name, s.pending? name = some call := by
  rw [(s.unanswered_perm order).mem_iff, Table.mem_values_iff]
  rfl

theorem pairwise_unanswered (s : Scopes) (order : Table.Traversal Pending) :
    (s.unanswered order).Pairwise NotBehind := by
  rw [unanswered_eq_insertionSort]
  exact List.pairwise_insertionSort _ _

/-- Where each call waits under its own name, no name is there twice. -/
theorem nodup_unanswered
    (keys : ∀ name call, s.pending? name = some call → call.token.value = name) :
    ((s.unanswered order).map fun call => call.token.value).Nodup := by
  refine ((s.unanswered_perm order).map _).nodup_iff.2 ?_
  have names : s.pending.values.map (fun call => call.token.value) = s.pending.names := by
    rw [Table.values, Table.names, List.map_map]
    refine List.map_congr_left fun entry he => ?_
    exact keys entry.1 entry.2 (Table.mem_entries_iff.1 he)
  rw [names]
  exact s.pending.distinct

/-! ## §2. The error. -/

/-- The error of calls that nothing answers: the first one is to blame, and
there is a note on each of the others. -/
def missing (first : Token) (rest : List Token) : Error :=
  { Error.blame (.notDefined first.value) first with
    notes := rest.map fun token => .on ("'" ++ token.value ++ "' is not defined") token }

theorem unresolved?_eq_none_iff :
    s.unresolved? order = none ↔ ∀ name, s.pending? name = none := by
  have empty : s.unresolved? order = none ↔ s.unanswered order = [] := by
    unfold unresolved?
    cases s.unanswered order <;> simp
  rw [empty, List.eq_nil_iff_forall_not_mem]
  constructor
  · intro h name
    refine Option.eq_none_iff_forall_ne_some.2 fun call hp => ?_
    exact h call (mem_unanswered_iff.2 ⟨name, hp⟩)
  · intro h call hm
    obtain ⟨name, hp⟩ := mem_unanswered_iff.1 hm
    rw [h] at hp
    cases hp

theorem eq_missing_of_unresolved? {e : Error} (h : s.unresolved? order = some e) :
    ∃ first rest, (s.unanswered order).map Pending.token = first :: rest
      ∧ e = missing first rest := by
  unfold unresolved? at h
  split at h
  · cases h
  · next call calls hu =>
      refine ⟨call.token, calls.map Pending.token, by rw [hu, List.map_cons], ?_⟩
      rw [← Option.some.inj h, missing, List.map_map]
      rfl

/-! ## §3. The order of visits. -/

/-- The tokens of the calls that wait. -/
def waiting (s : Scopes) : List Token :=
  s.pending.values.map Pending.token

/-- The error is about each call that waits, in the order of the file. -/
def Tells (s : Scopes) (e : Error) : Prop :=
  ∃ first rest, e = missing first rest
    ∧ (first :: rest).Perm s.waiting
    ∧ (first :: rest).Pairwise fun a b => a.position.offset ≤ b.position.offset

theorem tells_of_unresolved? {e : Error} (h : s.unresolved? order = some e) : s.Tells e := by
  obtain ⟨first, rest, tokens, rfl⟩ := eq_missing_of_unresolved? h
  refine ⟨first, rest, rfl, ?_, ?_⟩
  · rw [← tokens]
    exact (s.unanswered_perm order).map _
  · rw [← tokens, List.pairwise_map]
    exact s.pairwise_unanswered order

/-- Whether an error is found does not hang on the order of visits. -/
theorem isSome_unresolved? (h : (s.unresolved? order).isSome) (order' : Table.Traversal Pending) :
    (s.unresolved? order').isSome := by
  rw [Option.isSome_iff_ne_none] at h ⊢
  exact fun none => h (unresolved?_eq_none_iff.2 (unresolved?_eq_none_iff.1 none))

/-- **One error can be told** if no two waiting calls stand at one offset. -/
theorem Tells.eq {e e' : Error} (h : s.Tells e) (h' : s.Tells e')
    (apart : ∀ a ∈ s.waiting, ∀ b ∈ s.waiting, a.position.offset = b.position.offset → a = b) :
    e' = e := by
  obtain ⟨first, rest, rfl, perm, sorted⟩ := h
  obtain ⟨first', rest', rfl, perm', sorted'⟩ := h'
  have same : first' :: rest' = first :: rest := by
    refine (perm'.trans perm.symm).eq_of_pairwise (fun a b ha hb le ge => ?_) sorted' sorted
    exact apart a (perm'.subset ha) b (perm.subset hb) (Nat.le_antisymm le ge)
  obtain ⟨rfl, rfl⟩ := List.cons.inj same
  rfl

end Scopes

end ImpFront
