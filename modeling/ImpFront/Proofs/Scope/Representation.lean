/-
  ImpFront.Proofs.Scope.Representation
  ────────────────────────────────────
  **HOW SCOPES ARE REPRESENTED.**

  `Regular` speaks of what is looked up; here the same is said of the tables
  themselves, entry by entry and frame by frame.  The visible tables are those
  of the open functions and the global one, and as no name is in two of them,
  the order in which they are searched makes no difference:

      tables.Perm s.tables  →  s.lookup? name = tables.findSome? (·.get? name)
-/
import ImpFront.Proofs.Scope.Invariant
import Mathlib.Data.List.Nodup

namespace ImpFront

/-! ## §1. Tables. -/

namespace Table

variable {α : Type} {t u : Table α} {name : String} {value : α}

/-- A name has at most one entry, which is the one that is found. -/
theorem mem_entries_iff : (name, value) ∈ t.entries ↔ t.get? name = some value := by
  constructor
  · intro h
    obtain ⟨other, found⟩ : ∃ other, t.get? name = some other := by
      refine Option.ne_none_iff_exists'.1 fun absent => ?_
      exact get?_eq_none_iff.1 absent (List.mem_map_of_mem h)
    obtain ⟨entry, hf, rfl⟩ := Option.map_eq_some_iff.1 found
    have same : entry.1 = (name, value).1 := by simpa using List.find?_some hf
    -- two entries of one name stand at one place
    rw [found, List.inj_on_of_nodup_map t.distinct (List.mem_of_find?_eq_some hf) h same]
  · intro h
    obtain ⟨entry, hf, rfl⟩ := Option.map_eq_some_iff.1 h
    have same : entry.1 = name := by simpa using List.find?_some hf
    exact same ▸ List.mem_of_find?_eq_some hf

/-- No name is in both tables. -/
def Disjoint (t u : Table α) : Prop :=
  ∀ name, t.get? name = none ∨ u.get? name = none

theorem Disjoint.symm (h : Disjoint t u) : Disjoint u t :=
  fun name => (h name).symm

/-- Where no name is in two tables, they may be searched in any order. -/
theorem findSome?_get?_of_perm {tables tables' : List (Table α)} (h : tables.Perm tables')
    (apart : tables.Pairwise Disjoint) (name : String) :
    tables.findSome? (·.get? name) = tables'.findSome? (·.get? name) := by
  induction h with
  | nil => rfl
  | cons table _ ih => rw [List.findSome?_cons, List.findSome?_cons, ih apart.of_cons]
  | swap t u rest =>
      have apart : Disjoint u t := (List.pairwise_cons.1 apart).1 t List.mem_cons_self
      simp only [List.findSome?_cons]
      rcases apart name with hu | ht
      · simp only [hu]
      · simp only [ht]
  | trans first _ ih ih' =>
      exact (ih apart).trans (ih' (first.pairwise apart fun h => h.symm))

end Table

namespace Scopes

variable {s : Scopes}

/-! ## §2. The visible tables. -/

/-- The names of the open functions, innermost first. -/
def localTables (s : Scopes) : List (Table Symbol) :=
  s.frames.filterMap Frame.locals?

/-- The tables that a name is looked up in, in this order. -/
def tables (s : Scopes) : List (Table Symbol) :=
  s.localTables ++ [s.globals]

theorem local?_eq_findSome? (s : Scopes) (name : String) :
    s.local? name = s.localTables.findSome? (·.get? name) := by
  unfold local? localTables
  induction s.frames with
  | nil => rfl
  | cons frame outer ih =>
      rw [List.findSome?_cons, ih]
      cases frame <;> rfl

theorem lookup?_eq_findSome? (s : Scopes) (name : String) :
    s.lookup? name = s.tables.findSome? (·.get? name) := by
  rw [lookup?_eq, local?_eq_findSome?, tables, List.findSome?_append, List.findSome?_singleton]

theorem length_localTables (s : Scopes) :
    s.localTables.length = s.frames.countP Frame.isFunction := by
  have holds : ∀ frame : Frame, frame.locals?.isSome = frame.isFunction := by
    intro frame
    cases frame <;> rfl
  rw [localTables, List.length_filterMap_eq_countP]
  simp only [holds]

/-- There is no table of local names, or there is one. -/
theorem Regular.localTables_cases (hs : Regular s) :
    s.localTables = [] ∨ ∃ locals, s.localTables = [locals] := by
  have length := s.length_localTables
  rw [hs.level_eq] at length
  have := hs.level_le
  rcases Nat.eq_zero_or_pos s.localTables.length with h | h
  · exact .inl (List.eq_nil_of_length_eq_zero h)
  · exact .inr (List.length_eq_one_iff.1 (by omega))

/-- A table of local names is what local names are looked up in. -/
theorem Regular.get?_of_mem_localTables (hs : Regular s) {locals : Table Symbol}
    (h : locals ∈ s.localTables) (name : String) : locals.get? name = s.local? name := by
  rw [local?_eq_findSome?]
  rcases hs.localTables_cases with none | ⟨only, one⟩
  · rw [none] at h
    cases h
  · rw [one] at h ⊢
    rw [List.mem_singleton.1 h, List.findSome?_singleton]

/-! ## §3. Well-formed scopes. -/

/-- What holds of the representation of scopes at all times. -/
structure WellFormed (s : Scopes) : Prop where
  /-- The level is the number of the frames of functions. -/
  level_eq : s.level = s.frames.countP fun frame => frame.kind == .function
  /-- No function is open inside another. -/
  level_le : s.level ≤ 1
  /-- The frames of functions, and no others, have a table of names. -/
  holds_names : ∀ frame ∈ s.frames, frame.locals?.isSome = true ↔ frame.kind = .function
  /-- Every entry of a table stands under the name of its symbol. -/
  keys : ∀ table ∈ s.tables, ∀ name symbol, (name, symbol) ∈ table.entries → symbol.key = name
  /-- No name is in two visible tables. -/
  disjoint : s.tables.Pairwise Table.Disjoint
  /-- The visible tables may be searched in any order. -/
  lookup : ∀ tables : List (Table Symbol), tables.Perm s.tables →
    ∀ name, s.lookup? name = tables.findSome? (·.get? name)
  /-- A call waits no deeper than the present level. -/
  pending_level : ∀ name call, s.pending? name = some call → call.level ≤ s.level
  /-- A waiting name is not global. -/
  pending_global : ∀ name call, s.pending? name = some call → s.globals.get? name = none
  /-- A name that waits at the present level is not local. -/
  pending_local : ∀ name call, s.pending? name = some call → call.level = s.level →
    ∀ locals ∈ s.localTables, locals.get? name = none

theorem Regular.wellFormed (hs : Regular s) : s.WellFormed := by
  have apart : s.tables.Pairwise Table.Disjoint := by
    refine List.pairwise_append.2 ⟨?_, List.pairwise_singleton _ _, ?_⟩
    · rcases hs.localTables_cases with none | ⟨only, one⟩
      · rw [none]
        exact .nil
      · rw [one]
        exact List.pairwise_singleton _ _
    · intro locals hl globals hg name
      rw [List.mem_singleton.1 hg, hs.get?_of_mem_localTables hl]
      cases h : s.local? name with
      | none => exact .inl rfl
      | some symbol => exact .inr (hs.disjoint h)
  refine ⟨hs.level_eq.symm, hs.level_le, ?_, ?_, apart, ?_, fun _ _ => hs.pending_le,
    fun _ _ => hs.pending_global, ?_⟩
  · intro frame _
    cases frame <;> simp [Frame.locals?, Frame.kind]
  · intro table ht name symbol he
    have found := Table.mem_entries_iff.1 he
    rcases List.mem_append.1 ht with hl | hg
    · rw [hs.get?_of_mem_localTables hl] at found
      exact hs.local_key found
    · rw [List.mem_singleton.1 hg] at found
      exact hs.global_key found
  · intro tables perm name
    rw [lookup?_eq_findSome?, Table.findSome?_get?_of_perm perm.symm apart]
  · intro name call hp level locals hl
    rw [hs.get?_of_mem_localTables hl]
    exact hs.pending_local hp (Nat.le_of_eq level.symm)

/-- **Scopes are well formed at all times:** whatever operations have been
applied since the beginning of a file, in whatever order, and whether or not
they succeeded. -/
theorem wellFormed_after (operations : List Operation) : (after operations).WellFormed :=
  (regular_after operations).wellFormed

end Scopes

end ImpFront
