/-
  ImpFront.Scope.Table
  ────────────────────
  **TABLES OF NAMES.**

  A finite map from names that remembers the order in which its names came
  in.  No name is entered twice, which is part of the type; all else is said
  through `get?`:

      (t.insert k v).get? n  =  if n = k then some v else t.get? n
      (t.erase k).get? n     =  if n = k then none else t.get? n

  Who visits all values of a table may meet them in another order than that of
  entry.  What depends on it takes the order as a `Traversal`, of which nothing
  is known but that it visits each value once.
-/

namespace ImpFront

/-- A map from names, in the order of entry. -/
structure Table (α : Type) where
  /-- The names with their values. -/
  entries : List (String × α)
  /-- No name stands twice. -/
  distinct : (entries.map Prod.fst).Nodup

namespace Table

variable {α : Type}

/-- The table without names. -/
def empty : Table α := ⟨[], List.nodup_nil⟩

instance : Inhabited (Table α) := ⟨empty⟩

instance [DecidableEq α] : DecidableEq (Table α) := fun s t =>
  decidable_of_iff (s.entries = t.entries) (by cases s; cases t; simp)

/-- The names, in the order of entry. -/
def names (t : Table α) : List String :=
  t.entries.map Prod.fst

/-- The values, in the order of entry. -/
def values (t : Table α) : List α :=
  t.entries.map Prod.snd

/-- The value of a name. -/
def get? (t : Table α) (name : String) : Option α :=
  (t.entries.find? fun entry => entry.1 = name).map Prod.snd

/-- The table without a name. -/
def erase (t : Table α) (name : String) : Table α :=
  ⟨t.entries.filter fun entry => entry.1 ≠ name,
    t.distinct.sublist (List.filter_sublist.map _)⟩

/-- The table with every value changed. -/
def map (f : α → α) (t : Table α) : Table α :=
  ⟨t.entries.map fun entry => (entry.1, f entry.2), by
    simpa [List.map_map, Function.comp_def] using t.distinct⟩

/-- The table in which a name has a value: in the place of its former value
if it has one, at the end otherwise. -/
def insert (t : Table α) (name : String) (value : α) : Table α :=
  if h : name ∈ t.names then
    ⟨t.entries.map fun entry => (entry.1, if entry.1 = name then value else entry.2), by
      simpa [List.map_map, Function.comp_def] using t.distinct⟩
  else
    ⟨t.entries ++ [(name, value)], by
      rw [List.map_append, List.nodup_append]
      refine ⟨t.distinct, by simp, fun a ha b hb => ?_⟩
      simp only [List.map_cons, List.map_nil, List.mem_singleton] at hb
      rintro rfl
      exact h (hb ▸ ha)⟩

/-- An order in which the values of tables are visited. -/
structure Traversal (α : Type) where
  /-- The values of a table in this order. -/
  visit : Table α → List α
  /-- None is left out, and none is visited twice. -/
  perm : ∀ t, (visit t).Perm t.values

/-- The order of entry. -/
def Traversal.entry : Traversal α :=
  ⟨values, fun _ => .refl _⟩

/-! ### What the operations do to `get?`. -/

@[ext] theorem ext {s t : Table α} (h : s.entries = t.entries) : s = t := by
  cases s
  cases t
  simpa using h

@[simp] theorem get?_empty (name : String) : (empty : Table α).get? name = none := rfl

private theorem find?_eq_none_of_not_mem {entries : List (String × α)} {name : String}
    (h : name ∉ entries.map Prod.fst) :
    entries.find? (fun entry => entry.1 = name) = none := by
  rw [List.find?_eq_none]
  intro entry he
  simp only [decide_eq_true_eq]
  rintro rfl
  exact h (List.mem_map_of_mem he)

/-- A name has a value exactly if it is in the table. -/
theorem get?_eq_none_iff {t : Table α} {name : String} :
    t.get? name = none ↔ name ∉ t.names := by
  constructor
  · intro h hm
    obtain ⟨entry, he, rfl⟩ := List.mem_map.1 hm
    simp only [get?, Option.map_eq_none_iff, List.find?_eq_none, decide_eq_true_eq] at h
    exact h entry he rfl
  · intro h
    simp [get?, find?_eq_none_of_not_mem h]

theorem get?_erase (t : Table α) (name other : String) :
    (t.erase name).get? other = if other = name then none else t.get? other := by
  split
  · next h =>
    subst h
    rw [get?_eq_none_iff]
    simp [names, erase]
  · next h =>
    simp only [get?, erase, List.find?_filter]
    congr 1
    have agree : (fun entry : String × α =>
        decide (decide (entry.1 ≠ name) = true ∧ decide (entry.1 = other) = true))
          = fun entry => decide (entry.1 = other) := by
      funext entry
      by_cases he : entry.1 = other
      · simp [he, h]
      · simp [he]
    rw [agree]

theorem get?_map (t : Table α) (f : α → α) (name : String) :
    (t.map f).get? name = (t.get? name).map f := by
  simp only [get?, map, List.find?_map, Option.map_map]
  rfl

theorem get?_insert (t : Table α) (name : String) (value : α) (other : String) :
    (t.insert name value).get? other = if other = name then some value else t.get? other := by
  unfold insert
  split
  · next h =>
    simp only [get?, List.find?_map, Option.map_map, Function.comp_def]
    split
    · next hn =>
      subst hn
      cases hf : t.entries.find? (fun entry => entry.1 = other) with
      | none =>
        have := get?_eq_none_iff.1 (show t.get? other = none by simp [get?, hf])
        exact absurd h this
      | some entry =>
        have : entry.1 = other := by simpa using List.find?_some hf
        simp [this]
    · next hn =>
      cases hf : t.entries.find? (fun entry => entry.1 = other) with
      | none => rfl
      | some entry =>
        have : entry.1 = other := by simpa using List.find?_some hf
        simp [this, hn]
  · next h =>
    simp only [get?, List.find?_append]
    split
    · next hn =>
      subst hn
      rw [find?_eq_none_of_not_mem h]
      simp
    · next hn =>
      have : ¬ name = other := fun he => hn he.symm
      simp [this]

end Table

end ImpFront
