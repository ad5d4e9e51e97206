/-
  File:      ComponentContainer/Attributes.lean
  Subject:   Attributes of a definition: texts under keys, in the order of the keys.

  * `Attributes` -- a list of keyed texts with strictly ascending keys; the proof travels with
    it, so two attribute lists with the same look-ups are the same list.
  * `get?`, `set`, `onto` -- look up, put, put all of another list on top.
  * `get?_set`, `get?_onto` -- what they do to look-ups.
-/
namespace ComponentContainer

/-- Texts under keys, in ascending order of the keys (by code points). -/
structure Attributes where
  entries : List (String × String)
  ascending : entries.Pairwise fun a b => a.1 < b.1
  deriving DecidableEq

namespace Attributes

/-! ## 1. Look up and put -/

/-- No attributes. -/
def empty : Attributes := ⟨[], .nil⟩

instance : Inhabited Attributes := ⟨empty⟩

/-- The text under a key. -/
def get? (a : Attributes) (key : String) : Option String := a.entries.lookup key

/-- The number of keys. -/
def size (a : Attributes) : Nat := a.entries.length

/-- The entries with `value` under `key`, at its place in the order. -/
def insert (key value : String) : List (String × String) → List (String × String)
  | [] => [(key, value)]
  | e :: rest =>
    if key < e.1 then (key, value) :: e :: rest
    else if key = e.1 then (key, value) :: rest
    else e :: insert key value rest

theorem mem_insert {key value : String} {l : List (String × String)} {e : String × String}
    (h : e ∈ insert key value l) : e = (key, value) ∨ e ∈ l := by
  induction l with
  | nil => exact Or.inl (List.mem_singleton.mp h)
  | cons x rest ih =>
    unfold insert at h
    split at h
    · exact List.mem_cons.mp h
    · split at h
      · exact (List.mem_cons.mp h).imp_right (List.mem_cons_of_mem _)
      · rcases List.mem_cons.mp h with h | h
        · exact Or.inr (h ▸ List.mem_cons_self)
        · exact (ih h).imp_right (List.mem_cons_of_mem _)

theorem lt_of_not_lt_of_ne {a b : String} (h : ¬ a < b) (hne : a ≠ b) : b < a := by
  rcases Std.lt_trichotomy a b with h' | h' | h'
  · exact absurd h' h
  · exact absurd h' hne
  · exact h'

theorem pairwise_insert {key value : String} {l : List (String × String)}
    (h : l.Pairwise fun a b => a.1 < b.1) :
    (insert key value l).Pairwise fun a b => a.1 < b.1 := by
  induction l with
  | nil => exact List.pairwise_singleton _ _
  | cons x rest ih =>
    obtain ⟨hx, hr⟩ := List.pairwise_cons.mp h
    unfold insert
    split
    next hlt =>
      refine List.pairwise_cons.mpr ⟨?_, h⟩
      intro e he
      rcases List.mem_cons.mp he with rfl | he
      · exact hlt
      · exact String.lt_trans hlt (hx e he)
    next hnlt =>
      split
      next heq =>
        exact List.pairwise_cons.mpr ⟨fun e he => heq ▸ hx e he, hr⟩
      next hne =>
        refine List.pairwise_cons.mpr ⟨?_, ih hr⟩
        intro e he
        rcases mem_insert he with rfl | he
        · exact lt_of_not_lt_of_ne hnlt hne
        · exact hx e he

/-- Puts a text under a key. -/
def set (a : Attributes) (key value : String) : Attributes :=
  ⟨insert key value a.entries, pairwise_insert a.ascending⟩

/-- All of `upper` put on top of `lower`: where both have a key, `upper` decides. -/
def onto (upper lower : Attributes) : Attributes :=
  upper.entries.foldl (fun a e => a.set e.1 e.2) lower

/-! ## 2. What they do to look-ups -/

theorem lookup_insert (key value other : String) (l : List (String × String)) :
    (insert key value l).lookup other = if other = key then some value else l.lookup other := by
  induction l with
  | nil =>
    by_cases h : other = key
    · simp [insert, h]
    · have hb : (other == key) = false := by simpa using h
      simp [insert, List.lookup_cons, h, hb]
  | cons e rest ih =>
    obtain ⟨k, v⟩ := e
    unfold insert
    by_cases h : other = key
    · subst h
      split
      · simp
      · split
        · simp
        next hne =>
          have hb : (other == k) = false := by simpa using hne
          simp [List.lookup_cons, hb, ih]
    · have hb : (other == key) = false := by simpa using h
      split
      · simp only [List.lookup_cons, hb]
      · split
        next heq =>
          subst heq
          simp only [List.lookup_cons, hb]
        · simp only [List.lookup_cons, ih, h, if_false]

theorem get?_set (a : Attributes) (key value other : String) :
    (a.set key value).get? other = if other = key then some value else a.get? other :=
  lookup_insert key value other a.entries

/-- A key below all keys of a list is not among them. -/
theorem lookup_eq_none_of_lt {l : List (String × String)} {key : String}
    (h : ∀ e ∈ l, key < e.1) : l.lookup key = none := by
  induction l with
  | nil => rfl
  | cons e rest ih =>
    have hb : (key == e.1) = false :=
      beq_eq_false_iff_ne.mpr fun heq => String.lt_irrefl _ (heq ▸ h e List.mem_cons_self)
    rw [List.lookup_cons, hb]
    exact ih fun x hx => h x (List.mem_cons_of_mem e hx)

theorem get?_foldl_set (l : List (String × String)) (hl : l.Pairwise fun a b => a.1 < b.1)
    (a : Attributes) (key : String) :
    (l.foldl (fun a e => a.set e.1 e.2) a).get? key = (l.lookup key).or (a.get? key) := by
  induction l generalizing a with
  | nil => rfl
  | cons e rest ih =>
    obtain ⟨he, hr⟩ := List.pairwise_cons.mp hl
    rw [List.foldl_cons, ih hr, get?_set, List.lookup_cons]
    by_cases h : key = e.1
    · subst h
      rw [lookup_eq_none_of_lt he, if_pos rfl, beq_self_eq_true]
      rfl
    · rw [if_neg h, beq_eq_false_iff_ne.mpr h]

/-- **Where both have a key the upper list decides.** -/
theorem get?_onto (upper lower : Attributes) (key : String) :
    (upper.onto lower).get? key = (upper.get? key).or (lower.get? key) :=
  get?_foldl_set upper.entries upper.ascending lower key

end Attributes

end ComponentContainer
