/-
  File:      ComponentContainer/Proofs/Lineage.lean
  Subject:   The parents of a definition, and when it can be merged with them.

  * `Trail t first trail next` -- walking along the parents, one passes these names with their
    definitions and comes to `next`, from where the walk may go on.
  * `Line t first line` -- such a walk up to a definition without a parent.
  * `ancestorsWithin_trail` -- **the search for ancestors goes along a trail.**
  * `Line.unique`, `Line.nodup` -- there is one such line at most, and no name comes up twice in it.
  * `freshMerge_eq_ok_iff` -- **a definition is merged exactly if there is such a line from it on**,
    and then with the definitions of the line; the bound on the links is never met.
-/
import ComponentContainer.Container
import Mathlib.Data.List.Perm.Subperm

namespace ComponentContainer.Container

variable {κ : Type} {t : Table (Definition κ)} {first next : Option String} {name : String}
  {trail : List (String × Definition κ)}

/-! ## 1. Trails -/

/-- Walking along the parents, one passes these names with their definitions and comes to `next`,
    where the walk may go on. -/
inductive Trail (t : Table (Definition κ)) :
    Option String → List (String × Definition κ) → Option String → Prop
  | nil {next : Option String} : Trail t next [] next
  | cons {name : String} {d : Definition κ} {rest : List (String × Definition κ)}
      {next : Option String} (found : t.find? name = some d) (walk : Trail t d.parent rest next) :
      Trail t (some name) ((name, d) :: rest) next

/-- One definition more. -/
theorem Trail.concat {d : Definition κ} (walk : Trail t first trail (some name))
    (found : t.find? name = some d) : Trail t first (trail ++ [(name, d)]) d.parent := by
  generalize here : some name = next at walk
  induction walk with
  | nil =>
      subst here
      exact .cons found .nil
  | cons found' _ ih => exact .cons found' (ih here)

theorem Trail.mem_keys (walk : Trail t first trail next) : trail.map Prod.fst ⊆ t.keys := by
  induction walk with
  | nil => exact List.nil_subset _
  | cons found _ ih =>
      refine List.cons_subset.mpr ⟨?_, ih⟩
      exact (t.contains_iff_mem_keys _).mp (by rw [Table.contains, found]; rfl)

/-- A trail that passes no name twice has no more names than there are definitions. -/
theorem Trail.length_le (walk : Trail t first trail next) (once : (trail.map Prod.fst).Nodup) :
    trail.length ≤ t.size := by
  have le := (once.subperm walk.mem_keys).length_le
  rwa [List.length_map, Table.keys, List.length_map] at le

/-! ## 2. Lines of parents -/

/-- Walking along the parents, one meets these names with their definitions, up to a definition
    without a parent. -/
inductive Line (t : Table (Definition κ)) : Option String → List (String × Definition κ) → Prop
  | nil : Line t none []
  | cons {name : String} {d : Definition κ} {rest : List (String × Definition κ)}
      (found : t.find? name = some d) (line : Line t d.parent rest) :
      Line t (some name) ((name, d) :: rest)

/-- All parents of the definition are there, and they come to an end. -/
def Resolvable (t : Table (Definition κ)) (name : String) : Prop := ∃ line, Line t (some name) line

/-- **The line from a name on is unique.** -/
theorem Line.unique {first : Option String} {line line' : List (String × Definition κ)}
    (h : Line t first line) (h' : Line t first line') : line = line' := by
  induction h generalizing line' with
  | nil =>
      cases h'
      rfl
  | cons found _ ih =>
      cases h' with
      | cons found' rest' =>
          rw [found] at found'
          cases found'
          rw [ih rest']

/-- From each name of a line on, there is the rest of the line. -/
theorem Line.from_mem {first : Option String} {line : List (String × Definition κ)}
    (h : Line t first line) {name : String} (hn : name ∈ line.map Prod.fst) :
    ∃ rest, rest <:+ line ∧ Line t (some name) rest := by
  induction h with
  | nil => exact absurd hn List.not_mem_nil
  | @cons name' d rest found line ih =>
      rcases List.mem_cons.mp hn with rfl | hn
      · exact ⟨_, List.suffix_refl _, .cons found line⟩
      · obtain ⟨rest', part, line'⟩ := ih hn
        exact ⟨rest', part.trans (List.suffix_cons _ _), line'⟩

/-- A name that came up twice in a line would be followed by the same line twice, once longer than
    the other time. -/
theorem Line.nodup {first : Option String} {line : List (String × Definition κ)}
    (h : Line t first line) : (line.map Prod.fst).Nodup := by
  induction h with
  | nil => exact List.nodup_nil
  | @cons name d rest found line ih =>
      refine List.nodup_cons.mpr ⟨fun again => ?_, ih⟩
      obtain ⟨rest', part, line'⟩ := line.from_mem again
      have longer := part.length_le
      rw [line'.unique (.cons found line), List.length_cons] at longer
      omega

/-- A line is a trail that does not go on. -/
theorem Line.toTrail {first : Option String} {line : List (String × Definition κ)}
    (h : Line t first line) : Trail t first line none := by
  induction h with
  | nil => exact .nil
  | cons found _ ih => exact .cons found ih

/-- A line depends on its own definitions only. -/
theorem Line.congr {t' : Table (Definition κ)} {first : Option String}
    {line : List (String × Definition κ)} (h : Line t first line)
    (same : ∀ name ∈ line.map Prod.fst, t'.find? name = t.find? name) : Line t' first line := by
  induction h with
  | nil => exact .nil
  | cons found _ ih =>
      obtain ⟨here, further⟩ := List.forall_mem_cons.mp same
      exact .cons (here.trans found) (ih further)

/-! ## 3. Merging -/

variable {start : String} {visited : List String}

/-- **The search goes along a trail** of new names, and on from where that leads to. -/
theorem ancestorsWithin_trail (walk : Trail t first trail next) (once : (trail.map Prod.fst).Nodup)
    (new : ∀ name ∈ trail.map Prod.fst, name ∉ visited) (more : Nat) :
    ancestorsWithin t start (trail.length + more) visited first =
      (ancestorsWithin t start more ((trail.map Prod.fst).reverse ++ visited) next).map
        (trail.map Prod.snd ++ ·) := by
  induction walk generalizing visited with
  | @nil next =>
      simp only [List.length_nil, Nat.zero_add, List.map_nil, List.reverse_nil, List.nil_append]
      cases ancestorsWithin t start more visited next <;> rfl
  | @cons name d rest next found walk ih =>
      obtain ⟨here, others⟩ := List.nodup_cons.mp once
      have new' : ∀ other ∈ rest.map Prod.fst, other ∉ name :: visited := by
        intro other mem passed
        rcases List.mem_cons.mp passed with rfl | passed
        · exact here mem
        · exact new other (List.mem_cons_of_mem _ mem) passed
      have room : ((name, d) :: rest).length + more = rest.length + more + 1 := by
        rw [List.length_cons]
        omega
      rw [room, ancestorsWithin, if_neg (new name List.mem_cons_self)]
      simp only [found, ih others new', List.map_cons, List.reverse_cons, List.append_assoc,
        List.singleton_append]
      cases ancestorsWithin t start more ((rest.map Prod.fst).reverse ++ name :: visited) next <;> rfl

@[simp] theorem ancestorsWithin_none (steps : Nat) :
    ancestorsWithin t start steps visited none = .ok [] := by
  cases steps <;> rfl

/-- The ancestors that are found are a line. -/
theorem line_of_ancestorsWithin {steps : Nat} {visited : List String} {first : Option String}
    {ancestors : List (Definition κ)}
    (h : ancestorsWithin t start steps visited first = .ok ancestors) :
    ∃ line, Line t first line ∧ ancestors = line.map Prod.snd := by
  induction steps generalizing visited first ancestors with
  | zero =>
      cases first with
      | none =>
          rw [ancestorsWithin] at h
          cases h
          exact ⟨[], .nil, rfl⟩
      | some name =>
          rw [ancestorsWithin] at h
          cases h
  | succ steps ih =>
      cases first with
      | none =>
          rw [ancestorsWithin] at h
          cases h
          exact ⟨[], .nil, rfl⟩
      | some name =>
          rw [ancestorsWithin] at h
          split at h
          · cases h
          · split at h
            · cases h
            · rename_i d found
              split at h
              · cases h
              · rename_i rest hrest
                cases h
                obtain ⟨line, walk, rfl⟩ := ih hrest
                exact ⟨(name, d) :: line, .cons found walk, rfl⟩

/-- The merging goes along a trail, and there is room left for one more step. -/
theorem freshMerge_trail {own : String × Definition κ} {rest : List (String × Definition κ)}
    (walk : Trail t (some name) (own :: rest) next) (once : ((own :: rest).map Prod.fst).Nodup) :
    ∃ more, freshMerge t name =
      (ancestorsWithin t name (more + 1) ((own :: rest).map Prod.fst).reverse next).map
        fun ancestors => .ofAncestry own.2 (rest.map Prod.snd ++ ancestors) := by
  have fits := walk.length_le once
  rw [List.length_cons] at fits
  obtain ⟨here, others⟩ := List.nodup_cons.mp once
  cases walk with
  | cons found walk =>
      have new : ∀ other ∈ rest.map Prod.fst, other ∉ [name] := by
        intro other mem own
        exact here (List.mem_singleton.mp own ▸ mem)
      have room : t.size + 1 = rest.length + (t.size - rest.length + 1) := by omega
      refine ⟨t.size - rest.length, ?_⟩
      rw [freshMerge, found]
      simp only [room, ancestorsWithin_trail walk others new, List.map_cons, List.reverse_cons]
      cases ancestorsWithin t name (t.size - rest.length + 1) ((rest.map Prod.fst).reverse ++ [name])
        next <;> rfl

/-- **A definition is merged exactly if there is a line from it on**, with the definitions of that
    line. -/
theorem freshMerge_eq_ok_iff {name : String} {m : MergedDefinition κ} :
    freshMerge t name = .ok m ↔
      ∃ d rest, Line t (some name) ((name, d) :: rest) ∧ m = .ofAncestry d (rest.map Prod.snd) := by
  constructor
  · intro h
    unfold freshMerge at h
    split at h
    · cases h
    · rename_i d found
      split at h
      · cases h
      · rename_i ancestors hancestors
        cases h
        obtain ⟨line, walk, rfl⟩ := line_of_ancestorsWithin hancestors
        exact ⟨d, line, .cons found walk, rfl⟩
  · rintro ⟨d, rest, walk, rfl⟩
    obtain ⟨more, fresh⟩ := freshMerge_trail walk.toTrail walk.nodup
    rw [fresh, ancestorsWithin_none]
    simp [Except.map]

/-- Exactly the resolvable definitions are merged. -/
theorem exists_freshMerge_iff {name : String} :
    (∃ m, freshMerge t name = .ok m) ↔ Resolvable t name := by
  constructor
  · rintro ⟨m, h⟩
    obtain ⟨d, rest, walk, -⟩ := freshMerge_eq_ok_iff.mp h
    exact ⟨_, walk⟩
  · rintro ⟨line, walk⟩
    cases walk with
    | cons found rest => exact ⟨_, freshMerge_eq_ok_iff.mpr ⟨_, _, .cons found rest, rfl⟩⟩

end ComponentContainer.Container
