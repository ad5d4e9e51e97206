/-
  File:      ComponentContainer/Proofs/Dependencies.lean
  Subject:   Components that need other components.

  * `Needs` -- the graph: which names the supplier of a definition asks for.
  * `Creatable` -- the name has a definition that a component can be made from.
  * `Satisfiable` -- all that is reached from a name can be made, and nothing of it is on a circle.
  * `Grounded` -- the same from the bottom up: a name is grounded if it can be made and all that it
    needs is grounded.
  * `grounded_iff_satisfiable` -- **both say the same**, for there are finitely many definitions.
-/
import ComponentContainer.Proofs.Lineage
import Mathlib.Logic.Relation

namespace ComponentContainer.Container

open Relation

variable {κ : Type} {t : Table (Definition κ)} {needs : κ → List String} {n m : String}

/-! ## 1. The graph -/

/-- The supplier of the one name asks for the other. -/
def Needs (t : Table (Definition κ)) (needs : κ → List String) (n m : String) : Prop :=
  ∃ d, t.find? n = some d ∧ m ∈ needs d.supplier

theorem needs_iff {d : Definition κ} (found : t.find? n = some d) :
    Needs t needs n m ↔ m ∈ needs d.supplier := by
  constructor
  · rintro ⟨d', found', hm⟩
    rw [found] at found'
    cases found'
    exact hm
  · exact fun hm => ⟨d, found, hm⟩

/-- A component can be made from the definition of that name: it is of a component and no template,
    and its parents are there. -/
def Creatable (t : Table (Definition κ)) (n : String) : Prop :=
  ∃ d, t.find? n = some d ∧ d.kind = .component ∧ d.template = false ∧ Resolvable t n

/-- **All that is reached from the name can be made, and nothing of it is on a circle.** -/
structure Satisfiable (t : Table (Definition κ)) (needs : κ → List String) (n : String) : Prop where
  creatable : ∀ m, ReflTransGen (Needs t needs) n m → Creatable t m
  acyclic : ∀ m, ReflTransGen (Needs t needs) n m → ¬ TransGen (Needs t needs) m m

/-- The name can be made, and so can all that it needs, from the bottom up. -/
inductive Grounded (t : Table (Definition κ)) (needs : κ → List String) : String → Prop
  | intro {n : String} (creatable : Creatable t n)
      (below : ∀ m, Needs t needs n m → Grounded t needs m) : Grounded t needs n

theorem Creatable.mem_keys (h : Creatable t n) : n ∈ t.keys := by
  obtain ⟨d, found, -⟩ := h
  exact (t.contains_iff_mem_keys n).mp (by rw [Table.contains, found]; rfl)

/-! ## 2. From the bottom up -/

theorem Grounded.creatable (h : Grounded t needs n) : Creatable t n := by
  cases h with
  | intro creatable below => exact creatable

theorem Grounded.needed (h : Grounded t needs n) (edge : Needs t needs n m) :
    Grounded t needs m := by
  cases h with
  | intro creatable below => exact below m edge

theorem Grounded.reached (h : Grounded t needs n) (path : ReflTransGen (Needs t needs) n m) :
    Grounded t needs m := by
  induction path with
  | refl => exact h
  | tail _ edge ih => exact ih.needed edge

/-- What is grounded is on no circle: the circle would go through something below. -/
theorem Grounded.acyclic (h : Grounded t needs n) : ¬ TransGen (Needs t needs) n n := by
  induction h with
  | @intro n creatable below ih =>
      intro circle
      obtain ⟨m, edge, path⟩ := TransGen.head'_iff.mp circle
      exact ih m edge (TransGen.tail' path edge)

theorem Satisfiable.needed (h : Satisfiable t needs n) (edge : Needs t needs n m) :
    Satisfiable t needs m where
  creatable k path := h.creatable k (.head edge path)
  acyclic k path := h.acyclic k (.head edge path)

/-- A name is grounded if it is satisfiable and there is room for what is above it. The names above
    are distinct and registered; so with each step down there is less room. -/
theorem grounded_of_room {room : Nat} {above : List String} (h : Satisfiable t needs n)
    (distinct : above.Nodup) (registered : above ⊆ t.keys)
    (paths : ∀ x ∈ above, TransGen (Needs t needs) x n)
    (less : t.keys.length ≤ above.length + room) : Grounded t needs n := by
  induction room generalizing n above with
  | zero =>
      have known : n ∈ t.keys := (h.creatable n .refl).mem_keys
      have full : t.keys ⊆ above :=
        ((distinct.subperm registered).perm_of_length_le less).symm.subset
      exact absurd (paths n (full known)) (h.acyclic n .refl)
  | succ room ih =>
      have new : n ∉ above := fun hn => h.acyclic n .refl (paths n hn)
      refine .intro (h.creatable n .refl) fun m edge => ?_
      refine ih (h.needed edge) (List.nodup_cons.mpr ⟨new, distinct⟩)
        (List.cons_subset.mpr ⟨(h.creatable n .refl).mem_keys, registered⟩) ?_ ?_
      · intro x hx
        rcases List.mem_cons.mp hx with rfl | hx
        · exact .single edge
        · exact (paths x hx).tail edge
      · rw [List.length_cons]
        omega

/-- **From the bottom up and from the top down it is the same.** -/
theorem grounded_iff_satisfiable : Grounded t needs n ↔ Satisfiable t needs n := by
  constructor
  · intro h
    exact ⟨fun m path => (h.reached path).creatable, fun m path => (h.reached path).acyclic⟩
  · intro h
    exact grounded_of_room h List.nodup_nil (List.nil_subset _)
      (fun x hx => absurd hx List.not_mem_nil) (Nat.le_add_left _ _)

end ComponentContainer.Container
