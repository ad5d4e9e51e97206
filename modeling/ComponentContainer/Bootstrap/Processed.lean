/-
  File:      ComponentContainer/Bootstrap/Processed.lean
  Subject:   The names of the extensions that a bootstrap has dealt with.

  * `Processed` -- distinct names in the order in which they were dealt with.
  * `Processed.insert` -- adds a name; a name that is there stays where it is. No operation takes a
    name away.
-/
namespace ComponentContainer

/-- Distinct names in the order in which they were dealt with. -/
structure Processed where
  names : List String
  distinct : names.Nodup
  deriving DecidableEq

namespace Processed

/-- No names. -/
def empty : Processed := ⟨[], List.nodup_nil⟩

instance : Inhabited Processed := ⟨empty⟩

/-- The name has been dealt with. -/
def contains (p : Processed) (name : String) : Bool := p.names.contains name

/-- The number of names. -/
def size (p : Processed) : Nat := p.names.length

/-- Adds a name at the end unless it is there. -/
def insert (p : Processed) (name : String) : Processed :=
  if h : name ∈ p.names then p
  else ⟨p.names ++ [name], by
    rw [List.nodup_append]
    refine ⟨p.distinct, by simp, ?_⟩
    intro a ha b hb
    rw [List.mem_singleton] at hb
    rintro rfl
    exact h (hb ▸ ha)⟩

theorem names_insert (p : Processed) (name : String) :
    (p.insert name).names = if name ∈ p.names then p.names else p.names ++ [name] := by
  unfold insert
  split <;> rfl

theorem mem_names_insert (p : Processed) (name other : String) :
    other ∈ (p.insert name).names ↔ other = name ∨ other ∈ p.names := by
  rw [names_insert]
  split
  next h =>
    constructor
    · exact Or.inr
    · rintro (rfl | h')
      · exact h
      · exact h'
  next => simp [or_comm]

theorem contains_iff (p : Processed) (name : String) : p.contains name = true ↔ name ∈ p.names :=
  List.contains_iff_mem

theorem contains_insert_of_ne (p : Processed) {name other : String} (h : other ≠ name) :
    (p.insert name).contains other = p.contains other := by
  rw [Bool.eq_iff_iff, contains_iff, contains_iff, mem_names_insert]
  exact or_iff_right h

end Processed

end ComponentContainer
