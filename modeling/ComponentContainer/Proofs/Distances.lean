/-
  File:      ComponentContainer/Proofs/Distances.lean
  Subject:   How far a rollback rule looks along the line of a thrown type.

  * `FirstMet` -- a pattern is first met at that distance, and no root of all errors stands nearer.
  * `ErrorType.visible` -- the names up to the first root of all errors; `Rule.depth_eq_findIdx?` --
    **a depth is a place among these**, so that what stands above has no say.
  * `ErrorType.replaceAbove` -- another line above the first root of all errors.
  * `depth_is_distance` -- both laws of the depth, for all lines and all patterns.
-/
import ComponentContainer.Proofs.Depths

namespace ComponentContainer.Rollback

/-! ## 1. The first match -/

/-- **The pattern is first met at that distance** from the thrown type: the type there has it in its
    name, no nearer one has, and no nearer one has the name of the root of all errors. -/
structure FirstMet (thrown : ErrorType) (pattern : String) (d : Nat) : Prop where
  met : ∃ t, thrown.ancestors[d]? = some t ∧ t.Contains pattern
  unmet : ∀ i < d, ∀ u, thrown.ancestors[i]? = some u → ¬u.Contains pattern
  below : ∀ i < d, ∀ u, thrown.ancestors[i]? = some u → u.name ≠ ErrorType.throwable.name

theorem ErrorType.isRootError_eq_false_iff {t : ErrorType} :
    t.isRootError = false ↔ t.name ≠ throwable.name := beq_eq_false_iff_ne

/-- What stands at some distance cuts the row there. -/
theorem cut_at {α : Type} {row : List α} {d : Nat} {t : α} (here : row[d]? = some t) :
    row = row.take d ++ t :: row.drop (d + 1) ∧ (row.take d).length = d := by
  obtain ⟨inside, rfl⟩ := List.getElem?_eq_some_iff.mp here
  refine ⟨?_, List.length_take_of_le (Nat.le_of_lt inside)⟩
  rw [← List.drop_eq_getElem_cons inside, List.take_append_drop]

/-- The first match, said by the types that stand before it. -/
theorem firstMet_iff {thrown : ErrorType} {pattern : String} {d : Nat} :
    FirstMet thrown pattern d ↔ ∃ nearer t above, thrown.ancestors = nearer ++ t :: above ∧
      nearer.length = d ∧ t.Contains pattern ∧
      ∀ u ∈ nearer, ¬u.Contains pattern ∧ u.isRootError = false := by
  constructor
  · rintro ⟨⟨t, here, found⟩, unmet, below⟩
    obtain ⟨cut, length⟩ := cut_at here
    refine ⟨_, t, _, cut, length, found, fun u mem => ?_⟩
    obtain ⟨i, near, rfl⟩ := List.mem_take_iff_getElem.mp mem
    obtain ⟨near, inside⟩ := Nat.lt_min.mp near
    have at_i : thrown.ancestors[i]? = some thrown.ancestors[i] := List.getElem?_eq_getElem inside
    exact ⟨unmet i near _ at_i, ErrorType.isRootError_eq_false_iff.mpr (below i near _ at_i)⟩
  · rintro ⟨nearer, t, above, cut, rfl, found, earlier⟩
    have nearby {i : Nat} {u : ErrorType} (near : i < nearer.length)
        (here : thrown.ancestors[i]? = some u) : u ∈ nearer := by
      rw [cut, List.getElem?_append_left near] at here
      exact List.mem_of_getElem? here
    refine ⟨⟨t, by simp [cut], found⟩, fun i near u here => ?_, fun i near u here => ?_⟩
    · exact (earlier u (nearby near here)).1
    · exact ErrorType.isRootError_eq_false_iff.mp (earlier u (nearby near here)).2

/-! ## 2. What can be seen of a line -/

namespace ErrorType

/-- The names from the type itself up to the first root of all errors, which is the last; all names
    of the line if there is no such root. -/
def visible : ErrorType → List String
  | .root n => [n]
  | .child n p => if n = throwable.name then [n] else n :: p.visible

/-- The type of that name with that parent, if any. -/
def ofParent (name : String) : Option ErrorType → ErrorType
  | none => .root name
  | some parent => .child name parent

/-- The line with all that stands above its first root of all errors replaced. -/
def replaceAbove (above : Option ErrorType) : ErrorType → ErrorType
  | .root n => if n = throwable.name then ofParent n above else .root n
  | .child n p => if n = throwable.name then ofParent n above else .child n (p.replaceAbove above)

theorem visible_ofParent (above : Option ErrorType) :
    (ofParent throwable.name above).visible = [throwable.name] := by
  cases above with
  | none => rfl
  | some parent => exact if_pos rfl

/-- What can be seen does not depend on what stands above. -/
theorem visible_replaceAbove (above : Option ErrorType) (t : ErrorType) :
    (t.replaceAbove above).visible = t.visible := by
  induction t with
  | root n =>
      by_cases top : n = throwable.name
      · subst top
        rw [replaceAbove, if_pos rfl, visible_ofParent, visible]
      · rw [replaceAbove, if_neg top]
  | child n p ih =>
      by_cases top : n = throwable.name
      · subst top
        rw [replaceAbove, if_pos rfl, visible_ofParent, visible, if_pos rfl]
      · rw [replaceAbove, if_neg top, visible, visible, if_neg top, if_neg top, ih]

end ErrorType

/-- **The depth is the place of the first name that has the pattern, among those that can be seen.**
    The induction is on the line: the root of all errors is looked at, and nothing beyond it. -/
theorem Rule.depth_eq_findIdx? (r : Rule) (thrown : ErrorType) :
    r.depth thrown =
      thrown.visible.findIdx? fun name => isPart r.pattern.toList name.toList := by
  induction thrown with
  | root n =>
      rw [depth, ErrorType.ancestors, depthAlong, depthAlong, Option.map_none, ite_self,
        ErrorType.visible, List.findIdx?_cons, List.findIdx?_nil]
      rfl
  | child n p ih =>
      rw [depth, ErrorType.ancestors, depthAlong, ErrorType.visible]
      by_cases top : n = ErrorType.throwable.name
      · have last : (ErrorType.child n p).isRootError = true := beq_iff_eq.mpr top
        rw [if_pos last, if_pos top, List.findIdx?_cons, List.findIdx?_nil]
        rfl
      · have inside : ¬(ErrorType.child n p).isRootError = true := fun last =>
          top (beq_iff_eq.mp last)
        rw [if_neg inside, if_neg top, List.findIdx?_cons, ← ih]
        rfl

/-! ## 3. Depths -/

/-- **The depth is the distance to the first match** at or below the first root of all errors, and
    there is none exactly if the pattern is not met there. What stands above that root has no say:
    with another line above it, or above none, all patterns have the same depths; and so they have in
    all lines of which the same names can be seen. -/
theorem depth_is_distance (r : Rule) (thrown : ErrorType) :
    (∀ d, r.depth thrown = some d ↔ FirstMet thrown r.pattern d) ∧
      (r.depth thrown = none ↔ ¬∃ d, FirstMet thrown r.pattern d) ∧
      (∀ above, r.depth (thrown.replaceAbove above) = r.depth thrown) ∧
      ∀ other : ErrorType, other.visible = thrown.visible → r.depth other = r.depth thrown := by
  have places (d : Nat) : r.depth thrown = some d ↔ FirstMet thrown r.pattern d :=
    Rule.depth_eq_some_iff.trans firstMet_iff.symm
  have unseen (other : ErrorType) (same : other.visible = thrown.visible) :
      r.depth other = r.depth thrown := by
    rw [Rule.depth_eq_findIdx?, Rule.depth_eq_findIdx?, same]
  refine ⟨places, ?_, fun above => unseen _ (ErrorType.visible_replaceAbove above thrown), unseen⟩
  rw [Option.eq_none_iff_forall_ne_some]
  constructor
  · rintro none ⟨d, met⟩
    exact none d ((places d).mpr met)
  · exact fun unmet d some => unmet ⟨d, (places d).mp some⟩

/-- A line with two roots of all errors, and a type between them. -/
def twiceRooted : ErrorType :=
  .child "remote::Timeout" (.child "lang::Throwable" (.child "remote::Cause" .throwable))

/-- The lower root is found, and the type above it is not, whatever stands there; and a line that ends
    with the lower root is as good. -/
theorem twiceRooted_seen_to_lower_root :
    FirstMet twiceRooted "Throwable" 1 ∧ (¬∃ d, FirstMet twiceRooted "Cause" d) ∧
      Rule.depth ⟨"Cause"⟩ (twiceRooted.replaceAbove none) = none ∧
      Rule.depth ⟨"Throwable"⟩ (.child "remote::Timeout" (.root "lang::Throwable")) = some 1 := by
  obtain ⟨places, -, -, unseen⟩ := depth_is_distance ⟨"Throwable"⟩ twiceRooted
  obtain ⟨-, absent, replaced, -⟩ := depth_is_distance ⟨"Cause"⟩ twiceRooted
  have found : Rule.depth ⟨"Throwable"⟩ twiceRooted = some 1 := by decide
  have missed : Rule.depth ⟨"Cause"⟩ twiceRooted = none := by decide
  exact ⟨(places 1).mp found, absent.mp missed, (replaced none).trans missed,
    (unseen _ rfl).trans found⟩

end ComponentContainer.Rollback
