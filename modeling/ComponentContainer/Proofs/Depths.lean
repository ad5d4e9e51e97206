/-
  File:      ComponentContainer/Proofs/Depths.lean
  Subject:   At which depth a rollback rule matches.

  * `ErrorType.ancestors_cut` -- what stands in a line from a type on is the type's own line;
    `ErrorType.nodup_ancestors` -- no type stands in a line twice.
  * `ErrorType.Contains` -- a text is part of a type's name; `Rule.matchesName_iff`.
  * `Rule.depth_eq_some_iff` -- **the depth is the distance to the first type that matches**, with no
    root of all errors before it.
  * `Rule.exists_depth` -- a type that matches bounds the depth, if there is no such root before it.
-/
import ComponentContainer.Rollback.Rule
import Mathlib.Data.List.Infix
import Mathlib.Data.List.Nodup

namespace ComponentContainer.Rollback

/-! ## 1. Lines -/

namespace ErrorType

variable {t thrown : ErrorType} {nearer above : List ErrorType}

theorem mem_of_cut (cut : thrown.ancestors = nearer ++ t :: above) : t ∈ thrown.ancestors := by
  simp [cut]

/-- From each of its types on, a line is the line of that type. -/
theorem ancestors_cut (cut : thrown.ancestors = nearer ++ t :: above) : t.ancestors = t :: above := by
  induction thrown generalizing nearer with
  | root n =>
      cases nearer with
      | nil =>
          cases cut
          rfl
      | cons u nearer => simp [ancestors] at cut
  | child n p ih =>
      cases nearer with
      | nil =>
          cases cut
          rfl
      | cons u nearer => exact ih (List.cons.inj cut).2

/-- A type that stood in its line once more would have a line longer than itself. -/
theorem nodup_ancestors (thrown : ErrorType) : thrown.ancestors.Nodup := by
  induction thrown with
  | root n => exact List.nodup_singleton _
  | child n p ih =>
      refine List.nodup_cons.mpr ⟨fun again => ?_, ih⟩
      obtain ⟨nearer, above, cut⟩ := List.append_of_mem again
      have length := congrArg List.length cut
      rw [← ancestors_cut cut, ancestors, List.length_append, List.length_cons] at length
      omega

end ErrorType

/-! ## 2. Matching -/

/-- The text is a run of characters of the type's name. -/
def ErrorType.Contains (t : ErrorType) (text : String) : Prop := text.toList <:+: t.name.toList

namespace Rule

theorem isPart_iff {part whole : List Char} : isPart part whole = true ↔ part <:+: whole := by
  induction whole with
  | nil => rw [isPart, List.isEmpty_iff, List.infix_nil]
  | cons c rest ih =>
      rw [isPart, Bool.or_eq_true, List.isPrefixOf_iff_prefix, ih, List.infix_cons_iff]

/-- **A rule matches the types whose names contain its pattern.** -/
theorem matchesName_iff {r : Rule} {t : ErrorType} :
    r.matchesName t = true ↔ t.Contains r.pattern := isPart_iff

instance (t : ErrorType) (text : String) : Decidable (t.Contains text) :=
  decidable_of_iff _ (matchesName_iff (r := ⟨text⟩))

variable {r : Rule}

/-- Along a line: the depth is the number of types before the first that matches. -/
theorem depthAlong_eq_some_iff {line : List ErrorType} {d : Nat} :
    r.depthAlong line = some d ↔ ∃ nearer t above, line = nearer ++ t :: above ∧
      nearer.length = d ∧ t.Contains r.pattern ∧
      ∀ u ∈ nearer, ¬u.Contains r.pattern ∧ u.isRootError = false := by
  induction line generalizing d with
  | nil => simp [depthAlong]
  | cons u line ih =>
      rw [depthAlong]
      by_cases matching : u.Contains r.pattern
      · rw [if_pos (matchesName_iff.mpr matching)]
        constructor
        · rintro ⟨⟩
          exact ⟨[], u, line, rfl, rfl, matching, fun _ mem => nomatch mem⟩
        · rintro ⟨nearer, t, above, cut, rfl, -, earlier⟩
          cases nearer with
          | nil => rfl
          | cons u' nearer =>
              cases cut
              exact absurd matching (earlier u List.mem_cons_self).1
      · rw [if_neg (mt matchesName_iff.mp matching)]
        cases root : u.isRootError with
        | true =>
            refine iff_of_false (fun h => nomatch h) ?_
            rintro ⟨nearer, t, above, cut, -, found, earlier⟩
            cases nearer with
            | nil =>
                cases cut
                exact matching found
            | cons u' nearer =>
                cases cut
                rw [(earlier u List.mem_cons_self).2] at root
                cases root
        | false =>
            simp only [Bool.false_eq_true, if_false, Option.map_eq_some_iff, ih]
            constructor
            · rintro ⟨d, ⟨nearer, t, above, rfl, rfl, found, earlier⟩, rfl⟩
              exact ⟨u :: nearer, t, above, rfl, rfl, found,
                List.forall_mem_cons.mpr ⟨⟨matching, root⟩, earlier⟩⟩
            · rintro ⟨nearer, t, above, cut, rfl, found, earlier⟩
              cases nearer with
              | nil =>
                  cases cut
                  exact absurd found matching
              | cons u' nearer =>
                  cases cut
                  exact ⟨_, ⟨nearer, t, above, rfl, rfl, found,
                    (List.forall_mem_cons.mp earlier).2⟩, rfl⟩

/-- **The depth is the distance to the first type that matches**, up to the root of all errors. -/
theorem depth_eq_some_iff {thrown : ErrorType} {d : Nat} :
    r.depth thrown = some d ↔ ∃ nearer t above, thrown.ancestors = nearer ++ t :: above ∧
      nearer.length = d ∧ t.Contains r.pattern ∧
      ∀ u ∈ nearer, ¬u.Contains r.pattern ∧ u.isRootError = false := depthAlong_eq_some_iff

/-- **A type that matches bounds the depth**, if there is no root of all errors before it. The depth
    is the distance to it exactly if no nearer type matches. -/
theorem exists_depth {thrown t : ErrorType} {nearer above : List ErrorType}
    (cut : thrown.ancestors = nearer ++ t :: above) (found : t.Contains r.pattern)
    (below : ∀ u ∈ nearer, u.isRootError = false) :
    ∃ d ≤ nearer.length, r.depth thrown = some d ∧
      (d = nearer.length ↔ ∀ u ∈ nearer, ¬u.Contains r.pattern) := by
  cases first : nearer.find? r.matchesName with
  | none =>
      have unmatched : ∀ u ∈ nearer, ¬u.Contains r.pattern := fun u mem matching =>
        List.find?_eq_none.mp first u mem (matchesName_iff.mpr matching)
      exact ⟨nearer.length, Nat.le_refl _, depth_eq_some_iff.mpr ⟨nearer, t, above, cut, rfl, found,
        fun u mem => ⟨unmatched u mem, below u mem⟩⟩, iff_of_true rfl unmatched⟩
  | some u =>
      obtain ⟨matching, before, after, rfl, unmatched⟩ := List.find?_eq_some_iff_append.mp first
      refine ⟨before.length, by simp, depth_eq_some_iff.mpr ⟨before, u, after ++ t :: above,
        by simpa using cut, rfl, matchesName_iff.mp matching, fun v mem => ⟨fun again => ?_,
          below v (List.mem_append_left _ mem)⟩⟩, iff_of_false (by simp) fun none => ?_⟩
      · have := unmatched v mem
        rw [matchesName_iff.mpr again] at this
        cases this
      · exact none u (by simp) (matchesName_iff.mp matching)

end Rule

end ComponentContainer.Rollback
