/-
  File:      ComponentContainer/Proofs/TypeRules.lean
  Subject:   Rules that are made for types: they match all subtypes, and the nearest decides.

  Rules go by names and kinship by lines. The two agree in a hierarchy where a name denotes one type,
  up to a name that is part of another.

  * `Hierarchy` -- types with all their ancestors, where a name denotes one type.
  * `Hierarchy.below_root` -- under an error type there is no root of all errors.
  * `Hierarchy.depth_eq_some_iff` -- **the depth of a rule is the distance to its type**, if in the
    line no other type's name contains the name of that type.
  * `Hierarchy.leads_iff` -- the best rule is the first of those for the nearest type that has one.
  * `nearest_typeRule_wins` -- both laws of the rules that are made for types.
-/
import ComponentContainer.Proofs.Decisions
import ComponentContainer.Proofs.Depths

namespace ComponentContainer.Rollback

/-! ## 1. Hierarchies -/

/-- Types with all their ancestors, where a name denotes one type. -/
structure Hierarchy where
  types : ErrorType → Prop
  closed : ∀ t, types t → ∀ u ∈ t.ancestors, types u
  named : ∀ t, types t → ∀ u, types u → t.name = u.name → t = u

/-- The type stands in the line of the thrown one, and no root of all errors before it. -/
def ErrorType.Reaches (thrown t : ErrorType) : Prop :=
  ∃ nearer above, thrown.ancestors = nearer ++ t :: above ∧ ∀ u ∈ nearer, u.isRootError = false

/-- In that part of the line, no other type's name contains the name of `t`. -/
def ErrorType.Separates (thrown t : ErrorType) : Prop :=
  ∀ u, thrown.Reaches u → u.Contains t.name → u = t

/-- The rule is the one for the type. -/
def PolicyRule.IsFor (r : PolicyRule) (t : ErrorType) : Prop := Rule.ofType t = .ok r.rule

theorem ErrorType.isErrorType_iff {t : ErrorType} :
    t.isErrorType = true ↔ ∃ u ∈ t.ancestors, u.isRootError = true := List.any_eq_true

theorem Rule.ofType_eq_ok_iff {t : ErrorType} {r : Rule} :
    Rule.ofType t = .ok r ↔ t.isErrorType = true ∧ r.pattern = t.name := by
  obtain ⟨pattern⟩ := r
  unfold Rule.ofType
  by_cases fits : t.isErrorType = true
  · simp [fits, eq_comm]
  · simp [fits]

instance (r : PolicyRule) (t : ErrorType) : Decidable (r.IsFor t) :=
  decidable_of_iff _ Rule.ofType_eq_ok_iff.symm

/-- The rule for a type matches that type. -/
theorem PolicyRule.IsFor.matched {r : PolicyRule} {t : ErrorType} (made : r.IsFor t) :
    t.Contains r.rule.pattern := by
  rw [(Rule.ofType_eq_ok_iff.mp made).2]
  exact List.infix_rfl

namespace Hierarchy

variable {h : Hierarchy} {thrown t : ErrorType} {nearer above : List ErrorType} {r : PolicyRule}

/-- **Under an error type there is no root of all errors**: it is one type, which stands above. -/
theorem below_root (h : Hierarchy) (member : h.types thrown)
    (cut : thrown.ancestors = nearer ++ t :: above) (fits : t.isErrorType = true) :
    ∀ u ∈ nearer, u.isRootError = false := by
  intro u mem
  obtain ⟨top, up, rootError⟩ := ErrorType.isErrorType_iff.mp fits
  have line : top ∈ t :: above := ErrorType.ancestors_cut cut ▸ up
  have known : ∀ v ∈ nearer ++ t :: above, h.types v := cut ▸ h.closed thrown member
  have apart := (List.nodup_append.mp (cut ▸ thrown.nodup_ancestors)).2.2
  by_contra other
  have alike : u.name = top.name := by
    simp only [ErrorType.isRootError, ErrorType.same, Bool.not_eq_false, beq_iff_eq]
      at other rootError
    exact other.trans rootError.symm
  exact apart u mem top line (h.named u (known u (List.mem_append_left _ mem)) top
    (known top (List.mem_append_right _ line)) alike)

/-- No type stands in a line before itself. -/
theorem not_mem_nearer (cut : thrown.ancestors = nearer ++ t :: above) : t ∉ nearer := fun mem =>
  (List.nodup_append.mp (cut ▸ thrown.nodup_ancestors)).2.2 t mem t List.mem_cons_self rfl

/-- **The depth of the rule for a type is the distance to that type**, if no other type's name
    contains its name. -/
theorem depth_eq_some_iff (h : Hierarchy) (member : h.types thrown) (made : r.IsFor t)
    (separate : thrown.Separates t) {d : Nat} : r.depth thrown = some d ↔
      ∃ nearer above, thrown.ancestors = nearer ++ t :: above ∧ nearer.length = d := by
  obtain ⟨fits, pattern⟩ := Rule.ofType_eq_ok_iff.mp made
  rw [PolicyRule.depth, Rule.depth_eq_some_iff]
  constructor
  · rintro ⟨nearer, u, above, cut, length, found, earlier⟩
    have own : u = t :=
      separate u ⟨nearer, above, cut, fun v mem => (earlier v mem).2⟩ (pattern ▸ found)
    exact ⟨nearer, above, own ▸ cut, length⟩
  · rintro ⟨nearer, above, cut, length⟩
    have below := h.below_root member cut fits
    refine ⟨nearer, t, above, cut, length, made.matched, fun u mem => ⟨fun again => ?_, below u mem⟩⟩
    obtain ⟨before, after, rfl⟩ := List.append_of_mem mem
    have own : u = t := separate u ⟨before, after ++ t :: above, by simpa using cut,
      fun v earlier => below v (List.mem_append_left _ earlier)⟩ (pattern ▸ again)
    exact not_mem_nearer cut (own ▸ mem)

end Hierarchy

/-! ## 2. The nearest type with a rule -/

/-- Each rule is made for a type of the hierarchy that stands apart in the line. -/
def Hierarchy.Rules (h : Hierarchy) (thrown : ErrorType) (rules : List PolicyRule) : Prop :=
  ∀ r ∈ rules, ∃ t, h.types t ∧ r.IsFor t ∧ thrown.Separates t

/-- The first rule for the nearest type in the line that has one; it stands at this distance. -/
def Nearest (thrown : ErrorType) (rules : List PolicyRule) (r : PolicyRule) (d : Nat) : Prop :=
  ∃ nearer t above before after, thrown.ancestors = nearer ++ t :: above ∧ nearer.length = d ∧
    rules = before ++ r :: after ∧ r.IsFor t ∧
    (∀ u ∈ nearer, ∀ s ∈ rules, ¬s.IsFor u) ∧ ∀ s ∈ before, ¬s.IsFor t

namespace Hierarchy

variable {h : Hierarchy} {thrown : ErrorType} {rules : List PolicyRule} {r : PolicyRule} {d : Nat}

/-- Each of the rules has the distance to its type for its depth. -/
theorem Rules.depth_iff (given : h.Rules thrown rules) (member : h.types thrown) (mem : r ∈ rules) :
    r.depth thrown = some d ↔ ∃ nearer t above, thrown.ancestors = nearer ++ t :: above ∧
      nearer.length = d ∧ r.IsFor t := by
  obtain ⟨t, known, made, separate⟩ := given r mem
  rw [h.depth_eq_some_iff member made separate]
  constructor
  · rintro ⟨nearer, above, cut, length⟩
    exact ⟨nearer, t, above, cut, length, made⟩
  · rintro ⟨nearer, u, above, cut, length, other⟩
    have alike : u.name = t.name :=
      (Rule.ofType_eq_ok_iff.mp other).2.symm.trans (Rule.ofType_eq_ok_iff.mp made).2
    have line := ErrorType.mem_of_cut cut
    exact ⟨nearer, above, h.named u (h.closed thrown member u line) t known alike ▸ cut, length⟩

/-- None of the rules matches exactly if no type in the line has one. -/
theorem Rules.unmatched_iff (given : h.Rules thrown rules) (member : h.types thrown) :
    (∀ r ∈ rules, r.depth thrown = none) ↔ ∀ t ∈ thrown.ancestors, ∀ r ∈ rules, ¬r.IsFor t := by
  constructor
  · intro unmatched t line r mem made
    obtain ⟨nearer, above, cut⟩ := List.append_of_mem line
    have depth := (given.depth_iff member mem).mpr ⟨nearer, t, above, cut, rfl, made⟩
    rw [unmatched r mem] at depth
    cases depth
  · intro none r mem
    refine Option.eq_none_iff_forall_ne_some.mpr fun d depth => ?_
    obtain ⟨nearer, t, above, cut, -, made⟩ := (given.depth_iff member mem).mp depth
    exact none t (ErrorType.mem_of_cut cut) r mem made

/-- **The best rule is the first of those for the nearest type that has one.** -/
theorem Rules.leads_iff (given : h.Rules thrown rules) (member : h.types thrown) :
    Policy.Leads thrown rules (some (d, r)) ↔ Nearest thrown rules r d := by
  constructor
  · intro leads
    obtain ⟨before, after, split, own, first, -⟩ := id leads
    obtain ⟨nearer, t, above, cut, length, made⟩ := (given.depth_iff member leads.mem).mp own
    refine ⟨nearer, t, above, before, after, cut, length, split, made, fun u closer s mem other => ?_,
      fun s mem other => ?_⟩
    · obtain ⟨near, between, rfl⟩ := List.append_of_mem closer
      have depth := (given.depth_iff member mem).mpr
        ⟨near, u, between ++ t :: above, by simpa using cut, rfl, other⟩
      have := leads.least mem depth
      simp at length
      omega
    · have depth := (given.depth_iff member (split ▸ List.mem_append_left _ mem)).mpr
        ⟨nearer, t, above, cut, length, other⟩
      exact absurd (first s mem d depth) (Nat.lt_irrefl d)
  · rintro ⟨nearer, t, above, before, after, cut, rfl, split, made, closer, earlier⟩
    have mem : r ∈ rules := split ▸ List.mem_append_right _ List.mem_cons_self
    have own := (given.depth_iff member mem).mpr ⟨nearer, t, above, cut, rfl, made⟩
    -- a rule with a smaller depth has its type among the nearer ones
    have least : ∀ s ∈ rules, ∀ d', s.depth thrown = some d' → nearer.length ≤ d' ∧
        (d' = nearer.length → s.IsFor t) := by
      intro s mem d' depth
      obtain ⟨near, u, rest, cut', rfl, other⟩ := (given.depth_iff member mem).mp depth
      rcases Policy.cut_cases (cut.symm.trans cut') with ⟨rfl, rfl⟩ | ⟨longer, -⟩ | ⟨-, nearby⟩
      · exact ⟨Nat.le_refl _, fun _ => other⟩
      · omega
      · exact absurd other (closer u nearby s mem)
    refine ⟨before, after, split, own, fun s mem d' depth => ?_, fun s mem d' depth => ?_⟩
    · obtain ⟨bound, same⟩ := least s (split ▸ List.mem_append_left _ mem) d' depth
      by_cases equal : d' = nearer.length
      · exact absurd (same equal) (earlier s mem)
      · omega
    · exact (least s (split ▸ List.mem_append_right _ (List.mem_cons_of_mem r mem)) d' depth).1

end Hierarchy

/-! ## 3. The two laws -/

/-- **Rules that are made for types.** In a hierarchy where a name denotes one type, for every type
    that is thrown:

    - there is a rule for each error type in its line. Its depth is at most the distance to that type,
      and the distance itself exactly if no nearer type's name contains the name of that type;
    - if all rules are made for types, and in the line up to the root of all errors no other type's
      name contains the name of one of these, then no rule wins exactly if no type in the line has
      one, and otherwise the first of those for the nearest type that has one. -/
theorem nearest_typeRule_wins (h : Hierarchy) (thrown : ErrorType) (member : h.types thrown) :
    (∀ nearer t above, thrown.ancestors = nearer ++ t :: above → t.isErrorType = true →
      ∃ r, Rule.ofType t = .ok r ∧ ∃ d ≤ nearer.length, r.depth thrown = some d ∧
        (d = nearer.length ↔ ∀ u ∈ nearer, ¬u.Contains t.name)) ∧
    ∀ p : Policy, h.Rules thrown p.rules →
      (p.winner thrown = none ↔ ∀ t ∈ thrown.ancestors, ∀ r ∈ p.rules, ¬r.IsFor t) ∧
      ∀ r, p.winner thrown = some r ↔ ∃ d, Nearest thrown p.rules r d := by
  refine ⟨fun nearer t above cut fits => ?_, fun p given => ⟨?_, fun r => ?_⟩⟩
  · have made : Rule.ofType t = .ok ⟨t.name⟩ := Rule.ofType_eq_ok_iff.mpr ⟨fits, rfl⟩
    exact ⟨⟨t.name⟩, made, Rule.exists_depth cut List.infix_rfl (h.below_root member cut fits)⟩
  · rw [Policy.winner_eq_none_iff, given.unmatched_iff member]
  · rw [Policy.winner_eq_some_iff]
    exact exists_congr fun d => given.leads_iff member

/-- The built-in types and one below the exceptions of input and output. -/
def withRemoteAccess : Hierarchy where
  types t := t ∈ remoteAccess :: ErrorType.builtIn
  closed := by decide
  named := by decide

/-- A rule for all exceptions, and behind it two for a type that is nearer to `remoteAccess`. -/
def guarded : Policy :=
  ⟨[⟨.rollback, ⟨"lang::Exception"⟩⟩, ⟨.noRollback, ⟨"io::IOException"⟩⟩,
    ⟨.rollback, ⟨"io::IOException"⟩⟩]⟩

/-- The rules for the nearer type win over the one that is listed first, and of these two the first
    wins. -/
theorem guarded_nearest_wins : withRemoteAccess.types remoteAccess ∧
    withRemoteAccess.Rules remoteAccess guarded.rules ∧
    (∃ r, Rule.ofType .ioException = .ok r ∧ r.depth remoteAccess = some 1) ∧
    guarded.winner remoteAccess = some ⟨.noRollback, ⟨"io::IOException"⟩⟩ := by
  have member : withRemoteAccess.types remoteAccess := List.mem_cons_self
  have made : ∀ r ∈ guarded.rules, ∃ t ∈ [ErrorType.exception, .ioException], r.IsFor t := by decide
  have known : ∀ t ∈ [ErrorType.exception, .ioException], t ∈ remoteAccess :: ErrorType.builtIn := by
    decide
  have apart : ∀ t ∈ [ErrorType.exception, .ioException], ∀ u ∈ remoteAccess.ancestors,
      u.Contains t.name → u = t := by decide
  have given : withRemoteAccess.Rules remoteAccess guarded.rules := by
    intro r mem
    obtain ⟨t, mem, made⟩ := made r mem
    refine ⟨t, known t mem, made, ?_⟩
    rintro u ⟨nearer, above, cut, -⟩
    exact apart t mem u (ErrorType.mem_of_cut cut)
  obtain ⟨depths, winners⟩ := nearest_typeRule_wins withRemoteAccess remoteAccess member
  refine ⟨member, given, ?_, ((winners guarded given).2 _).mpr ?_⟩
  · obtain ⟨r, made, d, -, depth, exact⟩ :=
      depths [remoteAccess] .ioException ErrorType.ioException.ancestors.tail rfl (by decide)
    have distance : d = 1 := exact.mpr (by decide)
    exact ⟨r, made, distance ▸ depth⟩
  · exact ⟨1, [remoteAccess], .ioException, _, guarded.rules.take 1, guarded.rules.drop 2, rfl, rfl,
      rfl, by decide, by decide, by decide⟩

end ComponentContainer.Rollback
