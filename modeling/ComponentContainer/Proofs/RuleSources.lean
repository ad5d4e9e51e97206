/-
  File:      ComponentContainer/Proofs/RuleSources.lean
  Subject:   Where rollback rules come from, and which of them are blank.

  A rule can be made for a type or a pattern, read from a text, alone or in a policy, or from the
  settings; and there is one that is given. All of these look at the pattern, but for the first, which
  takes the name of the type as it is.

  * `Visible` -- some character is not blank.
  * `Rule.ofJson_compact` -- **exactly the rules that are visible are read back.**
  * `Rule.matches_all_iff` -- only the empty pattern matches every type where it is thrown.
  * `Source` -- the sources of rules; `Source.visible_iff` -- **a rule is blank exactly if it was made
    for a type with a blank name.**
  * `rules_visible_unless_nameless` -- what this means for reading back and matching.
-/
import ComponentContainer.Proofs.TypeRules
import ComponentContainer.Proofs.WrittenPolicies

namespace ComponentContainer.Rollback

open Text

/-! ## 1. Visible patterns -/

/-- Some character is not blank. -/
def Visible (s : String) : Prop := ∃ c ∈ s.toList, isBlankChar c = false

theorem visible_iff {s : String} : Visible s ↔ isBlank s = false := by
  simp [Visible, isBlank]

instance (s : String) : Decidable (Visible s) := decidable_of_iff _ visible_iff.symm

namespace Rule

variable {r : Rule}

theorem ofPattern_eq_ok_iff {pattern : String} :
    ofPattern pattern = .ok r ↔ Visible pattern ∧ r.pattern = pattern := by
  obtain ⟨own⟩ := r
  rw [visible_iff, ofPattern]
  by_cases blank : isBlank pattern = true
  · simp [blank]
  · simp [blank, eq_comm]

/-- **Exactly the rules that are visible are read back** from their own texts; the texts of the others
    do not fit. -/
theorem ofJson_compact :
    Rule.ofJson r.toJson.compact = if Visible r.pattern then .ok r else .error .unfit := by
  by_cases visible : Visible r.pattern
  · rw [if_pos visible]
    exact (reads_rule (visible_iff.mp visible)).whole
  · have blank : isBlank r.pattern = true := by simpa [visible_iff] using visible
    have text : readString r.toJson.compact.toList = .ok (r.pattern, []) := by
      simpa [Rule.toJson, Json.compact] using reads_string r.pattern []
    have refused : ruleOf r.pattern = .error .unfit := by simp [ruleOf, ofPattern, blank]
    rw [if_neg visible, ofJson, Json.whole, readRule, text]
    simp only [ok_bind, refused]
    rfl

/-- **Only the empty pattern matches every type** at once: there are types without a name. -/
theorem matches_all_iff : (∀ thrown, r.depth thrown = some 0) ↔ r.pattern = "" := by
  constructor
  · intro all
    obtain ⟨nearer, t, above, cut, length, found, -⟩ := depth_eq_some_iff.mp (all (.root ""))
    rw [List.length_eq_zero_iff.mp length] at cut
    cases cut
    simpa [ErrorType.Contains, ErrorType.name] using found
  · intro empty thrown
    obtain ⟨above, line⟩ : ∃ above, thrown.ancestors = thrown :: above := by
      cases thrown with
      | root n => exact ⟨[], rfl⟩
      | child n p => exact ⟨p.ancestors, rfl⟩
    refine depth_eq_some_iff.mpr ⟨[], thrown, above, line, rfl, ?_, fun u mem => nomatch mem⟩
    rw [ErrorType.Contains, empty]
    exact List.nil_infix

end Rule

/-! ## 2. Sources -/

/-- Where a rule can come from. -/
inductive Source where
  /-- It is made for a type. -/
  | type (t : ErrorType)
  /-- It is made for a pattern. -/
  | pattern (text : String)
  /-- It is read: alone, with a demand, or in a policy. -/
  | rule (json : String)
  | policyRule (json : String)
  | policy (json : String)
  /-- It is one of those that the settings make. -/
  | settings (e : Environment)
  /-- It is the one that is given. -/
  | runtimeExceptions

/-- The rules that a source gives. -/
def Source.Gives : Source → Rule → Prop
  | .type t, r => Rule.ofType t = .ok r
  | .pattern text, r => Rule.ofPattern text = .ok r
  | .rule json, r => Rule.ofJson json = .ok r
  | .policyRule json, r => ∃ s, PolicyRule.ofJson json = .ok s ∧ s.rule = r
  | .policy json, r => ∃ p, Policy.ofJson json = .ok p ∧ ∃ s ∈ p.rules, s.rule = r
  | .settings e, r => ∃ p, e.policy = .ok p ∧ ∃ s ∈ p.rules, s.rule = r
  | .runtimeExceptions, r => r = .onRuntimeExceptions

/-- The settings make visible rules only. -/
theorem visible_of_settings {e : Environment} {p : Policy} (made : e.policy = .ok p) :
    ∀ s ∈ p.rules, Visible s.rule.pattern := by
  have visible := visible_of_lists (lists_patterns e "TX_ROLLBACK_FOR")
  have visible' := visible_of_lists (lists_patterns e "TX_NO_ROLLBACK_FOR")
  cases made.symm.trans (Policy.ofPatterns_eq visible visible')
  intro s mem
  rw [visible_iff]
  rcases Policy.mem_ofRules.mp mem with ⟨-, mem⟩ | ⟨-, mem⟩ <;>
    obtain ⟨pattern, listed, own⟩ := List.mem_map.mp mem <;> rw [← own]
  · exact visible pattern listed
  · exact visible' pattern listed

/-- **A rule is blank exactly if it was made for a type with a blank name.** -/
theorem Source.visible_iff {source : Source} {r : Rule} (given : source.Gives r) :
    Visible r.pattern ↔ ∀ t, source = .type t → Visible t.name := by
  cases source with
  | type t =>
      rw [(Rule.ofType_eq_ok_iff.mp given).2]
      exact ⟨fun visible u same => by cases same; exact visible, fun visible => visible t rfl⟩
  | pattern text =>
      obtain ⟨visible, own⟩ := Rule.ofPattern_eq_ok_iff.mp given
      exact iff_of_true (own ▸ visible) (by rintro t ⟨⟩)
  | rule json =>
      have visible := Rollback.visible_iff.mpr (yields_rule.whole given)
      exact iff_of_true visible (by rintro t ⟨⟩)
  | policyRule json =>
      obtain ⟨s, read, rfl⟩ := given
      have visible := Rollback.visible_iff.mpr ((yields_policyRule _).whole read)
      exact iff_of_true visible (by rintro t ⟨⟩)
  | policy json =>
      obtain ⟨p, read, s, mem, rfl⟩ := given
      have visible := Rollback.visible_iff.mpr (filled_of_ofJson read s mem)
      exact iff_of_true visible (by rintro t ⟨⟩)
  | settings e =>
      obtain ⟨p, made, s, mem, rfl⟩ := given
      exact iff_of_true (visible_of_settings made s mem) (by rintro t ⟨⟩)
  | runtimeExceptions =>
      rw [show r = .onRuntimeExceptions from given]
      exact iff_of_true (by decide) (by rintro t ⟨⟩)

/-! ## 3. Blank rules -/

/-- **Rules are visible unless they were made for a type with a blank name.** Whatever the source of a
    rule:

    - its pattern has a character that is not blank, if it was not made for a type whose name has
      none;
    - exactly then it is read back from its own text, and otherwise that text does not fit;
    - it matches every type at once exactly if it was made for a type with the empty name. -/
theorem rules_visible_unless_nameless (source : Source) (r : Rule) (given : source.Gives r) :
    (Visible r.pattern ↔ ∀ t, source = .type t → Visible t.name) ∧
    Rule.ofJson r.toJson.compact = (if Visible r.pattern then .ok r else .error .unfit) ∧
    ((∀ thrown, r.depth thrown = some 0) ↔ ∃ t, source = .type t ∧ t.name = "") := by
  refine ⟨source.visible_iff given, Rule.ofJson_compact, Rule.matches_all_iff.trans ⟨?_, ?_⟩⟩
  · intro empty
    have blank : ¬Visible r.pattern := by
      rw [empty]
      decide
    rw [source.visible_iff given] at blank
    push Not at blank
    obtain ⟨t, rfl, -⟩ := blank
    exact ⟨t, rfl, (Rule.ofType_eq_ok_iff.mp given).2.symm.trans empty⟩
  · rintro ⟨t, rfl, nameless⟩
    exact (Rule.ofType_eq_ok_iff.mp given).2.trans nameless

/-- A rule from the settings: it is visible, it is read back, and it does not match everything. -/
theorem timeout_visible : (Source.settings overlapping).Gives ⟨"Timeout"⟩ ∧ Visible "Timeout" ∧
    Rule.ofJson (Rule.toJson ⟨"Timeout"⟩).compact = .ok ⟨"Timeout"⟩ ∧
    ¬∀ thrown, (Rule.mk "Timeout").depth thrown = some 0 := by
  have given : (Source.settings overlapping).Gives ⟨"Timeout"⟩ := by
    refine ⟨_, Policy.ofPatterns_eq (visible_of_lists (lists_patterns _ _))
      (visible_of_lists (lists_patterns _ _)), ⟨.rollback, ⟨"Timeout"⟩⟩, ?_, rfl⟩
    have listed : "Timeout" ∈ overlapping.rollbackPatterns := by decide +kernel
    exact Policy.mem_ofRules.mpr (.inl ⟨rfl, List.mem_map_of_mem listed⟩)
  obtain ⟨visible, back, all⟩ := rules_visible_unless_nameless _ _ given
  have own : Visible "Timeout" := visible.mpr (by rintro t ⟨⟩)
  rw [if_pos own] at back
  refine ⟨given, own, back, fun every => ?_⟩
  obtain ⟨t, other, -⟩ := all.mp every
  cases other

/-- A type of errors without a name. -/
def nameless : ErrorType := .child "" .throwable

/-- A type of errors with a space for its name. -/
def spaced : ErrorType := .child " " .throwable

/-- **Not all rules are visible.** The rules for these two types are blank and are not read back, and
    the one for the type without a name matches whatever is thrown. -/
theorem nameless_rules_blank :
    (∃ r, (Source.type spaced).Gives r ∧ ¬Visible r.pattern ∧
      Rule.ofJson r.toJson.compact = .error .unfit) ∧
    ∃ r, (Source.type nameless).Gives r ∧ ¬Visible r.pattern ∧
      Rule.ofJson r.toJson.compact = .error .unfit ∧ ∀ thrown, r.depth thrown = some 0 := by
  have space : ¬Visible " " := by decide
  have empty : ¬Visible "" := by decide
  exact ⟨⟨⟨" "⟩, rfl, space, Rule.ofJson_compact.trans (if_neg space)⟩,
    ⟨""⟩, rfl, empty, Rule.ofJson_compact.trans (if_neg empty), Rule.matches_all_iff.mpr rfl⟩

end ComponentContainer.Rollback
