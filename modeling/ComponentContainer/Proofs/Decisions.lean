/-
  File:      ComponentContainer/Proofs/Decisions.lean
  Subject:   What a rollback policy decides, and the policy that the settings make.

  * `Policy.Leads` -- the rule of the least depth, and the first of those; `Policy.leads_foldl` -- it
    is the one that is found by going through the rules once; `Policy.winner_eq_some_iff`.
  * `Policy.rollsBack_iff` -- **a demand wins if it is met nearest**, and of two demands that are met
    at the same depth the one for a rollback, for its rules come first.
  * `Policy.ofPatterns_eq` -- patterns that are not blank make a policy.
  * `settings_decide` -- **from the texts of the two settings to the decision.**
-/
import ComponentContainer.Environment.Settings
import ComponentContainer.Proofs.Patterns
import Mathlib.Data.List.Induction

namespace ComponentContainer.Rollback

open Text

/-! ## 1. The rule that wins -/

namespace Policy

variable {thrown : ErrorType} {rules : List PolicyRule}

/-- The best of some rules: none of them matches, or this one does at that depth, none does at a
    smaller one, and none before it at the same. -/
def Leads (thrown : ErrorType) (rules : List PolicyRule) : Option (Nat × PolicyRule) → Prop
  | none => ∀ r ∈ rules, r.depth thrown = none
  | some (d, best) => ∃ before after, rules = before ++ best :: after ∧ best.depth thrown = some d ∧
      (∀ r ∈ before, ∀ d', r.depth thrown = some d' → d < d') ∧
      ∀ r ∈ after, ∀ d', r.depth thrown = some d' → d ≤ d'

theorem Leads.mem {d : Nat} {best : PolicyRule} (h : Leads thrown rules (some (d, best))) :
    best ∈ rules := by
  obtain ⟨before, after, rfl, -⟩ := h
  simp

/-- No rule matches at a smaller depth. -/
theorem Leads.least {d d' : Nat} {best r : PolicyRule} (h : Leads thrown rules (some (d, best)))
    (mem : r ∈ rules) (depth : r.depth thrown = some d') : d ≤ d' := by
  obtain ⟨before, after, rfl, own, first, rest⟩ := h
  rcases List.mem_append.mp mem with mem | mem
  · exact Nat.le_of_lt (first r mem d' depth)
  · rcases List.mem_cons.mp mem with rfl | mem
    · rw [own] at depth
      cases depth
      exact Nat.le_refl d
    · exact rest r mem d' depth

/-- **One more rule.** Only if it matches at a smaller depth than the best so far, it is the best. -/
theorem Leads.better {best : Option (Nat × PolicyRule)} (h : Leads thrown rules best)
    (rule : PolicyRule) : Leads thrown (rules ++ [rule]) (better thrown best rule) := by
  cases depth : rule.depth thrown with
  | none =>
      simp only [Policy.better, depth]
      cases best with
      | none => exact List.forall_mem_append.mpr ⟨h, List.forall_mem_singleton.mpr depth⟩
      | some led =>
          obtain ⟨before, after, rfl, own, first, rest⟩ := h
          refine ⟨before, after ++ [rule], by simp, own, first,
            List.forall_mem_append.mpr ⟨rest, List.forall_mem_singleton.mpr fun d' hd => ?_⟩⟩
          rw [depth] at hd
          cases hd
  | some d =>
      cases best with
      | none =>
          simp only [Policy.better, depth]
          refine ⟨rules, [], rfl, depth, fun r mem d' hd => ?_, fun r mem => nomatch mem⟩
          rw [h r mem] at hd
          cases hd
      | some led =>
          obtain ⟨least, best⟩ := led
          simp only [Policy.better, depth]
          by_cases smaller : d < least
          · rw [if_pos smaller]
            refine ⟨rules, [], rfl, depth, fun r mem d' hd => ?_, fun r mem => nomatch mem⟩
            have := h.least mem hd
            omega
          · rw [if_neg smaller]
            obtain ⟨before, after, rfl, own, first, rest⟩ := h
            refine ⟨before, after ++ [rule], by simp, own, first,
              List.forall_mem_append.mpr ⟨rest, List.forall_mem_singleton.mpr fun d' hd => ?_⟩⟩
            rw [depth] at hd
            cases hd
            omega

/-- **Going through the rules once finds the best of them.** -/
theorem leads_foldl (thrown : ErrorType) (rules : List PolicyRule) :
    Leads thrown rules (rules.foldl (Policy.better thrown) none) := by
  induction rules using List.reverseRecOn with
  | nil => exact fun r mem => nomatch mem
  | append_singleton rules rule ih =>
      rw [List.foldl_append]
      exact ih.better rule

/-- Two places in one list: they are the same, or the one stands before the other. -/
theorem cut_cases {α : Type} {before before' after after' : List α} {a a' : α}
    (cut : before ++ a :: after = before' ++ a' :: after') :
    (before = before' ∧ a = a') ∨ (before.length < before'.length ∧ a ∈ before') ∨
      (before'.length < before.length ∧ a' ∈ before) := by
  rcases List.append_eq_append_iff.mp cut with ⟨more, begin, rest⟩ | ⟨more, begin, rest⟩ <;>
    cases more with
    | nil =>
        cases rest
        simp [begin]
    | cons b more =>
        cases rest
        simp [begin]

/-- There is only one best of some rules. -/
theorem Leads.unique {best other : Option (Nat × PolicyRule)} (h : Leads thrown rules best)
    (h' : Leads thrown rules other) : best = other := by
  rcases best with _ | ⟨d, best⟩ <;> rcases other with _ | ⟨d', other⟩
  · rfl
  · obtain ⟨before, after, rfl, own, -⟩ := h'
    rw [h other (by simp)] at own
    cases own
  · obtain ⟨before, after, rfl, own, -⟩ := h
    rw [h' best (by simp)] at own
    cases own
  · obtain ⟨before, after, rfl, own, first, -⟩ := id h
    obtain ⟨before', after', cut, own', first', -⟩ := id h'
    have same : d = d' := Nat.le_antisymm (h.least h'.mem own') (h'.least h.mem own)
    subst same
    -- one that stands before the other would beat it
    rcases cut_cases cut with ⟨-, rfl⟩ | ⟨-, earlier⟩ | ⟨-, earlier⟩
    · rfl
    · exact absurd (first' best earlier d own) (Nat.lt_irrefl d)
    · exact absurd (first other earlier d own') (Nat.lt_irrefl d)

/-- **The winner is the best of the rules.** -/
theorem winner_eq_some_iff {p : Policy} {r : PolicyRule} :
    p.winner thrown = some r ↔ ∃ d, Leads thrown p.rules (some (d, r)) := by
  have leads := leads_foldl thrown p.rules
  rw [winner, Option.map_eq_some_iff]
  constructor
  · rintro ⟨⟨d, r⟩, found, rfl⟩
    exact ⟨d, found ▸ leads⟩
  · rintro ⟨d, best⟩
    exact ⟨(d, r), leads.unique best, rfl⟩

/-- Without a winner no rule matches. -/
theorem winner_eq_none_iff {p : Policy} :
    p.winner thrown = none ↔ ∀ r ∈ p.rules, r.depth thrown = none := by
  have leads := leads_foldl thrown p.rules
  rw [winner, Option.map_eq_none_iff]
  constructor
  · intro none
    rw [none] at leads
    exact leads
  · exact fun unmatched => leads.unique unmatched

/-- What the winner demands is done; where there is none, the default holds. -/
theorem rollsBack_cases (p : Policy) (thrown : ErrorType) :
    (Leads thrown p.rules none ∧ p.rollsBack thrown = rollsBackByDefault thrown) ∨
      ∃ d best, Leads thrown p.rules (some (d, best)) ∧ p.rollsBack thrown = best.rollsBack := by
  unfold rollsBack
  cases won : p.winner thrown with
  | none => exact .inl ⟨winner_eq_none_iff.mp won, rfl⟩
  | some best =>
      obtain ⟨d, leads⟩ := winner_eq_some_iff.mp won
      exact .inr ⟨d, best, leads, rfl⟩

/-! ## 2. Two lists of rules -/

/-- The rules of two lists; those that demand a rollback come first. -/
def ofRules (rollback noRollback : List Rule) : Policy :=
  ⟨rollback.map (⟨.rollback, ·⟩) ++ noRollback.map (⟨.noRollback, ·⟩)⟩

variable {rollback noRollback : List Rule}

theorem mem_ofRules {r : PolicyRule} : r ∈ (ofRules rollback noRollback).rules ↔
    (r.demand = .rollback ∧ r.rule ∈ rollback) ∨ (r.demand = .noRollback ∧ r.rule ∈ noRollback) := by
  obtain ⟨demand, rule⟩ := r
  cases demand <;> simp [ofRules]

/-- A rule that demands a rollback comes before all that forbid one. -/
theorem mem_before {before after : List PolicyRule} {best : PolicyRule} {r : Rule}
    (cut : (ofRules rollback noRollback).rules = before ++ best :: after)
    (forbids : best.demand = .noRollback) (mem : r ∈ rollback) :
    ⟨.rollback, r⟩ ∈ before := by
  have demands : ∀ s ∈ rollback.map (PolicyRule.mk .rollback), s.demand = .rollback := by
    intro s hs
    obtain ⟨rule, -, rfl⟩ := List.mem_map.mp hs
    rfl
  have member : PolicyRule.mk .rollback r ∈ rollback.map (PolicyRule.mk .rollback) :=
    List.mem_map_of_mem mem
  rcases List.append_eq_append_iff.mp cut with ⟨more, first, -⟩ | ⟨more, first, others⟩
  · rw [first]
    exact List.mem_append_left more member
  · cases more with
    | nil =>
        rw [List.append_nil] at first
        exact first ▸ member
    | cons s more =>
        cases others
        have contrary := demands best (first ▸ List.mem_append_right before List.mem_cons_self)
        rw [forbids] at contrary
        cases contrary

/-- **The decision of two lists of rules.** There is a rollback if a rule that demands it matches no
    farther away than any that forbids it; or if no rule matches and the default is so. -/
theorem rollsBack_iff : (ofRules rollback noRollback).rollsBack thrown = true ↔
    (∃ r ∈ rollback, ∃ d, r.depth thrown = some d ∧
      ∀ s ∈ noRollback, ∀ d', s.depth thrown = some d' → d ≤ d') ∨
    ((∀ r ∈ rollback ++ noRollback, r.depth thrown = none) ∧ rollsBackByDefault thrown = true) := by
  have member {r : Rule} (mem : r ∈ rollback ++ noRollback) :
      ∃ demand, ⟨demand, r⟩ ∈ (ofRules rollback noRollback).rules := by
    rcases List.mem_append.mp mem with mem | mem
    · exact ⟨.rollback, mem_ofRules.mpr (.inl ⟨rfl, mem⟩)⟩
    · exact ⟨.noRollback, mem_ofRules.mpr (.inr ⟨rfl, mem⟩)⟩
  rcases rollsBack_cases (ofRules rollback noRollback) thrown with
    ⟨unmatched, decision⟩ | ⟨d, best, leads, decision⟩
  · have none : ∀ r ∈ rollback ++ noRollback, r.depth thrown = none := by
      intro r mem
      obtain ⟨demand, mem⟩ := member mem
      exact unmatched _ mem
    rw [decision]
    constructor
    · exact fun default => .inr ⟨none, default⟩
    · rintro (⟨r, mem, d, depth, -⟩ | ⟨-, default⟩)
      · rw [none r (List.mem_append_left noRollback mem)] at depth
        cases depth
      · exact default
  · have matched : best.rule ∈ rollback ++ noRollback := by
      rcases mem_ofRules.mp leads.mem with ⟨-, mem⟩ | ⟨-, mem⟩
      · exact List.mem_append_left noRollback mem
      · exact List.mem_append_right rollback mem
    have own : best.rule.depth thrown = some d := by
      obtain ⟨before, after, -, own, -⟩ := leads
      exact own
    rw [decision]
    rcases mem_ofRules.mp leads.mem with ⟨demand, mem⟩ | ⟨demand, mem⟩
    · have demanded : best.rollsBack = true := by simp [PolicyRule.rollsBack, demand]
      refine iff_of_true demanded (.inl ⟨best.rule, mem, d, own, fun s hs d' depth => ?_⟩)
      have other : ⟨.noRollback, s⟩ ∈ (ofRules rollback noRollback).rules :=
        mem_ofRules.mpr (.inr ⟨rfl, hs⟩)
      exact leads.least other depth
    · have forbidden : ¬best.rollsBack = true := by simp [PolicyRule.rollsBack, demand]
      refine iff_of_false forbidden ?_
      rintro (⟨r, hr, d', depth, nearest⟩ | ⟨none, -⟩)
      · -- the rule for a rollback stands before the winner, so it matches farther away
        obtain ⟨before, after, cut, -, first, -⟩ := leads
        have farther := first _ (mem_before cut demand hr) d' depth
        have nearer := nearest best.rule mem d own
        omega
      · rw [none best.rule matched] at own
        cases own

/-! ## 3. Policies from patterns -/

/-- The default is a rollback for the runtime exceptions and the errors. -/
theorem rollsBackByDefault_iff : rollsBackByDefault thrown = true ↔
    ∃ t ∈ thrown.ancestors, t.name = "lang::RuntimeException" ∨ t.name = "lang::Error" := by
  have below (u : ErrorType) :
      thrown.isSubtypeOf u = true ↔ ∃ t ∈ thrown.ancestors, t.name = u.name := by
    simp [ErrorType.isSubtypeOf, ErrorType.same]
  rw [rollsBackByDefault, Bool.or_eq_true, below, below]
  constructor
  · rintro (⟨t, mem, name⟩ | ⟨t, mem, name⟩)
    · exact ⟨t, mem, .inl name⟩
    · exact ⟨t, mem, .inr name⟩
  · rintro ⟨t, mem, name | name⟩
    · exact .inl ⟨t, mem, name⟩
    · exact .inr ⟨t, mem, name⟩

theorem mapM_ofPattern {patterns : List String}
    (visible : ∀ pattern ∈ patterns, isBlank pattern = false) :
    patterns.mapM Rule.ofPattern = .ok (patterns.map Rule.mk) := by
  induction patterns with
  | nil => rfl
  | cons pattern patterns ih =>
      obtain ⟨here, others⟩ := List.forall_mem_cons.mp visible
      have made : Rule.ofPattern pattern = .ok ⟨pattern⟩ := by simp [Rule.ofPattern, here]
      rw [List.mapM_cons, made, ih others]
      rfl

/-- **Patterns that are not blank make a policy**: the rules for them, in order. -/
theorem ofPatterns_eq {rollback noRollback : List String}
    (visible : ∀ pattern ∈ rollback, isBlank pattern = false)
    (visible' : ∀ pattern ∈ noRollback, isBlank pattern = false) :
    ofPatterns rollback noRollback =
      .ok (ofRules (rollback.map Rule.mk) (noRollback.map Rule.mk)) := by
  rw [ofPatterns, mapM_ofPattern visible, mapM_ofPattern visible']
  rfl

end Policy

/-! ## 4. The settings -/

/-- The patterns that a variable lists; one that is not set lists none. -/
def Lists : Option String → List String → Prop
  | none, patterns => patterns = []
  | some text, patterns => Listed text patterns

/-- These are the patterns that are read. -/
theorem lists_patterns (e : Environment) (key : String) : Lists (e.text? key) (e.patterns key) := by
  unfold Environment.patterns
  cases e.text? key with
  | none => exact (rfl : [] = [])
  | some text => exact listed_iff.mpr rfl

theorem visible_of_lists {setting : Option String} {patterns : List String}
    (lists : Lists setting patterns) : ∀ pattern ∈ patterns, isBlank pattern = false := by
  intro pattern mem
  cases setting with
  | none =>
      rw [show patterns = [] from lists] at mem
      cases mem
  | some text => exact not_blank_of_mem_patterns (listed_iff.mp lists ▸ mem)

/-- **From the settings to the decision.** Whatever the two variables hold, if anything, there is a
    policy. Its rules are the patterns that the one variable lists, for a rollback, and then those
    that the other lists, against it. For every type that is thrown there is a rollback exactly if

    - a pattern for it matches, and none against it matches at a smaller depth; or
    - no pattern matches, and the type is below the runtime exceptions or the errors.

    And a list of plain patterns that is written with commas is read back as it was. -/
theorem settings_decide :
    (∀ e : Environment, ∃ (rollback noRollback : List String) (policy : Policy),
      Lists (e.text? "TX_ROLLBACK_FOR") rollback ∧
      Lists (e.text? "TX_NO_ROLLBACK_FOR") noRollback ∧
      e.policy = .ok policy ∧
      policy.rules = rollback.map (fun pattern => ⟨.rollback, ⟨pattern⟩⟩) ++
        noRollback.map (fun pattern => ⟨.noRollback, ⟨pattern⟩⟩) ∧
      ∀ thrown, policy.rollsBack thrown = true ↔
        (∃ pattern ∈ rollback, ∃ d, (Rule.mk pattern).depth thrown = some d ∧
          ∀ other ∈ noRollback, ∀ d', (Rule.mk other).depth thrown = some d' → d ≤ d') ∨
        ((∀ pattern ∈ rollback ++ noRollback, (Rule.mk pattern).depth thrown = none) ∧
          ∃ t ∈ thrown.ancestors, t.name = "lang::RuntimeException" ∨ t.name = "lang::Error")) ∧
    ∀ patterns : List String, (∀ pattern ∈ patterns, Plain pattern) →
      Text.patterns (",".intercalate patterns) = patterns := by
  refine ⟨fun e => ?_, fun patterns plain => patterns_intercalate plain⟩
  have lists : Lists (e.text? "TX_ROLLBACK_FOR") e.rollbackPatterns := lists_patterns e _
  have lists' : Lists (e.text? "TX_NO_ROLLBACK_FOR") e.noRollbackPatterns := lists_patterns e _
  have made := Policy.ofPatterns_eq (visible_of_lists lists) (visible_of_lists lists')
  refine ⟨e.rollbackPatterns, e.noRollbackPatterns, _, lists, lists', made, ?_, fun thrown => ?_⟩
  · rw [Policy.ofRules, List.map_map, List.map_map]
    rfl
  · rw [Policy.rollsBack_iff, Policy.rollsBackByDefault_iff, ← List.map_append]
    simp only [List.forall_mem_map]
    simp only [List.mem_map, exists_exists_and_eq_and]

/-- Settings with a blank piece and a wide space, where two patterns match the same types. -/
def overlapping : Environment :=
  (Environment.setText {} "TX_ROLLBACK_FOR" " io::IOException, ,\u2003Timeout").setText
    "TX_NO_ROLLBACK_FOR" "RemoteAccess,IOException"

/-- A type below the exceptions of input and output. -/
def remoteAccess : ErrorType := .child "remote::RemoteAccessException" .ioException

/-- At the same depth the pattern for a rollback wins, and one that is nearer against it does not
    let it. -/
theorem overlapping_settings_decide :
    (∃ policy, overlapping.policy = .ok policy ∧
      policy.rules.map PolicyRule.text =
        ["+io::IOException", "+Timeout", "-RemoteAccess", "-IOException"] ∧
      policy.rollsBack .ioException = true ∧ policy.rollsBack remoteAccess = false) ∧
    (Plain "io::IOException" ∧ Plain "Timeout") ∧
    Text.patterns (",".intercalate ["io::IOException", "Timeout"]) =
      ["io::IOException", "Timeout"] := by
  obtain ⟨decisions, readBack⟩ := settings_decide
  have plain : Plain "io::IOException" ∧ Plain "Timeout" :=
    ⟨⟨trimmed_iff.mpr (by decide), by decide, by decide⟩,
      ⟨trimmed_iff.mpr (by decide), by decide, by decide⟩⟩
  refine ⟨?_, plain, readBack _ ?_⟩
  · obtain ⟨rollback, noRollback, policy, lists, lists', made, rules, decides⟩ :=
      decisions overlapping
    have first : rollback = ["io::IOException", "Timeout"] :=
      (listed_iff.mp lists).trans (by decide +kernel)
    have second : noRollback = ["RemoteAccess", "IOException"] :=
      (listed_iff.mp lists').trans (by decide +kernel)
    subst first second
    refine ⟨policy, made, by rw [rules]; decide, (decides _).mpr (.inl ?_), ?_⟩
    · refine ⟨"io::IOException", by decide, 0, by decide, fun _ _ d' _ => Nat.zero_le d'⟩
    · rw [← Bool.not_eq_true, decides]
      decide
  · intro pattern mem
    rcases List.mem_pair.mp mem with rfl | rfl
    · exact plain.1
    · exact plain.2

end ComponentContainer.Rollback
