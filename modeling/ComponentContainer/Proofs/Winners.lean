/-
  File:      ComponentContainer/Proofs/Winners.lean
  Subject:   Which rule of a rollback policy wins, and what other rules can change.

  * `Policy.FirstLeast` -- the place of the first rule of the least depth; there is only one.
  * `Policy.winner_eq_some_iff_firstLeast` -- **the rule at that place wins.**
  * `Policy.foldl_matching` -- rules that do not match take no part.
  * `Policy.winner_append`, `Policy.winner_cons` -- one more rule at the end, and at the front.
  * `first_of_least_depth_wins` -- the laws of the winner.
-/
import ComponentContainer.Proofs.Decisions
import ComponentContainer.Proofs.Distances

namespace ComponentContainer.Rollback

namespace Policy

variable {thrown : ErrorType} {rules : List PolicyRule} {best : PolicyRule} {i d : Nat}

/-! ## 1. The place of the winner -/

/-- **The first rule of the least depth stands at that place**: it matches at that depth, no rule
    matches at a smaller one, and no rule before it at the same. -/
structure FirstLeast (thrown : ErrorType) (rules : List PolicyRule) (i : Nat) (best : PolicyRule)
    (d : Nat) : Prop where
  here : rules[i]? = some best
  depth : best.depth thrown = some d
  least : ∀ r ∈ rules, ∀ d', r.depth thrown = some d' → d ≤ d'
  first : ∀ j < i, ∀ r, rules[j]? = some r → r.depth thrown ≠ some d

theorem FirstLeast.mem (h : FirstLeast thrown rules i best d) : best ∈ rules :=
  List.mem_of_getElem? h.here

/-- There is only one such place. -/
theorem FirstLeast.unique {j d' : Nat} {other : PolicyRule} (h : FirstLeast thrown rules i best d)
    (h' : FirstLeast thrown rules j other d') : i = j := by
  have same : d = d' :=
    Nat.le_antisymm (h.least other h'.mem d' h'.depth) (h'.least best h.mem d h.depth)
  subst same
  rcases Nat.lt_trichotomy i j with before | same | after
  · exact absurd h.depth (h'.first i before best h.here)
  · exact same
  · exact absurd h'.depth (h.first j after other h'.here)

/-- The best of some rules is the one at that place. -/
theorem leads_iff_firstLeast :
    Leads thrown rules (some (d, best)) ↔ ∃ i, FirstLeast thrown rules i best d := by
  constructor
  · intro leads
    obtain ⟨before, after, rfl, own, nearer, -⟩ := id leads
    refine ⟨before.length, by simp, own, fun r mem d' => leads.least mem, ?_⟩
    intro j near r here same
    rw [List.getElem?_append_left near] at here
    exact Nat.lt_irrefl d (nearer r (List.mem_of_getElem? here) d same)
  · rintro ⟨i, h⟩
    obtain ⟨cut, -⟩ := cut_at h.here
    refine ⟨_, _, cut, h.depth, fun r mem d' depth => ?_, fun r mem => h.least r ?_⟩
    · refine lt_of_le_of_ne (h.least r (List.mem_of_mem_take mem) d' depth) fun same => ?_
      obtain ⟨j, near, rfl⟩ := List.mem_take_iff_getElem.mp mem
      obtain ⟨near, inside⟩ := Nat.lt_min.mp near
      exact h.first j near _ (List.getElem?_eq_getElem inside) (same ▸ depth)
    · exact List.mem_of_mem_drop mem

/-- **The winner is the first rule of the least depth.** -/
theorem winner_eq_some_iff_firstLeast {p : Policy} :
    p.winner thrown = some best ↔ ∃ i d, FirstLeast thrown p.rules i best d := by
  rw [winner_eq_some_iff, exists_comm]
  exact exists_congr fun d => leads_iff_firstLeast

/-! ## 2. Other rules -/

/-- The rules that match the type that is thrown, at whatever depth. -/
def matching (thrown : ErrorType) (rules : List PolicyRule) : List PolicyRule :=
  rules.filter fun r => (r.depth thrown).isSome

/-- **Rules that do not match take no part**: each leaves the best so far as it is. -/
theorem foldl_matching (thrown : ErrorType) (rules : List PolicyRule) :
    (matching thrown rules).foldl (better thrown) none = rules.foldl (better thrown) none := by
  have unmatched : (fun best r => if (r.depth thrown).isSome then better thrown best r else best)
      = better thrown := by
    funext best r
    cases depth : r.depth thrown with
    | none => simp [better, depth]
    | some d => rfl
  rw [matching, List.foldl_filter, unmatched]

theorem winner_matching {rules' : List PolicyRule}
    (same : matching thrown rules' = matching thrown rules) :
    (Policy.mk rules').winner thrown = (Policy.mk rules).winner thrown := by
  rw [winner, winner, ← foldl_matching thrown rules', same, foldl_matching]

theorem matching_cons {r : PolicyRule} (unmatched : r.depth thrown = none) :
    matching thrown (r :: rules) = matching thrown rules := by
  simp [matching, unmatched]

/-- That depth is nearer than the winner, or there is no winner. -/
def NearerThanWinner (p : Policy) (thrown : ErrorType) (d : Nat) : Prop :=
  p.winner thrown = none ∨
    ∃ best least, p.winner thrown = some best ∧ best.depth thrown = some least ∧ d < least

/-- **One more rule at the end** is another winner exactly if it matches before all others. -/
theorem winner_append (p : Policy) (thrown : ErrorType) (r : PolicyRule) :
    (Policy.mk (p.rules ++ [r])).winner thrown ≠ p.winner thrown ↔
      ∃ d, r.depth thrown = some d ∧ p.NearerThanWinner thrown d := by
  have leads := leads_foldl thrown p.rules
  have before : p.winner thrown = (p.rules.foldl (better thrown) none).map Prod.snd := rfl
  have after : (Policy.mk (p.rules ++ [r])).winner thrown =
      (better thrown (p.rules.foldl (better thrown) none) r).map Prod.snd := by
    rw [winner, List.foldl_append, List.foldl_cons, List.foldl_nil]
  generalize p.rules.foldl (better thrown) none = led at leads before after
  simp only [NearerThanWinner, before, after]
  cases depth : r.depth thrown with
  | none => simp [better, depth]
  | some d =>
      cases led with
      | none => simp [better, depth]
      | some led =>
          obtain ⟨least, best⟩ := led
          obtain ⟨-, -, -, own, -⟩ := leads
          by_cases nearer : d < least
          · -- the new rule is not the old winner, for their depths differ
            have other : r ≠ best := by
              rintro rfl
              rw [own] at depth
              cases depth
              exact Nat.lt_irrefl d nearer
            simp [better, depth, own, nearer, other]
          · simp [better, depth, own, nearer]

/-- **One more rule at the front** is another winner only if it matches, and the winner no nearer. -/
theorem winner_cons {p : Policy} {r : PolicyRule}
    (changed : (Policy.mk (r :: p.rules)).winner thrown ≠ p.winner thrown) :
    ∃ d, r.depth thrown = some d ∧
      ∀ best least, p.winner thrown = some best → best.depth thrown = some least → d ≤ least := by
  cases depth : r.depth thrown with
  | none => exact absurd (winner_matching (matching_cons depth)) changed
  | some d =>
      refine ⟨d, rfl, fun best least won own => Nat.le_of_not_lt fun farther => changed ?_⟩
      obtain ⟨d', before, after, cut, own', first, rest⟩ := winner_eq_some_iff.mp won
      have same : d' = least := Option.some.inj (own'.symm.trans own)
      subst same
      rw [won, winner_eq_some_iff]
      refine ⟨d', r :: before, after, by rw [cut, List.cons_append], own',
        List.forall_mem_cons.mpr ⟨fun d'' hd => ?_, first⟩, rest⟩
      rw [depth] at hd
      cases hd
      exact farther

end Policy

/-! ## 3. The winner -/

/-- **The first rule of the least depth wins.** There is no winner exactly if no rule matches.
    Otherwise there is exactly one place at which the first rule of the least depth stands, and the
    rule there wins.

    - One more rule at the end changes the winner exactly if it matches, and either nothing matched
      before or it matches nearer than the winner.
    - One more rule at the front changes it only if it matches no farther away than the winner.
    - Rules that do not match change nothing, wherever they are put in or taken out: policies with
      the same matching rules have the same winner and decide the same. -/
theorem first_of_least_depth_wins (p : Policy) (thrown : ErrorType) :
    (p.winner thrown = none ↔ ∀ r ∈ p.rules, r.depth thrown = none) ∧
      (p.winner thrown ≠ none →
        ∃! i, ∃ best d, Policy.FirstLeast thrown p.rules i best d ∧
          p.winner thrown = some best) ∧
      (∀ i best d, Policy.FirstLeast thrown p.rules i best d → p.winner thrown = some best) ∧
      (∀ r : PolicyRule, (Policy.mk (p.rules ++ [r])).winner thrown ≠ p.winner thrown ↔
        ∃ d, r.depth thrown = some d ∧ p.NearerThanWinner thrown d) ∧
      (∀ r : PolicyRule, (Policy.mk (r :: p.rules)).winner thrown ≠ p.winner thrown →
        ∃ d, r.depth thrown = some d ∧ ∀ best least, p.winner thrown = some best →
          best.depth thrown = some least → d ≤ least) ∧
      ∀ rules' : List PolicyRule,
        Policy.matching thrown rules' = Policy.matching thrown p.rules →
        (Policy.mk rules').winner thrown = p.winner thrown ∧
          (Policy.mk rules').rollsBack thrown = p.rollsBack thrown := by
  refine ⟨Policy.winner_eq_none_iff, fun matched => ?_, fun i best d first =>
    Policy.winner_eq_some_iff_firstLeast.mpr ⟨i, d, first⟩, p.winner_append thrown,
    fun r => Policy.winner_cons, fun rules' same => ?_⟩
  · obtain ⟨best, won⟩ := Option.ne_none_iff_exists'.mp matched
    obtain ⟨i, d, first⟩ := Policy.winner_eq_some_iff_firstLeast.mp won
    exact ⟨i, ⟨best, d, first, won⟩, fun j ⟨_, _, other, _⟩ => other.unique first⟩
  · have won : (Policy.mk rules').winner thrown = p.winner thrown := Policy.winner_matching same
    exact ⟨won, by rw [Policy.rollsBack, Policy.rollsBack, won]⟩

/-- Two rules that match at the same depth, after one that does not match. -/
def tied : Policy :=
  ⟨[⟨.rollback, ⟨"Timeout"⟩⟩, ⟨.noRollback, ⟨"IOException"⟩⟩, ⟨.rollback, ⟨"io::"⟩⟩]⟩

/-- The first of the two wins, also without the rule that does not match; a rule that matches at the
    same depth wins at the front, and does not at the end. -/
theorem tied_won_by_first :
    tied.winner remoteAccess = some ⟨.noRollback, ⟨"IOException"⟩⟩ ∧
      (∃! i, ∃ best d, Policy.FirstLeast remoteAccess tied.rules i best d ∧
        tied.winner remoteAccess = some best) ∧
      (Policy.mk tied.rules.tail).rollsBack remoteAccess = tied.rollsBack remoteAccess ∧
      (Policy.mk (tied.rules ++ [⟨.rollback, ⟨"io::"⟩⟩])).winner remoteAccess =
        tied.winner remoteAccess ∧
      ∃ d, PolicyRule.depth ⟨.rollback, ⟨"io::"⟩⟩ remoteAccess = some d ∧
        ∀ best least, tied.winner remoteAccess = some best →
          best.depth remoteAccess = some least → d ≤ least := by
  obtain ⟨-, place, wins, -, front, unmatched⟩ := first_of_least_depth_wins tied remoteAccess
  have first : Policy.FirstLeast remoteAccess tied.rules 1 ⟨.noRollback, ⟨"IOException"⟩⟩ 1 :=
    ⟨rfl, by decide, by decide, by decide⟩
  have won := wins 1 _ 1 first
  exact ⟨won, place (by simp [won]), (unmatched _ (by decide)).2, by decide, front _ (by decide)⟩

end ComponentContainer.Rollback
