/-
  File:      ComponentContainer/Proofs/Sorting.lean
  Subject:   Sorting by standing, under a comparator that is a total preorder.

  * `standard_lawful` -- the usual comparator is one.
  * `sortBy_perm`, `pairwise_sortBy`, `sublist_sortBy` -- sorting keeps what there is, puts it in
    order, and keeps the order of what compares equal.
  * `sortBy_of_equal` -- what compares equal throughout stays as it is.
  * `filter_sortBy` -- **sorting commutes with leaving out**; the proof follows where one more
    element at the front goes. `filter_equal_sortBy`, `sublist_of_sortBy` -- so what compares equal
    has kept its order.
-/
import ComponentContainer.Precedence

namespace ComponentContainer

/-! ## 1. Total preorders -/

namespace Comparator

variable {cmp : Comparator}

theorem Lawful.total (h : Lawful cmp) (a b : Precedence) :
    ((cmp a b).isLE || (cmp b a).isLE) = true := by
  rw [h.swap a b]
  cases cmp a b <;> rfl

theorem Lawful.refl (h : Lawful cmp) (a : Precedence) : (cmp a a).isLE = true := by
  have ht := h.total a a
  rwa [Bool.or_self] at ht

theorem Lawful.self_eq (h : Lawful cmp) (a : Precedence) : cmp a a = .eq := by
  have swapped := h.swap a a
  cases answer : cmp a a <;> rw [answer] at swapped <;> first | rfl | cases swapped

/-- The group and the number of a standing, as the usual comparator sees them. -/
theorem standard_isLE (a b : Precedence) : (standard a b).isLE = true ↔
    (a.isPriority = true ∧ b.isPriority = false) ∨
      (a.isPriority = b.isPriority ∧ a.value.toInt ≤ b.value.toInt) := by
  unfold standard
  cases a.isPriority <;> cases b.isPriority <;> simp [Std.isLE_compare]

/-- **The usual comparator is a total preorder.** -/
theorem standard_lawful : Lawful standard where
  swap a b := by
    unfold standard
    cases a.isPriority <;> cases b.isPriority
    case false.true => rfl
    case true.false => rfl
    all_goals exact @Std.OrientedCmp.eq_swap Int compare _ _ _
  trans {a b c} hab hbc := by
    rw [standard_isLE] at hab hbc ⊢
    rcases hab with ⟨ha, hb⟩ | ⟨hab, hle⟩
    · rcases hbc with ⟨hb', -⟩ | ⟨hbc, -⟩
      · rw [hb] at hb'
        cases hb'
      · exact Or.inl ⟨ha, hbc ▸ hb⟩
    · rcases hbc with ⟨hb, hc⟩ | ⟨hbc, hle'⟩
      · exact Or.inl ⟨hab.trans hb, hc⟩
      · exact Or.inr ⟨hab.trans hbc, Int.le_trans hle hle'⟩

end Comparator

/-! ## 2. Sorting -/

section Sorting

variable {α β : Type} {cmp : Comparator} {standing : α → Precedence}

theorem sortBy_perm (cmp : Comparator) (standing : α → Precedence) (l : List α) :
    (sortBy cmp standing l).Perm l := List.mergeSort_perm _ _

theorem mem_sortBy {l : List α} {a : α} : a ∈ sortBy cmp standing l ↔ a ∈ l :=
  (sortBy_perm cmp standing l).mem_iff

/-- What is sorted is in order. -/
theorem pairwise_sortBy (h : cmp.Lawful) (l : List α) :
    (sortBy cmp standing l).Pairwise fun a b => (cmp (standing a) (standing b)).isLE = true := by
  unfold sortBy
  refine List.pairwise_mergeSort ?_ ?_ l
  · exact fun _ _ _ => h.trans
  · exact fun a b => h.total (standing a) (standing b)

/-- Sorting is stable: two elements that are in order already keep their order. -/
theorem sublist_sortBy (h : cmp.Lawful) {l : List α} {a b : α}
    (hab : (cmp (standing a) (standing b)).isLE = true) (hl : List.Sublist [a, b] l) :
    List.Sublist [a, b] (sortBy cmp standing l) :=
  List.pair_sublist_mergeSort (fun _ _ _ => h.trans)
    (fun a b => h.total (standing a) (standing b)) hab hl

/-- What stands alike throughout stays as it is. -/
theorem sortBy_of_equal (h : cmp.Lawful) {l : List α} {p : Precedence}
    (hl : ∀ a ∈ l, standing a = p) : sortBy cmp standing l = l := by
  refine List.mergeSort_of_pairwise (List.pairwise_of_forall_mem_list fun a ha b hb => ?_)
  rw [hl a ha, hl b hb]
  exact h.refl p

/-- Sorting looks at the standings only. -/
theorem map_sortBy {f : α → β} {standing' : β → Precedence} {l : List α}
    (h : ∀ a ∈ l, standing' (f a) = standing a) :
    (sortBy cmp standing l).map f = sortBy cmp standing' (l.map f) :=
  List.map_mergeSort fun a ha b hb => by rw [h a ha, h b hb]

/-- A list is cut at one place only into what a test holds of and what it does not hold of. -/
theorem eq_of_append_of_test {q : α → Bool} {l₁ l₂ m₁ m₂ : List α} (h : l₁ ++ l₂ = m₁ ++ m₂)
    (hl₁ : ∀ a ∈ l₁, q a = true) (hl₂ : ∀ a ∈ l₂, q a = false) (hm₁ : ∀ a ∈ m₁, q a = true)
    (hm₂ : ∀ a ∈ m₂, q a = false) : l₁ = m₁ ∧ l₂ = m₂ := by
  have hkeep {l r : List α} (hl : ∀ a ∈ l, q a = true) (hr : ∀ a ∈ r, q a = false) :
      (l ++ r).filter q = l := by
    rw [List.filter_append, List.filter_eq_self.mpr hl,
      List.filter_eq_nil_iff.mpr fun a ha => by simp [hr a ha], List.append_nil]
  have h₁ : l₁ = m₁ := by rw [← hkeep hl₁ hl₂, h, hkeep hm₁ hm₂]
  exact ⟨h₁, List.append_cancel_left (h₁ ▸ h)⟩

theorem pairwise_behind {R : α → α → Prop} {l₁ l₂ : List α} {a : α}
    (h : (l₁ ++ a :: l₂).Pairwise R) : ∀ b ∈ l₂, R a b :=
  (List.pairwise_cons.mp (List.pairwise_append.mp h).2.1).1

/-- **Sorting commutes with leaving out.** By induction: one more element goes in front of the first
    one it is not after, be others left out or not. -/
theorem filter_sortBy (h : cmp.Lawful) (p : α → Bool) (l : List α) :
    (sortBy cmp standing l).filter p = sortBy cmp standing (l.filter p) := by
  unfold sortBy
  have trans (a b c : α) : (cmp (standing a) (standing b)).isLE = true →
      (cmp (standing b) (standing c)).isLE = true → (cmp (standing a) (standing c)).isLE = true :=
    h.trans
  have total (a b : α) := h.total (standing a) (standing b)
  induction l with
  | nil => rw [List.mergeSort_nil, List.filter_nil, List.mergeSort_nil]
  | cons a l ih =>
      obtain ⟨l₁, l₂, hcons, hrest, hfront⟩ := List.mergeSort_cons trans total a l
      rw [hrest, List.filter_append] at ih
      rw [hcons, List.filter_append]
      have hback : ∀ b ∈ l₂, (cmp (standing a) (standing b)).isLE = true :=
        pairwise_behind (hcons ▸ List.pairwise_mergeSort trans total (a :: l))
      by_cases hp : p a = true
      · obtain ⟨m₁, m₂, hcons', hrest', hfront'⟩ := List.mergeSort_cons trans total a (l.filter p)
        have hback' : ∀ b ∈ m₂, (cmp (standing a) (standing b)).isLE = true :=
          pairwise_behind (hcons' ▸ List.pairwise_mergeSort trans total (a :: l.filter p))
        obtain ⟨h₁, h₂⟩ := eq_of_append_of_test (ih.trans hrest')
          (fun b hb => hfront b (List.mem_filter.mp hb).1)
          (fun b hb => by rw [hback b (List.mem_filter.mp hb).1]; rfl) hfront'
          (fun b hb => by rw [hback' b hb]; rfl)
        rw [List.filter_cons_of_pos hp, List.filter_cons_of_pos hp, hcons', h₁, h₂]
      · rw [List.filter_cons_of_neg hp, List.filter_cons_of_neg hp]
        exact ih

/-- What compares equal to a standing is sorted as it is. -/
theorem filter_equal_sortBy (h : cmp.Lawful) (p : Precedence) (l : List α) :
    (sortBy cmp standing l).filter (fun a => cmp p (standing a) == .eq) =
      l.filter fun a => cmp p (standing a) == .eq := by
  rw [filter_sortBy h]
  refine List.mergeSort_of_pairwise (List.pairwise_of_forall_mem_list fun a ha b hb => ?_)
  have left : cmp p (standing a) = .eq := beq_iff_eq.mp (List.mem_filter.mp ha).2
  have right : cmp p (standing b) = .eq := beq_iff_eq.mp (List.mem_filter.mp hb).2
  exact h.trans (b := p) (by rw [h.swap p, left]; rfl) (by rw [right]; rfl)

/-- What is sorted and compares equal has kept its order. -/
theorem sublist_of_sortBy (h : cmp.Lawful) {l : List α} {a b : α}
    (hab : List.Sublist [a, b] (sortBy cmp standing l))
    (equal : cmp (standing a) (standing b) = .eq) : List.Sublist [a, b] l := by
  have kept : [a, b].filter (fun c => cmp (standing a) (standing c) == .eq) = [a, b] :=
    List.filter_eq_self.mpr (by simp [h.self_eq, equal])
  have both : List.Sublist [a, b] (l.filter fun c => cmp (standing a) (standing c) == .eq) := by
    rw [← kept, ← filter_equal_sortBy h (standing a) l]
    exact hab.filter _
  exact both.trans List.filter_sublist

end Sorting

end ComponentContainer
