/-
  File:      ComponentContainer/Proofs/CanonicalOrder.lean
  Subject:   The list that sorting by the usual comparator yields, as one would write it down.

  * `Lawful.transCmp`, `Lawful.answer_trans` -- the laws of a comparator as the library has them, and
    what they say of each answer.
  * `eq_of_classes` -- **a list in order is determined by its classes of equals**; by induction on
    the list, for the first one of it is the first one of its class.
  * `InParts` -- the priority group before all others, each part by its numbers;
    `inParts_of_pairwise`, `InParts.pairwise` -- that is what it is to be in order.
  * `Ranked` -- the parts are those of a given list, and equals have kept its order.
  * `standard_sorts_ranked` -- **the usual comparator is a total preorder, and sorting by it gives
    the ranked list and no other.**
-/
import Mathlib
import ComponentContainer.Proofs.Sorting

namespace ComponentContainer

/-! ## 1. The laws of a comparator -/

namespace Comparator

variable {cmp : Comparator}

theorem Lawful.transCmp (h : cmp.Lawful) : Std.TransCmp cmp where
  eq_swap := h.swap _ _
  isLE_trans := h.trans

/-- Each of the three answers is transitive. -/
theorem Lawful.answer_trans (h : cmp.Lawful) {a b c : Precedence} {o : Ordering}
    (hab : cmp a b = o) (hbc : cmp b c = o) : cmp a c = o := by
  have := h.transCmp
  cases o with
  | lt => exact Std.TransCmp.lt_trans hab hbc
  | eq => exact Std.TransCmp.eq_trans hab hbc
  | gt => exact Std.TransCmp.gt_trans hab hbc

/-- What is not after each other compares equal. -/
theorem Lawful.eq_of_isLE (h : cmp.Lawful) {a b : Precedence} (hab : (cmp a b).isLE = true)
    (hba : (cmp b a).isLE = true) : cmp a b = .eq := by
  rw [h.swap a b] at hba
  cases answer : cmp a b with
  | eq => rfl
  | lt =>
      rw [answer] at hba
      cases hba
  | gt =>
      rw [answer] at hab
      cases hab

end Comparator

namespace Precedence

/-- Both are in the priority group or neither is, and they have the same number. -/
def sameKey (p q : Precedence) : Bool := p.isPriority == q.isPriority && p.value == q.value

/-- **The usual comparator tells apart by group and number only.** -/
theorem standard_eq_iff {p q : Precedence} :
    Comparator.standard p q = .eq ↔ p.sameKey q = true := by
  rw [sameKey, Bool.and_eq_true, beq_iff_eq, beq_iff_eq, ← Int32.toInt_inj]
  unfold Comparator.standard
  cases p.isPriority <;> cases q.isPriority <;> simp

end Precedence

section Lists

open Comparator (standard standard_lawful standard_isLE)

variable {α : Type} {cmp : Comparator} {standing : α → Precedence} {l l' : List α}

/-! ## 2. Classes of equals -/

theorem mem_of_classes (h : cmp.Lawful)
    (classes : ∀ p, l.filter (fun a => cmp p (standing a) == .eq) =
      l'.filter fun a => cmp p (standing a) == .eq) {a : α} (mem : a ∈ l) : a ∈ l' := by
  have found : a ∈ l.filter fun c => cmp (standing a) (standing c) == .eq :=
    List.mem_filter.mpr ⟨mem, beq_iff_eq.mpr (h.self_eq _)⟩
  exact (List.mem_filter.mp (classes (standing a) ▸ found)).1

/-- **A list in order is determined by its classes of equals.** -/
theorem eq_of_classes (h : cmp.Lawful)
    (sorted : l.Pairwise fun a b => (cmp (standing a) (standing b)).isLE = true)
    (sorted' : l'.Pairwise fun a b => (cmp (standing a) (standing b)).isLE = true)
    (classes : ∀ p, l.filter (fun a => cmp p (standing a) == .eq) =
      l'.filter fun a => cmp p (standing a) == .eq) : l = l' := by
  induction l generalizing l' with
  | nil =>
      refine (List.eq_nil_iff_forall_not_mem.mpr fun b mem => ?_).symm
      exact absurd (mem_of_classes h (fun p => (classes p).symm) mem) List.not_mem_nil
  | cons a l ih =>
      cases l' with
      | nil => exact absurd (mem_of_classes h classes List.mem_cons_self) List.not_mem_nil
      | cons b l' =>
          obtain ⟨least, behind⟩ := List.pairwise_cons.mp sorted
          obtain ⟨least', behind'⟩ := List.pairwise_cons.mp sorted'
          -- each of both heads is in the other list, so neither is after the other
          have up : (cmp (standing a) (standing b)).isLE = true := by
            have mem : b ∈ a :: l :=
              mem_of_classes h (fun p => (classes p).symm) List.mem_cons_self
            rcases List.mem_cons.mp mem with rfl | mem
            · exact h.refl _
            · exact least b mem
          have down : (cmp (standing b) (standing a)).isLE = true := by
            rcases List.mem_cons.mp (mem_of_classes h classes List.mem_cons_self) with rfl | mem
            · exact h.refl _
            · exact least' a mem
          have heads := classes (standing a)
          rw [List.filter_cons, List.filter_cons, h.self_eq, h.eq_of_isLE up down] at heads
          obtain rfl := (List.cons.inj heads).1
          refine congrArg (a :: ·) (ih behind behind' fun p => ?_)
          have rests := classes p
          rw [List.filter_cons, List.filter_cons] at rests
          split at rests
          · exact (List.cons.inj rests).2
          · exact rests

/-! ## 3. The list in two parts -/

/-- The priority group before all others, and each of the two parts by its numbers; the number of the
    undeclared is the largest. -/
def InParts (standing : α → Precedence) (l : List α) : Prop :=
  ∃ first others : List α, l = first ++ others ∧
    (∀ a ∈ first, (standing a).isPriority = true) ∧
    (∀ a ∈ others, (standing a).isPriority = false) ∧
    first.Pairwise (fun a b => (standing a).value ≤ (standing b).value) ∧
    others.Pairwise fun a b => (standing a).value ≤ (standing b).value

/-- What is in order is in two parts: by induction, for if the first one is not of the priority
    group, then no one behind it is. -/
theorem inParts_of_pairwise
    (sorted : l.Pairwise fun a b => (standard (standing a) (standing b)).isLE = true) :
    InParts standing l := by
  induction l with
  | nil => exact ⟨[], [], rfl, by simp, by simp, .nil, .nil⟩
  | cons a l ih =>
      obtain ⟨least, behind⟩ := List.pairwise_cons.mp sorted
      obtain ⟨first, others, rfl, hfirst, hothers, byNumber, byNumber'⟩ := ih behind
      have le_of {b : α} (mem : b ∈ first ++ others)
          (same : (standing a).isPriority = (standing b).isPriority) :
          (standing a).value ≤ (standing b).value := by
        rcases (standard_isLE _ _).mp (least b mem) with ⟨ha, hb⟩ | ⟨-, le⟩
        · rw [ha, hb] at same
          cases same
        · exact Int32.le_iff_toInt_le.mpr le
      cases priority : (standing a).isPriority with
      | true =>
          refine ⟨a :: first, others, rfl, List.forall_mem_cons.mpr ⟨priority, hfirst⟩, hothers,
            List.pairwise_cons.mpr ⟨fun b mem => ?_, byNumber⟩, byNumber'⟩
          exact le_of (List.mem_append_left _ mem) (priority.trans (hfirst b mem).symm)
      | false =>
          obtain rfl : first = [] := by
            refine List.eq_nil_iff_forall_not_mem.mpr fun b mem => ?_
            rcases (standard_isLE _ _).mp (least b (List.mem_append_left _ mem)) with
              ⟨ha, -⟩ | ⟨same, -⟩
            · rw [priority] at ha
              cases ha
            · rw [priority, hfirst b mem] at same
              cases same
          refine ⟨[], a :: others, rfl, hfirst, List.forall_mem_cons.mpr ⟨priority, hothers⟩, .nil,
            List.pairwise_cons.mpr ⟨fun b mem => ?_, byNumber'⟩⟩
          exact le_of mem (priority.trans (hothers b mem).symm)

theorem InParts.pairwise (h : InParts standing l) :
    l.Pairwise fun a b => (standard (standing a) (standing b)).isLE = true := by
  obtain ⟨first, others, rfl, hfirst, hothers, byNumber, byNumber'⟩ := h
  have inPart {m : List α} {q : Bool} (hm : ∀ a ∈ m, (standing a).isPriority = q)
      (sorted : m.Pairwise fun a b => (standing a).value ≤ (standing b).value) :
      m.Pairwise fun a b => (standard (standing a) (standing b)).isLE = true := by
    refine sorted.imp_of_mem fun {a b} ha hb le => (standard_isLE _ _).mpr (.inr ⟨?_, ?_⟩)
    · exact (hm a ha).trans (hm b hb).symm
    · exact Int32.le_iff_toInt_le.mp le
  refine List.pairwise_append.mpr ⟨inPart hfirst byNumber, inPart hothers byNumber', ?_⟩
  exact fun a ha b hb => (standard_isLE _ _).mpr (.inl ⟨hfirst a ha, hothers b hb⟩)

/-! ## 4. The ranked list -/

/-- The second list is the first one in two parts, with all equals in the order they had. -/
structure Ranked (standing : α → Precedence) (l l' : List α) : Prop where
  perm : l'.Perm l
  inParts : InParts standing l'
  stable (p : Precedence) :
    l'.filter (fun a => p.sameKey (standing a)) = l.filter fun a => p.sameKey (standing a)

theorem sameKey_eq_beq (standing : α → Precedence) (p : Precedence) :
    (fun a => p.sameKey (standing a)) = fun a => standard p (standing a) == .eq := by
  funext a
  rw [Bool.eq_iff_iff, beq_iff_eq, Precedence.standard_eq_iff]

/-- **Sorting by the usual comparator gives the ranked list and no other.** -/
theorem sortBy_eq_iff_ranked : sortBy standard standing l = l' ↔ Ranked standing l l' := by
  constructor
  · rintro rfl
    refine ⟨sortBy_perm _ _ l, inParts_of_pairwise (pairwise_sortBy standard_lawful l), fun p => ?_⟩
    rw [sameKey_eq_beq]
    exact filter_equal_sortBy standard_lawful p l
  · intro ranked
    refine eq_of_classes standard_lawful (pairwise_sortBy standard_lawful l)
      ranked.inParts.pairwise fun p => ?_
    have same := ranked.stable p
    rw [sameKey_eq_beq] at same
    exact (filter_equal_sortBy standard_lawful p l).trans same.symm

end Lists

/-- **The usual comparator is a total preorder, and the sorted list is canonical.** A standing
    compares equal to itself, swapping the sides swaps the answer, and each answer, and "not after",
    is transitive. What is sorted is the priority group by its numbers and then all others by
    theirs, the undeclared with the largest; equals are in the order they had; and there is no other
    list like that. -/
theorem standard_sorts_ranked :
    (∀ p, Comparator.standard p p = .eq) ∧
    (∀ p q, Comparator.standard q p = (Comparator.standard p q).swap) ∧
    (∀ p q r o, Comparator.standard p q = o → Comparator.standard q r = o →
      Comparator.standard p r = o) ∧
    (∀ p q r, (Comparator.standard p q).isLE = true → (Comparator.standard q r).isLE = true →
      (Comparator.standard p r).isLE = true) ∧
    ∀ (α : Type) (standing : α → Precedence) (l l' : List α),
      sortBy .standard standing l = l' ↔ Ranked standing l l' :=
  ⟨Comparator.standard_lawful.self_eq, Comparator.standard_lawful.swap,
    fun _ _ _ _ => Comparator.standard_lawful.answer_trans,
    fun _ _ _ => Comparator.standard_lawful.trans, fun _ _ _ _ => sortBy_eq_iff_ranked⟩

/-- At both ends of the numbers, with an undeclared standing next to the largest number. -/
theorem extremes_sort_ranked :
    Comparator.standard (.ordered 2147483647) .unordered = .eq ∧
    Comparator.standard (.priority 2147483647) (.ordered (-2147483648)) = .lt ∧
    Ranked Prod.snd
      [("a", .unordered), ("b", .ordered 2147483647), ("c", .ordered (-2147483648)),
        ("d", .priority 2147483647), ("e", .priority (-2147483648)), ("f", .unordered)]
      [("e", .priority (-2147483648)), ("d", .priority 2147483647), ("c", .ordered (-2147483648)),
        ("a", .unordered), ("b", .ordered 2147483647), ("f", .unordered)] :=
  ⟨by decide, by decide, (standard_sorts_ranked.2.2.2.2 _ _ _ _).mp (by cbv)⟩

end ComponentContainer
