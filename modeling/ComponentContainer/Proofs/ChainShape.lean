/-
  File:      ComponentContainer/Proofs/ChainShape.lean
  Subject:   The chain after phase 7, where suppliers succeed and change neither the registry nor the
             chain.

  * `undealt` -- the component post-processors that are found; `byGroups` -- the order in which they
    join; `chainOrder` -- the order they end up in, for some of them move to the end.
  * `joined_again` -- what becomes of the chain if some of those who have joined join again.
  * `chain_has_final_shape` -- **phase 7 returns, and the chain is what was there without those
    found, the watcher for completeness, those found, and the watcher for listeners.**
-/
import ComponentContainer.Proofs.ChainRuns
import ComponentContainer.Proofs.HookOrder

namespace ComponentContainer.Bootstrap

open Phase Container

variable {κ ι ω α : Type} {b : Behaviour κ ι ω} {depth : Nat} {view : View} {s : State κ ι ω}
  {P : Processed}

/-! ## 1. The closed form -/

/-- The component post-processors not dealt with, in order of registration. -/
def undealt (c : Container κ ι) (P : Processed) : List (String × Definition κ) :=
  (makers c .component).filter (!P.contains ·.1)

/-- One group after the other. -/
def grouped (l : List (String × Definition κ)) : List (String × Definition κ) :=
  inGroup .highest l ++ inGroup .ordered l ++ inGroup .unordered l

/-- One group after the other: the priority group sorted, the ordered group sorted, the others. -/
def byGroups (cmp : Comparator) (l : List (String × Definition κ)) :
    List (String × Definition κ) :=
  sortBy cmp standingOf (inGroup .highest l) ++ sortBy cmp standingOf (inGroup .ordered l) ++
    inGroup .unordered l

/-- The order at the end of the chain: first those that do not want to see merged definitions, by
    groups, then those that do, sorted all together. -/
def chainOrder (cmp : Comparator) (aware : String × Definition κ → Bool)
    (l : List (String × Definition κ)) : List (String × Definition κ) :=
  byGroups cmp (l.filter (!aware ·)) ++ sortBy cmp standingOf ((grouped l).filter aware)

section Groups

variable {cmp : Comparator}

theorem grouped_perm (l : List (String × Definition κ)) : (grouped l).Perm l := by
  unfold grouped
  induction l with
  | nil => exact List.Perm.refl _
  | cons e l ih =>
      have hgroup (tier : Tier) : inGroup tier (e :: l) =
          if (standingOf e).tier == tier then e :: inGroup tier l else inGroup tier l :=
        List.filter_cons
      simp only [hgroup]
      cases (standingOf e).tier with
      | highest => exact ih.cons e
      | ordered =>
          rw [List.append_assoc] at ih ⊢
          exact List.perm_middle.trans (ih.cons e)
      | unordered => exact List.perm_middle.trans (ih.cons e)

theorem byGroups_perm (cmp : Comparator) (l : List (String × Definition κ)) :
    (byGroups cmp l).Perm l :=
  (((sortBy_perm cmp standingOf _).append (sortBy_perm cmp standingOf _)).append_right _).trans
    (grouped_perm l)

/-- Leaving out comes to the same before and after. -/
theorem filter_byGroups (lawful : cmp.Lawful) (p : String × Definition κ → Bool)
    (l : List (String × Definition κ)) :
    (byGroups cmp l).filter p = byGroups cmp (l.filter p) := by
  have hgroup (tier : Tier) : (inGroup tier l).filter p = inGroup tier (l.filter p) := by
    unfold inGroup
    rw [List.filter_filter, List.filter_filter]
    exact List.filter_congr fun e _ => Bool.and_comm _ _
  unfold byGroups
  simp only [List.filter_append, filter_sortBy lawful, hgroup]

theorem chainOrder_perm (cmp : Comparator) (aware : String × Definition κ → Bool)
    (l : List (String × Definition κ)) : (chainOrder cmp aware l).Perm l :=
  ((byGroups_perm cmp _).append
    ((sortBy_perm cmp standingOf _).trans ((grouped_perm l).filter aware))).trans
      (List.perm_append_comm.trans (List.filter_append_perm aware l))

end Groups

/-! ## 2. Joining again -/

/-- What is in the chain once is in it once after somebody has joined. -/
theorem count_join {chain : List (Extension κ)} {n : Nat}
    (h : (chain.map Extension.id).count n = 1) (e : Extension κ) :
    ((chain.filter (fun other => other.id ≠ e.id) ++ [e]).map Extension.id).count n = 1 := by
  have hids : (chain.filter fun other => other.id ≠ e.id).map Extension.id =
      (chain.map Extension.id).filter (· ≠ e.id) := by
    rw [List.filter_map]
    rfl
  rw [List.map_append, List.count_append, hids]
  by_cases hn : n = e.id
  · subst hn
    have hgone : e.id ∉ (chain.map Extension.id).filter (· ≠ e.id) := by simp
    have hself : ([e].map Extension.id).count e.id = 1 := List.count_singleton_self
    rw [List.count_eq_zero.mpr hgone, hself]
  · have hother : n ∉ [e.id] := fun hm => hn (List.mem_singleton.mp hm)
    have hzero : ([e].map Extension.id).count n = 0 := List.count_eq_zero.mpr hother
    rw [List.count_filter (by simpa using hn), h, hzero]

/-- **Where some of those who have joined join again**, they leave their places among the others. -/
theorem joined_again {ext : α → Extension κ} {again : α → Bool} {l l' : List α}
    (hl : (l.map fun a => (ext a).id).Nodup) (hperm : l'.Perm (l.filter again))
    (chain : List (Extension κ)) :
    joined chain (l.map ext ++ l'.map ext) =
      chain.filter (fun e => e.id ∉ l.map fun a => (ext a).id) ++
        (l.filter (!again ·)).map ext ++ l'.map ext := by
  have hids (l : List α) : (l.map ext).map Extension.id = l.map fun a => (ext a).id := List.map_map
  have hl' : (l'.map fun a => (ext a).id).Nodup :=
    (hperm.map _).nodup_iff.mpr (hl.sublist (List.filter_sublist.map _))
  have distinct : ∀ a ∈ l, ∀ a' ∈ l, (ext a).id = (ext a').id → a = a' := by
    have hne : l.Pairwise fun a a' => (ext a).id ≠ (ext a').id := List.pairwise_map.mp hl
    exact List.Pairwise.forall_of_forall_of_flip (fun _ _ _ => rfl)
      (hne.imp fun h heq => absurd heq h) (hne.imp fun h heq => absurd heq.symm h)
  have hmem {a : α} (ha : a ∈ l) : (ext a).id ∈ (l'.map fun a => (ext a).id) ↔ again a = true := by
    constructor
    · intro hm
      obtain ⟨a', ha', heq⟩ := List.mem_map.mp hm
      obtain ⟨hin, hagain⟩ := List.mem_filter.mp (hperm.mem_iff.mp ha')
      rwa [distinct a' hin a ha heq] at hagain
    · exact fun hagain => List.mem_map_of_mem
        (hperm.mem_iff.mpr (List.mem_filter.mpr ⟨ha, hagain⟩))
  have hfront : (chain.filter fun e => e.id ∉ l.map fun a => (ext a).id).filter
      (fun e => e.id ∉ l'.map fun a => (ext a).id) =
        chain.filter fun e => e.id ∉ l.map fun a => (ext a).id := by
    refine List.filter_eq_self.mpr fun e he => ?_
    refine decide_eq_true fun hm => of_decide_eq_true (List.mem_filter.mp he).2 ?_
    obtain ⟨a, ha, heq⟩ := List.mem_map.mp hm
    exact heq ▸ List.mem_map_of_mem (List.mem_filter.mp (hperm.mem_iff.mp ha)).1
  have hback : (l.map ext).filter (fun e => e.id ∉ l'.map fun a => (ext a).id) =
      (l.filter (!again ·)).map ext := by
    rw [List.filter_map]
    congr 1
    refine List.filter_congr fun a ha => ?_
    show decide ((ext a).id ∉ l'.map fun a => (ext a).id) = !again a
    simp only [decide_not, hmem ha, Bool.decide_eq_true]
  rw [joined_append, joined_of_nodup (by rwa [hids]), joined_of_nodup (by rwa [hids]), hids, hids,
    List.filter_append, hfront, hback]

/-! ## 3. The run of phase 7 -/

/-- What is left of the candidates is what is left of the definitions. -/
theorem Found.filter {batch : List (Candidate κ)} {chosen : List (String × Definition κ)}
    (found : Found s batch chosen) (q : String → Bool) :
    Found s (batch.filter (q ·.name)) (chosen.filter (q ·.1)) where
  keys := by
    have hkeys := congrArg (List.filter (q ·.1)) found.keys
    rwa [List.filter_map, List.filter_map] at hkeys
  known c hc := found.known c (List.mem_filter.mp hc).1

theorem undealt_names (c : Container κ ι) (P : Processed) :
    (c.namesFor (.postProcessor .component)).filter (!P.contains ·) =
      (undealt c P).map Prod.fst := by
  rw [namesFor_eq_makers c (by decide), List.filter_map]
  rfl

/-- Phase 7 makes the three groups that it finds. The watcher for completeness joins the chain, then
    the groups join it, then again some of their members, then the watcher for listeners. -/
theorem runChainPhase_gentle {listeners : Extension κ} {cmp : Comparator} (ready : Ready s)
    (hcmp : Comparator.resolve (view.comparator s.container) = cmp)
    (gentle : Asks (serve b depth view) (Gentle b depth) (runChainPhase b listeners) P s) :
    ∃ checker s' priority ordered others,
      Yields (serve b depth view) (runChainPhase b listeners) P s checker P s' ∧
      checker = ⟨s.nextId, .completeness
        (s.container.chain.length + 1 + (undealt s.container P).length)⟩ ∧
      Grows ([checker] ++ ((Candidate.sort cmp priority ++ Candidate.sort cmp ordered ++ others).map
          (·.handle.extension) ++ (Candidate.sort cmp
            ((priority ++ ordered ++ others).filter (wantsMerged b))).map (·.handle.extension)) ++
          [listeners]) { s with nextId := s.nextId + 1 } s' ∧
      Found s' priority (inGroup .highest (undealt s.container P)) ∧
      Found s' ordered (inGroup .ordered (undealt s.container P)) ∧
      Found s' others (inGroup .unordered (undealt s.container P)) := by
  generalize hfound : undealt s.container P = found
  generalize hs₁ : { s with nextId := s.nextId + 1 } = s₁
  have declared : Declared s found := by
    intro e he
    rw [← hfound] at he
    exact find?_of_mem_makers (List.mem_filter.mp he).1
  unfold runChainPhase at gentle ⊢
  have y₁ : Yields (serve b depth view) comparator P s cmp P s :=
    Yields.bind (Yields.ask (serve_comparator b depth view s)) (by rw [hcmp]; rfl)
  have a₁ := (Asks.right gentle y₁).right (result_get P s)
  have y₂ : Yields (serve b depth view) (namesFor .component) P s
      (s.container.namesFor (.postProcessor .component)) P s :=
    Yields.ask (serve_namesFor b depth view s _)
  have a₂ := Asks.right a₁ y₂
  rw [undealt_names, hfound] at a₂
  have y₃ := Yields.ask (P := P) (serve_chainLength b depth view s)
  have a₃ := a₂.right y₃
  have y₄ := Yields.ask (P := P) (serve_create b depth view s
    (.completeness (s.container.chain.length + 1 + (found.map Prod.fst).length)))
  have a₄ := a₃.right y₄
  rw [hs₁] at y₄ a₄
  have ready₁ : Ready s₁ := hs₁ ▸ ⟨ready.idle, ready.agrees⟩
  have declared₁ : Declared s₁ found := hs₁ ▸ declared
  obtain ⟨s₂, y₅, g₅⟩ := attach_grows b depth view s₁ P
    ⟨s.nextId, .completeness (s.container.chain.length + 1 + (found.map Prod.fst).length)⟩
  have a₅ := a₄.right y₅
  -- the three groups: each is made in the state the steps before have led to, and then joins
  obtain ⟨priority, s₃, y₆, g₆, f₆⟩ := split_gentle (g₅.ready ready₁)
    (declared₁.later g₅) a₅.left
  have a₆ := a₅.right y₆
  have t₆ := g₅.trans g₆
  obtain ⟨s₄, y₇, g₇⟩ := join_grows b depth view s₃ P (Candidate.sort cmp priority)
  have a₇ := Asks.right a₆ y₇
  have t₇ := t₆.trans g₇
  obtain ⟨ordered, s₅, y₈, g₈, f₈⟩ := makeMembers_gentle (t₇.ready ready₁)
    ((declared₁.later t₇).inGroup .ordered) a₇.left
  have a₈ := a₇.right y₈
  have t₈ := t₇.trans g₈
  obtain ⟨s₆, y₉, g₉⟩ := join_grows b depth view s₅ P (Candidate.sort cmp ordered)
  have a₉ := Asks.right a₈ y₉
  have t₉ := t₈.trans g₉
  obtain ⟨others, s₇, y₁₀, g₁₀, f₁₀⟩ := makeMembers_gentle (t₉.ready ready₁)
    ((declared₁.later t₉).inGroup .unordered) a₉.left
  obtain ⟨s₈, y₁₁, g₁₁⟩ := join_grows b depth view s₇ P others
  obtain ⟨s₉, y₁₂, g₁₂⟩ := join_grows b depth view s₈ P
    (Candidate.sort cmp ((priority ++ ordered ++ others).filter (wantsMerged b)))
  obtain ⟨s₁₀, y₁₃, g₁₃⟩ := attach_grows b depth view s₉ P listeners
  have y₁₄ := Yields.ask (P := P) (serve_chainLength b depth view s₁₀)
  have y₁₅ := Yields.ask (P := P)
    (serve_announce b depth view s₁₀ (.chainDone s₁₀.container.chain.length))
  have g₁₅ : Grows [] s₁₀ { s₁₀ with
      history := .announced (.chainDone s₁₀.container.chain.length) :: s₁₀.history } :=
    .of_same rfl rfl rfl rfl
  have last := g₁₁.trans (g₁₂.trans (g₁₃.trans g₁₅))
  refine ⟨_, _, priority, ordered, others, y₁.bind (Yields.bind (result_get P s) (y₂.bind ?_)),
    congrArg _ (congrArg _ (congrArg _ (List.length_map Prod.fst))), ?_,
    f₆.mono ((g₇.trans (g₈.trans (g₉.trans g₁₀))).trans last).keeps,
    f₈.mono ((g₉.trans g₁₀).trans last).keeps, f₁₀.mono last.keeps⟩
  · rw [undealt_names, hfound]
    exact y₃.bind (y₄.bind (y₅.bind (y₆.bind (Yields.bind y₇ (y₈.bind (Yields.bind y₉
      (y₁₀.bind (Yields.bind y₁₁ (Yields.bind y₁₂ (y₁₃.bind (y₁₄.bind (y₁₅.bind rfl))))))))))))
  · have whole := t₉.trans (g₁₀.trans last)
    simpa only [List.map_append, List.append_assoc, List.nil_append, List.append_nil] using whole

/-! ## 4. The chain after phase 7 -/

/-- The chain after phase 7, but for the watcher for listeners at its end. The extensions found are
    `made`, by their names. -/
def finalChain (b : Behaviour κ ι ω) (cmp : Comparator) (chain : List (Extension κ))
    (checker : Extension κ) (found : List (String × Definition κ)) (made : String → Extension κ) :
    List (Extension κ) :=
  chain.filter (fun e => e.id ∉ found.map fun e => (made e.1).id) ++ [checker] ++
    (chainOrder cmp (fun e => (made e.1).isMergedAware b) found).map fun e => made e.1

/-- What joins after the watcher for completeness, joined. -/
theorem joined_finalChain {cmp : Comparator} (lawful : cmp.Lawful) {chain : List (Extension κ)}
    {checker : Extension κ} {found : List (String × Definition κ)} {made : String → Extension κ}
    (distinct : (found.map fun e => (made e.1).id).Nodup)
    (hchain : ∀ e ∈ chain, e.id ≠ checker.id) (hfound : ∀ e ∈ found, (made e.1).id ≠ checker.id) :
    joined chain ([checker] ++ ((byGroups cmp found).map (fun e => made e.1) ++
        (sortBy cmp standingOf ((grouped found).filter fun e => (made e.1).isMergedAware b)).map
          fun e => made e.1)) = finalChain b cmp chain checker found made := by
  have hperm := byGroups_perm cmp found
  have hids : (byGroups cmp found).map (fun e => (made e.1).id) |>.Nodup :=
    (hperm.map _).nodup_iff.mpr distinct
  have hagain : (sortBy cmp standingOf ((grouped found).filter
      fun e => (made e.1).isMergedAware b)).Perm
        ((byGroups cmp found).filter fun e => (made e.1).isMergedAware b) :=
    (sortBy_perm cmp standingOf _).trans (((grouped_perm found).trans hperm.symm).filter _)
  have hfirst : joined chain [checker] = chain ++ [checker] := by
    rw [joined_of_nodup (l := [checker]) (List.pairwise_singleton _ _), List.filter_eq_self.mpr]
    intro e he
    simpa using hchain e he
  have hleft : (chain ++ [checker]).filter
      (fun e => e.id ∉ (byGroups cmp found).map fun e => (made e.1).id) =
        chain.filter (fun e => e.id ∉ found.map fun e => (made e.1).id) ++ [checker] := by
    have hsame (e : Extension κ) : (e.id ∉ (byGroups cmp found).map fun e => (made e.1).id) ↔
        e.id ∉ found.map fun e => (made e.1).id := not_congr (hperm.map _).mem_iff
    simp only [hsame, List.filter_append]
    congr 1
    refine List.filter_eq_self.mpr fun e he => ?_
    rw [List.mem_singleton.mp he]
    refine decide_eq_true fun hm => ?_
    obtain ⟨e', he', heq⟩ := List.mem_map.mp hm
    exact hfound e' he' heq
  unfold finalChain chainOrder
  rw [joined_append, hfirst, joined_again hids hagain, hleft, filter_byGroups lawful, List.map_append,
    List.append_assoc]

/-- All that was found is in it once. -/
theorem count_finalChain {cmp : Comparator} {chain : List (Extension κ)} {checker : Extension κ}
    {found : List (String × Definition κ)} {made : String → Extension κ}
    (distinct : (found.map fun e => (made e.1).id).Nodup) {e : String × Definition κ}
    (he : e ∈ found) (hnew : (made e.1).id ≠ checker.id) :
    ((finalChain b cmp chain checker found made).map Extension.id).count (made e.1).id = 1 := by
  have hin : (made e.1).id ∈ found.map fun e => (made e.1).id := List.mem_map_of_mem he
  have hperm := (chainOrder_perm cmp (fun e => (made e.1).isMergedAware b) found).map
    fun e => (made e.1).id
  have hfront : (made e.1).id ∉
      (chain.filter fun e => e.id ∉ found.map fun e => (made e.1).id).map Extension.id := by
    intro hm
    obtain ⟨e', he', heq⟩ := List.mem_map.mp hm
    exact of_decide_eq_true (List.mem_filter.mp he').2 (heq ▸ hin)
  have hchecker : (made e.1).id ∉ [checker.id] := fun hm => hnew (List.mem_singleton.mp hm)
  unfold finalChain
  rw [List.map_append, List.map_append, List.count_append, List.count_append,
    List.count_eq_zero.mpr hfront, List.map_map]
  show 0 + [checker.id].count _ + _ = 1
  rw [List.count_eq_zero.mpr hchecker, Nat.zero_add]
  exact (hperm.count_eq _).trans ((List.Nodup.count distinct).trans (if_pos hin))

/-- What stands neither in the chain before nor among those found is not in it, unless it is the
    watcher for completeness. -/
theorem filter_finalChain {cmp : Comparator} {chain : List (Extension κ)}
    {checker other : Extension κ} {found : List (String × Definition κ)}
    {made : String → Extension κ} (hold : ∀ e ∈ chain, e.id ≠ other.id)
    (hchecker : checker.id ≠ other.id) (hfound : ∀ e ∈ found, (made e.1).id ≠ other.id) :
    (finalChain b cmp chain checker found made).filter (fun e => e.id ≠ other.id) =
      finalChain b cmp chain checker found made := by
  refine List.filter_eq_self.mpr fun e he => decide_eq_true ?_
  rcases List.mem_append.mp he with he | he
  · rcases List.mem_append.mp he with he | he
    · exact hold e (List.mem_filter.mp he).1
    · exact List.mem_singleton.mp he ▸ hchecker
  · obtain ⟨e', he', rfl⟩ := List.mem_map.mp he
    exact hfound e' ((chainOrder_perm cmp _ found).mem_iff.mp he')

/-- **The final shape of the chain.** If the suppliers of the component post-processors that are found
    succeed and change neither the registry nor the chain, phase 7 returns, and those found are
    there under their names. If they are distinct from each other and from the watcher for
    completeness, which is new, the chain consists of what was in it before without those found,
    this watcher, those found in the order of the closed form, and the watcher for listeners,
    which leaves its place if it was among them. All that was found is in it exactly once. -/
theorem chain_has_final_shape {listeners : Extension κ} (ready : Ready s)
    (new : ∀ e ∈ listeners :: s.container.chain, e.id ≠ s.nextId)
    (lawful : (Comparator.resolve (view.comparator s.container)).Lawful)
    (gentle : Asks (serve b depth view) (Gentle b depth) (runChainPhase b listeners) P s) :
    ∃ checker s' made,
      Yields (serve b depth view) (runChainPhase b listeners) P s checker P s' ∧
      checker = ⟨s.nextId, .completeness
        (s.container.chain.length + 1 + (undealt s.container P).length)⟩ ∧
      (∀ e ∈ undealt s.container P,
        s'.container.extensions.find? e.1 = some ⟨.component, made e.1⟩) ∧
      s'.container.definitions = s.container.definitions ∧
      ((checker.id :: (undealt s.container P).map fun e => (made e.1).id).Nodup →
        s'.container.chain = (finalChain b (Comparator.resolve (view.comparator s.container))
          s.container.chain checker (undealt s.container P) made).filter
            (fun e => e.id ≠ listeners.id) ++ [listeners] ∧
        ((∀ e ∈ s.container.chain, e.id ≠ listeners.id) →
          (∀ e ∈ undealt s.container P, (made e.1).id ≠ listeners.id) →
          s'.container.chain = finalChain b (Comparator.resolve (view.comparator s.container))
            s.container.chain checker (undealt s.container P) made ++ [listeners]) ∧
        ∀ e ∈ undealt s.container P, (s'.container.chain.map Extension.id).count (made e.1).id = 1)
      := by
  generalize hcmp : Comparator.resolve (view.comparator s.container) = cmp at lawful ⊢
  obtain ⟨checker, s', priority, ordered, others, yields, hchecker, grows, f₁, f₂, f₃⟩ :=
    runChainPhase_gentle ready hcmp gentle
  have declared : Declared s (undealt s.container P) :=
    fun e he => find?_of_mem_makers (List.mem_filter.mp he).1
  generalize undealt s.container P = found at *
  obtain ⟨made, holds⟩ := exists_holds s'.container
  have ready' : Ready s' := grows.ready ⟨ready.idle, ready.agrees⟩
  have known : ∀ e ∈ found, s'.container.extensions.find? e.1 = some ⟨.component, made e.1⟩ := by
    intro e he
    obtain ⟨hd, hk⟩ := declared e he
    exact ((f₁.append f₂).append f₃).made ready' holds ((grouped_perm found).mem_iff.mpr he)
      (grows.definitions ▸ hd) hk
  obtain ⟨given, hchain⟩ := List.forall_mem_cons.mp new
  rw [show s.nextId = checker.id by rw [hchecker]] at given hchain
  refine ⟨checker, s', made, yields, hchecker, known, grows.definitions, fun distinct => ?_⟩
  obtain ⟨hnew, distinct⟩ := List.nodup_cons.mp distinct
  have hfound : ∀ e ∈ found, (made e.1).id ≠ checker.id :=
    fun e he heq => hnew (heq ▸ List.mem_map_of_mem he)
  have extensions {batch : List (Candidate κ)} {chosen : List (String × Definition κ)}
      (f : Found s' batch chosen) :
      batch.map (·.handle.extension) = chosen.map fun e => made e.1 := f.calls holds fun _ e => e
  have groups : (Candidate.sort cmp priority ++ Candidate.sort cmp ordered ++ others).map
      (·.handle.extension) = (byGroups cmp found).map fun e => made e.1 :=
    extensions (((f₁.sort cmp).append (f₂.sort cmp)).append f₃)
  have again : (Candidate.sort cmp ((priority ++ ordered ++ others).filter (wantsMerged b))).map
      (·.handle.extension) = (sortBy cmp standingOf ((grouped found).filter
        fun e => (made e.1).isMergedAware b)).map fun e => made e.1 := by
    have f := (f₁.append f₂).append f₃
    rw [List.filter_congr fun c hc => show wantsMerged b c = (made c.name).isMergedAware b by
      rw [← holds _ _ (f.known c hc)]; rfl]
    exact extensions ((f.filter fun n => (made n).isMergedAware b).sort cmp)
  have final : s'.container.chain =
      (finalChain b cmp s.container.chain checker found made).filter
        (fun e => e.id ≠ listeners.id) ++ [listeners] := by
    rw [grows.chain, groups, again, joined_append]
    show joined (joined s.container.chain _) [listeners] = _
    rw [joined_finalChain lawful distinct hchain hfound]
    rfl
  refine ⟨final, fun hold hother => ?_, fun e he => ?_⟩
  · rw [final, filter_finalChain hold given.symm hother]
  · rw [final]
    exact count_join (count_finalChain distinct he (hfound e he)) listeners

theorem harmless_gentle (q : Request Bool Unit Unit × State Bool Unit Unit) :
    Gentle harmless 1 q := by
  obtain ⟨r, s⟩ := q
  cases r with
  | extension name expected => exact fun d _ _ => ⟨_, _, rfl, [], rfl, fun _ h => nomatch h⟩
  | _ => trivial

/-- One of the component post-processors has been dealt with. -/
def c6Dealt : Processed := Processed.empty.insert "c6"

/-- The extensions that are found, by their names, numbered in the order in which they are made; `c3`
    is there already. -/
def seats : List (String × Extension Bool) :=
  [("c1", outsider 11), ("c2", ⟨14, .custom true⟩), ("c3", ⟨1, .custom true⟩),
    ("c4", outsider 9), ("c5", outsider 15), ("c7", outsider 12), ("c8", ⟨13, .custom true⟩),
    ("c9", outsider 10), ("c10", ⟨16, .custom true⟩)]

/-- In the crowd, the two of the chain that have no definition stay in front. Those found come
    behind the watcher for completeness, group by group; but `c3`, which is in the chain already,
    and three others want to see merged definitions and come last, before the watcher for
    listeners. -/
theorem crowd_chain_has_final_shape :
    ∃ s' made,
      Yields (serve harmless 1 .full) (runChainPhase harmless ⟨100, .listeners⟩) c6Dealt crowd
        ⟨8, .completeness 13⟩ c6Dealt s' ∧
      (undealt crowd.container c6Dealt).map (fun e => (e.1, made e.1)) = seats ∧
      s'.container.chain = finalChain harmless .standard crowd.container.chain ⟨8, .completeness 13⟩
        (undealt crowd.container c6Dealt) made ++ [⟨100, .listeners⟩] ∧
      s'.container.chain =
        [outsider 2, ⟨3, .custom true⟩, ⟨8, .completeness 13⟩, outsider 10, outsider 9, outsider 11,
          outsider 12, outsider 15, ⟨1, .custom true⟩, ⟨13, .custom true⟩, ⟨14, .custom true⟩,
          ⟨16, .custom true⟩, ⟨100, .listeners⟩] := by
  have gentle : Asks (serve harmless 1 .full) (Gentle harmless 1)
      (runChainPhase harmless ⟨100, .listeners⟩) c6Dealt crowd := fun q _ => harmless_gentle q
  have new : ∀ e ∈ (⟨100, .listeners⟩ : Extension Bool) :: crowd.container.chain,
      e.id ≠ crowd.nextId := by decide
  have lawful : (Comparator.resolve (View.full.comparator crowd.container)).Lawful :=
    Comparator.standard_lawful
  obtain ⟨checker, s', made, yields, rfl, known, -, shape⟩ :=
    chain_has_final_shape crowd_ready new lawful gentle
  have target : crowd.container.chain.length + 1 + (undealt crowd.container c6Dealt).length = 13 := by
    cbv
  rw [target] at yields shape
  -- what is computed of the run holds of the state that it comes to
  have ends (Q : State Bool Unit Unit → Bool)
      (computed : (Phase.result (serve harmless 1 .full) (runChainPhase harmless ⟨100, .listeners⟩)
        c6Dealt crowd).all (fun r => Q r.2) = true) : Q s' = true := by
    rw [yields] at computed
    exact computed
  have seated : (undealt crowd.container c6Dealt).map (fun e => (e.1, made e.1)) = seats := by
    have found : (undealt crowd.container c6Dealt).map (fun e => (e.1, made e.1)) =
        (undealt crowd.container c6Dealt).map fun e =>
          (e.1, ((s'.container.extensions.find? e.1).map Handle.extension).getD (outsider 0)) :=
      List.map_congr_left fun e mem => by rw [known e mem]; rfl
    rw [found]
    refine beq_iff_eq.mp (ends (fun t => (undealt crowd.container c6Dealt).map (fun e =>
      (e.1, ((t.container.extensions.find? e.1).map Handle.extension).getD (outsider 0))) == _) ?_)
    cbv
  have ids : (undealt crowd.container c6Dealt).map (fun e => (made e.1).id) =
      [11, 14, 1, 9, 15, 12, 13, 10, 16] := by
    have second := congrArg (List.map fun e => e.2.id) seated
    rw [List.map_map] at second
    exact second
  have others : ∀ e ∈ undealt crowd.container c6Dealt, (made e.1).id ≠ 100 := by
    intro e mem
    have mem : (made e.1).id ∈ [11, 14, 1, 9, 15, 12, 13, 10, 16] := ids ▸ List.mem_map_of_mem mem
    exact fun same => absurd (same ▸ mem) (by decide)
  obtain ⟨-, final, -⟩ := shape (by rw [ids]; decide)
  refine ⟨s', made, yields, seated, final (by decide) others, ?_⟩
  refine beq_iff_eq.mp (ends (fun t => t.container.chain == _) ?_)
  cbv

end ComponentContainer.Bootstrap
