/-
  File:      ComponentContainer/Proofs/TierBarrier.lean
  Subject:   The groups of registry post-processors bar each other's way.

  * `Before` -- the order of a batch: the comparator's, and that of registration among equals.
  * `InRounds.round`, `InRounds.earlier` -- what a round runs; what an earlier look has accepted has
    had its turn.
  * `Barred` -- what is said of one round; `rounds_are_barred` -- **no hook goes before those of a
    group above its own, not even where hooks register, remove or reorder definitions.**
  * `newcomer_goes_before_undeclared` -- a definition that a hook of the first round registers.
-/
import ComponentContainer.Proofs.Rounds

namespace ComponentContainer.Bootstrap

open Phase Container

variable {κ ι ω : Type} {b : Behaviour κ ι ω} {depth : Nat} {view : View} {cmp : Comparator}

/-! ## 1. The order of a batch -/

/-- The comparator puts the one before the other; or they compare equal, and the one was registered
    earlier. -/
def Before (cmp : Comparator) (c : Container κ ι) (e e' : String × Definition κ) : Prop :=
  cmp (standingOf e) (standingOf e') = .lt ∨
    (cmp (standingOf e) (standingOf e') = .eq ∧ List.Sublist [e, e'] (makers c .registry))

/-- **A batch is in order**: sorting is stable. -/
theorem pairwise_batchAt (lawful : cmp.Lawful) (n : Nat) (c : Container κ ι)
    (dealt : List String) : (batchAt cmp n c dealt).Pairwise (Before cmp c) := by
  rw [List.pairwise_iff_forall_sublist]
  intro e e' pair
  have le := List.pairwise_iff_forall_sublist.mp (pairwise_sortBy lawful _) pair
  cases hc : cmp (standingOf e) (standingOf e') with
  | lt => exact .inl hc
  | eq => exact .inr ⟨hc, (sublist_of_sortBy lawful pair hc).trans List.filter_sublist⟩
  | gt =>
      rw [hc] at le
      cases le

/-! ## 2. What earlier rounds have run -/

/-- The names under which registry hooks are run in the rounds before the `n`-th one. -/
def earlier (R : List (State κ ι ω × List String)) (n : Nat) : List String :=
  (R.take n).flatMap Prod.snd

namespace InRounds

variable {done : Prop} {k : Nat} {dealt : List String} {R : List (State κ ι ω × List String)}

/-- What the `n`-th of the rounds runs. By induction on the rounds. -/
theorem round (h : InRounds cmp done k dealt R) {n : Nat} {t : State κ ι ω}
    {names : List String} (at_n : R[n]? = some (t, names)) :
    names <+: (batchAt cmp (k + n) t.container (dealt ++ earlier R n)).map Prod.fst ∧
      (done ∨ n + 1 < R.length →
        names = (batchAt cmp (k + n) t.container (dealt ++ earlier R n)).map Prod.fst) := by
  induction h generalizing n with
  | nil => cases at_n
  | @cons k dealt first t₀ rest some all later ih =>
      cases n with
      | zero =>
          cases at_n
          simp only [earlier, List.take_zero, List.flatMap_nil, List.append_nil, Nat.add_zero]
          refine ⟨some, fun goes_on => all (goes_on.imp_right fun more => ?_)⟩
          rintro rfl
          simp at more
      | succ n =>
          obtain ⟨part, whole⟩ := ih at_n
          have shift : dealt ++ earlier ((t₀, first) :: rest) (n + 1) =
              dealt ++ first ++ earlier rest n := by simp [earlier]
          rw [shift, Nat.add_comm n 1, ← Nat.add_assoc]
          refine ⟨part, fun goes_on => whole (goes_on.imp_right fun more => ?_)⟩
          rw [List.length_cons] at more
          omega

/-- **What an earlier look has accepted has had its turn**: it was dealt with before, or it is in the
    batch of that look, all of which has been run. -/
theorem earlier_accepted (h : InRounds cmp done 0 [] R) {i n : Nat} (before : i < n)
    {t : State κ ι ω} {names : List String} (at_i : R[i]? = some (t, names))
    (length : n < R.length) {e : String × Definition κ}
    (he : e ∈ makers t.container .registry) (accepted : accepts i (standingOf e) = true) :
    e.1 ∈ earlier R n := by
  obtain ⟨-, whole⟩ := h.round at_i
  have all := whole (.inr (by omega))
  rw [Nat.zero_add, List.nil_append] at all
  have sooner : earlier R i ⊆ earlier R n := fun m hm => by
    obtain ⟨r, hr, hm⟩ := List.mem_flatMap.mp hm
    exact List.mem_flatMap.mpr ⟨r, (List.take_subset_take_left R (Nat.le_of_lt before)) hr, hm⟩
  by_cases dealt : e.1 ∈ earlier R i
  · exact sooner dealt
  · have run : e.1 ∈ names := all ▸ List.mem_map_of_mem (mem_batchAt.mpr ⟨he, dealt, accepted⟩)
    refine List.mem_flatMap.mpr ⟨(t, names), ?_, run⟩
    exact List.mem_take_iff_getElem.mpr ⟨i, by
      have := (List.getElem?_eq_some_iff.mp at_i).1
      omega, (List.getElem?_eq_some_iff.mp at_i).2⟩

end InRounds

/-! ## 3. The barriers -/

/-- What is said of the `n`-th of the rounds: it looks in the state `t` and runs the registry hooks
    under `names`. -/
structure Barred (cmp : Comparator) (done : Prop) (R : List (State κ ι ω × List String)) (n : Nat)
    (t : State κ ι ω) (names : List String) : Prop where
  /-- What the look accepts, and what has not had its turn, is run in order; the hooks of a batch
      neither drop nor reorder what is later in it. -/
  batch : ∃ batch : List (String × Definition κ),
    batch.Perm ((makers t.container .registry).filter
      fun e => !(earlier R n).contains e.1 && accepts n (standingOf e)) ∧
    batch.Pairwise (Before cmp t.container) ∧ names <+: batch.map Prod.fst ∧
    (done ∨ n + 1 < R.length → names = batch.map Prod.fst)
  /-- What is not in the priority group goes after all that was in it at the first look. -/
  priority : ∀ e ∈ makers t.container .registry, e.1 ∈ names → (standingOf e).isPriority = false →
    ∀ first ∈ R[0]?, ∀ e' ∈ makers first.1.container .registry,
      (standingOf e').isPriority = true → e'.1 ∈ earlier R n
  /-- What is not ordered goes after all that was ordered at the second look. -/
  ordered : ∀ e ∈ makers t.container .registry, e.1 ∈ names → (standingOf e).isOrdered = false →
    ∀ second ∈ R[1]?, ∀ e' ∈ makers second.1.container .registry,
      (standingOf e').isOrdered = true → e'.1 ∈ earlier R n

/-- What a round runs under the name of a definition was accepted by its look. -/
theorem accepted_of_mem_names {done : Prop} {R : List (State κ ι ω × List String)} {n : Nat}
    {t : State κ ι ω} {names : List String} (h : InRounds cmp done 0 [] R)
    (at_n : R[n]? = some (t, names)) {e : String × Definition κ}
    (he : e ∈ makers t.container .registry) (run : e.1 ∈ names) :
    accepts n (standingOf e) = true := by
  obtain ⟨part, -⟩ := h.round at_n
  obtain ⟨e', he', same⟩ := List.mem_map.mp (part.subset run)
  obtain ⟨maker, -, accepted⟩ := mem_batchAt.mp he'
  rw [Nat.zero_add] at accepted
  have found := (find?_of_mem_makers maker).1
  rw [same, (find?_of_mem_makers he).1, Option.some.injEq] at found
  rwa [show e = e' from Prod.ext same.symm found]

theorem InRounds.barred {done : Prop} {R : List (State κ ι ω × List String)}
    (lawful : cmp.Lawful) (h : InRounds cmp done 0 [] R) {n : Nat} {t : State κ ι ω}
    {names : List String} (at_n : R[n]? = some (t, names)) : Barred cmp done R n t names where
  batch := by
    obtain ⟨part, whole⟩ := h.round at_n
    rw [Nat.zero_add, List.nil_append] at part whole
    exact ⟨_, sortBy_perm _ _ _, pairwise_batchAt lawful n _ _, part, whole⟩
  priority e he run low first at_first e' he' high := by
    have accepted := accepted_of_mem_names h at_n he run
    have later : 0 < n := by
      rcases n with _ | n
      · rw [accepts, low] at accepted
        cases accepted
      · exact Nat.succ_pos n
    exact h.earlier_accepted later at_first (List.getElem?_eq_some_iff.mp at_n).1 he' high
  ordered e he run low second at_second e' he' high := by
    have accepted := accepted_of_mem_names h at_n he run
    have unranked : (standingOf e).isPriority = false := by
      cases hp : standingOf e with
      | priority m =>
          rw [hp] at low
          cases low
      | ordered m => rfl
      | unordered => rfl
    have later : 1 < n := by
      rcases n with _ | _ | n
      · rw [accepts, unranked] at accepted
        cases accepted
      · rw [Nat.zero_add, accepts, low] at accepted
        cases accepted
      · omega
    exact h.earlier_accepted later at_second (List.getElem?_eq_some_iff.mp at_n).1 he' high

/-- The rounds of a run of phases 1 to 6. -/
def registryRounds (b : Behaviour κ ι ω) (depth : Nat) (view : View) (patience : Nat)
    (options : Options) (external : List (Handle κ)) (s : State κ ι ω) :
    List (State κ ι ω × List String) :=
  rounds (Phase.asked (serve b depth view) (runFactoryPhases b patience options external) .empty s)

/-- **The groups of registry post-processors bar each other's way**, whatever registry hooks do to
    the definitions, also in a run that fails or has no end; if suppliers leave the definitions alone
    and the comparator in force is a total preorder. All registry hooks under a name run in rounds,
    one round after the other. Each round runs, in order, what its look accepts and what has not had
    its turn: the first look accepts the priority group, the second one what is ordered, and each
    further one all. So no hook of a definition outside of the priority group goes before one that
    was in it at the first look, and no hook of a definition without a standing goes before one that
    had a standing at the second look, whoever has registered it. -/
theorem rounds_are_barred (patience : Nat) (options : Options) (external : List (Handle κ))
    (s : State κ ι ω)
    (lawful : (Comparator.resolve (view.comparator s.container)).Lawful)
    (untouched : Asks (serve b depth view) (LeavesRegistry b depth view)
      (runFactoryPhases b patience options external) .empty s) :
    foundNames (Phase.asked (serve b depth view) (runFactoryPhases b patience options external)
      .empty s) = (registryRounds b depth view patience options external s).flatMap Prod.snd ∧
    ∀ n t names, (registryRounds b depth view patience options external s)[n]? = some (t, names) →
      Barred (Comparator.resolve (view.comparator s.container))
        (Ends (serve b depth view) (runFactoryPhases b patience options external) .empty s)
        (registryRounds b depth view patience options external s) n t names := by
  have ordered := factoryPhases_inRounds patience options external s untouched
  exact ⟨ordered.names, fun n t names at_n => ordered.inRounds.barred lawful at_n⟩

/-! ## 4. A newcomer -/

/-- Suppliers that answer at once leave the definitions alone. -/
theorem leavesRegistry_of_build (build : ∀ code, ∃ made, b.build code = .done made)
    (q : Request κ ι ω × State κ ι ω) : LeavesRegistry b depth view q := by
  obtain ⟨r, s⟩ := q
  unfold LeavesRegistry
  split
  · rename_i name s heq
    cases heq
    intro answer s' answered
    rw [serve_extension] at answered
    have undisturbed {code : κ} {t t' : State κ ι ω} {made : Except Failure κ}
        (run : nested b depth .full (b.build code) t = some (made, t')) : t' = t := by
      obtain ⟨made', at_once⟩ := build code
      rw [at_once] at run
      cases depth with
      | zero => cases run
      | succ depth =>
          cases run
          rfl
    cases extension_cases answered with
    | refused failure => rfl
    | known found declares known => rfl
    | unfit idle => rfl
    | failed idle new found kind run => rw [undisturbed run]; rfl
    | made idle new found declares kind run => rw [undisturbed run]; rfl
  · trivial

/-- The behaviour where the registry hook of `true` registers an ordered post-processor. -/
def promoting : Behaviour Bool Unit Unit :=
  { lateComer with
    onRegistry := fun code =>
      if code then
        Program.request (I := registryInterface Bool Unit)
          (.register { registryPostProcessor "newcomer" false with precedence := .ordered 1 })
      else .done (.ok ())
    onFactory := fun _ => .done (.ok ()) }

/-- A post-processor of the priority group, with such a hook. -/
def foremost : Definition Bool :=
  { registryPostProcessor "foremost" true with precedence := .priority 0 }

/-- The definitions where an undeclared post-processor was registered before it. -/
def tiers : Table (Definition Bool) :=
  (Table.set .empty "undeclared" (registryPostProcessor "undeclared" false)).set "foremost" foremost

/-- The container before such a bootstrap. -/
def tiered : State Bool Unit Unit where
  container := { definitions := tiers }
  world := ()

/-- The newcomer goes before the undeclared one, which was there before it. -/
theorem newcomer_goes_before_undeclared :
    (registryRounds promoting 1 .full 3 {} [] tiered).map Prod.snd =
      [["foremost"], ["newcomer"], ["undeclared"], []] ∧
    foundNames (Phase.asked (serve promoting 1 .full) (runFactoryPhases promoting 3 {} [])
      .empty tiered) = (registryRounds promoting 1 .full 3 {} [] tiered).flatMap Prod.snd ∧
    ∀ n t names, (registryRounds promoting 1 .full 3 {} [] tiered)[n]? = some (t, names) →
      Barred .standard
        (Ends (serve promoting 1 .full) (runFactoryPhases promoting 3 {} []) .empty tiered)
        (registryRounds promoting 1 .full 3 {} [] tiered) n t names :=
  ⟨by decide +kernel, rounds_are_barred 3 {} [] tiered Comparator.standard_lawful
    fun q _ => leavesRegistry_of_build (fun code => ⟨.ok code, rfl⟩) q⟩

end ComponentContainer.Bootstrap
