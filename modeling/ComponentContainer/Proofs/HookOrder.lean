/-
  File:      ComponentContainer/Proofs/HookOrder.lean
  Subject:   The order of all hooks where suppliers and hooks leave the container as it is.

  * `group` -- the definitions of a family in a group, in order of registration; `inOrder` -- the
    three groups one after the other, the first two sorted.
  * `hookOrder` -- the closed form of what a bootstrap runs.
  * `passive_hooks_run_in_order` -- **the bootstrap returns, and runs these hooks in this order.**
  * `crowd` -- a container to try things with, where extensions of all families stand in all groups.
-/
import Mathlib
import ComponentContainer.Proofs.ExactlyOnce
import ComponentContainer.Proofs.PassiveRuns

namespace ComponentContainer.Bootstrap

open Phase Container

variable {κ ι ω α : Type} {b : Behaviour κ ι ω} {depth : Nat} {view : View} {s : State κ ι ω}
  {P : Processed}

/-! ## 1. The closed form -/

/-- The definitions of a family in a group, in order of registration. -/
def group (c : Container κ ι) (family : PostProcessor) (tier : Tier) :
    List (String × Definition κ) :=
  (makers c family).filter fun e => (standingOf e).tier == tier

/-- The definitions of a family: the priority group sorted, the ordered group sorted, the others. -/
def inOrder (cmp : Comparator) (c : Container κ ι) (family : PostProcessor) :
    List (String × Definition κ) :=
  sortBy cmp standingOf (group c family .highest) ++
    sortBy cmp standingOf (group c family .ordered) ++ group c family .unordered

/-- The hooks of a bootstrap in which nothing changes, where `made` are the extensions by their
    names. -/
def hookOrder (cmp : Comparator) (c : Container κ ι) (external : List (Handle κ))
    (made : String → Extension κ) : List (HookCall κ) :=
  (suppliedRegistry external).map .supplied ++
    (inOrder cmp c .registry).map (fun e => .found e.1 (made e.1)) ++
    (suppliedRegistry external ++ (inOrder cmp c .registry).map (fun e => made e.1) ++
      suppliedFactory external).map .factory ++
    (inOrder cmp c .factory).map fun e => .remaining e.1 (made e.1)

/-! ## 2. The factory hooks -/

theorem runSupplied_passive {external : List (Handle κ)}
    (asks : Asks (serve b depth view) (Passive b depth view) (runSupplied b external) P s) :
    ∃ s', Yields (serve b depth view) (runSupplied b external) P s () P s' ∧ Quiet s s' :=
  forM_passive (fun h _ s asks => by
    obtain ⟨s₁, y₁, q₁⟩ := announce_passive b depth view s P (.suppliedHook (h.name b.name))
    obtain ⟨s₂, y₂, q₂⟩ := registryHook_passive (asks.right y₁)
    exact ⟨s₂, y₁.bind y₂, q₁.trans q₂⟩) asks

theorem factoryHooks_passive {es : List (Extension κ)}
    (asks : Asks (serve b depth view) (Passive b depth view) (es.forM factoryHook) P s) :
    ∃ s', Yields (serve b depth view) (es.forM factoryHook) P s ⟨⟩ P s' ∧ Quiet s s' :=
  forM_passive (fun _ _ _ asks => factoryHook_passive asks) asks

theorem runFactoryHook_passive {name : κ → String} {handle : Handle κ}
    (hf : handle.family ≠ .component)
    (asks : Asks (serve b depth view) (Passive b depth view)
      (demand (handle.runFactoryHook name)) P s) :
    ∃ s', Yields (serve b depth view) (demand (handle.runFactoryHook name)) P s () P s' ∧
      Quiet s s' := by
  rw [runFactoryHook_eq_request hf] at asks ⊢
  exact factoryHook_passive asks

theorem regularHooks_passive {name : κ → String} {handles : List (Handle κ)}
    (hf : ∀ handle ∈ handles, handle.family ≠ .component)
    (asks : Asks (serve b depth view) (Passive b depth view)
      (handles.forM fun h => demand (h.runFactoryHook name)) P s) :
    ∃ s', Yields (serve b depth view) (handles.forM fun h => demand (h.runFactoryHook name)) P s
      ⟨⟩ P s' ∧ Quiet s s' :=
  forM_passive (fun h hm _ asks => runFactoryHook_passive (hf h hm) asks) asks

theorem runFactoryHooks_passive {group : List (Candidate κ)}
    (hf : ∀ c ∈ group, c.handle.family ≠ .component)
    (asks : Asks (serve b depth view) (Passive b depth view) (runFactoryHooks b group) P s) :
    ∃ s', Yields (serve b depth view) (runFactoryHooks b group) P s group.length P s' ∧
      Quiet s s' := by
  obtain ⟨s', y, q⟩ := forM_passive (fun c hc s asks => by
    obtain ⟨s₁, y₁, q₁⟩ := announce_passive b depth view s P (.factoryHook c.name c.precedence)
    obtain ⟨s₂, y₂, q₂⟩ := runFactoryHook_passive (hf c hc) (asks.right y₁)
    exact ⟨s₂, y₁.bind y₂, q₁.trans q₂⟩) (Asks.left asks)
  exact ⟨s', y.bind rfl, q⟩

/-- What is found for a definition is of the family the definition names. -/
theorem Found.family {batch : List (Candidate κ)} {chosen : List (String × Definition κ)}
    {family : PostProcessor} (found : Found s batch chosen) (hr : Ready s)
    (hl : ∀ e ∈ chosen, s.container.definitions.find? e.1 = some e.2 ∧
      e.2.kind = .postProcessor family) : ∀ c ∈ batch, c.handle.family = family := by
  intro c hc
  have hname : c.name ∈ chosen.map Prod.fst := found.names ▸ List.mem_map_of_mem hc
  obtain ⟨e, he, heq⟩ := List.mem_map.mp hname
  obtain ⟨hd, hk⟩ := hl e he
  have hfamily := hr.agrees (found.known c hc) (heq ▸ hd)
  rw [hk, Kind.postProcessor.injEq] at hfamily
  exact hfamily.symm

/-- **A group of phase 6 is made, and its factory hooks run in the order it is sorted in.** -/
theorem factoryGroup_passive (sort : List (Candidate κ) → List (Candidate κ))
    {sorted l : List (String × Definition κ)} (hr : Ready s)
    (hl : ∀ e ∈ l, s.container.definitions.find? e.1 = some e.2 ∧
      e.2.kind = .postProcessor .factory) (hperm : sorted.Perm l)
    (hsort : ∀ {s : State κ ι ω} {batch}, Found s batch l → Found s (sort batch) sorted)
    (asks : Asks (serve b depth view) (Passive b depth view)
      (factoryGroup b sort (l.map Prod.fst)) P s) :
    ∃ batch s', Yields (serve b depth view) (factoryGroup b sort (l.map Prod.fst)) P s l.length
      P s' ∧ Quiet s s' ∧ Found s' batch sorted ∧
      calls (Phase.asked (serve b depth view) (factoryGroup b sort (l.map Prod.fst)) P s) =
        batch.map remainingCall := by
  obtain ⟨made, s₁, y₁, q₁, found⟩ := makeGroup_passive hr hl (Asks.left asks)
  have hlength : (sort made).length = l.length := by
    have hnames := congrArg List.length (hsort found).names
    rw [List.length_map, List.length_map] at hnames
    rw [hnames, hperm.length_eq]
  have hfamily := (hsort found).family (q₁.ready hr)
    fun e he => q₁.definitions ▸ hl e (hperm.mem_iff.mp he)
  obtain ⟨s₂, y₂, q₂⟩ := runFactoryHooks_passive
    (fun c hc => by rw [hfamily c hc]; decide)
    (Asks.right (f := fun made => runFactoryHooks b (sort made)) asks y₁)
  have ret : Returns (serve b depth view) (factoryGroup b sort (l.map Prod.fst)) P s _ _ P s₂ :=
    Returns.bind ⟨y₁, rfl⟩ ⟨y₂, rfl⟩
  obtain ⟨-, hsilent, -⟩ := makeGroup_returns ⟨y₁, rfl⟩
  refine ⟨sort made, s₂, hlength ▸ y₁.bind y₂, q₁.trans q₂, (hsort found).mono q₂.keeps, ?_⟩
  rw [ret.asked, calls_append hsilent.settled, hsilent.calls]
  exact (runFactoryHooks_returns ⟨y₂, rfl⟩).2.2

/-! ## 3. The groups, phase by phase -/

section Groups

variable {cmp : Comparator} {c : Container κ ι}

theorem chosen_congr {c' : Container κ ι} (h : makers c' .registry = makers c .registry)
    (test accept : Precedence → Bool) : chosen cmp c' test accept = chosen cmp c test accept := by
  unfold chosen
  rw [h]

theorem chosen_eq_group {test accept : Precedence → Bool} (tier : Tier)
    (h : ∀ p, (!test p && accept p) = (p.tier == tier)) :
    chosen cmp c test accept = sortBy cmp standingOf (group c .registry tier) := by
  unfold chosen group
  simp only [h]

/-- The definitions without a standing stand alike, so that sorting leaves them as they are. -/
theorem sortBy_group_unordered (lawful : cmp.Lawful) (family : PostProcessor) :
    sortBy cmp standingOf (group c family .unordered) = group c family .unordered := by
  refine sortBy_of_equal lawful (p := .unordered) fun e he => ?_
  have htier : (standingOf e).tier = .unordered := by simpa using (List.mem_filter.mp he).2
  cases hp : standingOf e with
  | priority n =>
      rw [hp] at htier
      cases htier
  | ordered n =>
      rw [hp] at htier
      cases htier
  | unordered => rfl

theorem group_find? {family : PostProcessor} {tier : Tier} :
    ∀ e ∈ group c family tier, c.definitions.find? e.1 = some e.2 ∧
      e.2.kind = .postProcessor family :=
  fun _ he => find?_of_mem_makers (List.mem_filter.mp he).1

end Groups

/-- The extensions that are there under their names. -/
def Holds (c : Container κ ι) (made : String → Extension κ) : Prop :=
  ∀ n h, c.extensions.find? n = some h → h.extension = made n

theorem exists_holds (c : Container κ ι) : ∃ made : String → Extension κ, Holds c made := by
  refine ⟨fun n => ((c.extensions.find? n).map Handle.extension).getD ⟨0, .listeners⟩, ?_⟩
  intro n h hh
  show _ = ((c.extensions.find? n).map Handle.extension).getD _
  rw [hh]
  rfl

theorem mem_inOrder {cmp : Comparator} {c : Container κ ι} {family : PostProcessor}
    {e : String × Definition κ} : e ∈ inOrder cmp c family ↔ e ∈ makers c family := by
  unfold inOrder group
  rw [List.mem_append, List.mem_append, mem_sortBy, mem_sortBy, List.mem_filter, List.mem_filter,
    List.mem_filter]
  cases (standingOf e).tier <;> simp

/-- What is found under names, as hooks of the extensions there are in the end. -/
theorem Found.calls {batch : List (Candidate κ)} {chosen : List (String × Definition κ)}
    (found : Found s batch chosen) {made : String → Extension κ} (holds : Holds s.container made)
    (hook : String → Extension κ → α) :
    batch.map (fun c => hook c.name c.handle.extension) =
      chosen.map fun e => hook e.1 (made e.1) := by
  have hcongr : batch.map (fun c => hook c.name c.handle.extension) =
      batch.map fun c => hook c.name (made c.name) :=
    List.map_congr_left fun c hc => by rw [holds _ _ (found.known c hc)]
  have hnames := congrArg (List.map fun n => hook n (made n)) found.names
  rw [List.map_map, List.map_map] at hnames
  exact hcongr.trans hnames

/-- What is found for a definition is there under its name. -/
theorem Found.find? {batch : List (Candidate κ)} {chosen : List (String × Definition κ)}
    (found : Found s batch chosen) {e : String × Definition κ} (he : e ∈ chosen) :
    ∃ h, s.container.extensions.find? e.1 = some h := by
  have hname : e.1 ∈ batch.map Candidate.name := found.names ▸ List.mem_map_of_mem he
  obtain ⟨c, hc, heq⟩ := List.mem_map.mp hname
  exact ⟨c.handle, heq ▸ found.known c hc⟩

/-- What is known of a chosen definition is of the family of the definition. -/
theorem Found.made {batch : List (Candidate κ)} {chosen : List (String × Definition κ)}
    (found : Found s batch chosen) (ready : Ready s) {made : String → Extension κ}
    (holds : Holds s.container made) {e : String × Definition κ} (he : e ∈ chosen)
    (hd : s.container.definitions.find? e.1 = some e.2) {family : PostProcessor}
    (hk : e.2.kind = .postProcessor family) :
    s.container.extensions.find? e.1 = some ⟨family, made e.1⟩ := by
  obtain ⟨h, hh⟩ := found.find? he
  have hfamily := ready.agrees hh hd
  rw [hk, Kind.postProcessor.injEq] at hfamily
  rw [hh, ← holds _ _ hh, hfamily]

theorem ensureCapable_ok {external : List (Handle κ)}
    (h : ∀ handle ∈ external, handle.family ≠ .component) :
    ensureCapable b external = .ok () := by
  unfold ensureCapable
  induction external with
  | nil => rfl
  | cons handle external ih =>
      obtain ⟨hf, h⟩ := List.forall_mem_cons.mp h
      have hok : handle.ensureFactoryCapable b.name = .ok () := by
        unfold Handle.ensureFactoryCapable
        cases hk : handle.family with
        | component => exact absurd hk hf
        | registry => rfl
        | factory => rfl
      show (handle.ensureFactoryCapable b.name >>= fun _ => _) = _
      rw [hok]
      exact ih h

theorem exists_passesToFollow {limit : Option Nat} {patience : Nat} (hlimit : limit ≠ some 0)
    (patient : 2 ≤ patience) : ∃ n, passesToFollow limit patience = n + 2 := by
  cases limit with
  | none => exact ⟨patience - 2, by show patience = _; omega⟩
  | some n =>
      have hn : n ≠ 0 := fun h => hlimit (h ▸ rfl)
      exact ⟨n - 1, by show n + 1 = _; omega⟩

theorem ensureAllowed_zero {limit : Option Nat} (hlimit : limit ≠ some 0) :
    ensureAllowed limit 0 = .ok () := by
  cases limit with
  | none => rfl
  | some n =>
      have hn : n ≠ 0 := fun h => hlimit (h ▸ rfl)
      exact if_neg (by omega)

/-! ## 4. The phases -/

/-- Phases 1 to 4 find the registry post-processors, in order. -/
theorem registryPhases_passive {cmp : Comparator} {patience : Nat} {options : Options}
    {external : List (Handle κ)} (ready : Ready s) (lawful : cmp.Lawful)
    (limit : options.maxPasses ≠ some 0) (patient : 2 ≤ patience)
    (asks : Asks (serve b depth view) (Passive b depth view)
      (runRegistryPhases b cmp patience options external) .empty s) :
    ∃ n found P' s', Yields (serve b depth view)
      (runRegistryPhases b cmp patience options external) .empty s (n, found) P' s' ∧ Quiet s s' ∧
      Found s' found (inOrder cmp s.container .registry) ∧ Dealt s.container P' fun _ => true := by
  obtain ⟨n, hn⟩ := exists_passesToFollow limit patient
  unfold runRegistryPhases at asks ⊢
  rw [hn] at asks ⊢
  -- each step in the state the steps before have led to
  obtain ⟨s₁, y₁, q₁⟩ := runSupplied_passive asks.left
  have a₁ := asks.right y₁
  obtain ⟨priority, P₂, s₂, y₂, q₂, f₂, d₂⟩ :=
    registryPhase_passive (q₁.ready ready) (.empty _) a₁.left
  have a₂ := a₁.right y₂
  have t₂ := q₁.trans q₂
  obtain ⟨ordered, P₃, s₃, y₃, q₃, f₃, d₃⟩ := registryPhase_passive (t₂.ready ready)
    (d₂.congr (q₂.makers _) fun _ => rfl) a₂.left
  have a₃ := a₂.right y₃
  have t₃ := t₂.trans q₃
  obtain ⟨others, P₄, s₄, y₄, q₄, f₄, d₄⟩ := passes_passive (t₃.ready ready)
    (d₃.congr (q₃.makers _) fun _ => rfl) (ensureAllowed_zero limit) a₃.left
  -- what each of them has found is one of the groups
  rw [chosen_congr (q₁.makers _), chosen_eq_group .highest (by rintro (_ | _ | _) <;> rfl)] at f₂
  rw [chosen_congr (t₂.makers _), chosen_eq_group .ordered (by rintro (_ | _ | _) <;> rfl)] at f₃
  rw [chosen_congr (t₃.makers _), chosen_eq_group .unordered (by rintro (_ | _ | _) <;> rfl),
    sortBy_group_unordered lawful] at f₄
  exact ⟨_, priority ++ ordered ++ others, P₄, s₄, y₁.bind (y₂.bind (y₃.bind (y₄.bind rfl))),
    t₃.trans q₄, ((f₂.mono (q₃.trans q₄).keeps).append (f₃.mono q₄.keeps)).append f₄,
    d₄.congr (t₃.makers _).symm fun _ => rfl⟩

/-- Phase 5 returns. -/
theorem ownHooks_passive {external : List (Handle κ)} {found : List (Candidate κ)}
    (capable : ∀ handle ∈ external, handle.family ≠ .component)
    (asks : Asks (serve b depth view) (Passive b depth view) (runOwnHooks b external found) P s) :
    ∃ n s', Yields (serve b depth view) (runOwnHooks b external found) P s n P s' ∧
      Quiet s s' := by
  obtain ⟨s₁, y₁, q₁⟩ := factoryHooks_passive asks.left
  have regular : ∀ h ∈ external.filter (·.family != .registry), h.family ≠ .component :=
    fun h hm => capable h (List.mem_filter.mp hm).1
  obtain ⟨s₂, y₂, q₂⟩ := regularHooks_passive regular (asks.right y₁).left
  exact ⟨_, s₂, y₁.bind (y₂.bind rfl), q₁.trans q₂⟩

/-- Phase 6 finds the factory post-processors and runs their hooks, in order. -/
theorem runRemaining_passive {cmp : Comparator} (ready : Ready s)
    (dealt : Dealt s.container P fun _ => true)
    (asks : Asks (serve b depth view) (Passive b depth view) (runRemaining b cmp) P s) :
    ∃ n found s', Yields (serve b depth view) (runRemaining b cmp) P s n P s' ∧ Quiet s s' ∧
      Found s' found (inOrder cmp s.container .factory) ∧
      calls (Phase.asked (serve b depth view) (runRemaining b cmp) P s) =
        found.map remainingCall := by
  have y₁ : Yields (serve b depth view) remaining P s _ P s := remaining_passive dealt
  have a₁ := Asks.right asks y₁
  have tiers (tier : Tier) : inTier tier ((makers s.container .factory).map fun e =>
      (e.1, (standingOf e).tier)) = (group s.container .factory tier).map Prod.fst :=
    inTier_map tier _
  simp only [tiers] at a₁
  obtain ⟨highest, s₂, y₂, q₂, f₂, c₂⟩ := factoryGroup_passive (Candidate.sort cmp) ready
    group_find? (sortBy_perm cmp standingOf _) (fun found => found.sort cmp) a₁.left
  have a₂ := Asks.right a₁ y₂
  obtain ⟨middle, s₃, y₃, q₃, f₃, c₃⟩ := factoryGroup_passive (Candidate.sort cmp)
    (q₂.ready ready) (fun e he => q₂.definitions ▸ group_find? e he)
    (sortBy_perm cmp standingOf _) (fun found => found.sort cmp) a₂.left
  have a₃ := Asks.right a₂ y₃
  have t₃ := q₂.trans q₃
  obtain ⟨last, s₄, y₄, q₄, f₄, c₄⟩ := factoryGroup_passive id (t₃.ready ready)
    (fun e he => t₃.definitions ▸ group_find? e he) (List.Perm.refl _) (fun found => found) a₃.left
  rw [← tiers] at y₂ c₂ y₃ c₃ y₄ c₄
  refine ⟨_, highest ++ middle ++ last, s₄, y₁.bind (y₂.bind (y₃.bind (y₄.bind rfl))),
    t₃.trans q₄, ((f₂.mono (q₃.trans q₄).keeps).append (f₃.mono q₄.keeps)).append f₄, ?_⟩
  have silent₁ : Silent (Phase.asked (serve b depth view) remaining P s) := by
    obtain ⟨-, _, _, T, hT, silent, -⟩ := remaining_returns ⟨y₁, rfl⟩
    rw [hT]
    exact (Silent.single (silent_registry _)).append silent
  unfold runRemaining
  rw [calls_bind y₁ silent₁.settled, silent₁.calls,
    calls_bind y₂ ((factoryGroup_books b _ _).settled ⟨y₂, rfl⟩),
    calls_bind y₃ ((factoryGroup_books b _ _).settled ⟨y₃, rfl⟩),
    calls_bind y₄ ((factoryGroup_books b _ _).settled ⟨y₄, rfl⟩), c₂, c₃, c₄, asked_pure,
    List.map_append, List.map_append, List.append_assoc]
  show _ ++ (_ ++ (_ ++ [])) = _
  rw [List.append_nil]

/-! ## 5. The order of all hooks -/

/-- **Where suppliers and hooks succeed and leave the container as it is, a bootstrap returns and
    runs the hooks of the closed form, in its order**: of the extensions that are there in the end
    under the names of their definitions. Nothing else in the container changes, but that the merged
    definitions are forgotten. -/
theorem passive_hooks_run_in_order {patience : Nat} {options : Options}
    {external : List (Handle κ)} (ready : Ready s)
    (capable : ∀ handle ∈ external, handle.family ≠ .component)
    (lawful : (Comparator.resolve (view.comparator s.container)).Lawful)
    (limit : options.maxPasses ≠ some 0) (patient : 2 ≤ patience)
    (passive : Asks (serve b depth view) (Passive b depth view)
      (runFactoryPhases b patience options external) .empty s) :
    ∃ T stats dealt s' made,
      Returns (serve b depth view) (runFactoryPhases b patience options external) .empty s T stats
        dealt s' ∧
      calls T = hookOrder (Comparator.resolve (view.comparator s.container)) s.container external
        made ∧
      (∀ family e, family ≠ .component → e ∈ makers s.container family →
        s'.container.extensions.find? e.1 = some ⟨family, made e.1⟩) ∧
      s'.container =
        { s.container with extensions := s'.container.extensions, merged := .empty } := by
  generalize hcmp : Comparator.resolve (view.comparator s.container) = cmp at lawful ⊢
  have y₁ : Yields (serve b depth view) comparator .empty s cmp .empty s :=
    Yields.bind (Yields.ask (serve_comparator b depth view s)) (by rw [hcmp]; rfl)
  have a₁ := Asks.right passive y₁
  have y₂ : Yields (serve b depth view) (demand (pure (ensureCapable b external))) .empty s ()
      .empty s := Yields.demand (by rw [ensureCapable_ok capable]; rfl)
  have a₂ := a₁.right y₂
  obtain ⟨n, found, dealt, s₃, y₃, q₃, f₃, d₃⟩ :=
    registryPhases_passive ready lawful limit patient a₂.left
  have a₃ := a₂.right y₃
  obtain ⟨own, s₄, y₄, q₄⟩ := ownHooks_passive capable a₃.left
  have t₄ := q₃.trans q₄
  obtain ⟨rest, remaining, s₅, y₅, q₅, f₅, c₅⟩ := runRemaining_passive (t₄.ready ready)
    (d₃.congr (t₄.makers _) fun _ => rfl) (a₃.right y₄).left
  obtain ⟨made, holds⟩ := exists_holds s₅.container
  have registry : Found s₅ found (inOrder cmp s.container .registry) := f₃.mono (q₄.trans q₅).keeps
  have factory : Found s₅ remaining (inOrder cmp s.container .factory) := by
    unfold inOrder group at f₅ ⊢
    rwa [t₄.makers] at f₅
  obtain ⟨stats, s', yields, hlast⟩ : ∃ stats s', Yields (serve b depth view)
      (runFactoryPhases b patience options external) .empty s stats dealt s' ∧
      s'.container = { s₅.container with merged := .empty } :=
    ⟨_, _, y₁.bind (y₂.bind (y₃.bind (y₄.bind (y₅.bind (Yields.bind
      (Yields.ask (serve_clearMerged b depth view s₅)) (Yields.bind
      (Yields.ask (serve_announce b depth view _ _)) rfl)))))), rfl⟩
  refine ⟨_, stats, dealt, s', made, ⟨yields, rfl⟩, ?_, ?_, ?_⟩
  · obtain ⟨c₄, e₄⟩ := calls_factoryHooks (ownHooks_returns ⟨y₄, rfl⟩).1
    have silent₁ : Silent (Phase.asked (serve b depth view) comparator .empty s) :=
      comparator_unhooked.silent .empty s
    have ending {x : Stats} {n : Notice} (hn : (Request.announce n : Request κ ι ω).Silent) :
        Unhooked (serve b depth view) (do
          ask .clearMerged
          announce n
          return x) :=
      (Unhooked.ask ⟨rfl, fun _ => rfl⟩).bind fun _ => (Unhooked.ask hn).bind fun _ => .pure _
    have extensions : found.map (fun c => c.handle.extension) =
        (inOrder cmp s.container .registry).map fun e => made e.1 :=
      registry.calls holds fun _ e => e
    unfold runFactoryPhases hookOrder
    rw [calls_bind y₁ silent₁.settled, silent₁.calls, calls_bind y₂ rfl,
      calls_bind y₃ ((registryPhases_books b cmp _ _ _).settled ⟨y₃, rfl⟩),
      registryPhases_returns ⟨y₃, rfl⟩, calls_bind y₄ e₄, c₄,
      calls_bind y₅ ((runRemaining_books b cmp).settled ⟨y₅, rfl⟩), c₅,
      ((ending ⟨rfl, fun _ => rfl⟩).silent dealt s₅).calls,
      ← registry.calls holds HookCall.found, ← extensions,
      ← factory.calls holds HookCall.remaining]
    simp only [List.append_assoc, List.append_nil]
    rfl
  · intro family e hf he
    have hin : e ∈ inOrder cmp s.container family := mem_inOrder.mpr he
    have t₅ := t₄.trans q₅
    obtain ⟨hd, hk⟩ := find?_of_mem_makers he
    rw [← t₅.definitions] at hd
    rw [hlast]
    cases family with
    | component => exact absurd rfl hf
    | registry => exact registry.made (t₅.ready ready) holds hin hd hk
    | factory => exact factory.made (t₅.ready ready) holds hin hd hk
  · rw [hlast, (t₄.trans q₅).container]

/-- The behaviour where hooks do nothing, and code says whether an extension wants to see merged
    definitions. -/
def harmless : Behaviour Bool Unit Unit where
  name _ := ""
  supply _ := return .ok ()
  build aware := return .ok aware
  onRegistry _ := return .ok ()
  onFactory _ := return .ok ()
  mergedAware aware := aware
  onMerged _ _ _ world := (.ok (), world)
  before _ value _ world := (.ok value, world)
  after _ value _ world := (.ok value, world)

theorem harmless_passive (q : Request Bool Unit Unit × State Bool Unit Unit) :
    Passive harmless 1 .full q := by
  obtain ⟨r, s⟩ := q
  cases r with
  | registryHook e =>
      rcases e with ⟨id, _ | _ | _⟩ <;> exact ⟨_, rfl, rfl⟩
  | factoryHook e =>
      rcases e with ⟨id, _ | _ | _⟩ <;> exact ⟨_, rfl, rfl⟩
  | extension name expected => exact fun d _ _ => ⟨_, _, rfl, rfl⟩
  | _ => trivial

/-- The definition of an extension. -/
def member (name : String) (family : PostProcessor) (precedence : Precedence)
    (aware : Bool := false) : Definition Bool :=
  { name, typeName := "Member", kind := .postProcessor family, supplier := aware, precedence }

/-- Extensions in all groups, registered against their order, some with the same standing. -/
def roster : List (Definition Bool) :=
  [member "r1" .registry .unordered, member "r2" .registry (.ordered 7),
    member "r3" .registry (.priority 1), member "r4" .registry (.priority (-2)),
    member "r5" .registry (.priority 1), member "r6" .registry (.ordered 7),
    member "r7" .registry (.ordered (-2147483648)), member "r8" .registry .unordered,
    member "f1" .factory (.ordered 3), member "f2" .factory .unordered,
    member "f3" .factory (.priority 2147483647), member "f4" .factory (.ordered 3),
    member "f5" .factory (.priority 0), member "f6" .factory .unordered,
    member "c1" .component (.ordered 5), member "c2" .component .unordered true,
    member "c3" .component (.priority 3) true, member "c4" .component (.priority 3),
    member "c5" .component .unordered, member "c6" .component (.priority 0),
    member "c7" .component (.ordered 5), member "c8" .component (.ordered 5) true,
    member "c9" .component (.priority (-1)), member "c10" .component .unordered true]

/-- A container with these definitions. Two of the extensions are there already, and one of the two
    is in the chain, between two that have no definition. -/
def crowd : State Bool Unit Unit where
  container := {
    definitions := ⟨roster.map fun d => (d.name, d), by decide⟩
    extensions := ⟨[("r6", ⟨.registry, ⟨0, .custom false⟩⟩), ("c3", ⟨.component, ⟨1, .custom true⟩⟩)],
      by decide⟩
    chain := [⟨2, .custom false⟩, ⟨1, .custom true⟩, ⟨3, .custom true⟩] }
  world := ()
  nextId := 8

theorem crowd_ready : Ready crowd where
  idle := rfl
  agrees name h d known found := by
    have fits : crowd.container.extensions.entries.all (fun e =>
        (crowd.container.definitions.find? e.1).all (·.kind == .postProcessor e.2.family)) = true := by
      decide +kernel
    have fit := List.all_eq_true.mp fits _ ((Table.find?_eq_some_iff _ _ _).mp known)
    rw [found] at fit
    exact beq_iff_eq.mp fit

/-- An extension without a definition, which does not want to see merged definitions. -/
def outsider (id : Nat) : Extension Bool := ⟨id, .custom false⟩

/-- Extensions that are handed in. -/
def handedIn : List (Handle Bool) :=
  [⟨.factory, outsider 4⟩, ⟨.registry, outsider 5⟩, ⟨.registry, outsider 6⟩, ⟨.factory, outsider 7⟩]

/-- In the crowd, the groups come one after the other, those of the same standing as they were
    registered, and the extensions handed in at their places. -/
theorem crowd_hooks_run_in_order :
    ∃ T stats dealt s' made,
      Returns (serve harmless 1 .full)
        (runFactoryPhases harmless 2 { maxPasses := some 1 } handedIn) .empty crowd T stats dealt s' ∧
      calls T = [outsider 5, outsider 6].map .supplied ++
        ["r4", "r3", "r5", "r7", "r2", "r6", "r1", "r8"].map (fun n => .found n (made n)) ++
        ([outsider 5, outsider 6] ++ ["r4", "r3", "r5", "r7", "r2", "r6", "r1", "r8"].map made ++
          [outsider 4, outsider 7]).map .factory ++
        ["f5", "f3", "f1", "f4", "f2", "f6"].map (fun n => .remaining n (made n)) ∧
      (∀ family e, family ≠ .component → e ∈ makers crowd.container family →
        s'.container.extensions.find? e.1 = some ⟨family, made e.1⟩) ∧
      s'.container =
        { crowd.container with extensions := s'.container.extensions, merged := .empty } := by
  have capable : ∀ handle ∈ handedIn, handle.family ≠ .component := by decide
  have lawful : (Comparator.resolve (View.full.comparator crowd.container)).Lawful :=
    Comparator.standard_lawful
  have passive : Asks (serve harmless 1 .full) (Passive harmless 1 .full)
      (runFactoryPhases harmless 2 { maxPasses := some 1 } handedIn) .empty crowd :=
    fun q _ => harmless_passive q
  obtain ⟨T, stats, dealt, s', made, returns, order, known, rest⟩ :=
    passive_hooks_run_in_order crowd_ready capable lawful (by decide) (Nat.le_refl 2) passive
  have registry : (inOrder .standard crowd.container .registry).map Prod.fst =
      ["r4", "r3", "r5", "r7", "r2", "r6", "r1", "r8"] := by cbv
  have factory : (inOrder .standard crowd.container .factory).map Prod.fst =
      ["f5", "f3", "f1", "f4", "f2", "f6"] := by cbv
  refine ⟨T, stats, dealt, s', made, returns, ?_, known, rest⟩
  rw [order, ← registry, ← factory, List.map_map, List.map_map, List.map_map]
  rfl

end ComponentContainer.Bootstrap
