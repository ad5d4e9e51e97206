/-
  File:      ComponentContainer/Proofs/FirstFailure.lean
  Subject:   The first call that fails ends a bootstrap.

  * `Fails` -- a call that is answered with a failure; `MadeOf.aborts` -- **it ends the phase with this
    failure, and nothing is asked for after it.**
  * `Program.asked_agree` -- a run is the same up to where its answers differ; `phases_congr` -- what a
    bootstrap reads off the behaviour.
  * `Restrained`, `Seated` -- what must not have been asked for before a call of phases 1 to 6, and
    before one of phase 7.
  * `phases_handedIn` -- **a component post-processor that is handed in is refused at once.**
  * `first_failure_aborts` -- all of this together.
-/
import ComponentContainer.Proofs.Waves

namespace ComponentContainer

/-! ## 1. Runs that agree up to a point -/

/-- **A run is the same up to where its answers differ**, for a request depends on the answers before
    it only. -/
theorem Program.asked_agree {I : Interface} {α σ : Type} {serve serve' : Program.Handler I σ}
    {p : Program I α} {s : σ} {before after : List (I.Request × σ)} {q : I.Request × σ}
    (h : p.asked serve s = before ++ q :: after)
    (agree : ∀ q ∈ before, serve' q.1 q.2 = serve q.1 q.2) :
    ∃ after', p.asked serve' s = before ++ q :: after' := by
  induction p generalizing s before with
  | done a => exact absurd h.symm (List.append_ne_nil_of_right_ne_nil _ (List.cons_ne_nil _ _))
  | ask r next ih =>
      rw [asked] at h ⊢
      cases before with
      | nil =>
          cases h
          exact ⟨_, rfl⟩
      | cons first before =>
          obtain ⟨rfl, rest⟩ := List.cons.inj h
          obtain ⟨same, agree⟩ := List.forall_mem_cons.mp agree
          rw [same]
          rcases hr : serve r s with _ | ⟨answer, s'⟩
          · rw [hr] at rest
            exact absurd rest.symm (List.append_ne_nil_of_right_ne_nil _ (List.cons_ne_nil _ _))
          · rw [hr] at rest
            obtain ⟨after', later⟩ := ih answer rest agree
            exact ⟨after', congrArg _ later⟩

namespace Bootstrap

open Phase

variable {κ ι ω σ α β : Type} {serve : Program.Handler (factoryInterface κ ι ω) σ}
  {P P' : Processed} {s s' : σ}

/-! ## 2. Calls that fail -/

/-- The request is a call, and its answer is that failure. -/
inductive Fails (serve : Program.Handler (factoryInterface κ ι ω) σ) :
    Request κ ι ω → σ → Failure → σ → Prop
  | extension {name : String} {expected : Capability} {s s' : σ} {failure : Failure}
      (h : serve (.extension name expected) s = some (.error failure, s')) :
      Fails serve (.extension name expected) s failure s'
  | registryHook {e : Extension κ} {s s' : σ} {failure : Failure}
      (h : serve (.registryHook e) s = some (.error failure, s')) :
      Fails serve (.registryHook e) s failure s'
  | factoryHook {e : Extension κ} {s s' : σ} {failure : Failure}
      (h : serve (.factoryHook e) s = some (.error failure, s')) :
      Fails serve (.factoryHook e) s failure s'

theorem Fails.isCall {r : Request κ ι ω} {failure : Failure} (h : Fails serve r s failure s') :
    r.isCall = true := by
  cases h <;> rfl

/-- The failure of a call, computed. -/
def failure? (serve : Program.Handler (factoryInterface κ ι ω) σ) : Request κ ι ω × σ → Option Failure
  | (.extension name expected, s) =>
    match serve (.extension name expected) s with
    | some (.error failure, _) => some failure
    | _ => none
  | (.registryHook e, s) =>
    match serve (.registryHook e) s with
    | some (.error failure, _) => some failure
    | _ => none
  | (.factoryHook e, s) =>
    match serve (.factoryHook e) s with
    | some (.error failure, _) => some failure
    | _ => none
  | _ => none

theorem exists_fails {q : Request κ ι ω × σ} {failure : Failure}
    (h : failure? serve q = some failure) : ∃ s', Fails serve q.1 q.2 failure s' := by
  unfold failure? at h
  split at h
  · split at h
    · rename_i served
      cases h
      exact ⟨_, .extension served⟩
    · cases h
  · split at h
    · rename_i served
      cases h
      exact ⟨_, .registryHook served⟩
    · cases h
  · split at h
    · rename_i served
      cases h
      exact ⟨_, .factoryHook served⟩
    · cases h
  · cases h

theorem ne_nil_of_cut {T before after : Asked κ ι ω σ} {q : Request κ ι ω × σ}
    (h : T = before ++ q :: after) : T ≠ [] :=
  h ▸ List.append_ne_nil_of_right_ne_nil _ (List.cons_ne_nil _ _)

/-- A single request. -/
theorem eq_of_single {T before after : Asked κ ι ω σ} {q q' : Request κ ι ω × σ} (hT : T = [q'])
    (h : T = before ++ q :: after) : q = q' ∧ after = [] := by
  rw [hT] at h
  obtain ⟨rfl, same⟩ | ⟨_, rfl, none⟩ := List.cons_eq_append_iff.mp h.symm.symm
  · cases same
    exact ⟨rfl, rfl⟩
  · exact absurd rfl (ne_nil_of_cut none)

/-- **A call that fails ends the phase with its failure**, and nothing is asked for after it. By
    induction on how the phase is made. -/
theorem MadeOf.aborts {sort : Request κ ι ω → Prop} {x : Phase κ ι ω α} (hx : MadeOf sort x)
    {before after : Asked κ ι ω σ} {r : Request κ ι ω} {u t : σ} {failure : Failure}
    (h : Phase.asked serve x P s = before ++ (r, u) :: after) (fails : Fails serve r u failure t) :
    after = [] ∧ ∃ P', result serve x P s = some ((.error failure, P'), t) := by
  induction hx generalizing P s before after with
  | pure a => exact absurd rfl (ne_nil_of_cut h)
  | throw failure => exact absurd rfl (ne_nil_of_cut h)
  | get => exact absurd rfl (ne_nil_of_cut h)
  | outcome ended => exact absurd rfl (ne_nil_of_cut h)
  | mark name hs => exact absurd rfl (ne_nil_of_cut h)
  | ask hs quiet =>
      obtain ⟨same, -⟩ := eq_of_single (asked_ask _ P s) h
      cases same
      exact absurd (quiet.symm.trans fails.isCall) nofun
  | extension hs =>
      obtain ⟨same, rfl⟩ := eq_of_single (asked_extension _ _ P s) h
      cases same
      cases fails with
      | extension served =>
          refine ⟨rfl, P, ?_⟩
          unfold Phase.extension
          rw [result_demand, Program.run_request, served]
  | registryHook hs =>
      obtain ⟨same, rfl⟩ := eq_of_single (asked_registryHook _ P s) h
      cases same
      cases fails with
      | registryHook served =>
          refine ⟨rfl, P, ?_⟩
          unfold Phase.registryHook
          rw [result_demand, Program.run_request, served]
  | factoryHook hs =>
      obtain ⟨same, rfl⟩ := eq_of_single (asked_factoryHook _ P s) h
      cases same
      cases fails with
      | factoryHook served =>
          refine ⟨rfl, P, ?_⟩
          unfold Phase.factoryHook
          rw [result_demand, Program.run_request, served]
  | @bind α β x f _ _ hx hf =>
      rcases Returns.asked_bind_cut h with ⟨rest, first⟩ | ⟨a, P₁, s₁, later, hr, rfl, second⟩
      · obtain ⟨rfl, P', failed⟩ := hx first
        rw [Phase.asked_bind, failed, List.append_nil, first] at h
        refine ⟨?_, P', ?_⟩
        · cases List.append_cancel_left h
          rfl
        · rw [result_bind, failed]
      · obtain ⟨none, P', failed⟩ := hf a second
        refine ⟨none, P', ?_⟩
        rw [result_bind, hr.result]
        exact failed

/-! ## 3. Whole bootstraps -/

/-- A bootstrap is made of requests none of whose failures is set aside. -/
theorem factoryPhases_madeOf (b : Behaviour κ ι ω) (patience : Nat) (options : Options)
    (external : List (Handle κ)) :
    MadeOf (fun r => RegistryWork r ∨ FactoryWork r ∨ r = .clearMerged)
      (runFactoryPhases b patience options external) :=
  (comparator_madeOf (.inl .comparator)).bind fun cmp => (MadeOf.outcome _).bind fun _ =>
    ((registryPhases_madeOf b cmp patience options external).mono fun _ => .inl).bind fun found =>
    ((ownHooks_madeOf b external found.2).mono fun _ h => .inr (.inl h)).bind fun _ =>
    ((runRemaining_madeOf b cmp).mono fun _ h => .inr (.inl h)).bind fun _ =>
    (MadeOf.ask (.inr (.inr rfl)) rfl).bind fun _ =>
    (announce_madeOf (.inl (.announce _))).bind fun _ => .pure _

theorem phases_madeOf (b : Behaviour κ ι ω) (patience : Nat) (options : Options)
    (external : List (Handle κ)) : MadeOf (fun _ => True) (phases b patience options external) :=
  ((factoryPhases_madeOf b patience options external).mono fun _ _ => trivial).bind fun _ =>
    (MadeOf.ask trivial rfl).bind fun listeners =>
    ((chainPhase_madeOf b listeners).mono fun _ _ => trivial).bind fun _ => MadeOf.get.bind fun _ =>
    .pure _

/-- **What a bootstrap asks for depends on the answers**, and on the names of code and on whether code
    wants to see merged definitions; on nothing else of the behaviour. -/
theorem phases_congr {b b' : Behaviour κ ι ω} (names : b'.name = b.name)
    (aware : b'.mergedAware = b.mergedAware) (patience : Nat) (options : Options)
    (external : List (Handle κ)) :
    phases b' patience options external = phases b patience options external := by
  have wants : wantsMerged b' = wantsMerged b := by
    funext c
    unfold wantsMerged
    rw [aware]
  simp only [phases, runFactoryPhases, ensureCapable, runRegistryPhases, runSupplied, runOwnHooks,
    runRemaining, factoryGroup, runFactoryHooks, runChainPhase, names, wants]

/-! ## 4. What was asked for before a call -/

/-- Before each call, `law` holds of what was asked for. -/
def BeforeCalls (law : Asked κ ι ω σ → Prop) (T : Asked κ ι ω σ) (q : Request κ ι ω × σ) : Prop :=
  q.1.isCall = true → law T

/-- The request is no call. -/
def Callless (r : Request κ ι ω) : Prop := r.isCall = false

theorem callless_ask {r : Request κ ι ω} (h : Callless r) : Only serve Callless (ask r) := .ask h

theorem Callless.beforeCalls {law : Asked κ ι ω σ → Prop} (T : Asked κ ι ω σ)
    (q : Request κ ι ω × σ) (h : Callless q.1) : BeforeCalls law T q :=
  fun call => absurd (h.symm.trans call) nofun

/-- A part whose requests do not matter for the law, before other parts. -/
theorem beforeCalls_bind {law : Asked κ ι ω σ → Prop} {sort : Request κ ι ω → Prop}
    {x : Phase κ ι ω α} {f : α → Phase κ ι ω β} {before : Asked κ ι ω σ}
    (grows : ∀ T T', law T → (∀ q ∈ T', sort q.1) → law (T ++ T')) (hx : Only serve sort x)
    (past : law before)
    (hf : ∀ T a P₁ s₁, Returns serve x P s T a P₁ s₁ → law (before ++ T) →
      Allowed serve (BeforeCalls law) (before ++ T) (f a) P₁ s₁) :
    Allowed serve (BeforeCalls law) before (x >>= f) P s := by
  refine Allowed.bind (fun T₁ q T₂ cut _ => ?_) fun T a P₁ s₁ h => ?_
  · exact grows before T₁ past fun q mem => hx P s q (cut ▸ List.mem_append_left _ mem)
  · exact hf T a P₁ s₁ h (grows before T past (hx.returned h))

/-- The request neither makes a watcher nor lets an extension join, nor does it have the merged
    definitions forgotten. -/
def Restrained (r : Request κ ι ω) : Prop :=
  (∀ body, r ≠ .create body) ∧ (∀ e, r ≠ .attach e) ∧ r ≠ .clearMerged

theorem RegistryWork.restrained {r : Request κ ι ω} (h : RegistryWork r) : Restrained r := by
  cases h <;> exact ⟨nofun, nofun, nofun⟩

theorem FactoryWork.restrained {r : Request κ ι ω} (h : FactoryWork r) : Restrained r := by
  cases h <;> exact ⟨nofun, nofun, nofun⟩

/-- **Before a call of phases 1 to 6** no watcher was made, none has joined, and the merged definitions
    were not forgotten: this comes after the last call. -/
theorem factoryPhases_restrained (b : Behaviour κ ι ω) (patience : Nat) (options : Options)
    (external : List (Handle κ)) :
    Allowed serve (BeforeCalls fun T => ∀ q ∈ T, Restrained q.1) []
      (runFactoryPhases b patience options external) P s := by
  have grows (T T' : Asked κ ι ω σ) (past : ∀ q ∈ T, Restrained q.1)
      (more : ∀ q ∈ T', Restrained q.1) : ∀ q ∈ T ++ T', Restrained q.1 :=
    fun q mem => (List.mem_append.mp mem).elim (past q) (more q)
  have opening : Only serve Restrained (comparator : Phase κ ι ω Comparator) :=
    (comparator_madeOf ⟨nofun, nofun, nofun⟩).only
  refine beforeCalls_bind grows opening nofun fun _ cmp _ _ _ past => ?_
  refine beforeCalls_bind grows (demand_pure_only _) past fun _ _ _ _ _ past => ?_
  refine beforeCalls_bind grows ((registryPhases_madeOf b cmp patience options external).only.mono
    fun _ h => h.restrained) past fun _ found _ _ _ past => ?_
  refine beforeCalls_bind grows ((ownHooks_madeOf b external found.2).only.mono
    fun _ h => h.restrained) past fun _ own _ _ _ past => ?_
  refine beforeCalls_bind grows ((runRemaining_madeOf b cmp).only.mono fun _ h => h.restrained) past
    fun _ rest _ _ _ _ => ?_
  have closing : Only serve Callless (do
      ask .clearMerged
      announce (.factoryPhasesDone own.1 (own.1 + own.2 + rest))
      return ⟨found.1, own.1 + own.2 + rest⟩ : Phase κ ι ω Stats) :=
    (callless_ask (by rfl)).bind fun _ => (callless_ask (by rfl)).bind fun _ => .pure _
  exact .of_only closing Callless.beforeCalls

/-- Who joins the chain before the last call: the watcher for completeness, and what was made under a
    name. -/
def Joins (serve : Program.Handler (factoryInterface κ ι ω) σ) (T : Asked κ ι ω σ)
    (e : Extension κ) : Prop :=
  (∃ n u t, (.create (.completeness n), u) ∈ T ∧
    serve (.create (.completeness n)) u = some (e, t)) ∨
  ∃ name, Answered serve T name .component e

theorem Joins.mono {T T' : Asked κ ι ω σ} {e : Extension κ} (h : Joins serve T e) (sub : T ⊆ T') :
    Joins serve T' e := by
  rcases h with ⟨n, u, t, mem, made⟩ | ⟨name, answered⟩
  · exact .inl ⟨n, u, t, sub mem, made⟩
  · exact .inr ⟨name, answered.mono sub⟩

/-- All that have joined are of these; so the watcher for listeners is not among them. -/
def Seated (serve : Program.Handler (factoryInterface κ ι ω) σ) (T : Asked κ ι ω σ) : Prop :=
  ∀ e u, (.attach e, u) ∈ T → Joins serve T e

/-- Others join who are of these. -/
theorem Seated.append {T T' : Asked κ ι ω σ} (h : Seated serve T)
    (more : ∀ e u, (.attach e, u) ∈ T' → Joins serve (T ++ T') e) : Seated serve (T ++ T') := by
  intro e u mem
  rcases List.mem_append.mp mem with mem | mem
  · exact (h e u mem).mono (List.subset_append_left _ _)
  · exact more e u mem

/-- The request lets none join. -/
def Unjoining (r : Request κ ι ω) : Prop := ∀ e, r ≠ .attach e

theorem Seated.still (T T' : Asked κ ι ω σ) (h : Seated serve T)
    (none : ∀ q ∈ T', Unjoining q.1) : Seated serve (T ++ T') :=
  h.append fun e _ mem => absurd rfl (none _ mem e)

theorem Seated.attach {T : Asked κ ι ω σ} {e : Extension κ} (h : Seated serve T)
    (joins : Joins serve T e) (s : σ) : Seated serve (T ++ [(.attach e, s)]) :=
  h.append fun e' u mem => by
    cases List.mem_singleton.mp mem
    exact joins.mono (List.subset_append_left _ _)

/-- A group joins, and nobody else. -/
theorem join_only (group : List (Candidate κ)) :
    Only serve (fun r => Callless r ∧ ∀ e, r = .attach e → ∃ c ∈ group, c.handle.extension = e)
      (join group : Phase κ ι ω Unit) := by
  induction group with
  | nil => exact .pure _
  | cons c rest ih =>
      have one : Only serve
          (fun r => Callless r ∧ ∀ e, r = .attach e → ∃ c' ∈ c :: rest, c'.handle.extension = e) (do
            announce (.joining c.name)
            ask (.attach c.handle.extension) : Phase κ ι ω Unit) :=
        (Only.ask ⟨rfl, nofun⟩).bind fun _ => .ask ⟨rfl, fun e same => by
          cases same
          exact ⟨c, List.mem_cons_self, rfl⟩⟩
      refine one.bind fun _ => ih.mono fun r h => ⟨h.1, fun e same => ?_⟩
      obtain ⟨c', mem, joins⟩ := h.2 e same
      exact ⟨c', List.mem_cons_of_mem _ mem, joins⟩

section Chain

variable {serve : Program.Handler (factoryInterface κ ι ω) (State κ ι ω)} {s s' : State κ ι ω}
  {before T : Asked κ ι ω (State κ ι ω)}

/-- A group that was made under names joins. -/
theorem join_bind {group : List (Candidate κ)} {f : Unit → Phase κ ι ω β}
    (past : Seated serve before) (made : ∀ c ∈ group, Made serve before c)
    (hf : ∀ T u P₁ s₁, Seated serve (before ++ T) →
      Allowed serve (BeforeCalls (Seated serve)) (before ++ T) (f u) P₁ s₁) :
    Allowed serve (BeforeCalls (Seated serve)) before (join group >>= f) P s := by
  refine .bind (.of_only (join_only group) fun T q h => h.1.beforeCalls T q) fun T u P₁ s₁ h => ?_
  refine hf T u P₁ s₁ (past.append fun e t mem => ?_)
  obtain ⟨c, among, rfl⟩ := ((join_only group).returned h _ mem).2 e rfl
  exact .inr ⟨c.name, (made c among).mono (List.subset_append_left _ _)⟩

/-- **Before a call of phase 7** nobody has joined but the watcher for completeness and what was made
    under a name: the watcher for listeners joins after the last call. -/
theorem chainPhase_seated (b : Behaviour κ ι ω) (listeners : Extension κ)
    (past : Seated serve before) :
    Allowed serve (BeforeCalls (Seated serve)) before (runChainPhase b listeners) P s := by
  have looks {names : List String} : Only serve Unjoining
      (split names : Phase κ ι ω (List (Candidate κ) × List String × List String)) :=
    (split_madeOf (fun _ => nofun) (fun _ => nofun) names).only
  have makes {names : List String} : Only serve Unjoining
      (makeMembers names : Phase κ ι ω (List (Candidate κ))) :=
    (makeMembers_madeOf (fun _ => nofun) (fun _ => nofun) names).only
  refine beforeCalls_bind Seated.still (comparator_madeOf nofun).only past fun _ cmp _ _ _ past => ?_
  refine beforeCalls_bind Seated.still .get past fun _ _ _ _ _ past => ?_
  refine beforeCalls_bind Seated.still (.ask nofun) past fun _ names _ _ _ past => ?_
  refine beforeCalls_bind Seated.still (.ask nofun) past fun _ length _ _ _ past => ?_
  refine beforeCalls_bind Seated.still (.ask nofun) past fun T checker P₁ s₁ made past => ?_
  obtain ⟨rfl, -, created⟩ := made.of_ask
  refine .bind (.of_only (callless_ask (by rfl)) Callless.beforeCalls) fun T _ P₂ s₂ joined => ?_
  obtain ⟨rfl, -, -⟩ := joined.of_ask
  replace past := past.attach (.inl ⟨_, _, _, by simp, created⟩) s₁
  -- the priority group, then the ordered; the others are made last, and no call comes after
  refine beforeCalls_bind Seated.still looks past fun T groups P₃ s₃ first past => ?_
  obtain ⟨-, firstMade⟩ := split_made first
  refine join_bind past (fun c mem => ?_) fun _ _ _ _ past => ?_
  · exact (firstMade c ((mem_sortBy ..).mp mem)).mono (List.subset_append_right _ _)
  refine beforeCalls_bind Seated.still makes past fun T ordered P₅ s₅ second past => ?_
  obtain ⟨-, secondMade⟩ := makeMembers_made second
  refine join_bind past (fun c mem => ?_) fun _ _ _ _ past => ?_
  · exact (secondMade c ((mem_sortBy ..).mp mem)).mono (List.subset_append_right _ _)
  refine beforeCalls_bind Seated.still makes past fun _ others _ _ _ _ => ?_
  have joins (group : List (Candidate κ)) :
      Only serve Callless (join group : Phase κ ι ω Unit) := (join_only group).mono fun _ h => h.1
  exact .of_only ((joins _).bind fun _ => (joins _).bind fun _ =>
    (callless_ask (by rfl)).bind fun _ => (callless_ask (by rfl)).bind fun _ =>
    (callless_ask (by rfl)).bind fun _ => .pure _) Callless.beforeCalls

/-- **Before a call of a bootstrap** the watcher for listeners has not joined. -/
theorem phases_seated (b : Behaviour κ ι ω) (patience : Nat) (options : Options)
    (external : List (Handle κ)) :
    Allowed serve (BeforeCalls (Seated serve)) [] (phases b patience options external) P s := by
  have unjoining : Only serve Unjoining (runFactoryPhases b patience options external) :=
    (factoryPhases_madeOf b patience options external).only.mono fun r work => by
      rcases work with work | work | rfl
      · exact work.restrained.2.1
      · exact work.restrained.2.1
      · exact nofun
  refine beforeCalls_bind Seated.still unjoining nofun fun _ stats _ _ _ past => ?_
  refine beforeCalls_bind Seated.still (.ask nofun) past fun _ listeners _ _ _ past => ?_
  refine .bind (chainPhase_seated b listeners past) fun _ completeness _ _ _ => ?_
  have closing : Only serve Callless
      (do return ⟨← get, stats, completeness, listeners⟩ : Phase κ ι ω (Outcome κ)) :=
    Only.get.bind fun _ => .pure _
  exact .of_only closing Callless.beforeCalls

end Chain

/-! ## 5. Component post-processors that are handed in -/

/-- The first component post-processor among what is handed in is what is complained of. -/
theorem ensureCapable_of_find? {b : Behaviour κ ι ω} {external : List (Handle κ)} {h : Handle κ}
    (found : external.find? (·.family == .component) = some h) :
    ensureCapable b external = .error (.typeMismatch (h.name b.name) (PostProcessor.text .factory)
      (PostProcessor.text .component)) := by
  induction external with
  | nil => cases found
  | cons first rest ih =>
      show (first.ensureFactoryCapable b.name >>= fun _ => ensureCapable b rest) = _
      unfold Handle.ensureFactoryCapable
      cases family : first.family with
      | component =>
          rw [List.find?_cons_of_pos (by rw [family]; rfl)] at found
          cases found
          rfl
      | registry =>
          rw [List.find?_cons_of_neg (by rw [family]; nofun)] at found
          exact ih found
      | factory =>
          rw [List.find?_cons_of_neg (by rw [family]; nofun)] at found
          exact ih found

/-- **A component post-processor that is handed in is refused at once**: nothing but the comparator
    was asked for, and nothing has changed. -/
theorem phases_handedIn (b : Behaviour κ ι ω) (depth : Nat) (view : Container.View) (patience : Nat)
    (options : Options) {external : List (Handle κ)} (P : Processed) (s : State κ ι ω)
    {h : Handle κ} (found : external.find? (·.family == .component) = some h) :
    result (Container.serve b depth view) (phases b patience options external) P s =
      some ((.error (.typeMismatch (h.name b.name) (PostProcessor.text .factory)
        (PostProcessor.text .component)), P), s) ∧
    Phase.asked (Container.serve b depth view) (phases b patience options external) P s =
      [(.comparator, s)] := by
  have compares : Returns (Container.serve b depth view) comparator P s [(.comparator, s)]
      (Comparator.resolve (view.comparator s.container)) P s :=
    (Returns.ask (Container.serve_comparator b depth view s)).bind (.pure _ P s)
  have refused : result (Container.serve b depth view) (runFactoryPhases b patience options external)
      P s = some ((.error (.typeMismatch (h.name b.name) (PostProcessor.text .factory)
        (PostProcessor.text .component)), P), s) ∧
      Phase.asked (Container.serve b depth view) (runFactoryPhases b patience options external) P s =
        [(.comparator, s)] := by
    unfold runFactoryPhases
    rw [result_bind, Phase.asked_bind, compares.result, compares.asked, ensureCapable_of_find? found]
    exact ⟨rfl, rfl⟩
  unfold phases
  rw [result_bind, Phase.asked_bind, refused.1, refused.2]
  exact ⟨rfl, rfl⟩

/-! ## 6. The first failure -/

variable (b : Behaviour κ ι ω) (depth : Nat) (view : Container.View) (patience : Nat)
  (options : Options) (external : List (Handle κ)) (P : Processed) (s : State κ ι ω)

/-- **The first call that fails ends the bootstrap** with its failure, in the state in which it was
    answered: nothing is asked for after it. What was asked for before it, and the call itself, are
    the same in each run that gives the same answers up to there. If it is a call of phases 1 to 6,
    then no watcher was made and none has joined, and the merged definitions were not forgotten; if it
    is one of phase 7, then nobody has joined but the watcher for completeness and what was made under
    a name. A component post-processor that is handed in is refused before any call. -/
theorem first_failure_aborts :
    (∀ before after r u t failure,
      Phase.asked (Container.serve b depth view) (phases b patience options external) P s =
        before ++ (r, u) :: after →
      Fails (Container.serve b depth view) r u failure t →
      after = [] ∧
      (∃ P', result (Container.serve b depth view) (phases b patience options external) P s =
        some ((.error failure, P'), t)) ∧
      (∀ (b' : Behaviour κ ι ω) (serve' : Program.Handler (factoryInterface κ ι ω) (State κ ι ω)),
        b'.name = b.name → b'.mergedAware = b.mergedAware →
        (∀ q ∈ before, serve' q.1 q.2 = Container.serve b depth view q.1 q.2) →
        ∃ after', Phase.asked serve' (phases b' patience options external) P s =
          before ++ (r, u) :: after') ∧
      ((Phase.asked (Container.serve b depth view) (runFactoryPhases b patience options external)
          P s = before ++ [(r, u)] ∧ ∀ q ∈ before, Restrained q.1) ∨
        ∃ T later stats P₁ s₁, Returns (Container.serve b depth view)
          (runFactoryPhases b patience options external) P s T stats P₁ s₁ ∧
          before = T ++ later ∧ Seated (Container.serve b depth view) before)) ∧
    ∀ h, external.find? (·.family == .component) = some h →
      result (Container.serve b depth view) (phases b patience options external) P s =
        some ((.error (.typeMismatch (h.name b.name) (PostProcessor.text .factory)
          (PostProcessor.text .component)), P), s) ∧
      Phase.asked (Container.serve b depth view) (phases b patience options external) P s =
        [(.comparator, s)] := by
  refine ⟨fun before after r u t failure asked fails => ?_, fun h found =>
    phases_handedIn b depth view patience options P s found⟩
  obtain ⟨none, ended⟩ := (phases_madeOf b patience options external).aborts asked fails
  refine ⟨none, ended, fun b' serve' names aware agree => ?_, ?_⟩
  · rw [phases_congr names aware]
    exact Program.asked_agree asked agree
  · have seated : Seated (Container.serve b depth view) before :=
      phases_seated b patience options external before (r, u) after asked fails.isCall
    rcases Returns.asked_bind_cut asked with ⟨rest, first⟩ | ⟨stats, P₁, s₁, later, hr, cut, -⟩
    · obtain ⟨rfl, -⟩ := (factoryPhases_madeOf b patience options external).aborts first fails
      exact .inl ⟨first, factoryPhases_restrained b patience options external before (r, u) [] first
        fails.isCall⟩
    · exact .inr ⟨_, later, stats, P₁, s₁, hr, cut, seated⟩

/-- A call that fails, computed. -/
theorem exists_failing {T : Asked κ ι ω σ} {failure : Failure}
    (h : T.any (fun q => failure? serve q == some failure) = true) :
    ∃ before r u after t, T = before ++ (r, u) :: after ∧ Fails serve r u failure t := by
  obtain ⟨⟨r, u⟩, mem, fails⟩ := List.any_eq_true.mp h
  obtain ⟨before, after, cut⟩ := List.append_of_mem mem
  obtain ⟨t, fails⟩ := exists_fails (beq_iff_eq.mp fails)
  exact ⟨before, r, u, after, t, cut, fails⟩

/-- The behaviour where a registry post-processor that comes late cannot be made. -/
def refusing : Behaviour Bool Unit Unit :=
  { lateComer with
    build := fun code =>
      .done (if code then .ok true else .error (.extensionFailed "late" "refused")) }

/-- The failure of a supplier in phase 6 is that of the bootstrap; and a component post-processor that
    is handed in behind a registry post-processor is refused. -/
theorem refused_lateComer_aborts :
    (∃ before r u t,
      Phase.asked (Container.serve refusing 1 .full) (phases refusing 2 {} []) .empty expecting =
        before ++ [(r, u)] ∧
      Fails (Container.serve refusing 1 .full) r u (.extensionFailed "late" "refused") t ∧
      (∃ P', result (Container.serve refusing 1 .full) (phases refusing 2 {} []) .empty expecting =
        some ((.error (.extensionFailed "late" "refused"), P'), t)) ∧
      ∀ q ∈ before, Restrained q.1) ∧
    result (Container.serve refusing 1 .full)
        (phases refusing 2 {} [⟨.registry, ⟨7, .custom true⟩⟩, ⟨.component, ⟨8, .custom true⟩⟩])
        .empty expecting =
      some ((.error (.typeMismatch "" "factory post-processor" "instance post-processor"), .empty),
        expecting) := by
  constructor
  · obtain ⟨before, r, u, after, t, asked, fails⟩ := exists_failing (show (Phase.asked
      (Container.serve refusing 1 .full) (phases refusing 2 {} []) .empty expecting).any (fun q =>
        failure? (Container.serve refusing 1 .full) q == some (.extensionFailed "late" "refused")) =
          true by decide +kernel)
    obtain ⟨rfl, ended, -, early | late⟩ := (first_failure_aborts refusing 1 .full 2 {} [] .empty
      expecting).1 before after r u t _ asked fails
    · exact ⟨before, r, u, t, asked, fails, ended, early.2⟩
    · obtain ⟨T, later, stats, P₁, s₁, hr, -⟩ := late
      have unreturned : returns (Container.serve refusing 1 .full) (runFactoryPhases refusing 2 {} [])
          .empty expecting = false := by decide +kernel
      rw [returns, hr.result] at unreturned
      cases unreturned
  · exact ((first_failure_aborts refusing 1 .full 2 {}
      [⟨.registry, ⟨7, .custom true⟩⟩, ⟨.component, ⟨8, .custom true⟩⟩] .empty expecting).2
      ⟨.component, ⟨8, .custom true⟩⟩ rfl).1

end Bootstrap

end ComponentContainer
