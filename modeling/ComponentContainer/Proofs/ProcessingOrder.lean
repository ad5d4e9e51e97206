/-
  File:      ComponentContainer/Proofs/ProcessingOrder.lean
  Subject:   The order in which the names dealt with are reported, and the order of the registry hooks.

  * `InBatches` -- a stretch of a run has dealt with batches, one for each search that found
    something: their names are reported in the order of the search, and their hooks run in the
    order of the comparator. `InBatches.append` -- such stretches follow each other.
  * `phases_inBatches` -- **a bootstrap goes in batches.**
  * `flatMap_sort_eq_iff` -- both orders are the same exactly if each batch is found in order.
  * `processed_in_order_of_search` -- **what a bootstrap reports as its order, and a refresh after
    it**. It need not be that of the hooks: `ranked_reported_against_hooks`.
-/
import Mathlib
import ComponentContainer.Proofs.Lifecycle
import ComponentContainer.Proofs.Rounds

namespace ComponentContainer.Bootstrap

open Phase Container

variable {κ ι ω α β : Type} {b : Behaviour κ ι ω} {depth : Nat} {view : View} {cmp : Comparator}
  {P P₁ P' : Processed} {s s₁ s' : State κ ι ω} {T T₁ T₂ : Asked κ ι ω (State κ ι ω)}

/-! ## 1. Batches as they are found -/

/-- What a search finds, it finds in the order of the names that it goes through. -/
theorem collectFrom_sublist {serve : Program.Handler (factoryInterface κ ι ω) (State κ ι ω)}
    {accept : Precedence → Bool} {names : List String} {batch : List (Candidate κ)}
    (h : Returns serve (collectFrom accept names) P s T batch P' s') :
    (batch.map Candidate.name).Sublist names := by
  induction names generalizing P s T batch P' s' with
  | nil =>
      obtain ⟨-, rfl, -⟩ := h.of_pure
      exact List.Sublist.refl _
  | cons name rest ih =>
      obtain ⟨precedence, T₁, T₂, s₁, -, ⟨-, -, passed⟩ |
        ⟨-, handle, others, s₂, -, -, further, rfl⟩⟩ := collectFrom_cons h
      · exact (ih passed).cons name
      · exact (ih further).cons_cons name

/-- The batch is what was found by one of the looks for registry post-processors, in the order of
    their registration. -/
def FoundAt (T : Asked κ ι ω (State κ ι ω)) (batch : List (Candidate κ)) : Prop :=
  ∃ t, (registryNames, t) ∈ T ∧
    (batch.map Candidate.name).Sublist (t.container.namesFor (.postProcessor .registry))

theorem collect_found {accept : Precedence → Bool} {sorted : List (Candidate κ)}
    (h : Returns (serve b depth view) (collect cmp accept) P s T sorted P' s') :
    ∃ batch, sorted = Candidate.sort cmp batch ∧ FoundAt T batch ∧
      P'.names = P.names ++ batch.map Candidate.name := by
  obtain ⟨_, _, names, _, s₁, looked, searched, rfl⟩ := h.of_bind
  obtain ⟨rfl, rfl, answered⟩ := looked.of_ask
  rw [serve_namesFor] at answered
  cases answered
  obtain ⟨_, _, batch, _, _, found, ended, rfl⟩ := searched.of_bind
  obtain ⟨-, rfl, rfl, -⟩ := ended.of_pure
  exact ⟨batch, rfl, ⟨s, List.mem_cons_self, collectFrom_sublist found⟩, (collectFrom_returns found).1⟩

theorem FoundAt.mono {batch : List (Candidate κ)} (h : FoundAt T batch) (more : T ⊆ T₁) :
    FoundAt T₁ batch := by
  obtain ⟨t, looked, order⟩ := h
  exact ⟨t, more looked, order⟩

/-- A stretch of a run that begins with the names `P` dealt with and ends with `P'` has dealt with
    these batches: each is reported as it was found, and its hooks have run in order. -/
structure InBatches (cmp : Comparator) (P P' : Processed) (T : Asked κ ι ω (State κ ι ω))
    (batches : List (List (Candidate κ))) : Prop where
  reported : P'.names = P.names ++ batches.flatten.map Candidate.name
  ran : foundNames T = (batches.flatMap (Candidate.sort cmp)).map Candidate.name
  found : ∀ batch ∈ batches, FoundAt T batch

namespace InBatches

variable {batches batches₁ batches₂ : List (List (Candidate κ))}

theorem none (unnamed : foundNames T = []) (kept : P = P') :
    InBatches cmp P P' T ([] : List (List (Candidate κ))) where
  reported := kept ▸ (List.append_nil _).symm
  ran := unnamed
  found _ mem := absurd mem List.not_mem_nil

theorem append (h₁ : InBatches cmp P P₁ T₁ batches₁) (settled : Settled T₁)
    (h₂ : InBatches cmp P₁ P' T₂ batches₂) :
    InBatches cmp P P' (T₁ ++ T₂) (batches₁ ++ batches₂) where
  reported := by
    rw [h₂.reported, h₁.reported, List.flatten_append, List.map_append, List.append_assoc]
  ran := by
    rw [foundNames_append settled, h₁.ran, h₂.ran, List.flatMap_append, List.map_append]
  found batch mem := by
    rcases List.mem_append.mp mem with mem | mem
    · exact (h₁.found batch mem).mono (List.subset_append_left _ _)
    · exact (h₂.found batch mem).mono (List.subset_append_right _ _)

/-- A search and the hooks of what it has found. -/
theorem of_search {accept : Precedence → Bool} {g : List (Candidate κ) → Phase κ ι ω α} {a : α}
    (hg : ∀ batch, RunsBatch (serve b depth view) (g batch) batch)
    (h : Returns (serve b depth view) (collect cmp accept >>= g) P s T a P' s') :
    ∃ batch, InBatches cmp P P' T [batch] := by
  obtain ⟨T₁, T₂, sorted, P₁, s₁, searched, run, rfl⟩ := h.of_bind
  have silent : Silent T₁ := searched.asked ▸ (collect_unhooked cmp accept).silent P s
  obtain ⟨batch, rfl, found, names⟩ := collect_found searched
  obtain rfl := (hg _).keeps run.result
  refine ⟨batch, ?_, ?_, List.forall_mem_singleton.mpr (found.mono (List.subset_append_left _ _))⟩
  · rw [names, List.flatten_singleton]
  · rw [foundNames_append silent.settled, silent.foundNames, foundNames, ((hg _).all_calls run).1,
      filterMap_foundCall, List.flatMap_singleton]
    rfl

end InBatches

/-! ## 2. A bootstrap goes in batches -/

/-- The passes of phase 4. -/
theorem passes_inBatches {limit : Option Nat} {patience done : Nat}
    {r : Nat × List (Candidate κ)}
    (h : Returns (serve b depth view) (passes cmp limit patience done) P s T r P' s') :
    ∃ batches : List (List (Candidate κ)), InBatches cmp P P' T batches := by
  induction patience generalizing done P s T r P' s' with
  | zero =>
      obtain ⟨_, _, answer, _, _, _, _, _⟩ := Returns.of_bind h
      exact nomatch answer
  | succ patience ih =>
      rw [passes_succ] at h
      obtain ⟨T₁, T₂, found, P₁, s₁, first, rest, rfl⟩ := h.of_bind
      obtain ⟨batch, batched⟩ := InBatches.of_search (pass_runsBatch limit done) first
      have settled := (pass_books cmp limit done).settled first
      cases found with
      | none =>
          obtain ⟨rfl, -, rfl, -⟩ := rest.of_pure
          exact ⟨_, batched.append settled (.none rfl rfl)⟩
      | some found =>
          obtain ⟨T₃, T₄, others, P₂, s₂, further, ended, rfl⟩ := rest.of_bind
          obtain ⟨rfl, -, rfl, -⟩ := ended.of_pure
          obtain ⟨batches, later⟩ := ih further
          rw [List.append_nil]
          exact ⟨_, batched.append settled later⟩

/-- Phases 1 to 4. -/
theorem registryPhases_inBatches {patience : Nat} {options : Options} {external : List (Handle κ)}
    {r : Nat × List (Candidate κ)}
    (h : Returns (serve b depth view) (runRegistryPhases b cmp patience options external) P s T r
      P' s') :
    ∃ batches : List (List (Candidate κ)), InBatches cmp P P' T batches := by
  obtain ⟨T₁, _, _, _, s₁, supplied, h₁, rfl⟩ := h.of_bind
  obtain ⟨T₂, _, priority, P₂, s₂, first, h₂, rfl⟩ := h₁.of_bind
  obtain ⟨T₃, _, ordered, P₃, s₃, second, h₃, rfl⟩ := h₂.of_bind
  obtain ⟨T₄, T₅, ⟨n, others⟩, P₄, s₄, further, ended, rfl⟩ := h₃.of_bind
  obtain ⟨rfl, -, rfl, -⟩ := ended.of_pure
  obtain ⟨calls₁, settled₁, rfl⟩ := runSupplied_returns supplied
  have unnamed : foundNames T₁ = [] := by
    rw [foundNames, calls₁, List.filterMap_map, List.filterMap_eq_nil_iff]
    exact fun _ _ => rfl
  obtain ⟨_, batched₂⟩ := InBatches.of_search registryPhase_runsBatch first
  obtain ⟨_, batched₃⟩ := InBatches.of_search registryPhase_runsBatch second
  obtain ⟨_, batched₄⟩ := passes_inBatches further
  rw [List.append_nil]
  exact ⟨_, (InBatches.none unnamed rfl).append settled₁ <|
    batched₂.append ((registryPhase_books cmp _).settled first) <|
    batched₃.append ((registryPhase_books cmp _).settled second) batched₄⟩

/-- The request has nothing to do with registry post-processors. -/
structure Elsewhere (r : Request κ ι ω) : Prop where
  late : Late r
  extension : ∀ name, r ≠ .extension name (.postProcessor .registry)

theorem FactoryWork.elsewhere {r : Request κ ι ω} (h : FactoryWork r) : Elsewhere r := by
  cases h <;> exact ⟨⟨nofun, nofun⟩, nofun⟩

theorem ChainWork.elsewhere {r : Request κ ι ω} (h : ChainWork r) : Elsewhere r := by
  cases h <;> exact ⟨⟨nofun, nofun⟩, nofun⟩

theorem InBatches.elsewhere {x : Phase κ ι ω α} {a : α} (hx : MadeOf Elsewhere x)
    (h : Returns (serve b depth view) x P s T a P' s') :
    InBatches cmp P P' T ([] : List (List (Candidate κ))) :=
  .none (foundNames_of_late fun q mem => (hx.only.returned h q mem).late)
    (hx.keepsNames (fun name other => other.extension name rfl) h.result)

theorem comparator_returns {cmp : Comparator}
    (h : Returns (serve b depth view) (comparator : Phase κ ι ω Comparator) P s T cmp P' s') :
    cmp = .resolve (view.comparator s.container) ∧ Silent T ∧ P = P' := by
  have silent : Silent T := h.asked ▸ comparator_unhooked.silent P s
  obtain ⟨_, _, answer, _, _, asked, ended, -⟩ := h.of_bind
  obtain ⟨-, rfl, answered⟩ := asked.of_ask
  rw [serve_comparator] at answered
  cases answered
  obtain ⟨-, rfl, rfl, -⟩ := ended.of_pure
  exact ⟨rfl, silent, rfl⟩

/-- Phases 1 to 6. -/
theorem factoryPhases_inBatches {patience : Nat} {options : Options} {external : List (Handle κ)}
    {stats : Stats}
    (h : Returns (serve b depth view) (runFactoryPhases b patience options external) P s T stats
      P' s') :
    ∃ batches : List (List (Candidate κ)),
      InBatches (.resolve (view.comparator s.container)) P P' T batches := by
  obtain ⟨T₁, _, cmp, _, s₁, compared, h₁, rfl⟩ := h.of_bind
  obtain ⟨T₂, _, _, _, s₂, checked, h₂, rfl⟩ := h₁.of_bind
  obtain ⟨T₃, T₄, ⟨n, found⟩, P₃, s₃, registry, h₃, rfl⟩ := h₂.of_bind
  obtain ⟨rfl, silent, rfl⟩ := comparator_returns compared
  obtain ⟨rfl, rfl, -⟩ := checked.of_demand
  have rest : InBatches (.resolve (view.comparator s.container)) P₃ P' T₄ [] := by
    refine .elsewhere ?_ h₃
    exact ((ownHooks_madeOf b external found).mono fun _ => FactoryWork.elsewhere).bind fun _ =>
      ((runRemaining_madeOf b _).mono fun _ => FactoryWork.elsewhere).bind fun _ =>
        (MadeOf.ask ⟨⟨nofun, nofun⟩, nofun⟩ rfl).bind fun _ =>
          (announce_madeOf ⟨⟨nofun, nofun⟩, nofun⟩).bind fun _ => .pure _
  obtain ⟨batches, batched⟩ := registryPhases_inBatches registry
  have settled := (registryPhases_books b _ _ _ _).settled registry
  exact ⟨_, (InBatches.none silent.foundNames rfl).append silent.settled <|
    batched.append settled rest⟩

/-- **A bootstrap goes in batches**, sorted by the comparator in force. -/
theorem phases_inBatches {patience : Nat} {options : Options} {external : List (Handle κ)}
    {outcome : Outcome κ}
    (h : Returns (serve b depth view) (phases b patience options external) P s T outcome P' s') :
    outcome.processed = P' ∧ ∃ batches : List (List (Candidate κ)),
      InBatches (.resolve (view.comparator s.container)) P P' T batches := by
  obtain ⟨T₁, _, stats, P₁, s₁, factory, h₁, rfl⟩ := h.of_bind
  have settled := (factoryPhases_books b patience options external).settled factory
  obtain ⟨batches, batched⟩ := factoryPhases_inBatches factory
  have chain : MadeOf Elsewhere (do
      let listeners ← Phase.ask (.create .listeners)
      let completeness ← runChainPhase b listeners
      return ⟨← get, stats, completeness, listeners⟩ : Phase κ ι ω (Outcome κ)) :=
    (MadeOf.ask ⟨⟨nofun, nofun⟩, nofun⟩ rfl).bind fun listeners =>
      ((chainPhase_madeOf b listeners).mono fun _ => ChainWork.elsewhere).bind fun _ =>
        MadeOf.get.bind fun _ => .pure _
  refine ⟨?_, _, batched.append settled (.elsewhere chain h₁)⟩
  obtain ⟨_, _, listeners, _, _, -, h₂, -⟩ := Returns.of_bind h₁
  obtain ⟨_, _, completeness, _, _, -, h₃, -⟩ := Returns.of_bind h₂
  obtain ⟨_, _, processed, _, _, got, ended, -⟩ := Returns.of_bind h₃
  obtain ⟨-, rfl, rfl, -⟩ := got.of_get
  obtain ⟨-, rfl, rfl, -⟩ := ended.of_pure
  rfl

/-! ## 3. Two orders -/

/-- **The order of the hooks is the order of the search exactly if each batch was found in order.** -/
theorem flatMap_sort_eq_iff {batches : List (List (Candidate κ))} :
    (batches.flatMap (Candidate.sort cmp)).map Candidate.name =
        batches.flatten.map Candidate.name ↔
      ∀ batch ∈ batches,
        (Candidate.sort cmp batch).map Candidate.name = batch.map Candidate.name := by
  induction batches with
  | nil => exact ⟨fun _ _ mem => absurd mem List.not_mem_nil, fun _ => rfl⟩
  | cons batch batches ih =>
      have length : ((Candidate.sort cmp batch).map Candidate.name).length =
          (batch.map Candidate.name).length := by
        rw [List.length_map, List.length_map]
        exact (sortBy_perm cmp Candidate.precedence batch).length_eq
      rw [List.flatMap_cons, List.map_append, List.flatten_cons, List.map_append,
        List.forall_mem_cons, ← ih]
      exact ⟨fun same => List.append_inj same length, fun ⟨first, rest⟩ => by rw [first, rest]⟩

theorem flatMap_sort_perm (batches : List (List (Candidate κ))) :
    (batches.flatMap (Candidate.sort cmp)).Perm batches.flatten := by
  induction batches with
  | nil => exact .nil
  | cons batch batches ih =>
      rw [List.flatMap_cons, List.flatten_cons]
      exact (sortBy_perm cmp Candidate.precedence batch).append ih

/-! ## 4. What is reported -/

/-- **The names dealt with are reported in the order of the search.** A bootstrap that succeeds has
    dealt with batches, one for each search, each in the order of registration; they are reported
    one after the other as they were found, but the hooks of each batch have run in the order of
    the comparator. So the same names are reported as have run their hooks, and in the same order
    exactly if each batch was found in order. A refresh reports what its bootstrap does. -/
theorem processed_in_order_of_search (b : Behaviour κ ι ω) (depth patience : Nat) :
    (∀ (view : View) (options : Options) (external : List (Handle κ)) (s s' : State κ ι ω)
        (outcome : Outcome κ),
      Container.run b depth view (Bootstrap.run b patience options external) s =
        some (.ok outcome, s') →
      ∃ T P, ∃ batches : List (List (Candidate κ)),
        Returns (serve b depth view) (phases b patience options external) .empty s T outcome P s' ∧
        outcome.processed.names = batches.flatten.map Candidate.name ∧
        foundNames T = (batches.flatMap
          (Candidate.sort (.resolve (view.comparator s.container)))).map Candidate.name ∧
        (∀ batch ∈ batches, FoundAt T batch) ∧
        (foundNames T).Perm outcome.processed.names ∧
        (foundNames T = outcome.processed.names ↔ ∀ batch ∈ batches,
          (Candidate.sort (.resolve (view.comparator s.container)) batch).map Candidate.name =
            batch.map Candidate.name)) ∧
    ∀ (c c' : Context κ) (times : Times) (s s' : State κ ι ω) (report : Report),
      c.refresh ⟨b, depth, patience⟩ times s = some ((.ok report, c'), s') →
      ∃ outcome s₁, Container.run b depth .full (Bootstrap.run b patience c.options c.external)
          { s with history := .announced (.refreshing c.id) :: s.history } = some (.ok outcome, s₁) ∧
        report.processedExtensions = outcome.processed.names := by
  constructor
  · intro view options external s s' outcome h
    obtain ⟨P, ended⟩ := run_result h
    have returns : Returns (serve b depth view) (phases b patience options external) .empty s _
      outcome P s' := ⟨ended, rfl⟩
    obtain ⟨rfl, batches, batched⟩ := phases_inBatches returns
    have reported : outcome.processed.names = batches.flatten.map Candidate.name := batched.reported
    refine ⟨_, _, batches, returns, reported, batched.ran, batched.found, ?_, ?_⟩
    · rw [reported, batched.ran]
      exact (flatMap_sort_perm batches).map _
    · rw [reported, batched.ran]
      exact flatMap_sort_eq_iff
  · intro c c' times s s' report h
    obtain ⟨outcome, created, s₁, s₂, bootstrap, -, rfl, -⟩ := Context.refresh_stages h
    exact ⟨outcome, s₁, bootstrap, rfl⟩

/-- Two registry post-processors that were registered against their order. -/
def ranked : State (List String) Unit Unit :=
  holding [processor "second" .registry (.priority 5) [],
    processor "first" .registry (.priority 1) []]

/-- They are found in one batch, which is not in order. -/
theorem ranked_processed_in_order_of_search :
    ∃ outcome s' T P, ∃ batches : List (List (Candidate (List String))),
      Container.run asking 2 .full (Bootstrap.run asking 2 {} []) ranked = some (.ok outcome, s') ∧
      Returns (serve asking 2 .full) (phases asking 2 {} []) .empty ranked T outcome P s' ∧
      outcome.processed.names = ["second", "first"] ∧
      batches.flatten.map Candidate.name = ["second", "first"] ∧
      (batches.flatMap (Candidate.sort (.resolve none))).map Candidate.name = ["first", "second"] := by
  have ends : (Container.run asking 2 .full (Bootstrap.run asking 2 {} []) ranked).any (fun r =>
      match r.1 with
      | .ok outcome => outcome.processed.names == ["second", "first"]
      | .error _ => false) = true := by
    -- `decide` alone does not see through the sorting, and `cbv` does not see the run to its end
    cbv
    decide +kernel
  have hooks : foundNames (Phase.asked (serve asking 2 .full) (phases asking 2 {} []) .empty
      ranked) = ["first", "second"] := by
    cbv
    decide +kernel
  rcases run : Container.run asking 2 .full (Bootstrap.run asking 2 {} []) ranked with
    _ | ⟨failure | outcome, s'⟩
  · rw [run] at ends
    cases ends
  · rw [run] at ends
    cases ends
  · rw [run] at ends
    have names : outcome.processed.names = ["second", "first"] := beq_iff_eq.mp ends
    obtain ⟨T, P, batches, returns, reported, ran, -⟩ :=
      (processed_in_order_of_search asking 2 2).1 .full {} [] ranked s' outcome run
    refine ⟨outcome, s', T, P, batches, rfl, returns, names, reported.symm.trans names, ?_⟩
    exact ran.symm.trans (returns.asked ▸ hooks)

/-- A refresh reports them as they were found, though their hooks have run the other way round. -/
theorem ranked_reported_against_hooks :
    ∃ report c' s', refreshed ranked = some ((.ok report, c'), s') ∧
      report.processedExtensions = ["second", "first"] ∧
      foundNames (Phase.asked (serve asking 2 .full) (phases asking 2 {} []) .empty
        { ranked with history := [.announced (.refreshing "shop")] }) = ["first", "second"] := by
  have ends : refreshPasses ranked (fun report _ =>
      report.processedExtensions == ["second", "first"]) = true := by
    cbv
    decide +kernel
  obtain ⟨report, c', s', run, reported⟩ := exists_refreshed ends
  refine ⟨report, c', s', run, beq_iff_eq.mp reported, ?_⟩
  cbv
  decide +kernel

end ComponentContainer.Bootstrap
