/-
  File:      ComponentContainer/Proofs/RegistryHooks.lean
  Subject:   Phases 1 to 4 of a bootstrap: registry hooks and the names dealt with.

  All of this holds of every way to answer requests, so whatever suppliers and hooks do.

  * `Unhooked` -- a phase that runs no hook and takes back no name; `collect_unhooked`.
  * `collect_returns` -- a batch consists of answers of the container, and its names are dealt with.
  * `RunsBatch` -- a phase that runs the registry hooks of a batch in its order, up to a failure;
    `runRegistryHooks_runsBatch`.
  * `Books` -- **the bookkeeping of a phase**: the names of the registry hooks it runs are distinct,
    were not dealt with before, and are dealt with afterwards; if it returns, no other name has been
    added. `Books.bind` -- a sequence keeps the books if its parts do.
  * `passes_books` -- phase 4 keeps the books, by induction on the passes.
-/
import ComponentContainer.Bootstrap.FactoryPhases
import ComponentContainer.Proofs.HookCalls

namespace ComponentContainer.Bootstrap

open Phase

variable {κ ι ω σ α β : Type} {serve : Program.Handler (factoryInterface κ ι ω) σ}

/-! ## 1. Phases that run no hook -/

/-- The phase runs no hook and takes back no name. -/
structure Unhooked (serve : Program.Handler (factoryInterface κ ι ω) σ) (x : Phase κ ι ω α) :
    Prop where
  silent (P : Processed) (s : σ) : Silent (Phase.asked serve x P s)
  grows ⦃P P' : Processed⦄ ⦃s s' : σ⦄ ⦃outcome : Except Failure α⦄
    (h : result serve x P s = some ((outcome, P'), s')) : P.names ⊆ P'.names

namespace Unhooked

theorem of_keepsNames {x : Phase κ ι ω α} (hs : ∀ P s, Silent (Phase.asked serve x P s))
    (hx : KeepsNames serve x) : Unhooked serve x where
  silent := hs
  grows _ _ _ _ _ h := by
    rw [← hx h]
    exact fun _ hn => hn

theorem pure (a : α) : Unhooked serve (Pure.pure a : Phase κ ι ω α) :=
  of_keepsNames (fun _ _ => Silent.nil) (.pure a)

theorem throw (failure : Failure) : Unhooked serve (MonadExcept.throw failure : Phase κ ι ω α) :=
  of_keepsNames (fun _ _ => Silent.nil) (.throw failure)

theorem get : Unhooked serve (MonadState.get : Phase κ ι ω Processed) :=
  of_keepsNames (fun _ _ => Silent.nil) .get

theorem ask {r : Request κ ι ω} (hr : r.Silent) : Unhooked serve (Phase.ask r) :=
  of_keepsNames (fun P s => by
    rw [asked_ask]
    exact Silent.single hr) (.ask r)

theorem insert (name : String) :
    Unhooked serve (modify (·.insert name) : Phase κ ι ω PUnit) where
  silent _ _ := Silent.nil
  grows _ _ _ _ _ h := by
    simp only [result_modify, Option.some.injEq, Prod.mk.injEq] at h
    intro n hn
    rw [← h.1.2]
    exact (Processed.mem_names_insert _ name n).mpr (Or.inr hn)

theorem bind {x : Phase κ ι ω α} {f : α → Phase κ ι ω β} (hx : Unhooked serve x)
    (hf : ∀ a, Unhooked serve (f a)) : Unhooked serve (x >>= f) where
  silent P s := by
    rw [Phase.asked_bind]
    refine (hx.silent P s).append ?_
    rcases result serve x P s with _ | ⟨⟨_ | a, P₁⟩, s₁⟩
    · exact Silent.nil
    · exact Silent.nil
    · exact (hf a).silent P₁ s₁
  grows P P' s s' outcome h := by
    rw [result_bind] at h
    rcases hr : result serve x P s with _ | ⟨⟨_ | a, P₁⟩, s₁⟩
    · rw [hr] at h
      cases h
    · rw [hr] at h
      simp only [Option.some.injEq, Prod.mk.injEq] at h
      rw [← h.1.2]
      exact hx.grows hr
    · rw [hr] at h
      exact fun n hn => (hf a).grows h (hx.grows hr hn)

end Unhooked

/-! ## 2. Finding registry post-processors -/

theorem silent_registry (r : RegistryRequest κ ω) : (Request.registry r : Request κ ι ω).Silent :=
  ⟨rfl, fun _ => rfl⟩

theorem silent_extension (name : String) (expected : Capability) :
    (Request.extension name expected : Request κ ι ω).Silent := ⟨rfl, fun _ => rfl⟩

theorem standing_unhooked (name : String) : Unhooked serve (standing name) :=
  (Unhooked.ask (silent_registry _)).bind fun d => by
    cases d <;> exact .pure _

theorem standing_keepsNames (name : String) : KeepsNames serve (standing name) :=
  (KeepsNames.ask _).bind fun d => by
    cases d <;> exact .pure _

theorem extension_unhooked (name : String) (expected : Capability) :
    Unhooked serve (extension name expected) :=
  .of_keepsNames (fun P s => by
    unfold extension
    rw [asked_demand, Program.asked_request]
    exact Silent.single (silent_extension name expected)) (.demand _)

theorem extensionOf_unhooked (name : String) (family : PostProcessor) :
    Unhooked serve (extensionOf name family) :=
  (extension_unhooked name _).bind fun handle => by
    split
    · exact .pure _
    · exact .throw _

theorem collectFrom_unhooked (accept : Precedence → Bool) (names : List String) :
    Unhooked serve (collectFrom accept names) := by
  induction names with
  | nil => exact .pure _
  | cons name rest ih =>
      refine (standing_unhooked name).bind fun precedence => Unhooked.get.bind fun processed => ?_
      split
      · exact ih
      · exact (extensionOf_unhooked name .registry).bind fun handle =>
          (Unhooked.insert name).bind fun _ => ih.bind fun _ => .pure _

theorem collect_unhooked (cmp : Comparator) (accept : Precedence → Bool) :
    Unhooked serve (collect cmp accept) :=
  (Unhooked.ask (silent_registry _)).bind fun names =>
    (collectFrom_unhooked accept names).bind fun _ => .pure _

theorem extensionOf_returns {name : String} {family : PostProcessor} {P P' : Processed} {s s' : σ}
    {T : Asked κ ι ω σ} {h : Handle κ}
    (hr : Returns serve (extensionOf name family) P s T h P' s') :
    h.family = family ∧ P = P' ∧ T = [(.extension name (.postProcessor family), s)] ∧
      serve (.extension name (.postProcessor family)) s = some (.ok h, s') := by
  obtain ⟨T₁, T₂, handle, P₁, s₁, h₁, h₂, rfl⟩ := hr.of_bind
  obtain ⟨rfl, rfl, hs⟩ := h₁.of_demand
  rw [Program.run_request] at hs
  rw [Program.asked_request]
  split at h₂
  · rename_i hf
    obtain ⟨rfl, rfl, rfl, rfl⟩ := h₂.of_pure
    exact ⟨hf, rfl, List.append_nil _, hs⟩
  · exact absurd h₂ Returns.not_throw

/-- **What a search does with the first of its names**: it looks at the standing and passes over the
    name, or makes what is there and marks it as dealt with; then it goes on. -/
theorem collectFrom_cons {accept : Precedence → Bool} {name : String} {rest : List String}
    {P P' : Processed} {s s' : σ} {T : Asked κ ι ω σ} {batch : List (Candidate κ)}
    (hr : Returns serve (collectFrom accept (name :: rest)) P s T batch P' s') :
    ∃ precedence T₁ T₂ s₁, Returns serve (standing name) P s T₁ precedence P s₁ ∧
      (((P.contains name || !accept precedence) = true ∧ T = T₁ ++ T₂ ∧
          Returns serve (collectFrom accept rest) P s₁ T₂ batch P' s') ∨
        ((P.contains name || !accept precedence) = false ∧ ∃ handle others s₂,
          serve (.extension name (.postProcessor .registry)) s₁ = some (.ok handle, s₂) ∧
          T = T₁ ++ (.extension name (.postProcessor .registry), s₁) :: T₂ ∧
          Returns serve (collectFrom accept rest) (P.insert name) s₂ T₂ others P' s' ∧
          batch = ⟨name, precedence, handle⟩ :: others)) := by
  obtain ⟨T₁, T₂, precedence, P₁, s₁, looked, h₁, rfl⟩ := hr.of_bind
  obtain rfl := standing_keepsNames name looked.result
  obtain ⟨T₃, T₄, Q, P₂, s₂, got, h₂, rfl⟩ := h₁.of_bind
  obtain ⟨rfl, rfl, rfl, rfl⟩ := got.of_get
  split at h₂
  · rename_i skipped
    exact ⟨precedence, T₁, T₄, s₁, looked, .inl ⟨skipped, rfl, h₂⟩⟩
  · rename_i found
    obtain ⟨T₅, T₆, handle, P₃, s₃, made, h₃, rfl⟩ := h₂.of_bind
    obtain ⟨-, rfl, rfl, answered⟩ := extensionOf_returns made
    obtain ⟨T₇, T₈, u, P₄, s₄, marked, h₄, rfl⟩ := h₃.of_bind
    obtain ⟨rfl, rfl, rfl⟩ := marked.of_modify
    obtain ⟨T₉, T₁₀, others, P₅, s₅, further, ended, rfl⟩ := h₄.of_bind
    obtain ⟨rfl, rfl, rfl, rfl⟩ := ended.of_pure
    refine ⟨precedence, T₁, T₉, s₁, looked, .inr ⟨Bool.eq_false_iff.mpr found, handle, others, s₃,
      answered, ?_, further, rfl⟩⟩
    rw [List.append_nil]
    rfl

/-- **What is found is what the container answered, and its names are dealt with**, each after those
    that were dealt with before. -/
theorem collectFrom_returns {accept : Precedence → Bool} {names : List String} {P P' : Processed}
    {s s' : σ} {T : Asked κ ι ω σ} {batch : List (Candidate κ)}
    (hr : Returns serve (collectFrom accept names) P s T batch P' s') :
    P'.names = P.names ++ batch.map Candidate.name ∧
      ∀ c ∈ batch, Answered serve T c.name .registry c.handle.extension := by
  induction names generalizing P s T batch with
  | nil =>
      obtain ⟨rfl, rfl, rfl, rfl⟩ := hr.of_pure
      exact ⟨(List.append_nil _).symm, fun _ hc => absurd hc List.not_mem_nil⟩
  | cons name rest ih =>
      obtain ⟨precedence, T₁, T₂, s₁, -, ⟨-, rfl, passed⟩ |
        ⟨new, handle, others, s₂, answered, rfl, further, rfl⟩⟩ := collectFrom_cons hr
      · obtain ⟨hn, ha⟩ := ih passed
        exact ⟨hn, fun c hc => (ha c hc).mono (List.subset_append_right _ _)⟩
      · obtain ⟨hn, ha⟩ := ih further
        have hnew : name ∉ P.names := by
          intro hm
          simp [Processed.contains, hm] at new
        constructor
        · rw [hn, Processed.names_insert, if_neg hnew, List.map_cons, List.append_assoc]
          rfl
        · refine List.forall_mem_cons.mpr ⟨⟨s₁, s₂, handle, by simp, answered, rfl⟩, fun c hc => ?_⟩
          exact (ha c hc).mono fun q asked => by simp [asked]

theorem collect_returns {cmp : Comparator} {accept : Precedence → Bool} {P P' : Processed}
    {s s' : σ} {T : Asked κ ι ω σ} {batch : List (Candidate κ)}
    (hr : Returns serve (collect cmp accept) P s T batch P' s') :
    (∀ n, n ∈ P'.names ↔ n ∈ P.names ∨ n ∈ batch.map Candidate.name) ∧
      (∀ n ∈ batch.map Candidate.name, n ∉ P.names) ∧ (batch.map Candidate.name).Nodup ∧
      ∀ c ∈ batch, Answered serve T c.name .registry c.handle.extension := by
  obtain ⟨T₁, T₂, names, P₁, s₁, h₁, h₂, rfl⟩ := hr.of_bind
  obtain ⟨-, rfl, -⟩ := h₁.of_ask
  obtain ⟨T₃, T₄, found, P₂, s₂, h₃, h₄, rfl⟩ := h₂.of_bind
  obtain ⟨rfl, rfl, rfl, rfl⟩ := h₄.of_pure
  obtain ⟨hn, ha⟩ := collectFrom_returns h₃
  have hperm : (Candidate.sort cmp found).Perm found := List.mergeSort_perm _ _
  have hnd : (P.names ++ found.map Candidate.name).Nodup := hn ▸ P₂.distinct
  rw [List.nodup_append] at hnd
  obtain ⟨-, hfound, hdisj⟩ := hnd
  refine ⟨fun n => ?_, fun n hm hP => ?_, ?_, fun c hc => ?_⟩
  · rw [hn, List.mem_append, (hperm.map _).mem_iff]
  · exact hdisj n hP n ((hperm.map _).mem_iff.mp hm) rfl
  · exact (hperm.map _).nodup_iff.mpr hfound
  · exact (ha c (hperm.mem_iff.mp hc)).mono fun x hx =>
      List.mem_append_right _ (List.mem_append_left _ hx)

/-! ## 3. Running a batch -/

/-- The registry hook of an extension under the name it was found by. -/
def foundCall (c : Candidate κ) : HookCall κ := .found c.name c.handle.extension

/-- The phase runs the registry hooks of a batch in its order, up to a failure, and keeps the names
    dealt with. -/
structure RunsBatch (serve : Program.Handler (factoryInterface κ ι ω) σ) (x : Phase κ ι ω α)
    (batch : List (Candidate κ)) : Prop where
  keeps : KeepsNames serve x
  some_calls (P : Processed) (s : σ) : calls (Phase.asked serve x P s) <+: batch.map foundCall
  all_calls ⦃P P' : Processed⦄ ⦃s s' : σ⦄ ⦃T : Asked κ ι ω σ⦄ ⦃a : α⦄
    (h : Returns serve x P s T a P' s') : calls T = batch.map foundCall ∧ Settled T

/-- The request of a batch for one of its hooks. -/
theorem asked_labelled (c : Candidate κ) (P : Processed) (s : σ) :
    Phase.asked serve (do
        announce (.registryHook c.name c.precedence)
        registryHook c.handle.extension) P s =
      (.announce (.registryHook c.name c.precedence), s) ::
        match serve (.announce (.registryHook c.name c.precedence)) s with
        | none => []
        | some (_, s') => [(.registryHook c.handle.extension, s')] := by
  rw [Phase.asked_bind]
  unfold announce registryHook
  rw [asked_ask, result_ask]
  rcases serve (.announce (.registryHook c.name c.precedence)) s with _ | ⟨u, s'⟩
  · rfl
  · show _ :: Phase.asked serve (demand _) P s' = _
    rw [asked_demand, Program.asked_request]

theorem labelled_keepsNames (c : Candidate κ) : KeepsNames serve (do
    announce (.registryHook c.name c.precedence)
    registryHook c.handle.extension) :=
  (KeepsNames.ask _).bind fun _ => .demand _

theorem labelled_calls (c : Candidate κ) (P : Processed) (s : σ) :
    calls (Phase.asked serve (do
        announce (.registryHook c.name c.precedence)
        registryHook c.handle.extension) P s) <+: [foundCall c] := by
  rw [asked_labelled]
  rcases serve (.announce (.registryHook c.name c.precedence)) s with _ | ⟨u, s'⟩
  · exact List.nil_prefix
  · exact List.prefix_rfl

theorem labelled_returns {c : Candidate κ} {P P' : Processed} {s s' : σ} {T : Asked κ ι ω σ}
    {u : Unit} (h : Returns serve (do
        announce (.registryHook c.name c.precedence)
        registryHook c.handle.extension) P s T u P' s') :
    calls T = [foundCall c] ∧ Settled T := by
  obtain ⟨T₁, T₂, u₁, P₁, s₁, h₁, h₂, rfl⟩ := h.of_bind
  obtain ⟨rfl, rfl, -⟩ := h₁.of_ask
  obtain ⟨rfl, -, -⟩ := h₂.of_demand
  rw [Program.asked_request]
  exact ⟨rfl, rfl⟩

theorem runRegistryHooks_runsBatch (batch : List (Candidate κ)) :
    RunsBatch serve (runRegistryHooks batch : Phase κ ι ω Unit) batch where
  keeps := .forM (fun c => labelled_keepsNames c) batch
  some_calls := by
    induction batch with
    | nil => exact fun _ _ => List.prefix_rfl
    | cons c rest ih =>
        intro P s
        show calls (Phase.asked serve (_ >>= fun _ => runRegistryHooks rest) P s) <+: _
        rw [Phase.asked_bind]
        rcases hr : result serve _ P s with _ | ⟨⟨_ | u, P₁⟩, s₁⟩
        · rw [List.append_nil]
          exact (labelled_calls c P s).trans (List.prefix_append _ _)
        · rw [List.append_nil]
          exact (labelled_calls c P s).trans (List.prefix_append _ _)
        · have hret : Returns serve _ P s _ u P₁ s₁ := ⟨hr, rfl⟩
          obtain ⟨hc, hset⟩ := labelled_returns hret
          rw [calls_append hset, hc]
          exact (List.prefix_append_right_inj _).mpr (ih P₁ s₁)
  all_calls := by
    induction batch with
    | nil =>
        intro P P' s s' T u h
        obtain ⟨rfl, -⟩ := h.of_pure
        exact ⟨rfl, Settled.nil⟩
    | cons c rest ih =>
        intro P P' s s' T u h
        obtain ⟨T₁, T₂, u₁, P₁, s₁, h₁, h₂, rfl⟩ := Returns.of_bind h
        obtain ⟨hc, hset⟩ := labelled_returns h₁
        obtain ⟨hcs, hsets⟩ := ih h₂
        rw [calls_append hset, hc, hcs]
        exact ⟨rfl, hset.append hsets⟩

namespace RunsBatch

theorem pure (a : α) : RunsBatch serve (Pure.pure a : Phase κ ι ω α) [] where
  keeps := .pure a
  some_calls _ _ := List.prefix_rfl
  all_calls _ _ _ _ _ _ h := h.of_pure.1 ▸ ⟨rfl, Settled.nil⟩

/-- Going on without a hook after the batch. -/
theorem bind_pure {x : Phase κ ι ω α} {batch : List (Candidate κ)} (hx : RunsBatch serve x batch)
    (f : α → β) : RunsBatch serve (x >>= fun a => Pure.pure (f a)) batch where
  keeps := hx.keeps.bind fun a => .pure (f a)
  some_calls P s := by
    rcases Returns.asked_bind_cases serve x (fun a => Pure.pure (f a)) P s with
      h | ⟨a, P₁, s₁, -, h⟩
    · exact h ▸ hx.some_calls P s
    · rw [h, asked_pure, List.append_nil]
      exact hx.some_calls P s
  all_calls P P' s s' T a h := by
    obtain ⟨T₁, T₂, a, P₁, s₁, h₁, h₂, rfl⟩ := h.of_bind
    obtain ⟨rfl, -⟩ := h₂.of_pure
    rw [List.append_nil]
    exact hx.all_calls h₁

/-- Something without a hook before the batch. -/
theorem after {x : Phase κ ι ω α} {g : α → Phase κ ι ω β} {batch : List (Candidate κ)}
    (hk : KeepsNames serve x) (hs : ∀ P s, Silent (Phase.asked serve x P s))
    (hg : ∀ a, RunsBatch serve (g a) batch) : RunsBatch serve (x >>= g) batch where
  keeps := hk.bind fun a => (hg a).keeps
  some_calls P s := by
    rcases Returns.asked_bind_cases serve x g P s with h | ⟨a, P₁, s₁, -, h⟩
    · rw [h, (hs P s).calls]
      exact List.nil_prefix
    · rw [h, calls_append (hs P s).settled, (hs P s).calls]
      exact (hg a).some_calls P₁ s₁
  all_calls P P' s s' T b h := by
    obtain ⟨T₁, T₂, a, P₁, s₁, h₁, h₂, rfl⟩ := h.of_bind
    have hsilent : Silent T₁ := h₁.asked ▸ hs P s
    rw [calls_append hsilent.settled, hsilent.calls]
    exact ⟨((hg a).all_calls h₂).1, hsilent.settled.append ((hg a).all_calls h₂).2⟩

end RunsBatch

/-! ## 4. The books -/

/-- **The books of a phase**: which registry hooks it runs under a name, and which names it deals
    with. -/
structure Books (serve : Program.Handler (factoryInterface κ ι ω) σ) (x : Phase κ ι ω α) :
    Prop where
  once (P : Processed) (s : σ) : (foundNames (Phase.asked serve x P s)).Nodup
  fresh (P : Processed) (s : σ) : ∀ n ∈ foundNames (Phase.asked serve x P s), n ∉ P.names
  answered (P : Processed) (s : σ) : ∀ n e, .found n e ∈ calls (Phase.asked serve x P s) →
    Answered serve (Phase.asked serve x P s) n .registry e
  marked ⦃P P' : Processed⦄ ⦃s s' : σ⦄ ⦃outcome : Except Failure α⦄
    (h : result serve x P s = some ((outcome, P'), s')) :
    P.names ⊆ P'.names ∧ foundNames (Phase.asked serve x P s) ⊆ P'.names
  settled ⦃P P' : Processed⦄ ⦃s s' : σ⦄ ⦃T : Asked κ ι ω σ⦄ ⦃a : α⦄
    (h : Returns serve x P s T a P' s') : Settled T
  complete ⦃P P' : Processed⦄ ⦃s s' : σ⦄ ⦃T : Asked κ ι ω σ⦄ ⦃a : α⦄
    (h : Returns serve x P s T a P' s') : ∀ n ∈ P'.names, n ∈ P.names ∨ n ∈ foundNames T

theorem filterMap_foundCall (batch : List (Candidate κ)) :
    (batch.map foundCall).filterMap HookCall.foundName? = batch.map Candidate.name := by
  rw [List.filterMap_map]
  exact List.filterMap_eq_map ▸ rfl

namespace Books

/-- A phase that runs no hook under a name found and keeps the names dealt with. -/
theorem of_keepsNames {x : Phase κ ι ω α} (hx : KeepsNames serve x)
    (hn : ∀ P s n e, .found n e ∉ calls (Phase.asked serve x P s))
    (hs : ∀ {P P' s s' T a}, Returns serve x P s T a P' s' → Settled T) : Books serve x := by
  have hnil (P : Processed) (s : σ) : foundNames (Phase.asked serve x P s) = [] := by
    rw [foundNames, List.filterMap_eq_nil_iff]
    intro c hc
    cases c with
    | found n e => exact absurd hc (hn P s n e)
    | supplied e => rfl
    | factory e => rfl
    | remaining n e => rfl
  exact {
    once := fun P s => hnil P s ▸ List.nodup_nil
    fresh := fun P s n h => absurd (hnil P s ▸ h) List.not_mem_nil
    answered := fun P s n e h => absurd h (hn P s n e)
    marked := fun P P' s s' outcome h => ⟨hx h ▸ fun _ hm => hm, hnil P s ▸ List.nil_subset _⟩
    settled := fun P P' s s' T a h => hs h
    complete := fun P P' s s' T a h n hm => Or.inl (hx h.result ▸ hm) }

theorem pure (a : α) : Books serve (Pure.pure a : Phase κ ι ω α) :=
  of_keepsNames (.pure a) (fun _ _ _ _ h => absurd h List.not_mem_nil)
    fun h => h.of_pure.1 ▸ Settled.nil

theorem of_silent {x : Phase κ ι ω α} (hx : KeepsNames serve x)
    (hs : ∀ P s, Silent (Phase.asked serve x P s)) : Books serve x :=
  of_keepsNames hx (fun P s _ _ h => absurd ((hs P s).calls ▸ h) List.not_mem_nil)
    fun {P _ s _ _ _} h => h.asked ▸ (hs P s).settled

theorem ask {r : Request κ ι ω} (hr : r.Silent) : Books serve (Phase.ask r) :=
  of_silent (.ask r) fun P s => by
    rw [asked_ask]
    exact Silent.single hr

/-- **A sequence keeps the books if its parts do**: what the second part finds was not dealt with
    when it began, and so not found by the first part. -/
theorem bind {x : Phase κ ι ω α} {f : α → Phase κ ι ω β} (hx : Books serve x)
    (hf : ∀ a, Books serve (f a)) : Books serve (x >>= f) where
  once P s := by
    rcases Returns.asked_bind_cases serve x f P s with h | ⟨a, P₁, s₁, hr, h⟩
    · exact h ▸ hx.once P s
    · rw [h, foundNames_append (hx.settled hr), List.nodup_append]
      refine ⟨hx.once P s, (hf a).once P₁ s₁, fun n h₁ m h₂ e => ?_⟩
      exact (hf a).fresh P₁ s₁ m h₂ (e ▸ (hx.marked hr.result).2 h₁)
  fresh P s := by
    rcases Returns.asked_bind_cases serve x f P s with h | ⟨a, P₁, s₁, hr, h⟩
    · exact h ▸ hx.fresh P s
    · rw [h, foundNames_append (hx.settled hr)]
      intro n hn hP
      rcases List.mem_append.mp hn with hn | hn
      · exact hx.fresh P s n hn hP
      · exact (hf a).fresh P₁ s₁ n hn ((hx.marked hr.result).1 hP)
  answered P s := by
    rcases Returns.asked_bind_cases serve x f P s with h | ⟨a, P₁, s₁, hr, h⟩
    · exact h ▸ hx.answered P s
    · rw [h, calls_append (hx.settled hr)]
      intro n e hc
      rcases List.mem_append.mp hc with hc | hc
      · exact (hx.answered P s n e hc).mono (List.subset_append_left _ _)
      · exact ((hf a).answered P₁ s₁ n e hc).mono (List.subset_append_right _ _)
  marked P P' s s' outcome h := by
    rw [result_bind] at h
    rw [Phase.asked_bind]
    rcases hr : result serve x P s with _ | ⟨⟨_ | a, P₁⟩, s₁⟩
    · rw [hr] at h
      cases h
    · rw [hr] at h
      simp only [Option.some.injEq, Prod.mk.injEq] at h
      rw [List.append_nil, ← h.1.2]
      exact hx.marked hr
    · rw [hr] at h
      have hret : Returns serve x P s _ a P₁ s₁ := ⟨hr, rfl⟩
      obtain ⟨hP, hfound⟩ := (hf a).marked h
      obtain ⟨hP₁, hfound₁⟩ := hx.marked hr
      refine ⟨fun n hn => hP (hP₁ hn), fun n hn => ?_⟩
      rw [foundNames_append (hx.settled hret)] at hn
      exact (List.mem_append.mp hn).elim (fun hn => hP (hfound₁ hn)) fun hn => hfound hn
  settled P P' s s' T b h := by
    obtain ⟨T₁, T₂, a, P₁, s₁, h₁, h₂, rfl⟩ := h.of_bind
    exact (hx.settled h₁).append ((hf a).settled h₂)
  complete P P' s s' T b h n hn := by
    obtain ⟨T₁, T₂, a, P₁, s₁, h₁, h₂, rfl⟩ := h.of_bind
    rw [foundNames_append (hx.settled h₁), List.mem_append]
    rcases (hf a).complete h₂ n hn with hn | hn
    · exact (hx.complete h₁ n hn).imp_right Or.inl
    · exact Or.inr (Or.inr hn)

theorem forM {f : β → Phase κ ι ω PUnit} (hf : ∀ b, Books serve (f b)) (l : List β) :
    Books serve (l.forM f) := by
  induction l with
  | nil => exact pure _
  | cons b l ih => exact (hf b).bind fun _ => ih

theorem mapM {f : β → Phase κ ι ω α} (hf : ∀ b, Books serve (f b)) (l : List β) :
    Books serve (l.mapM f) := by
  induction l with
  | nil =>
      rw [List.mapM_nil]
      exact pure _
  | cons b l ih =>
      rw [List.mapM_cons]
      exact (hf b).bind fun _ => ih.bind fun _ => pure _

/-- A batch that is found and then run. -/
theorem collect_bind {cmp : Comparator} {accept : Precedence → Bool}
    {g : List (Candidate κ) → Phase κ ι ω α} (hg : ∀ batch, RunsBatch serve (g batch) batch) :
    Books serve (collect cmp accept >>= g) := by
  have hu : Unhooked serve (collect cmp accept : Phase κ ι ω (List (Candidate κ))) :=
    collect_unhooked cmp accept
  have hset (P : Processed) (s : σ) : Settled (Phase.asked serve (collect cmp accept) P s) :=
    (hu.silent P s).settled
  have hfound {P P₁ : Processed} {s s₁ : σ} {batch : List (Candidate κ)} (Q : Processed) (t : σ)
      (hr : Returns serve (collect cmp accept) P s
        (Phase.asked serve (collect cmp accept) P s) batch P₁ s₁) :
      foundNames (Phase.asked serve (collect cmp accept) P s ++
        Phase.asked serve (g batch) Q t) <+: batch.map Candidate.name := by
    rw [foundNames_append (hset P s), (hu.silent P s).foundNames, List.nil_append]
    exact filterMap_foundCall batch ▸ ((hg batch).some_calls Q t).filterMap _
  exact {
    once := fun P s => by
      rcases Returns.asked_bind_cases serve (collect cmp accept) g P s with
        h | ⟨batch, P₁, s₁, hr, h⟩
      · rw [h, (hu.silent P s).foundNames]
        exact List.nodup_nil
      · rw [h]
        exact (collect_returns hr).2.2.1.sublist (hfound P₁ s₁ hr).sublist
    fresh := fun P s n hn => by
      rcases Returns.asked_bind_cases serve (collect cmp accept) g P s with
        h | ⟨batch, P₁, s₁, hr, h⟩
      · rw [h, (hu.silent P s).foundNames] at hn
        exact absurd hn List.not_mem_nil
      · rw [h] at hn
        exact (collect_returns hr).2.1 n ((hfound P₁ s₁ hr).subset hn)
    answered := fun P s n e hc => by
      rcases Returns.asked_bind_cases serve (collect cmp accept) g P s with
        h | ⟨batch, P₁, s₁, hr, h⟩
      · rw [h, (hu.silent P s).calls] at hc
        exact absurd hc List.not_mem_nil
      · rw [h, calls_append (hset P s), (hu.silent P s).calls, List.nil_append] at hc
        obtain ⟨c, hmem, he⟩ := List.mem_map.mp (((hg batch).some_calls P₁ s₁).subset hc)
        simp only [foundCall, HookCall.found.injEq] at he
        obtain ⟨rfl, rfl⟩ := he
        rw [h]
        exact ((collect_returns hr).2.2.2 c hmem).mono (List.subset_append_left _ _)
    marked := fun P P' s s' outcome h => by
      rw [result_bind] at h
      rcases hr : result serve (collect cmp accept) P s with _ | ⟨⟨_ | batch, P₁⟩, s₁⟩
      · rw [hr] at h
        cases h
      · rw [Phase.asked_bind, hr, List.append_nil, (hu.silent P s).foundNames]
        rw [hr] at h
        simp only [Option.some.injEq, Prod.mk.injEq] at h
        exact ⟨h.1.2 ▸ hu.grows hr, List.nil_subset _⟩
      · rw [Phase.asked_bind, hr]
        rw [hr] at h
        rw [← (hg batch).keeps h]
        refine ⟨hu.grows hr, fun n hn => ?_⟩
        exact ((collect_returns ⟨hr, rfl⟩).1 n).mpr (Or.inr ((hfound P₁ s₁ ⟨hr, rfl⟩).subset hn))
    settled := fun P P' s s' T a h => by
      obtain ⟨T₁, T₂, batch, P₁, s₁, h₁, h₂, rfl⟩ := h.of_bind
      exact (h₁.asked ▸ hset P s).append ((hg batch).all_calls h₂).2
    complete := fun P P' s s' T a h n hn => by
      obtain ⟨T₁, T₂, batch, P₁, s₁, h₁, h₂, rfl⟩ := h.of_bind
      have hsilent : Silent T₁ := h₁.asked ▸ hu.silent P s
      rw [foundNames_append hsilent.settled, hsilent.foundNames, List.nil_append, foundNames,
        ((hg batch).all_calls h₂).1, filterMap_foundCall]
      exact ((collect_returns h₁).1 n).mp ((hg batch).keeps h₂.result ▸ hn) }

end Books

/-! ## 5. Phases 1 to 4 -/

theorem registryPhase_runsBatch (batch : List (Candidate κ)) :
    RunsBatch serve (do
      runRegistryHooks batch
      return batch : Phase κ ι ω (List (Candidate κ))) batch :=
  (runRegistryHooks_runsBatch batch).bind_pure fun _ => batch

theorem registryPhase_books (cmp : Comparator) (accept : Precedence → Bool) :
    Books serve (registryPhase cmp accept) := Books.collect_bind registryPhase_runsBatch

/-- One of the passes of phase 4: the batch it has run, if it has found any. -/
def pass (cmp : Comparator) (limit : Option Nat) (done : Nat) :
    Phase κ ι ω (Option (List (Candidate κ))) := do
  let batch ← collect cmp fun _ => true
  if batch.isEmpty then return none
  else
    demand (pure (ensureAllowed limit done))
    announce (.registryPass (done + 1) batch.length)
    runRegistryHooks batch
    return some batch

theorem passes_succ (cmp : Comparator) (limit : Option Nat) (patience done : Nat) :
    (passes cmp limit (patience + 1) done : Phase κ ι ω (Nat × List (Candidate κ))) =
      pass cmp limit done >>= fun
        | none => pure (done, [])
        | some batch => passes cmp limit patience (done + 1) >>= fun others =>
          pure (others.1, batch ++ others.2) := by
  rw [passes, pass, bind_assoc]
  congr 1
  funext batch
  split
  · rfl
  · simp only [bind_assoc, pure_bind]

theorem pass_runsBatch (limit : Option Nat) (done : Nat) (batch : List (Candidate κ)) :
    RunsBatch serve (if batch.isEmpty then return none
      else do
        demand (pure (ensureAllowed limit done))
        announce (.registryPass (done + 1) batch.length)
        runRegistryHooks batch
        return some batch : Phase κ ι ω (Option (List (Candidate κ)))) batch := by
  split
  · rename_i hempty
    exact List.isEmpty_iff.mp hempty ▸ .pure none
  · refine .after (.demand _) (fun P s => ?_) fun _ => .after (.ask _) (fun P s => ?_) fun _ =>
      (runRegistryHooks_runsBatch batch).bind_pure fun _ => some batch
    · rw [asked_demand]
      exact Silent.nil
    · unfold announce
      rw [asked_ask]
      exact Silent.single ⟨rfl, fun _ => rfl⟩

theorem pass_books (cmp : Comparator) (limit : Option Nat) (done : Nat) :
    Books serve (pass cmp limit done) := Books.collect_bind (pass_runsBatch limit done)

/-- **Phase 4 keeps the books**, however many passes it takes. -/
theorem passes_books (cmp : Comparator) (limit : Option Nat) (patience done : Nat) :
    Books serve (passes cmp limit patience done) := by
  induction patience generalizing done with
  | zero => exact (Books.ask ⟨rfl, fun _ => rfl⟩).bind fun answer => nomatch answer
  | succ patience ih =>
      rw [passes_succ]
      refine (pass_books cmp limit done).bind fun found => ?_
      cases found with
      | none => exact .pure _
      | some batch => exact (ih (done + 1)).bind fun _ => .pure _

theorem registryHook_books (e : Extension κ) : Books serve (registryHook e) :=
  .of_keepsNames (.demand _)
    (fun P s n e' h => by
      unfold registryHook at h
      rw [asked_demand, Program.asked_request] at h
      cases List.mem_singleton.mp h)
    fun h => by
      rw [h.of_demand.1, Program.asked_request]
      exact rfl

theorem runSupplied_books (b : Behaviour κ ι ω) (external : List (Handle κ)) :
    Books serve (runSupplied b external) :=
  .forM (fun h : Handle κ => (Books.ask (r := .announce (.suppliedHook (h.name b.name)))
    ⟨rfl, fun _ => rfl⟩).bind fun _ => registryHook_books h.extension) _

/-! ## 6. The order of the registry hooks -/

/-- The extensions handed in that have a registry hook. -/
def suppliedRegistry (external : List (Handle κ)) : List (Extension κ) :=
  (external.filter (·.family == .registry)).map Handle.extension

theorem runSupplied_returns {b : Behaviour κ ι ω} {external : List (Handle κ)} {P P' : Processed}
    {s s' : σ} {T : Asked κ ι ω σ} {u : Unit}
    (h : Returns serve (runSupplied b external) P s T u P' s') :
    calls T = (suppliedRegistry external).map .supplied ∧ Settled T ∧ P = P' := by
  unfold runSupplied at h
  unfold suppliedRegistry
  generalize external.filter (·.family == .registry) = handles at h ⊢
  induction handles generalizing P s T with
  | nil =>
      obtain ⟨rfl, -, rfl, -⟩ := h.of_pure
      exact ⟨rfl, Settled.nil, rfl⟩
  | cons handle rest ih =>
      obtain ⟨T₁, T₂, u₁, P₁, s₁, h₁, h₂, rfl⟩ := Returns.of_bind h
      obtain ⟨T₃, T₄, u₂, P₂, s₂, h₃, h₄, rfl⟩ := h₁.of_bind
      obtain ⟨rfl, rfl, -⟩ := h₃.of_ask
      obtain ⟨rfl, rfl, -⟩ := h₄.of_demand
      obtain ⟨hc, hset, rfl⟩ := ih h₂
      rw [Program.asked_request, List.append_assoc]
      refine ⟨?_, ?_, rfl⟩
      · show .supplied handle.extension :: calls T₂ = _
        rw [hc]
        rfl
      · exact hset

theorem registryPhase_returns {cmp : Comparator} {accept : Precedence → Bool} {P P' : Processed}
    {s s' : σ} {T : Asked κ ι ω σ} {batch : List (Candidate κ)}
    (h : Returns serve (registryPhase cmp accept) P s T batch P' s') :
    calls T = batch.map foundCall := by
  obtain ⟨T₁, T₂, found, P₁, s₁, h₁, h₂, rfl⟩ := h.of_bind
  have hsilent : Silent T₁ := h₁.asked ▸ (collect_unhooked cmp accept).silent P s
  have hbatch := ((registryPhase_runsBatch found).all_calls h₂).1
  obtain ⟨T₃, T₄, u, P₂, s₂, h₃, h₄, rfl⟩ := h₂.of_bind
  obtain ⟨rfl, rfl, -, -⟩ := h₄.of_pure
  rw [calls_append hsilent.settled, hsilent.calls, hbatch]
  rfl

theorem pass_returns {cmp : Comparator} {limit : Option Nat} {done : Nat} {P P' : Processed}
    {s s' : σ} {T : Asked κ ι ω σ} {found : Option (List (Candidate κ))}
    (h : Returns serve (pass cmp limit done) P s T found P' s') :
    calls T = (found.getD []).map foundCall := by
  obtain ⟨T₁, T₂, batch, P₁, s₁, h₁, h₂, rfl⟩ := h.of_bind
  have hsilent : Silent T₁ := h₁.asked ▸ (collect_unhooked cmp _).silent P s
  rw [calls_append hsilent.settled, hsilent.calls, List.nil_append]
  split at h₂
  · obtain ⟨rfl, rfl, -⟩ := h₂.of_pure
    rfl
  · rename_i hbatch
    have hcalls := ((pass_runsBatch limit done batch).all_calls (by rwa [if_neg hbatch])).1
    obtain ⟨T₃, T₄, u₁, P₂, s₂, h₃, h₄, rfl⟩ := h₂.of_bind
    obtain ⟨T₅, T₆, u₂, P₃, s₃, h₅, h₆, rfl⟩ := h₄.of_bind
    obtain ⟨T₇, T₈, u₃, P₄, s₄, h₇, h₈, rfl⟩ := h₆.of_bind
    obtain ⟨-, rfl, -⟩ := h₈.of_pure
    exact hcalls

theorem passes_returns {cmp : Comparator} {limit : Option Nat} {patience done total : Nat}
    {P P' : Processed} {s s' : σ} {T : Asked κ ι ω σ} {others : List (Candidate κ)}
    (h : Returns serve (passes cmp limit patience done) P s T (total, others) P' s') :
    calls T = others.map foundCall := by
  induction patience generalizing done total P s T others P' s' with
  | zero =>
      obtain ⟨T₁, T₂, answer, P₁, s₁, h₁, h₂, rfl⟩ := Returns.of_bind h
      exact nomatch answer
  | succ patience ih =>
      rw [passes_succ] at h
      obtain ⟨T₁, T₂, found, P₁, s₁, h₁, h₂, rfl⟩ := h.of_bind
      rw [calls_append ((pass_books cmp limit done).settled h₁), pass_returns h₁]
      cases found with
      | none =>
          obtain ⟨rfl, he, -⟩ := h₂.of_pure
          cases he
          rfl
      | some batch =>
          obtain ⟨T₃, T₄, rest, P₂, s₂, h₃, h₄, rfl⟩ := h₂.of_bind
          obtain ⟨rfl, he, -⟩ := h₄.of_pure
          cases he
          rw [List.append_nil, ih h₃, List.map_append]
          rfl

/-! ## 7. Phases 1 to 4 together -/

theorem registryPhases_books (b : Behaviour κ ι ω) (cmp : Comparator) (patience : Nat)
    (options : Options) (external : List (Handle κ)) :
    Books serve (runRegistryPhases b cmp patience options external) :=
  (runSupplied_books b external).bind fun _ => (registryPhase_books cmp _).bind fun _ =>
    (registryPhase_books cmp _).bind fun _ => (passes_books cmp _ _ 0).bind fun _ => .pure _

/-- **Phases 1 to 4 run the registry hooks of what was handed in, and then of all they return.** -/
theorem registryPhases_returns {b : Behaviour κ ι ω} {cmp : Comparator} {patience : Nat}
    {options : Options} {external : List (Handle κ)} {P P' : Processed} {s s' : σ}
    {T : Asked κ ι ω σ} {total : Nat} {found : List (Candidate κ)}
    (h : Returns serve (runRegistryPhases b cmp patience options external) P s T (total, found)
      P' s') :
    calls T = (suppliedRegistry external).map .supplied ++ found.map foundCall := by
  obtain ⟨T₁, R₁, u₁, P₁, s₁, g₁, r₁, rfl⟩ := h.of_bind
  obtain ⟨T₂, R₂, priority, P₂, s₂, g₂, r₂, rfl⟩ := r₁.of_bind
  obtain ⟨T₃, R₃, ordered, P₃, s₃, g₃, r₃, rfl⟩ := r₂.of_bind
  obtain ⟨T₄, R₄, ⟨n, others⟩, P₄, s₄, g₄, r₄, rfl⟩ := r₃.of_bind
  obtain ⟨rfl, he, -, -⟩ := r₄.of_pure
  cases he
  obtain ⟨calls₁, settled₁, rfl⟩ := runSupplied_returns g₁
  rw [calls_append settled₁, calls_append ((registryPhase_books cmp _).settled g₂),
    calls_append ((registryPhase_books cmp _).settled g₃), calls₁, registryPhase_returns g₂,
    registryPhase_returns g₃, List.append_nil, passes_returns g₄, List.map_append, List.map_append,
    List.append_assoc]

end ComponentContainer.Bootstrap
