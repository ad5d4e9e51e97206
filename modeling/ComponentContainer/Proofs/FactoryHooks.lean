/-
  File:      ComponentContainer/Proofs/FactoryHooks.lean
  Subject:   Phases 5 and 6 of a bootstrap: factory hooks, of a run that ends without a failure.

  * `factoryHooks_returns`, `regularHooks_returns` -- phase 5 runs the factory hooks of its list, one
    after the other, and asks for nothing else.
  * `remaining_returns` -- phase 6 asks for the names of the factory post-processors and keeps those
    that were not dealt with.
  * `factoryGroup_returns` -- a group of phase 6 runs one factory hook under each of its names.
  * `inTier_perm` -- the three groups are all of the names.
-/
import ComponentContainer.Proofs.RegistryHooks

namespace ComponentContainer.Bootstrap

open Phase

variable {κ ι ω σ α β : Type} {serve : Program.Handler (factoryInterface κ ι ω) σ}
  {P P' : Processed} {s s' : σ} {T : Asked κ ι ω σ}

/-! ## 1. Phase 5 -/

/-- The extensions handed in that have a factory hook only. -/
def suppliedFactory (external : List (Handle κ)) : List (Extension κ) :=
  (external.filter (·.family == .factory)).map Handle.extension

theorem factoryHooks_returns {es : List (Extension κ)} {u : Unit}
    (h : Returns serve (es.forM factoryHook) P s T u P' s') :
    T.map Prod.fst = es.map Request.factoryHook ∧ P = P' := by
  induction es generalizing P s T with
  | nil =>
      obtain ⟨rfl, -, rfl, -⟩ := h.of_pure
      exact ⟨rfl, rfl⟩
  | cons e es ih =>
      obtain ⟨T₁, T₂, u₁, P₁, s₁, h₁, h₂, rfl⟩ := Returns.of_bind h
      obtain ⟨rfl, rfl, -⟩ := h₁.of_demand
      obtain ⟨hT, rfl⟩ := ih h₂
      rw [Program.asked_request, List.map_append, hT]
      exact ⟨rfl, rfl⟩

theorem runFactoryHook_eq_request {name : κ → String} {handle : Handle κ}
    (hf : handle.family ≠ .component) :
    (handle.runFactoryHook name : FactoryProgram κ ι ω (Except Failure Unit)) =
      Program.request (I := factoryInterface κ ι ω) (.factoryHook handle.extension) := by
  unfold Handle.runFactoryHook Handle.ensureFactoryCapable
  cases h : handle.family with
  | component => exact absurd h hf
  | registry => rfl
  | factory => rfl

/-- A factory hook that runs without a failure is that of an extension that has one. -/
theorem runFactoryHook_returns {name : κ → String} {handle : Handle κ} {u : Unit}
    (h : Returns serve (demand (handle.runFactoryHook name)) P s T u P' s') :
    handle.family ≠ .component ∧ T = [(.factoryHook handle.extension, s)] ∧ P = P' := by
  obtain ⟨rfl, rfl, hrun⟩ := h.of_demand
  have hf : handle.family ≠ .component := by
    intro hf
    unfold Handle.runFactoryHook Handle.ensureFactoryCapable at hrun
    rw [hf] at hrun
    cases hrun
  refine ⟨hf, ?_, rfl⟩
  rw [runFactoryHook_eq_request hf, Program.asked_request]

theorem regularHooks_returns {name : κ → String} {handles : List (Handle κ)} {u : Unit}
    (h : Returns serve (handles.forM fun h => demand (h.runFactoryHook name)) P s T u P' s') :
    T.map Prod.fst = (handles.map Handle.extension).map Request.factoryHook ∧ P = P' ∧
      ∀ handle ∈ handles, handle.family ≠ .component := by
  induction handles generalizing P s T with
  | nil =>
      obtain ⟨rfl, -, rfl, -⟩ := h.of_pure
      exact ⟨rfl, rfl, fun _ hm => absurd hm List.not_mem_nil⟩
  | cons handle rest ih =>
      obtain ⟨T₁, T₂, u₁, P₁, s₁, h₁, h₂, rfl⟩ := Returns.of_bind h
      obtain ⟨hf, rfl, rfl⟩ := runFactoryHook_returns h₁
      obtain ⟨hT, rfl, hrest⟩ := ih h₂
      rw [List.map_append, hT]
      exact ⟨rfl, rfl, List.forall_mem_cons.mpr ⟨hf, hrest⟩⟩

/-- Where nothing of the component family is handed in, what has no registry hook is of the factory
    family. -/
theorem regular_eq_suppliedFactory {external : List (Handle κ)}
    (h : ∀ handle ∈ external.filter (·.family != .registry), handle.family ≠ .component) :
    (external.filter (·.family != .registry)).map Handle.extension = suppliedFactory external := by
  unfold suppliedFactory
  congr 1
  refine List.filter_congr fun handle hm => ?_
  have hcomp := h handle
  rw [List.mem_filter] at hcomp
  cases hf : handle.family with
  | registry => rfl
  | factory => rfl
  | component => exact absurd hf (hcomp ⟨hm, by rw [hf]; rfl⟩)

/-! ## 2. Phase 6 -/

theorem standing_silent (name : String) (P : Processed) (s : σ) :
    Silent (Phase.asked serve (standing name) P s) := (standing_unhooked name).silent P s

theorem remaining_returns {names : List (String × Tier)}
    (h : Returns serve remaining P s T names P' s') :
    P = P' ∧ ∃ answer s₁ T₁, T = (.registry (.namesFor (.postProcessor .factory)), s) :: T₁ ∧
      Silent T₁ ∧ serve (.registry (.namesFor (.postProcessor .factory))) s = some (answer, s₁) ∧
      names.map Prod.fst = answer.filter (!P.contains ·) := by
  obtain ⟨T₁, T₂, answer, P₁, s₁, h₁, h₂, rfl⟩ := h.of_bind
  obtain ⟨rfl, rfl, hs⟩ := h₁.of_ask
  obtain ⟨T₃, T₄, Q, P₂, s₂, h₃, h₄, rfl⟩ := h₂.of_bind
  obtain ⟨rfl, rfl, rfl, rfl⟩ := h₃.of_get
  suffices hmap : ∀ (l : List String) {s : σ} {T : Asked κ ι ω σ} {names : List (String × Tier)},
      Returns serve (l.mapM fun name => return (name, (← standing name).tier)) P s T names P' s' →
        P = P' ∧ Silent T ∧ names.map Prod.fst = l by
    obtain ⟨rfl, hsilent, hnames⟩ := hmap _ h₄
    exact ⟨rfl, answer, s₁, _, rfl, hsilent, hs, hnames⟩
  intro l
  induction l with
  | nil =>
      intro s T names h
      obtain ⟨rfl, rfl, rfl, -⟩ := h.of_mapM_nil
      exact ⟨rfl, Silent.nil, rfl⟩
  | cons name l ih =>
      intro s T names h
      obtain ⟨T₁, T₂, entry, P₁, s₁, others, h₁, h₂, rfl, rfl⟩ := h.of_mapM_cons
      obtain ⟨T₃, T₄, precedence, P₂, s₂, h₃, h₄, rfl⟩ := h₁.of_bind
      obtain ⟨rfl, rfl, rfl, rfl⟩ := h₄.of_pure
      obtain rfl := standing_keepsNames name h₃.result
      obtain ⟨rfl, hsilent, rfl⟩ := ih h₂
      have hstanding : Silent T₃ := h₃.asked ▸ standing_silent name _ _
      exact ⟨rfl, (hstanding.append Silent.nil).append hsilent, rfl⟩

/-- The factory hook of an extension under the name it was found by. -/
def remainingCall (c : Candidate κ) : HookCall κ := .remaining c.name c.handle.extension

theorem makeGroup_returns {names : List String} {group : List (Candidate κ)}
    (h : Returns serve (makeGroup names) P s T group P' s') :
    P = P' ∧ Silent T ∧ group.map Candidate.name = names ∧
      ∀ c ∈ group, Answered serve T c.name .factory c.handle.extension := by
  unfold makeGroup at h
  induction names generalizing P s T group with
  | nil =>
      obtain ⟨rfl, rfl, rfl, -⟩ := h.of_mapM_nil
      exact ⟨rfl, Silent.nil, rfl, fun _ hm => absurd hm List.not_mem_nil⟩
  | cons name names ih =>
      obtain ⟨T₁, T₂, c, P₁, s₁, others, h₁, h₂, rfl, rfl⟩ := h.of_mapM_cons
      obtain ⟨T₃, T₄, handle, P₂, s₂, h₃, h₄, rfl⟩ := h₁.of_bind
      obtain ⟨rfl, rfl, hs⟩ := h₃.of_demand
      rw [Program.run_request] at hs
      obtain ⟨T₅, T₆, precedence, P₃, s₃, h₅, h₆, rfl⟩ := h₄.of_bind
      obtain ⟨rfl, rfl, rfl, rfl⟩ := h₆.of_pure
      obtain rfl := standing_keepsNames name h₅.result
      obtain ⟨rfl, hsilent, rfl, ha⟩ := ih h₂
      have hstanding : Silent T₅ := h₅.asked ▸ standing_silent name _ _
      rw [Program.asked_request]
      refine ⟨rfl, ?_, rfl, List.forall_mem_cons.mpr ⟨?_, fun c hc => ?_⟩⟩
      · exact ((Silent.single (silent_extension _ _)).append
          (hstanding.append Silent.nil)).append hsilent
      · exact ⟨s, s₂, handle, List.mem_append_left _ List.mem_cons_self, hs, rfl⟩
      · exact (ha c hc).mono (List.subset_append_right _ _)

/-- The announcement and the factory hook of an extension found. -/
theorem runUnderName_returns {name : κ → String} {c : Candidate κ} {u : Unit}
    (h : Returns serve (do
      announce (.factoryHook c.name c.precedence)
      demand (c.handle.runFactoryHook name)) P s T u P' s') :
    P = P' ∧ Settled T ∧ calls T = [remainingCall c] := by
  obtain ⟨T₁, T₂, u₁, P₁, s₁, h₁, h₂, rfl⟩ := h.of_bind
  obtain ⟨rfl, rfl, -⟩ := h₁.of_ask
  obtain ⟨-, rfl, rfl⟩ := runFactoryHook_returns h₂
  exact ⟨rfl, rfl, rfl⟩

theorem runFactoryHooks_returns {b : Behaviour κ ι ω} {group : List (Candidate κ)} {n : Nat}
    (h : Returns serve (runFactoryHooks b group) P s T n P' s') :
    P = P' ∧ Settled T ∧ calls T = group.map remainingCall := by
  obtain ⟨T₁, T₂, u, P₁, s₁, h₁, h₂, rfl⟩ := h.of_bind
  obtain ⟨rfl, -, rfl, rfl⟩ := h₂.of_pure
  rw [List.append_nil]
  clear h₂ h
  induction group generalizing P s T₁ with
  | nil =>
      obtain ⟨rfl, -, rfl, -⟩ := h₁.of_pure
      exact ⟨rfl, Settled.nil, rfl⟩
  | cons c group ih =>
      obtain ⟨T₃, T₄, u₁, P₂, s₂, h₃, h₄, rfl⟩ := Returns.of_bind h₁
      obtain ⟨rfl, hset, hcall⟩ := runUnderName_returns h₃
      obtain ⟨rfl, hset', hcalls⟩ := ih _ h₄
      rw [calls_append hset, hcall, hcalls]
      exact ⟨rfl, hset.append hset', rfl⟩

/-- All hooks among the requests are factory hooks under a name, of the extension that the container
    answered for it. -/
def RunsFound (serve : Program.Handler (factoryInterface κ ι ω) σ) (T : Asked κ ι ω σ) : Prop :=
  ∀ c ∈ calls T, ∃ name e, c = .remaining name e ∧ Answered serve T name .factory e

theorem RunsFound.of_silent (h : Silent T) : RunsFound serve T := fun _ hc =>
  absurd (h.calls ▸ hc) List.not_mem_nil

theorem RunsFound.append {T₁ T₂ : Asked κ ι ω σ} (h₁ : RunsFound serve T₁)
    (h₂ : RunsFound serve T₂) (settled : Settled T₁) : RunsFound serve (T₁ ++ T₂) := by
  intro c hc
  rw [calls_append settled] at hc
  rcases List.mem_append.mp hc with hc | hc
  · obtain ⟨name, e, rfl, ha⟩ := h₁ c hc
    exact ⟨name, e, rfl, ha.mono (List.subset_append_left _ _)⟩
  · obtain ⟨name, e, rfl, ha⟩ := h₂ c hc
    exact ⟨name, e, rfl, ha.mono (List.subset_append_right _ _)⟩

/-- **A group runs one factory hook under each of its names**, of the extension that the container
    answered for the name. -/
theorem factoryGroup_returns {b : Behaviour κ ι ω}
    {sort : List (Candidate κ) → List (Candidate κ)} (hsort : ∀ group, (sort group).Perm group)
    {names : List String} {n : Nat}
    (h : Returns serve (factoryGroup b sort names) P s T n P' s') :
    P = P' ∧ Settled T ∧ RunsFound serve T ∧ (remainingNames T).Perm names := by
  obtain ⟨T₁, T₂, group, P₁, s₁, h₁, h₂, rfl⟩ := h.of_bind
  obtain ⟨rfl, hsilent, hnames, ha⟩ := makeGroup_returns h₁
  obtain ⟨rfl, hset, hcalls⟩ := runFactoryHooks_returns h₂
  have hall : calls (T₁ ++ T₂) = (sort group).map remainingCall := by
    rw [calls_append hsilent.settled, hsilent.calls, hcalls]
    rfl
  refine ⟨rfl, hsilent.settled.append hset, fun call hm => ?_, ?_⟩
  · rw [hall] at hm
    obtain ⟨c, hc, rfl⟩ := List.mem_map.mp hm
    exact ⟨c.name, c.handle.extension, rfl,
      (ha c ((hsort group).mem_iff.mp hc)).mono (List.subset_append_left _ _)⟩
  · rw [remainingNames, hall, List.filterMap_map]
    exact List.filterMap_eq_map ▸ hnames ▸ (hsort group).map Candidate.name

/-- **The three groups are all of the names.** -/
theorem inTier_perm (names : List (String × Tier)) :
    (inTier .highest names ++ inTier .ordered names ++ inTier .unordered names).Perm
      (names.map Prod.fst) := by
  induction names with
  | nil => exact List.Perm.refl _
  | cons entry names ih =>
      obtain ⟨name, tier⟩ := entry
      cases tier with
      | highest => exact ih.cons name
      | ordered =>
          show (inTier .highest names ++ (name :: inTier .ordered names) ++ _).Perm _
          rw [List.append_assoc, List.cons_append]
          refine List.perm_middle.trans ?_
          rw [← List.append_assoc]
          exact ih.cons name
      | unordered =>
          exact List.perm_middle.trans (ih.cons name)

/-- **Phase 5 asks for these factory hooks and for nothing else.** -/
theorem ownHooks_returns {b : Behaviour κ ι ω} {external : List (Handle κ)}
    {found : List (Candidate κ)} {n : Nat × Nat}
    (h : Returns serve (runOwnHooks b external found) P s T n P' s') :
    T.map Prod.fst = (suppliedRegistry external ++ found.map (·.handle.extension) ++
      suppliedFactory external).map Request.factoryHook ∧ P = P' := by
  obtain ⟨T₁, R₁, u₁, P₁, s₁, g₁, r₁, rfl⟩ := h.of_bind
  obtain ⟨T₂, R₂, u₂, P₂, s₂, g₂, r₂, rfl⟩ := r₁.of_bind
  obtain ⟨rfl, -, rfl, rfl⟩ := r₂.of_pure
  obtain ⟨hooks₁, rfl⟩ := factoryHooks_returns g₁
  obtain ⟨hooks₂, rfl, capable⟩ := regularHooks_returns g₂
  rw [regular_eq_suppliedFactory capable] at hooks₂
  rw [List.append_nil, List.map_append, hooks₁, hooks₂, ← List.map_append]
  exact ⟨rfl, rfl⟩

/-- **Phase 6 looks at the registry, and then runs nothing but one factory hook under each of the
    names it sees that were not dealt with.** -/
theorem runRemaining_returns {b : Behaviour κ ι ω} {cmp : Comparator} {n : Nat}
    (h : Returns serve (runRemaining b cmp) P s T n P' s') :
    P = P' ∧ ∃ answer s₁ T₁, T = (.registry (.namesFor (.postProcessor .factory)), s) :: T₁ ∧
      serve (.registry (.namesFor (.postProcessor .factory))) s = some (answer, s₁) ∧
      Settled T₁ ∧ RunsFound serve T₁ ∧
      (remainingNames T₁).Perm (answer.filter (!P.contains ·)) := by
  obtain ⟨T₁, R₁, names, P₁, s₁, g₁, r₁, rfl⟩ := h.of_bind
  obtain ⟨T₂, R₂, n₁, P₂, s₂, g₂, r₂, rfl⟩ := r₁.of_bind
  obtain ⟨T₃, R₃, n₂, P₃, s₃, g₃, r₃, rfl⟩ := r₂.of_bind
  obtain ⟨T₄, R₄, n₃, P₄, s₄, g₄, r₄, rfl⟩ := r₃.of_bind
  obtain ⟨rfl, -, rfl, rfl⟩ := r₄.of_pure
  obtain ⟨rfl, answer, s₀, T₀, rfl, silent, hs, hnames⟩ := remaining_returns g₁
  have hperm (group : List (Candidate κ)) : (Candidate.sort cmp group).Perm group :=
    List.mergeSort_perm _ _
  obtain ⟨rfl, c₂, f₂, p₂⟩ := factoryGroup_returns hperm g₂
  obtain ⟨rfl, c₃, f₃, p₃⟩ := factoryGroup_returns hperm g₃
  obtain ⟨rfl, c₄, f₄, p₄⟩ := factoryGroup_returns (fun _ => List.Perm.refl _) g₄
  refine ⟨rfl, answer, s₀, T₀ ++ (T₂ ++ (T₃ ++ T₄)), ?_, hs,
    silent.settled.append (c₂.append (c₃.append c₄)), ?_, ?_⟩
  · rw [List.append_nil, List.cons_append]
  · exact (RunsFound.of_silent silent).append (f₂.append (f₃.append f₄ c₃) c₂) silent.settled
  · rw [remainingNames, calls_append silent.settled, silent.calls, List.nil_append,
      calls_append c₂, calls_append c₃, List.filterMap_append, List.filterMap_append]
    refine (p₂.append (p₃.append p₄)).trans ?_
    rw [← List.append_assoc, ← hnames]
    exact inTier_perm names

/-! ## 3. The books of phases 5 and 6 -/

theorem runFactoryHook_asked (name : κ → String) (handle : Handle κ) (s : σ) :
    ∀ x ∈ (handle.runFactoryHook name : FactoryProgram κ ι ω (Except Failure Unit)).asked serve s,
      ∀ e, x.1 ≠ .registryHook e := by
  by_cases hf : handle.family = .component
  · unfold Handle.runFactoryHook Handle.ensureFactoryCapable
    rw [hf]
    exact fun _ hx => absurd hx List.not_mem_nil
  · rw [runFactoryHook_eq_request hf, Program.asked_request]
    intro x hx
    rw [List.mem_singleton.mp hx]
    exact fun _ he => nomatch he

theorem factoryHook_books (e : Extension κ) : Books serve (factoryHook e) :=
  .of_keepsNames (.demand _)
    (fun P s n e' h => by
      unfold factoryHook at h
      rw [asked_demand, Program.asked_request] at h
      cases List.mem_singleton.mp h)
    fun h => by
      rw [h.of_demand.1, Program.asked_request]
      exact rfl

theorem regularHook_books (name : κ → String) (handle : Handle κ) :
    Books serve (demand (handle.runFactoryHook name)) :=
  .of_keepsNames (.demand _)
    (fun P s => by
      rw [asked_demand]
      exact not_found_of_no_registryHook (runFactoryHook_asked name handle s))
    fun h => by
      rw [(runFactoryHook_returns h).2.1]
      exact rfl

theorem runUnderName_books (name : κ → String) (c : Candidate κ) : Books serve (do
    announce (.factoryHook c.name c.precedence)
    demand (c.handle.runFactoryHook name)) :=
  .of_keepsNames ((KeepsNames.ask _).bind fun _ => .demand _)
    (fun P s => by
      refine not_found_of_no_registryHook fun x hx e => ?_
      have hannounce : ∀ x ∈ Phase.asked serve (announce (.factoryHook c.name c.precedence)) P s,
          ∀ e, x.1 ≠ .registryHook e := by
        unfold announce
        rw [asked_ask]
        intro x hx
        rw [List.mem_singleton.mp hx]
        exact fun _ he => nomatch he
      rcases Returns.asked_bind_cases serve (announce (.factoryHook c.name c.precedence))
        (fun _ => demand (c.handle.runFactoryHook name)) P s with h | ⟨u, P₁, s₁, -, h⟩
      · exact hannounce x (h ▸ hx) e
      · rw [h, asked_demand] at hx
        rcases List.mem_append.mp hx with hx | hx
        · exact hannounce x hx e
        · exact runFactoryHook_asked name c.handle s₁ x hx e)
    fun h => (runUnderName_returns h).2.1

theorem standing_books (name : String) : Books serve (standing name) :=
  .of_silent (standing_keepsNames name) (standing_unhooked name).silent

theorem remaining_books : Books serve (remaining : Phase κ ι ω (List (String × Tier))) :=
  (Books.ask (silent_registry _)).bind fun _ =>
    (Books.of_silent .get fun _ _ => Silent.nil).bind fun _ =>
      .mapM (fun name => (standing_books name).bind fun _ => .pure _) _

theorem factoryGroup_books (b : Behaviour κ ι ω)
    (sort : List (Candidate κ) → List (Candidate κ)) (names : List String) :
    Books serve (factoryGroup b sort names) :=
  (Books.mapM (fun name => (Books.of_silent (.demand _) (extension_unhooked name _).silent).bind
    fun _ => (standing_books name).bind fun _ => .pure _) names).bind fun _ =>
      (Books.forM (fun c => runUnderName_books b.name c) _).bind fun _ => .pure _

theorem ownHooks_books (b : Behaviour κ ι ω) (external : List (Handle κ))
    (found : List (Candidate κ)) : Books serve (runOwnHooks b external found) :=
  (Books.forM (fun e => factoryHook_books e) _).bind fun _ =>
    (Books.forM (fun h => regularHook_books b.name h) _).bind fun _ => .pure _

theorem runRemaining_books (b : Behaviour κ ι ω) (cmp : Comparator) :
    Books serve (runRemaining b cmp) :=
  remaining_books.bind fun _ => (factoryGroup_books b _ _).bind fun _ =>
    (factoryGroup_books b _ _).bind fun _ => (factoryGroup_books b _ _).bind fun _ => .pure _

end ComponentContainer.Bootstrap
