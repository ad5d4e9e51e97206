/-
  File:      ComponentContainer/Proofs/ExactlyOnce.lean
  Subject:   Each hook of a bootstrap runs once.

  * `factoryPhases_books` -- phases 1 to 6 keep the books, whatever suppliers and hooks do.
  * `factoryPhases_returns` -- what phases 1 to 6 ask for, cut into its stretches: the registry
    hooks, the factory hooks of phase 5, and phase 6 from its look at the registry on.
  * `hooks_run_exactly_once` -- **each name runs one registry hook at most, and each name that
    declares the factory capability when phase 6 looks at the registry runs one factory hook.**
-/
import ComponentContainer.Demo
import ComponentContainer.Proofs.Answers
import ComponentContainer.Proofs.FactoryHooks

namespace ComponentContainer.Bootstrap

open Phase

variable {κ ι ω σ : Type} {serve : Program.Handler (factoryInterface κ ι ω) σ}

/-! ## 1. The books of phases 1 to 6 -/

theorem comparator_unhooked : Unhooked serve (comparator : Phase κ ι ω Comparator) :=
  (Unhooked.ask ⟨rfl, fun _ => rfl⟩).bind fun _ => .pure _

theorem comparator_books : Books serve (comparator : Phase κ ι ω Comparator) :=
  (Books.ask ⟨rfl, fun _ => rfl⟩).bind fun _ => .pure _

theorem demand_pure_books {α : Type} (outcome : Except Failure α) :
    Books serve (demand (pure outcome) : Phase κ ι ω α) :=
  .of_silent (.demand _) fun P s => by
    rw [asked_demand]
    exact Silent.nil

/-- **Phases 1 to 6 keep the books**, whatever suppliers and hooks do. -/
theorem factoryPhases_books (b : Behaviour κ ι ω) (patience : Nat) (options : Options)
    (external : List (Handle κ)) :
    Books serve (runFactoryPhases b patience options external) :=
  comparator_books.bind fun cmp => (demand_pure_books _).bind fun _ =>
    (registryPhases_books b cmp patience options external).bind fun _ =>
    (ownHooks_books b external _).bind fun _ => (runRemaining_books b cmp).bind fun _ =>
    (Books.ask ⟨rfl, fun _ => rfl⟩).bind fun _ => (Books.ask ⟨rfl, fun _ => rfl⟩).bind fun _ =>
    .pure _

/-! ## 2. The stretches of a run -/

/-- The look at the registry with which phase 6 begins. -/
def factoryNames : Request κ ι ω := .registry (.namesFor (.postProcessor .factory))

/-- **A run that returns, cut into its stretches**: before the first factory hook, the factory hooks
    of phase 5, and from the state `s₆` on phase 6. -/
structure Stretches (serve : Program.Handler (factoryInterface κ ι ω) σ)
    (external : List (Handle κ)) (T : Asked κ ι ω σ) (dealt : Processed) (before : Asked κ ι ω σ)
    (found : List (String × Extension κ)) (during : Asked κ ι ω σ) (s₆ : σ)
    (after : Asked κ ι ω σ) : Prop where
  whole : T = before ++ during ++ (factoryNames, s₆) :: after
  settled : Settled before
  /-- Registry hooks only: of what was handed in, then of what was found. -/
  registry : calls before =
    (suppliedRegistry external).map .supplied ++ found.map fun (name, e) => .found name e
  /-- Phase 5 asks for these factory hooks and for nothing else. -/
  factory : during.map Prod.fst =
    (suppliedRegistry external ++ found.map Prod.snd ++ suppliedFactory external).map .factoryHook
  /-- Phase 6 runs nothing but factory hooks under a name. -/
  rest : RunsFound serve after
  /-- These are the names it sees that were not dealt with. -/
  names : ∃ answer s₇, serve factoryNames s₆ = some (answer, s₇) ∧
    (remainingNames after).Perm (answer.filter (!dealt.contains ·))

theorem factoryPhases_returns {b : Behaviour κ ι ω} {patience : Nat} {options : Options}
    {external : List (Handle κ)} {P P' : Processed} {s s' : σ} {T : Asked κ ι ω σ} {stats : Stats}
    (h : Returns serve (runFactoryPhases b patience options external) P s T stats P' s') :
    ∃ before found during s₆ after,
      Stretches serve external T P' before found during s₆ after := by
  obtain ⟨T₁, R₁, cmp, P₁, s₁, g₁, r₁, rfl⟩ := h.of_bind
  obtain ⟨T₂, R₂, u₂, P₂, s₂, g₂, r₂, rfl⟩ := r₁.of_bind
  obtain ⟨T₃, R₃, ⟨total, found⟩, P₃, s₃, g₃, r₃, rfl⟩ := r₂.of_bind
  obtain ⟨T₄, R₄, ⟨n₁, n₂⟩, P₄, s₄, g₄, r₄, rfl⟩ := r₃.of_bind
  obtain ⟨T₅, R₅, rest, P₅, s₅, g₅, r₅, rfl⟩ := r₄.of_bind
  obtain ⟨T₆, R₆, u₆, P₆, s₆, g₆, r₆, rfl⟩ := r₅.of_bind
  obtain ⟨T₇, R₇, u₇, P₇, s₇, g₇, r₇, rfl⟩ := r₆.of_bind
  obtain ⟨rfl, -, rfl, rfl⟩ := r₇.of_pure
  obtain ⟨rfl, rfl, -⟩ := g₂.of_demand
  obtain ⟨factory, rfl⟩ := ownHooks_returns g₄
  obtain ⟨rfl, answer, s₀, T₀, rfl, hs, settled, hrest, hnames⟩ := runRemaining_returns g₅
  obtain ⟨h₆, rfl, -⟩ := g₆.of_ask
  obtain ⟨h₇, rfl, -⟩ := g₇.of_ask
  have silent₁ : Silent T₁ := g₁.asked ▸ comparator_unhooked.silent P s
  have silent₆ : Silent (T₆ ++ (T₇ ++ [])) :=
    (h₆ ▸ Silent.single ⟨rfl, fun _ => rfl⟩ : Silent T₆).append
      ((h₇ ▸ Silent.single ⟨rfl, fun _ => rfl⟩ : Silent T₇).append Silent.nil)
  refine ⟨T₁ ++ T₃, found.map fun c => (c.name, c.handle.extension), T₄, _,
    T₀ ++ (T₆ ++ (T₇ ++ [])), {
      whole := ?_
      settled := silent₁.settled.append ((registryPhases_books b cmp _ _ _).settled g₃)
      registry := ?_
      factory := ?_
      rest := hrest.append (.of_silent silent₆) settled
      names := ⟨answer, s₀, hs, ?_⟩ }⟩
  · simp only [List.append_assoc, List.cons_append]
    rfl
  · rw [calls_append silent₁.settled, silent₁.calls, registryPhases_returns g₃, List.map_map]
    rfl
  · rw [factory, List.map_map]
    rfl
  · rw [remainingNames, calls_append settled, silent₆.calls, List.append_nil]
    exact hnames

theorem calls_factoryHooks {T : Asked κ ι ω σ} {es : List (Extension κ)}
    (h : T.map Prod.fst = es.map .factoryHook) : calls T = es.map .factory ∧ Settled T := by
  induction T generalizing es with
  | nil =>
      obtain rfl : es = [] := List.map_eq_nil_iff.mp h.symm
      exact ⟨rfl, Settled.nil⟩
  | cons x T ih =>
      obtain ⟨e, es, rfl, hx, hT⟩ := List.map_eq_cons_iff.mp h.symm
      obtain ⟨hc, hset⟩ := ih hT.symm
      obtain ⟨r, s⟩ := x
      obtain rfl : .factoryHook e = r := hx
      constructor
      · show .factory e :: calls T = _
        rw [hc]
        rfl
      · exact hset

namespace Stretches

variable {external : List (Handle κ)} {T before during after : Asked κ ι ω σ} {dealt : Processed}
  {found : List (String × Extension κ)} {s₆ : σ}

/-- The hooks of the whole run. -/
theorem calls (h : Stretches serve external T dealt before found during s₆ after) :
    Phase.calls T = Phase.calls before ++
      (suppliedRegistry external ++ found.map Prod.snd ++ suppliedFactory external).map .factory ++
      Phase.calls after := by
  obtain ⟨hc, hset⟩ := calls_factoryHooks h.factory
  have hsilent : Silent [((factoryNames : Request κ ι ω), s₆)] := Silent.single (silent_registry _)
  rw [h.whole, ← List.singleton_append, calls_append (h.settled.append hset),
    calls_append h.settled, calls_append hsilent.settled, hsilent.calls, hc]
  rfl

/-- All names are found before the first factory hook. -/
theorem foundNames (h : Stretches serve external T dealt before found during s₆ after) :
    Phase.foundNames T = found.map Prod.fst := by
  have hsupplied : ((suppliedRegistry external).map HookCall.supplied).filterMap
      HookCall.foundName? = [] := by
    rw [List.filterMap_map, List.filterMap_eq_nil_iff]
    exact fun _ _ => rfl
  have hfactory (es : List (Extension κ)) :
      (es.map HookCall.factory).filterMap HookCall.foundName? = [] := by
    rw [List.filterMap_map, List.filterMap_eq_nil_iff]
    exact fun _ _ => rfl
  have hafter : (Phase.calls after).filterMap HookCall.foundName? = [] := by
    rw [List.filterMap_eq_nil_iff]
    intro c hc
    obtain ⟨name, e, rfl, -⟩ := h.rest c hc
    rfl
  rw [Phase.foundNames, h.calls, List.filterMap_append, List.filterMap_append, hafter, hfactory,
    h.registry, List.filterMap_append, hsupplied, List.filterMap_map, List.append_nil,
    List.append_nil, List.nil_append]
  exact List.filterMap_eq_map ▸ rfl

end Stretches

/-! ## 3. Exactly once -/

/-- **Each hook of a bootstrap runs once**, whatever suppliers and hooks do. A name runs one registry
    hook at most, even if the run fails or has no end, and it is that of the extension the container
    answered for the name. If the run returns, phase 5 runs the factory hooks of what was handed in
    and found, in the order of the registry hooks, and then those of the factory post-processors
    handed in; and each name that declares the factory capability when phase 6 looks at the registry
    has run one factory hook: in phase 5 if it was dealt with, else in phase 6. -/
theorem hooks_run_exactly_once (b : Behaviour κ ι ω) (depth : Nat) (view : Container.View)
    (patience : Nat) (options : Options) (external : List (Handle κ)) (s : State κ ι ω) :
    (foundNames (Phase.asked (Container.serve b depth view)
      (runFactoryPhases b patience options external) .empty s)).Nodup ∧
    (∀ n e, .found n e ∈ calls (Phase.asked (Container.serve b depth view)
        (runFactoryPhases b patience options external) .empty s) →
      Answered (Container.serve b depth view) (Phase.asked (Container.serve b depth view)
        (runFactoryPhases b patience options external) .empty s) n .registry e) ∧
    ∀ {T : Asked κ ι ω (State κ ι ω)} {stats : Stats} {dealt : Processed} {s' : State κ ι ω},
      Returns (Container.serve b depth view) (runFactoryPhases b patience options external)
        .empty s T stats dealt s' →
      ∃ before found during s₆ after,
        Stretches (Container.serve b depth view) external T dealt before found during s₆ after ∧
        ∀ n ∈ s₆.container.namesFor (.postProcessor .factory),
          (n ∈ dealt.names ∧ (found.map Prod.fst).count n = 1 ∧ (remainingNames after).count n = 0) ∨
          (n ∉ dealt.names ∧ (found.map Prod.fst).count n = 0 ∧ (remainingNames after).count n = 1) := by
  have books : Books (Container.serve b depth view)
    (runFactoryPhases b patience options external) := factoryPhases_books b patience options external
  refine ⟨books.once .empty s, books.answered .empty s, fun {T stats dealt s'} h => ?_⟩
  obtain ⟨before, found, during, s₆, after, hcut⟩ := factoryPhases_returns h
  refine ⟨before, found, during, s₆, after, hcut, fun n hn => ?_⟩
  have hdealt : n ∈ dealt.names ↔ n ∈ found.map Prod.fst := by
    rw [← hcut.foundNames, ← h.asked]
    refine ⟨fun hm => ?_, fun hm => (books.marked h.result).2 hm⟩
    exact (books.complete ⟨h.result, rfl⟩ n hm).resolve_left List.not_mem_nil
  have hfound : (found.map Prod.fst).Nodup := by
    rw [← hcut.foundNames, ← h.asked]
    exact books.once .empty s
  obtain ⟨answer, s₇, hs, hremaining⟩ := hcut.names
  unfold factoryNames at hs
  rw [Container.serve_namesFor] at hs
  cases hs
  have hnames := (Container.nodup_namesFor s₆.container (.postProcessor .factory)).filter
    (!dealt.contains ·)
  by_cases hm : n ∈ dealt.names
  · refine Or.inl ⟨hm, ?_, ?_⟩
    · rw [hfound.count, if_pos (hdealt.mp hm)]
    · rw [hremaining.count_eq, List.Nodup.count hnames, if_neg]
      simp [Processed.contains, hm]
  · refine Or.inr ⟨hm, ?_, ?_⟩
    · rw [hfound.count, if_neg fun h => hm (hdealt.mpr h)]
    · rw [hremaining.count_eq, List.Nodup.count hnames, if_pos]
      simp [Processed.contains, hm, hn]

/-- In the shop, the audit configuration runs its two hooks before the placeholder resolver runs its
    one. -/
theorem shop_hooks_run_exactly_once :
    ∃ T stats dealt s' before found during s₆ after,
      Returns (Container.serve (Demo.behaviour "db") 1 .full)
        (runFactoryPhases (Demo.behaviour "db") 2 {} []) .empty Demo.shop T stats dealt s' ∧
      calls T = [.found "auditConfiguration" ⟨0, .custom .auditConfiguration⟩,
        .factory ⟨0, .custom .auditConfiguration⟩,
        .remaining "placeholderResolver" ⟨1, .custom .placeholderResolver⟩] ∧
      Stretches (Container.serve (Demo.behaviour "db") 1 .full) [] T dealt before found during s₆
        after ∧
      ∀ n ∈ s₆.container.namesFor (.postProcessor .factory),
        (n ∈ dealt.names ∧ (found.map Prod.fst).count n = 1 ∧ (remainingNames after).count n = 0) ∨
        (n ∉ dealt.names ∧ (found.map Prod.fst).count n = 0 ∧ (remainingNames after).count n = 1) := by
  have hret : returns (Container.serve (Demo.behaviour "db") 1 .full)
    (runFactoryPhases (Demo.behaviour "db") 2 {} []) .empty Demo.shop = true := by decide +kernel
  obtain ⟨stats, dealt, s', h⟩ := exists_returns hret
  obtain ⟨before, found, during, s₆, after, hcut, hnames⟩ :=
    (hooks_run_exactly_once (Demo.behaviour "db") 1 .full 2 {} [] Demo.shop).2.2 h
  exact ⟨_, stats, dealt, s', before, found, during, s₆, after, h, by decide +kernel, hcut, hnames⟩

end ComponentContainer.Bootstrap
