/-
  File:      ComponentContainer/Proofs/PassiveRuns.lean
  Subject:   Phases 1 to 6 where suppliers and hooks succeed and leave the container as it is.

  * `Passive` -- the supplier or the hook that a request runs succeeds and changes nothing in the
    container. It speaks of the requests of one run only, each in the state it is made in.
  * `Ready`, `Quiet` -- nothing is being made and what was made fits its definition; from one state
    to another nothing happens but the making of extensions.
  * `serve_extension_passive` -- a declared extension is made, and stays.
  * `collect_passive`, `registryPhase_passive`, `passes_passive` -- a batch is all that is accepted
    and not dealt with; the first pass of phase 4 finds the rest and the second nothing.
  * `remaining_passive`, `factoryGroup_passive` -- phase 6.
-/
import ComponentContainer.Proofs.Answers
import ComponentContainer.Proofs.FactoryHooks
import ComponentContainer.Proofs.Sorting

namespace ComponentContainer.Bootstrap

open Phase Container

variable {κ ι ω α : Type} {b : Behaviour κ ι ω} {depth : Nat} {view : View}

/-! ## 1. Passive requests -/

/-- The supplier or the hook that a request runs succeeds and leaves the container as it is. -/
def Passive (b : Behaviour κ ι ω) (depth : Nat) (view : View) :
    Request κ ι ω × State κ ι ω → Prop
  | (.registryHook e, s) => ∃ s', serve b depth view (.registryHook e) s = some (.ok (), s') ∧
      s'.container = s.container
  | (.factoryHook e, s) => ∃ s', serve b depth view (.factoryHook e) s = some (.ok (), s') ∧
      s'.container = s.container
  | (.extension name _, s) => ∀ d, s.container.definitions.find? name = some d →
      s.container.extensions.find? name = none →
        ∃ code s', nested b depth .full (b.build d.supplier) (supplying s name d) =
          some (.ok code, s') ∧ s'.container = (supplying s name d).container
  | _ => True

/-- Nothing is being made, and the extensions made fit the definitions under their names. -/
structure Ready (s : State κ ι ω) : Prop where
  idle : s.container.creating = []
  agrees ⦃name : String⦄ ⦃h : Handle κ⦄ ⦃d : Definition κ⦄
    (hh : s.container.extensions.find? name = some h)
    (hd : s.container.definitions.find? name = some d) : d.kind = .postProcessor h.family

/-- Nothing happens to the container but the making of extensions. -/
structure Quiet (s s' : State κ ι ω) : Prop where
  container : s'.container = { s.container with extensions := s'.container.extensions }
  keeps ⦃name : String⦄ ⦃h : Handle κ⦄ (hh : s.container.extensions.find? name = some h) :
    s'.container.extensions.find? name = some h
  ready : Ready s → Ready s'

namespace Quiet

variable {s s' s'' : State κ ι ω}

theorem of_container_eq (h : s'.container = s.container) : Quiet s s' where
  container := by rw [h]
  keeps := by
    rw [h]
    exact fun _ _ hh => hh
  ready hr := ⟨h ▸ hr.idle, fun _ _ _ hh hd => hr.agrees (h ▸ hh) (h ▸ hd)⟩

theorem refl (s : State κ ι ω) : Quiet s s := of_container_eq rfl

theorem trans (h₁ : Quiet s s') (h₂ : Quiet s' s'') : Quiet s s'' where
  container := by
    rw [h₂.container, h₁.container]
  keeps _ _ hh := h₂.keeps (h₁.keeps hh)
  ready hr := h₂.ready (h₁.ready hr)

theorem definitions (h : Quiet s s') : s'.container.definitions = s.container.definitions := by
  rw [h.container]

/-- An extension that was not there has been made. -/
theorem of_set {name : String} {h : Handle κ} {d : Definition κ}
    (hs : s'.container =
      { s.container with extensions := s.container.extensions.set name h })
    (hd : s.container.definitions.find? name = some d) (hk : d.kind = .postProcessor h.family)
    (unknown : s.container.extensions.find? name = none) : Quiet s s' where
  container := by rw [hs]
  keeps other h' hh := by
    have hne : other ≠ name := by
      rintro rfl
      rw [unknown] at hh
      cases hh
    rw [hs, Table.find?_set, if_neg hne]
    exact hh
  ready hr := {
    idle := by
      rw [hs]
      exact hr.idle
    agrees := fun other h' d' hh hd' => by
      rw [hs] at hh hd'
      rw [Table.find?_set] at hh
      split at hh
      · rename_i heq
        cases hh
        rw [heq, hd] at hd'
        cases hd'
        exact hk
      · exact hr.agrees hh hd' }

end Quiet

/-- **A declared extension is made and stays**; it is of the family its definition names. -/
theorem serve_extension_passive {s : State κ ι ω} {name : String} {expected : Capability}
    {d : Definition κ} {family : PostProcessor} (hr : Ready s)
    (hd : s.container.definitions.find? name = some d) (hk : d.kind = .postProcessor family)
    (declares : d.declares expected = true)
    (passive : Passive b depth view (.extension name expected, s)) :
    ∃ h s', serve b depth view (.extension name expected) s = some (.ok h, s') ∧
      h.family = family ∧ Quiet s s' ∧ s'.container.extensions.find? name = some h := by
  cases hc : s.container.extensions.find? name with
  | some h =>
      have hfamily := hr.agrees hc hd
      rw [hk, Kind.postProcessor.injEq] at hfamily
      exact ⟨h, s, serve_extension_known hd declares hc, hfamily.symm, .refl s, hc⟩
  | none =>
      obtain ⟨code, s₁, supplied, hsame⟩ := passive d hd hc
      have idle : name ∉ s.container.creating := by
        rw [hr.idle]
        exact List.not_mem_nil
      have hmade (h : Handle κ) : (made s₁ name h).container =
          { s.container with extensions := s.container.extensions.set name h } := by
        unfold made
        rw [hsame]
        simp [supplying, beginning]
      refine ⟨_, _, serve_extension_made hd hk declares hc idle supplied, rfl,
        .of_set (hmade _) hd hk hc, ?_⟩
      rw [hmade, Table.find?_set, if_pos rfl]

/-! ## 2. Single steps -/

section Steps

variable {s : State κ ι ω} {P : Processed}

theorem standing_known {name : String} {d : Definition κ}
    (hd : s.container.definitions.find? name = some d) :
    Yields (serve b depth view) (standing name) P s d.precedence P s := by
  refine Yields.bind (Yields.ask (serve_find b depth view s name)) ?_
  rw [hd]
  rfl

/-- What a phase asks for that asks for an extension. -/
theorem asks_extension {Q : Request κ ι ω × State κ ι ω → Prop} {name : String}
    {expected : Capability}
    (asks : Asks (serve b depth view) Q (extension name expected) P s) :
    Q (.extension name expected, s) :=
  asks.of_demand _ <| by
    rw [Program.asked_request]
    exact List.mem_singleton_self _

theorem extension_yields {name : String} {expected : Capability} {h : Handle κ}
    {s' : State κ ι ω}
    (hs : serve b depth view (.extension name expected) s = some (.ok h, s')) :
    Yields (serve b depth view) (extension name expected) P s h P s' :=
  Yields.demand (by rw [Program.run_request]; exact hs)

theorem extensionOf_yields {name : String} {family : PostProcessor} {h : Handle κ}
    {s' : State κ ι ω}
    (hs : serve b depth view (.extension name (.postProcessor family)) s = some (.ok h, s'))
    (hfamily : h.family = family) :
    Yields (serve b depth view) (extensionOf name family) P s h P s' := by
  refine (extension_yields hs).bind ?_
  rw [if_pos hfamily]
  rfl

/-- What makes extensions of a family can be asked for them. -/
theorem declares_of_kind {d : Definition κ} {family : PostProcessor}
    (hk : d.kind = .postProcessor family) : d.declares (.postProcessor family) = true := by
  show d.kind.declares _ = true
  rw [hk]
  cases family <;> rfl

theorem extension_passive {name : String} {expected : Capability} {d : Definition κ}
    {family : PostProcessor} (hr : Ready s) (hd : s.container.definitions.find? name = some d)
    (hk : d.kind = .postProcessor family) (declares : d.declares expected = true)
    (asks : Asks (serve b depth view) (Passive b depth view) (extension name expected) P s) :
    ∃ h s', Yields (serve b depth view) (extension name expected) P s h P s' ∧ Quiet s s' ∧
      s'.container.extensions.find? name = some h := by
  obtain ⟨h, s', hs, -, quiet, known⟩ :=
    serve_extension_passive hr hd hk declares (asks_extension asks)
  exact ⟨h, s', extension_yields hs, quiet, known⟩

theorem extensionOf_passive {name : String} {d : Definition κ} {family : PostProcessor}
    (hr : Ready s) (hd : s.container.definitions.find? name = some d)
    (hk : d.kind = .postProcessor family)
    (asks : Asks (serve b depth view) (Passive b depth view) (extensionOf name family) P s) :
    ∃ h s', Yields (serve b depth view) (extensionOf name family) P s h P s' ∧ Quiet s s' ∧
      s'.container.extensions.find? name = some h := by
  obtain ⟨h, s', hs, hfamily, quiet, known⟩ :=
    serve_extension_passive hr hd hk (declares_of_kind hk) (asks_extension asks.left)
  exact ⟨h, s', extensionOf_yields hs hfamily, quiet, known⟩

theorem announce_passive (b : Behaviour κ ι ω) (depth : Nat) (view : View) (s : State κ ι ω)
    (P : Processed) (n : Notice) :
    ∃ s', Yields (serve b depth view) (announce n) P s () P s' ∧ Quiet s s' :=
  ⟨_, Yields.ask (serve_announce b depth view s n), .of_container_eq rfl⟩

theorem registryHook_passive {e : Extension κ}
    (asks : Asks (serve b depth view) (Passive b depth view) (registryHook e) P s) :
    ∃ s', Yields (serve b depth view) (registryHook e) P s () P s' ∧ Quiet s s' := by
  obtain ⟨s', hs, hsame⟩ := asks.of_demand (.registryHook e, s) <| by
    rw [Program.asked_request]
    exact List.mem_singleton_self _
  refine ⟨s', Yields.demand ?_, .of_container_eq hsame⟩
  rw [Program.run_request]
  exact hs

theorem factoryHook_passive {e : Extension κ}
    (asks : Asks (serve b depth view) (Passive b depth view) (factoryHook e) P s) :
    ∃ s', Yields (serve b depth view) (factoryHook e) P s () P s' ∧ Quiet s s' := by
  obtain ⟨s', hs, hsame⟩ := asks.of_demand (.factoryHook e, s) <| by
    rw [Program.asked_request]
    exact List.mem_singleton_self _
  refine ⟨s', Yields.demand ?_, .of_container_eq hsame⟩
  rw [Program.run_request]
  exact hs

/-- Going through a list with a phase that returns quietly. -/
theorem forM_passive {f : α → Phase κ ι ω PUnit} {l : List α}
    (hf : ∀ a ∈ l, ∀ {s : State κ ι ω},
      Asks (serve b depth view) (Passive b depth view) (f a) P s →
        ∃ s', Yields (serve b depth view) (f a) P s ⟨⟩ P s' ∧ Quiet s s')
    (asks : Asks (serve b depth view) (Passive b depth view) (l.forM f) P s) :
    ∃ s', Yields (serve b depth view) (l.forM f) P s ⟨⟩ P s' ∧ Quiet s s' := by
  induction l generalizing s with
  | nil => exact ⟨s, rfl, .refl s⟩
  | cons a l ih =>
      obtain ⟨s₁, y₁, q₁⟩ := hf a List.mem_cons_self (Asks.left asks)
      obtain ⟨s₂, y₂, q₂⟩ :=
        ih (fun a ha => hf a (List.mem_cons_of_mem _ ha)) (Asks.right (f := fun _ => l.forM f) asks y₁)
      exact ⟨s₂, Yields.bind y₁ y₂, q₁.trans q₂⟩

theorem runRegistryHooks_passive {batch : List (Candidate κ)}
    (asks : Asks (serve b depth view) (Passive b depth view) (runRegistryHooks batch) P s) :
    ∃ s', Yields (serve b depth view) (runRegistryHooks batch) P s () P s' ∧ Quiet s s' :=
  forM_passive (fun c _ {s} asks => by
    obtain ⟨s₁, y₁, q₁⟩ := announce_passive b depth view s P (.registryHook c.name c.precedence)
    obtain ⟨s₂, y₂, q₂⟩ := registryHook_passive (asks.right y₁)
    exact ⟨s₂, y₁.bind y₂, q₁.trans q₂⟩) asks

end Steps

/-! ## 3. Batches -/

/-- The definitions that make extensions of a family, with their names, in order of registration. -/
def makers (c : Container κ ι) (family : PostProcessor) : List (String × Definition κ) :=
  c.definitions.entries.filter fun e => e.2.kind = .postProcessor family

/-- The standing of a definition. -/
def standingOf (e : String × Definition κ) : Precedence := e.2.precedence

theorem Quiet.makers {s s' : State κ ι ω} (q : Quiet s s') (family : PostProcessor) :
    makers s'.container family = Bootstrap.makers s.container family := by
  unfold Bootstrap.makers
  rw [q.definitions]

theorem find?_of_mem_makers {c : Container κ ι} {family : PostProcessor}
    {e : String × Definition κ} (he : e ∈ makers c family) :
    c.definitions.find? e.1 = some e.2 ∧ e.2.kind = .postProcessor family := by
  obtain ⟨hm, hk⟩ := List.mem_filter.mp he
  exact ⟨(Table.find?_eq_some_iff _ _ _).mpr hm, of_decide_eq_true hk⟩

theorem nodup_makers (c : Container κ ι) (family : PostProcessor) :
    ((makers c family).map Prod.fst).Nodup :=
  c.definitions.distinct.sublist (List.filter_sublist.map _)

/-- What can be asked for as a registry or a component post-processor is one by its kind. -/
theorem namesFor_eq_makers (c : Container κ ι) {family : PostProcessor} (hf : family ≠ .factory) :
    c.namesFor (.postProcessor family) = (makers c family).map Prod.fst := by
  unfold Container.namesFor makers
  congr 2
  funext e
  show e.2.kind.declares _ = _
  cases family with
  | factory => exact absurd rfl hf
  | registry => rcases e.2.kind with _ | _ | _ | _ <;> rfl
  | component => rcases e.2.kind with _ | _ | _ | _ <;> rfl

/-- Sorting the candidates is sorting the definitions. -/
theorem keys_sort {batch : List (Candidate κ)} {chosen : List (String × Definition κ)}
    (cmp : Comparator)
    (h : batch.map (fun c => (c.name, c.precedence)) = chosen.map fun e => (e.1, standingOf e)) :
    (Candidate.sort cmp batch).map (fun c => (c.name, c.precedence)) =
      (sortBy cmp standingOf chosen).map fun e => (e.1, standingOf e) := calc
  _ = sortBy cmp Prod.snd (batch.map fun c => (c.name, c.precedence)) :=
    map_sortBy fun _ _ => rfl
  _ = sortBy cmp Prod.snd (chosen.map fun e => (e.1, standingOf e)) := by rw [h]
  _ = _ := (map_sortBy fun _ _ => rfl).symm

/-- What has been found and made: the names and standings of the definitions chosen, with the
    extensions there are under these names. -/
structure Found (s : State κ ι ω) (batch : List (Candidate κ))
    (chosen : List (String × Definition κ)) : Prop where
  keys : batch.map (fun c => (c.name, c.precedence)) = chosen.map fun e => (e.1, standingOf e)
  known : ∀ c ∈ batch, s.container.extensions.find? c.name = some c.handle

namespace Found

variable {s s' : State κ ι ω} {batch batch' : List (Candidate κ)}
  {chosen chosen' : List (String × Definition κ)}

theorem nil : Found s [] [] := ⟨rfl, fun _ h => absurd h List.not_mem_nil⟩

theorem cons {e : String × Definition κ} {h : Handle κ} (hf : Found s batch chosen)
    (hh : s.container.extensions.find? e.1 = some h) :
    Found s (⟨e.1, standingOf e, h⟩ :: batch) (e :: chosen) where
  keys := congrArg _ hf.keys
  known := List.forall_mem_cons.mpr ⟨hh, hf.known⟩

theorem append (h : Found s batch chosen) (h' : Found s batch' chosen') :
    Found s (batch ++ batch') (chosen ++ chosen') where
  keys := by rw [List.map_append, List.map_append, h.keys, h'.keys]
  known c hc := (List.mem_append.mp hc).elim (h.known c) (h'.known c)

theorem mono (h : Found s batch chosen) (keeps : ∀ ⦃name : String⦄ ⦃h : Handle κ⦄,
    s.container.extensions.find? name = some h → s'.container.extensions.find? name = some h) :
    Found s' batch chosen :=
  ⟨h.keys, fun c hc => keeps (h.known c hc)⟩

theorem names (h : Found s batch chosen) : batch.map Candidate.name = chosen.map Prod.fst := by
  have hfst := congrArg (List.map Prod.fst) h.keys
  rwa [List.map_map, List.map_map] at hfst

theorem sort (h : Found s batch chosen) (cmp : Comparator) :
    Found s (Candidate.sort cmp batch) (sortBy cmp standingOf chosen) where
  keys := keys_sort cmp h.keys
  known c hc := h.known c (mem_sortBy.mp hc)

end Found

/-- **A search finds and makes what is accepted and not dealt with**, in the order of the names. -/
theorem collectFrom_passive {accept : Precedence → Bool} {l : List (String × Definition κ)}
    {P : Processed} {s : State κ ι ω} (hr : Ready s)
    (hl : ∀ e ∈ l, s.container.definitions.find? e.1 = some e.2 ∧
      e.2.kind = .postProcessor .registry) (hnd : (l.map Prod.fst).Nodup)
    (asks : Asks (serve b depth view) (Passive b depth view)
      (collectFrom accept (l.map Prod.fst)) P s) :
    ∃ batch P' s', Yields (serve b depth view) (collectFrom accept (l.map Prod.fst)) P s batch
      P' s' ∧ Quiet s s' ∧
      Found s' batch (l.filter fun e => !P.contains e.1 && accept (standingOf e)) := by
  induction l generalizing P s with
  | nil => exact ⟨[], P, s, rfl, .refl s, .nil⟩
  | cons e l ih =>
      obtain ⟨⟨hd, hk⟩, hrest⟩ := List.forall_mem_cons.mp hl
      obtain ⟨hnew, hnd⟩ := List.nodup_cons.mp hnd
      have known : Yields (serve b depth view) (standing e.1) P s (standingOf e) P s :=
        standing_known hd
      have asks₁ := (Asks.right asks known).right (result_get P s)
      have hkeep : (!P.contains e.1 && accept (standingOf e)) =
          !(P.contains e.1 || !accept (standingOf e)) := by rw [Bool.not_or, Bool.not_not]
      by_cases hskip : (P.contains e.1 || !accept (standingOf e)) = true
      · rw [if_pos hskip] at asks₁
        obtain ⟨batch, P', s', y, q, found⟩ := ih hr hrest hnd asks₁
        refine ⟨batch, P', s', known.bind (Yields.bind (result_get P s) ?_), q, ?_⟩
        · rw [if_pos hskip]
          exact y
        · rw [List.filter_cons_of_neg (by rw [hkeep, hskip]; decide)]
          exact found
      · rw [if_neg hskip] at asks₁
        obtain ⟨h, s₁, y₁, q₁, hh⟩ := extensionOf_passive hr hd hk asks₁.left
        have asks₂ := (asks₁.right y₁).right (result_modify (·.insert e.1) P s₁)
        obtain ⟨batch, P', s', y, q, found⟩ := ih (q₁.ready hr)
          (fun e' he' => q₁.definitions ▸ hrest e' he') hnd asks₂.left
        refine ⟨⟨e.1, standingOf e, h⟩ :: batch, P', s', known.bind (Yields.bind (result_get P s) ?_),
          q₁.trans q, ?_⟩
        · rw [if_neg hskip]
          exact y₁.bind (Yields.bind (result_modify (·.insert e.1) P s₁) (y.bind rfl))
        · have hsame : l.filter (fun e' => !(P.insert e.1).contains e'.1 && accept (standingOf e')) =
              l.filter fun e' => !P.contains e'.1 && accept (standingOf e') :=
            List.filter_congr fun e' he' => by
              have hne : e'.1 ≠ e.1 := fun heq => hnew (heq ▸ List.mem_map_of_mem he')
              rw [P.contains_insert_of_ne hne]
          rw [List.filter_cons_of_pos (by rw [hkeep, Bool.eq_false_iff.mpr hskip]; rfl), ← hsame]
          exact found.cons (q.keeps hh)

/-! ## 4. Phases 2 to 4 -/

/-- Dealt with are those registry post-processors whose standing passes a test, and no other name. -/
structure Dealt (c : Container κ ι) (P : Processed) (test : Precedence → Bool) : Prop where
  tested : ∀ e ∈ makers c .registry, P.contains e.1 = test (standingOf e)
  within : P.names ⊆ (makers c .registry).map Prod.fst

/-- Those whose standing does not pass a first test and passes a second, in their order. -/
def chosen (cmp : Comparator) (c : Container κ ι) (test accept : Precedence → Bool) :
    List (String × Definition κ) :=
  sortBy cmp standingOf
    ((makers c .registry).filter fun e => !test (standingOf e) && accept (standingOf e))

theorem mem_chosen {cmp : Comparator} {c : Container κ ι} {test accept : Precedence → Bool}
    {e : String × Definition κ} (he : e ∈ makers c .registry) :
    e.1 ∈ (chosen cmp c test accept).map Prod.fst ↔
      (!test (standingOf e) && accept (standingOf e)) = true := by
  constructor
  · intro hm
    obtain ⟨e', he', heq⟩ := List.mem_map.mp hm
    obtain ⟨hmem, hkeep⟩ := List.mem_filter.mp (mem_sortBy.mp he')
    have hfind := (find?_of_mem_makers hmem).1
    rw [heq, (find?_of_mem_makers he).1, Option.some.injEq] at hfind
    rwa [show e' = e from Prod.ext heq hfind.symm] at hkeep
  · exact fun hkeep => List.mem_map_of_mem (mem_sortBy.mpr (List.mem_filter.mpr ⟨he, hkeep⟩))

namespace Dealt

variable {c c' : Container κ ι} {P P' : Processed} {test test' accept : Precedence → Bool}

theorem empty (c : Container κ ι) : Dealt c .empty fun _ => false :=
  ⟨fun _ _ => rfl, List.nil_subset _⟩

theorem congr (h : Dealt c P test) (hc : makers c' .registry = makers c .registry)
    (htest : ∀ p, test' p = test p) : Dealt c' P test' where
  tested e he := (h.tested e (hc ▸ he)).trans (htest _).symm
  within := hc ▸ h.within

theorem of_names (cmp : Comparator) (h : Dealt c P test)
    (hP : ∀ n, n ∈ P'.names ↔ n ∈ P.names ∨ n ∈ (chosen cmp c test accept).map Prod.fst) :
    Dealt c P' fun p => test p || accept p where
  tested e he := by
    rw [Bool.eq_iff_iff, P'.contains_iff, hP, mem_chosen he, ← P.contains_iff, h.tested e he]
    cases test (standingOf e) <;> simp
  within n hn := by
    rcases (hP n).mp hn with hn | hn
    · exact h.within hn
    · obtain ⟨e, he, rfl⟩ := List.mem_map.mp hn
      exact List.mem_map_of_mem (List.mem_filter.mp (mem_sortBy.mp he)).1

end Dealt

section Registry

variable {s : State κ ι ω} {P : Processed} {cmp : Comparator} {test accept : Precedence → Bool}

theorem collect_passive (hr : Ready s) (dealt : Dealt s.container P test)
    (asks : Asks (serve b depth view) (Passive b depth view) (collect cmp accept) P s) :
    ∃ batch P' s', Yields (serve b depth view) (collect cmp accept) P s batch P' s' ∧
      Quiet s s' ∧ Found s' batch (chosen cmp s.container test accept) ∧
      Dealt s.container P' fun p => test p || accept p := by
  have names : Yields (serve b depth view) (namesFor .registry) P s
      ((makers s.container .registry).map Prod.fst) P s := by
    rw [← namesFor_eq_makers _ (by decide)]
    exact Yields.ask (serve_namesFor b depth view s _)
  obtain ⟨batch, P', s', y, quiet, found⟩ := collectFrom_passive hr
    (fun e he => find?_of_mem_makers he) (nodup_makers _ _) (Asks.right asks names).left
  have hchosen : (makers s.container .registry).filter
      (fun e => !P.contains e.1 && accept (standingOf e)) =
        (makers s.container .registry).filter
          fun e => !test (standingOf e) && accept (standingOf e) :=
    List.filter_congr fun e he => by rw [dealt.tested e he]
  have yields : Yields (serve b depth view) (collect cmp accept) P s (Candidate.sort cmp batch)
      P' s' := names.bind (y.bind rfl)
  have hfound : Found s' (Candidate.sort cmp batch) (chosen cmp s.container test accept) :=
    (hchosen ▸ found).sort cmp
  refine ⟨_, P', s', yields, quiet, hfound, dealt.of_names cmp fun n => ?_⟩
  rw [← hfound.names]
  exact (collect_returns ⟨yields, rfl⟩).1 n

/-- **A phase runs the registry hooks of all that is accepted and not dealt with.** -/
theorem registryPhase_passive (hr : Ready s) (dealt : Dealt s.container P test)
    (asks : Asks (serve b depth view) (Passive b depth view) (registryPhase cmp accept) P s) :
    ∃ batch P' s', Yields (serve b depth view) (registryPhase cmp accept) P s batch P' s' ∧
      Quiet s s' ∧ Found s' batch (chosen cmp s.container test accept) ∧
      Dealt s.container P' fun p => test p || accept p := by
  obtain ⟨batch, P', s₁, y₁, q₁, found, dealt'⟩ := collect_passive hr dealt (Asks.left asks)
  obtain ⟨s', y₂, q₂⟩ := runRegistryHooks_passive (Asks.right asks y₁).left
  exact ⟨batch, P', s', y₁.bind (y₂.bind rfl), q₁.trans q₂, found.mono q₂.keeps, dealt'⟩

/-- A pass of phase 4 that finds nothing. -/
theorem pass_passive_nil {limit : Option Nat} {done : Nat} (hr : Ready s)
    (dealt : Dealt s.container P test) (hnil : chosen cmp s.container test (fun _ => true) = [])
    (asks : Asks (serve b depth view) (Passive b depth view) (pass cmp limit done) P s) :
    ∃ P' s', Yields (serve b depth view) (pass cmp limit done) P s none P' s' ∧ Quiet s s' ∧
      Dealt s.container P' fun _ => true := by
  obtain ⟨batch, P', s', y, quiet, found, dealt'⟩ := collect_passive hr dealt (Asks.left asks)
  have hbatch : batch = [] := by
    rw [hnil] at found
    exact List.map_eq_nil_iff.mp found.names
  refine ⟨P', s', y.bind ?_, quiet, dealt'.congr rfl fun _ => (Bool.or_true _).symm⟩
  rw [hbatch]
  rfl

/-- A pass of phase 4 that finds something and is allowed. -/
theorem pass_passive_some {limit : Option Nat} {done : Nat} (hr : Ready s)
    (dealt : Dealt s.container P test) (hsome : chosen cmp s.container test (fun _ => true) ≠ [])
    (allowed : ensureAllowed limit done = .ok ())
    (asks : Asks (serve b depth view) (Passive b depth view) (pass cmp limit done) P s) :
    ∃ batch P' s', Yields (serve b depth view) (pass cmp limit done) P s (some batch) P' s' ∧
      Quiet s s' ∧ Found s' batch (chosen cmp s.container test fun _ => true) ∧
      Dealt s.container P' fun _ => true := by
  obtain ⟨batch, P', s₁, y₁, q₁, found, dealt'⟩ := collect_passive hr dealt (Asks.left asks)
  have hbatch : ¬ batch.isEmpty = true := by
    intro hempty
    have hnames := found.names
    rw [List.isEmpty_iff.mp hempty] at hnames
    exact hsome (List.map_eq_nil_iff.mp hnames.symm)
  have asks₁ := Asks.right asks y₁
  rw [if_neg hbatch] at asks₁
  have y₂ : Yields (serve b depth view) (demand (pure (ensureAllowed limit done))) P' s₁ () P' s₁ :=
    Yields.demand (by rw [allowed]; rfl)
  have asks₂ := asks₁.right y₂
  obtain ⟨s₃, y₃, q₃⟩ := announce_passive b depth view s₁ P' (.registryPass (done + 1) batch.length)
  obtain ⟨s₄, y₄, q₄⟩ := runRegistryHooks_passive (asks₂.right y₃).left
  refine ⟨batch, P', s₄, y₁.bind ?_, q₁.trans (q₃.trans q₄), found.mono (q₃.trans q₄).keeps,
    dealt'.congr rfl fun _ => (Bool.or_true _).symm⟩
  rw [if_neg hbatch]
  exact y₂.bind (y₃.bind (y₄.bind rfl))

/-- The number of passes that find something. -/
def passesNeeded (cmp : Comparator) (c : Container κ ι) (test : Precedence → Bool) : Nat :=
  if (chosen cmp c test fun _ => true).isEmpty then 0 else 1

/-- **The first pass of phase 4 finds the rest, and the second finds nothing.** -/
theorem passes_passive {limit : Option Nat} {patience : Nat} (hr : Ready s)
    (dealt : Dealt s.container P test) (allowed : ensureAllowed limit 0 = .ok ())
    (asks : Asks (serve b depth view) (Passive b depth view)
      (passes cmp limit (patience + 2) 0) P s) :
    ∃ batch P' s', Yields (serve b depth view) (passes cmp limit (patience + 2) 0) P s
      (passesNeeded cmp s.container test, batch) P' s' ∧ Quiet s s' ∧
      Found s' batch (chosen cmp s.container test fun _ => true) ∧
      Dealt s.container P' fun _ => true := by
  rw [passes_succ] at asks ⊢
  unfold passesNeeded
  by_cases hnil : chosen cmp s.container test (fun _ => true) = []
  · obtain ⟨P', s', y, q, dealt'⟩ := pass_passive_nil hr dealt hnil asks.left
    refine ⟨[], P', s', y.bind ?_, q, ?_, dealt'⟩
    · rw [hnil]
      rfl
    · rw [hnil]
      exact .nil
  · obtain ⟨batch, P₁, s₁, y₁, q₁, found, dealt₁⟩ :=
      pass_passive_some hr dealt hnil allowed asks.left
    have asks₁ := (asks.right y₁).left
    rw [passes_succ] at asks₁
    have hnone : chosen cmp s₁.container (fun _ => true) (fun _ => true) = [] := by
      unfold chosen
      rw [List.filter_eq_nil_iff.mpr (by simp)]
      exact List.mergeSort_nil
    obtain ⟨P₂, s₂, y₂, q₂, dealt₂⟩ := pass_passive_nil (q₁.ready hr)
      (dealt₁.congr (q₁.makers _) fun _ => rfl) hnone asks₁.left
    have others : Yields (serve b depth view) (passes cmp limit (patience + 1) (0 + 1)) P₁ s₁
        (1, []) P₂ s₂ := by
      rw [passes_succ]
      exact y₂.bind rfl
    refine ⟨batch, P₂, s₂, y₁.bind (others.bind ?_), q₁.trans q₂, found.mono q₂.keeps,
      dealt₂.congr (q₁.makers _).symm fun _ => rfl⟩
    rw [if_neg (by simpa using hnil), List.append_nil]
    rfl

end Registry

/-! ## 5. Phase 6 -/

/-- The factory post-processors that were not dealt with are those by their kind. -/
theorem undealt_factory {c : Container κ ι} {P : Processed} (dealt : Dealt c P fun _ => true) :
    (c.namesFor (.postProcessor .factory)).filter (!P.contains ·) =
      (makers c .factory).map Prod.fst := by
  unfold Container.namesFor makers
  rw [List.filter_map, List.filter_filter]
  congr 1
  refine List.filter_congr fun e he => ?_
  have hfind : c.definitions.find? e.1 = some e.2 := (Table.find?_eq_some_iff _ _ _).mpr he
  show (!P.contains e.1 && e.2.kind.declares (.postProcessor .factory)) = _
  cases hk : e.2.kind with
  | component => exact Bool.and_false _
  | postProcessor family =>
      cases family with
      | component => exact Bool.and_false _
      | registry =>
          rw [dealt.tested e (List.mem_filter.mpr ⟨he, decide_eq_true hk⟩)]
          rfl
      | factory =>
          have hnew : ¬ P.contains e.1 = true := by
            intro hm
            obtain ⟨e', he', heq⟩ := List.mem_map.mp (dealt.within ((P.contains_iff _).mp hm))
            obtain ⟨hfind', hk'⟩ := find?_of_mem_makers he'
            rw [heq, hfind, Option.some.injEq] at hfind'
            rw [← hfind', hk] at hk'
            cases hk'
          rw [Bool.eq_false_iff.mpr hnew]
          rfl

section Factory

variable {s : State κ ι ω} {P : Processed}

theorem mapM_standing {l : List (String × Definition κ)}
    (hl : ∀ e ∈ l, s.container.definitions.find? e.1 = some e.2) :
    Yields (serve b depth view)
      ((l.map Prod.fst).mapM fun name => return (name, (← standing name).tier)) P s
      (l.map fun e => (e.1, (standingOf e).tier)) P s := by
  induction l with
  | nil =>
      rw [List.map_nil, List.mapM_nil]
      rfl
  | cons e l ih =>
      obtain ⟨hd, hl⟩ := List.forall_mem_cons.mp hl
      rw [List.map_cons, List.mapM_cons]
      exact Yields.bind (Yields.bind (standing_known hd) rfl) (Yields.bind (ih hl) rfl)

/-- Phase 6 finds the factory post-processors, with the groups they are in. -/
theorem remaining_passive (dealt : Dealt s.container P fun _ => true) :
    Yields (serve b depth view) remaining P s
      ((makers s.container .factory).map fun e => (e.1, (standingOf e).tier)) P s := by
  have names : Yields (serve b depth view) (namesFor .factory) P s
      (s.container.namesFor (.postProcessor .factory)) P s :=
    Yields.ask (serve_namesFor b depth view s _)
  refine names.bind (Yields.bind (result_get P s) ?_)
  rw [undealt_factory dealt]
  exact mapM_standing fun e he => (find?_of_mem_makers he).1

theorem inTier_map (tier : Tier) (l : List (String × Definition κ)) :
    inTier tier (l.map fun e => (e.1, (standingOf e).tier)) =
      (l.filter fun e => (standingOf e).tier == tier).map Prod.fst := by
  unfold inTier
  rw [List.filter_map, List.map_map]
  rfl

theorem makeGroup_passive {l : List (String × Definition κ)} (hr : Ready s)
    (hl : ∀ e ∈ l, s.container.definitions.find? e.1 = some e.2 ∧
      e.2.kind = .postProcessor .factory)
    (asks : Asks (serve b depth view) (Passive b depth view) (makeGroup (l.map Prod.fst)) P s) :
    ∃ group s', Yields (serve b depth view) (makeGroup (l.map Prod.fst)) P s group P s' ∧
      Quiet s s' ∧ Found s' group l := by
  unfold makeGroup at asks ⊢
  induction l generalizing s with
  | nil =>
      rw [List.map_nil, List.mapM_nil]
      exact ⟨[], s, rfl, .refl s, .nil⟩
  | cons e l ih =>
      obtain ⟨⟨hd, hk⟩, hl⟩ := List.forall_mem_cons.mp hl
      rw [List.map_cons, List.mapM_cons] at asks ⊢
      obtain ⟨h, s₁, y₁, q₁, hh⟩ := extension_passive hr hd hk (declares_of_kind hk) asks.left.left
      have known : Yields (serve b depth view) (standing e.1) P s₁ (standingOf e) P s₁ :=
        standing_known (q₁.definitions ▸ hd)
      have made : Yields (serve b depth view) (do
          let handle ← extension e.1 (.postProcessor .factory)
          return (⟨e.1, ← standing e.1, handle⟩ : Candidate κ)) P s ⟨e.1, standingOf e, h⟩ P s₁ :=
        y₁.bind (known.bind rfl)
      obtain ⟨group, s₂, y₂, q₂, found⟩ := ih (q₁.ready hr)
        (fun e' he' => q₁.definitions ▸ hl e' he') (asks.right made).left
      exact ⟨_, s₂, made.bind (y₂.bind rfl), q₁.trans q₂, found.cons (q₂.keeps hh)⟩

end Factory

end ComponentContainer.Bootstrap
