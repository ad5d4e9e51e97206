/-
  File:      ComponentContainer/Proofs/Sightings.lean
  Subject:   What the hooks after the initialization see, and what is noted of it.

  * `Extension.noting` -- what an extension notes of a creation it sees.
  * `sights` -- what hooks after the initialization have seen, read off the history; `seenBy` -- what
    one extension has seen of it; `finished` -- the creations of the components that were made.
  * `Sees` -- the hooks around the making of a component, with what those after the initialization
    see, and what each watcher notes; `passThrough_sees` -- **a component that passes through the
    chain is seen by all in it**, or up to the hook that fails.
  * `Tells` -- what a tick tells of components and of the chain.
  * `Grown` -- no identity leaves the chain, and what passes through it is told how long it is;
    `Story.grown` -- **that is so in all stories**, by induction over ticks.
-/
import ComponentContainer.Proofs.Story
import Mathlib.Data.List.Nodup
import Mathlib.Data.List.Perm.Subperm

namespace ComponentContainer

variable {κ ι ω α : Type}

/-! ## 1. Sights -/

/-- What a hook after the initialization sees. -/
def Event.sight? : Event κ ι → Option (Extension κ × Creation κ)
  | .sawAfter e creation _ => some (e, creation)
  | _ => none

/-- The watcher for completeness of that identity. -/
abbrev watcher (id target : Nat) : Extension κ := ⟨id, .completeness target⟩

/-- What an extension has noted once its hook after the initialization has seen a creation. -/
def Extension.noting (e : Extension κ) (noted : List String) (creation : Creation κ) : List String :=
  match e.body with
  | .custom _ => noted
  | .completeness target =>
    if creation.isPremature target then noted ++ [creation.name] else noted
  | .listeners =>
    if creation.isListener && !noted.contains creation.name then noted ++ [creation.name]
    else noted

namespace Container

open Act Attempt Relation

/-- What hooks after the initialization have seen, in order. -/
def sights (events : List (Event κ ι)) : List (Extension κ × Creation κ) :=
  (events.filterMap Event.sight?).reverse

/-- What the extension of that identity has seen, in order. -/
def seenBy (id : Nat) (seen : List (Extension κ × Creation κ)) : List (Creation κ) :=
  (seen.filter (·.1.id == id)).map Prod.snd

/-- The names of what is premature. -/
def premature (target : Nat) (seen : List (Creation κ)) : List String :=
  (seen.filter (·.isPremature target)).map Creation.name

/-- The creations of the components that have been made, in order; for a component is made when the
    last hook after its initialization is done. -/
def finished : List (Event κ ι) → List (Creation κ)
  | [] => []
  | .madeComponent _ _ :: earlier =>
    finished earlier ++ ((sights earlier).getLast?.map Prod.snd).toList
  | _ :: earlier => finished earlier

section Lists

variable {later earlier : List (Event κ ι)}

theorem sights_append (later earlier : List (Event κ ι)) :
    sights (later ++ earlier) = sights earlier ++ sights later := by
  unfold sights
  rw [List.filterMap_append, List.reverse_append]

theorem seenBy_append (id : Nat) (seen seen' : List (Extension κ × Creation κ)) :
    seenBy id (seen ++ seen') = seenBy id seen ++ seenBy id seen' := by
  unfold seenBy
  rw [List.filter_append, List.map_append]

theorem premature_append (target : Nat) (seen seen' : List (Creation κ)) :
    premature target (seen ++ seen') = premature target seen ++ premature target seen' := by
  unfold premature
  rw [List.filter_append, List.map_append]

theorem premature_single (target : Nat) (creation : Creation κ) :
    premature target [creation] =
      if creation.isPremature target = true then [creation.name] else [] := by
  unfold premature
  by_cases early : creation.isPremature target = true
  · simp [early]
  · simp [early]

/-- The watcher for completeness notes what is premature. -/
theorem noting_watcher (id target : Nat) (noted : List String) (creation : Creation κ) :
    (watcher id target).noting noted creation = noted ++ premature target [creation] := by
  rw [premature_single]
  by_cases early : creation.isPremature target = true
  · simp [Extension.noting, early]
  · simp [Extension.noting, early]

theorem mem_sights {events : List (Event κ ι)} {e : Extension κ} {creation : Creation κ} :
    (e, creation) ∈ sights events ↔ ∃ value, .sawAfter e creation value ∈ events := by
  unfold sights
  rw [List.mem_reverse, List.mem_filterMap]
  constructor
  · rintro ⟨event, mem, sight⟩
    cases event with
    | sawAfter e' creation' value =>
        cases sight
        exact ⟨value, mem⟩
    | _ => cases sight
  · rintro ⟨value, mem⟩
    exact ⟨_, mem, rfl⟩

theorem mem_seenBy {id : Nat} {seen : List (Extension κ × Creation κ)} {creation : Creation κ} :
    creation ∈ seenBy id seen ↔ ∃ e, e.id = id ∧ (e, creation) ∈ seen := by
  unfold seenBy
  constructor
  · intro mem
    obtain ⟨⟨e, _⟩, found, rfl⟩ := List.mem_map.mp mem
    obtain ⟨there, own⟩ := List.mem_filter.mp found
    exact ⟨e, beq_iff_eq.mp own, there⟩
  · rintro ⟨e, own, mem⟩
    exact List.mem_map.mpr ⟨_, List.mem_filter.mpr ⟨mem, beq_iff_eq.mpr own⟩, rfl⟩

/-- What is seen of one creation. -/
theorem eq_of_mem_alone {seen : List (Extension κ)} {creation : Creation κ}
    {x : Extension κ × Creation κ} (mem : x ∈ seen.map (·, creation)) : x.2 = creation := by
  obtain ⟨e, -, rfl⟩ := List.mem_map.mp mem
  rfl

/-- Where nothing is made, nothing is finished. -/
theorem finished_append (unmade : madeNames later = []) :
    finished (later ++ earlier) = finished earlier := by
  induction later with
  | nil => rfl
  | cons event later ih =>
      cases event with
      | madeComponent name value => cases unmade
      | _ => exact ih unmade

end Lists

/-! ## 2. The hooks around the making of a component -/

section Passing

variable {b : Behaviour κ ι ω} {e : Extension κ} {creation : Creation κ} {m : MergedDefinition κ}
  {name : String} {events : List (Event κ ι)} {s s' : State κ ι ω}

/-- **The hooks around the making of a component have run.** Those after the initialization have seen
    what is listed, and each watcher for completeness among them has noted what is premature. -/
structure Sees (seen : List (Extension κ × Creation κ)) (events : List (Event κ ι))
    (s s' : State κ ι ω) : Prop where
  past : s'.history = events ++ s.history
  sight : sights events = seen
  unmade : madeNames events = []
  noted {id target : Nat} (single : ∀ x ∈ seen, x.1.id = id → x.1 = watcher id target) :
    s'.noted id = s.noted id ++ premature target (seenBy id seen)

/-- Hooks have run, but none after the initialization. -/
def Unseen (s s' : State κ ι ω) : Prop := ∃ events, Sees [] events s s'

namespace Sees

variable {seen seen' : List (Extension κ × Creation κ)} {events' : List (Event κ ι)}
  {s'' : State κ ι ω}

theorem refl (s : State κ ι ω) : Sees [] [] s s := ⟨rfl, rfl, rfl, fun _ => (List.append_nil _).symm⟩

theorem trans (h₁ : Sees seen events s s') (h₂ : Sees seen' events' s' s'') :
    Sees (seen ++ seen') (events' ++ events) s s'' where
  past := by rw [h₂.past, h₁.past, List.append_assoc]
  sight := by rw [sights_append, h₁.sight, h₂.sight]
  unmade := by
    rw [madeNames_append, h₁.unmade, h₂.unmade]
    rfl
  noted single := by
    obtain ⟨first, second⟩ := List.forall_mem_append.mp single
    rw [h₂.noted second, h₁.noted first, seenBy_append, premature_append, List.append_assoc]

theorem unseen (past : s'.history = events ++ s.history) (sight : sights events = [])
    (unmade : madeNames events = []) (notes : s'.notes = s.notes) : Sees [] events s s' where
  past := past
  sight := sight
  unmade := unmade
  noted _ := by
    unfold State.noted
    rw [notes]
    exact (List.append_nil _).symm

/-- One hook after the initialization: the watcher notes what is premature, and what others note is
    none of its business. -/
theorem one (past : s'.history = events ++ s.history) (sight : sights events = [(e, creation)])
    (unmade : madeNames events = [])
    (own : ∀ id target, e = watcher id target →
      s'.noted id = s.noted id ++ premature target [creation])
    (other : ∀ id, e.id ≠ id → s'.noted id = s.noted id) : Sees [(e, creation)] events s s' where
  past := past
  sight := sight
  unmade := unmade
  noted {id target} single := by
    by_cases h : e.id = id
    · have same : seenBy id [(e, creation)] = [creation] := by simp [seenBy, h]
      rw [same]
      exact own id target (single _ (List.mem_singleton_self _) h)
    · have none : seenBy id [(e, creation)] = [] := by simp [seenBy, h]
      rw [none, other id h]
      exact (List.append_nil _).symm

end Sees

namespace Unseen

variable {s'' : State κ ι ω}

theorem refl (s : State κ ι ω) : Unseen s s := ⟨[], .refl s⟩

theorem trans (h₁ : Unseen s s') (h₂ : Unseen s' s'') : Unseen s s'' := by
  obtain ⟨events₁, h₁⟩ := h₁
  obtain ⟨events₂, h₂⟩ := h₂
  exact ⟨_, h₁.trans h₂⟩

end Unseen

theorem seeMerged_unseen (e : Extension κ) : Within Unseen (Extension.seeMerged b m name e) := by
  intro s r s' h
  unfold Extension.seeMerged at h
  rw [outcome_perform_bind (run_record _ s)] at h
  obtain ⟨id, body⟩ := e
  cases body <;> cases h <;> exact ⟨[.sawMerged _ name], .unseen rfl rfl rfl rfl⟩

theorem seeBefore_unseen (value : ι) (e : Extension κ) :
    Within Unseen (Extension.seeBefore b creation value e) := by
  intro s r s' h
  unfold Extension.seeBefore at h
  rw [outcome_perform_bind (run_record _ s)] at h
  obtain ⟨id, body⟩ := e
  cases body <;> cases h <;> exact ⟨[.sawBefore _ creation value], .unseen rfl rfl rfl rfl⟩

theorem showTo_unseen (es : List (Extension κ)) : Within Unseen (showTo b name m es) :=
  .forM .refl .trans fun e _ => seeMerged_unseen e

theorem passBefore_unseen (es : List (Extension κ)) (value : ι) :
    Within Unseen (passBefore b creation es value) :=
  .foldlM .refl .trans (fun e _ value => seeBefore_unseen value e) value

theorem noted_note (s : State κ ι ω) (other id : Nat) (name : String) :
    State.noted { s with notes := s.notes ++ [(other, name)] } id =
      s.noted id ++ if other = id then [name] else [] := by
  unfold State.noted
  rw [List.filter_append, List.map_append]
  by_cases own : other = id
  · simp [own]
  · simp [own]

/-- **One hook after the initialization**: its extension has seen the component, and has noted what
    it has to. -/
theorem seeAfter_notes {value : ι} {r : Except Failure ι}
    (h : outcome (Extension.seeAfter b creation value e) s = some (r, s')) :
    ∃ events, s'.history = events ++ s.history ∧ sights events = [(e, creation)] ∧
      madeNames events = [] ∧
      ∀ id, s'.noted id = if e.id = id then e.noting (s.noted id) creation else s.noted id := by
  unfold Extension.seeAfter at h
  rw [outcome_perform_bind (run_record _ s)] at h
  obtain ⟨eid, body⟩ := e
  cases body with
  | custom code =>
      cases h
      exact ⟨[.sawAfter _ creation value], rfl, rfl, rfl, fun id => (ite_self _).symm⟩
  | completeness target =>
      replace h : outcome (if creation.isPremature target = true then _ else _) _ = some (r, s') := h
      by_cases early : creation.isPremature target = true
      · rw [if_pos early] at h
        cases h
        refine ⟨[.announced _, .sawAfter _ creation value], rfl, rfl, rfl, fun id => ?_⟩
        refine (noted_note _ _ _ _).trans ?_
        simp only [Extension.noting, early, if_true]
        split
        · rfl
        · exact List.append_nil _
      · rw [if_neg early] at h
        cases h
        refine ⟨[.sawAfter _ creation value], rfl, rfl, rfl, fun id => ?_⟩
        simp only [Extension.noting, early]
        exact (ite_self _).symm
  | listeners =>
      rw [outcome_perform_bind (x := _) rfl] at h
      replace h : outcome (if (creation.isListener && !(s.noted eid).contains creation.name) = true
        then _ else _) _ = some (r, s') := h
      by_cases new : (creation.isListener && !(s.noted eid).contains creation.name) = true
      · rw [if_pos new] at h
        cases h
        refine ⟨[.announced _, .sawAfter _ creation value], rfl, rfl, rfl, fun id => ?_⟩
        refine (noted_note _ _ _ _).trans ?_
        split
        next own =>
          subst own
          simp only [Extension.noting, new, if_true]
          rfl
        next => exact List.append_nil _
      · rw [if_neg new] at h
        cases h
        refine ⟨[.sawAfter _ creation value], rfl, rfl, rfl, fun id => ?_⟩
        split
        next own =>
          subst own
          simp only [Extension.noting, new]
          rfl
        next => rfl

theorem seeAfter_sees {value : ι} {r : Except Failure ι}
    (h : outcome (Extension.seeAfter b creation value e) s = some (r, s')) :
    ∃ events, Sees [(e, creation)] events s s' := by
  obtain ⟨events, past, sight, unmade, notes⟩ := seeAfter_notes h
  refine ⟨events, .one past sight unmade (fun id target own => ?_) fun id other => ?_⟩
  · subst own
    rw [notes, if_pos rfl, noting_watcher]
  · rw [notes, if_neg other]

/-- The hooks after the initialization see the component one after another, all of them unless one
    fails. -/
theorem passAfter_sees {es : List (Extension κ)} {value : ι} {r : Except Failure ι}
    (h : outcome (passAfter b creation es value) s = some (r, s')) :
    ∃ seen events, seen <+: es ∧ Sees (seen.map (·, creation)) events s s' ∧
      ∀ passed, r = .ok passed → seen = es := by
  induction es generalizing s value with
  | nil =>
      cases h
      exact ⟨[], [], List.prefix_rfl, .refl _, fun _ _ => rfl⟩
  | cons e es ih =>
      unfold passAfter at h
      rw [List.foldlM_cons, outcome_bind] at h
      rcases hook : outcome (Extension.seeAfter b creation value e) s with _ | ⟨failure | a, s₁⟩
      · rw [hook] at h
        cases h
      · rw [hook] at h
        cases h
        obtain ⟨events, sees⟩ := seeAfter_sees hook
        refine ⟨[e], events, List.prefix_append [e] es, sees, fun _ ok => ?_⟩
        cases ok
      · rw [hook] at h
        obtain ⟨events, sees⟩ := seeAfter_sees hook
        obtain ⟨seen, events', part, others, all⟩ := ih h
        refine ⟨e :: seen, _, (List.prefix_cons_inj e).mpr part, sees.trans others,
          fun passed ok => ?_⟩
        rw [all passed ok]

/-- **A component that passes through the chain is seen by all in it**, or up to the hook that
    fails. -/
theorem passThrough_sees {t : State κ ι ω} {value : ι} {r : Except Failure ι}
    (h : outcome (passThrough b t name m value) s = some (r, s')) :
    ∃ seen events, seen <+: t.container.chain ∧
      Sees (seen.map (·, creationOf t name m)) events s s' ∧
      ∀ passed, r = .ok passed → seen = t.container.chain := by
  unfold passThrough at h
  rw [outcome_bind] at h
  rcases before : outcome (passBefore b (creationOf t name m) t.container.chain value) s with
    _ | ⟨failure | a, s₁⟩
  · rw [before] at h
    cases h
  · rw [before] at h
    cases h
    obtain ⟨events, unseen⟩ := passBefore_unseen _ _ before
    refine ⟨[], events, List.nil_prefix, unseen, fun _ ok => ?_⟩
    cases ok
  · rw [before] at h
    obtain ⟨events, unseen⟩ := passBefore_unseen _ _ before
    obtain ⟨seen, events', part, sees, all⟩ := passAfter_sees h
    exact ⟨seen, _, part, unseen.trans sees, all⟩

end Passing

/-! ## 3. What a tick tells -/

section Ticks

variable {b : Behaviour κ ι ω} {hitch : Prop} {s s' : State κ ι ω}

/-- **What a tick tells of components and of the chain**: nothing; that an extension has joined; that
    a component has passed through the chain as it was, and is made; or that it was spoilt there. -/
inductive Tells (b : Behaviour κ ι ω) (hitch : Prop) (s : State κ ι ω) :
    State κ ι ω → List (Event κ ι) → Prop
  | nothing {s' : State κ ι ω} {events : List (Event κ ι)} (sees : Sees [] events s s')
      (chain : s'.container.chain = s.container.chain) : Tells b hitch s s' events
  | joined {s' : State κ ι ω} (e : Extension κ) (sees : Sees [] [.attached e] s s')
      (chain : s'.container.chain = (s.container.attach e).chain) : Tells b hitch s s' [.attached e]
  | made {s₁ : State κ ι ω} {events : List (Event κ ι)} (creation : Creation κ)
      (m : MergedDefinition κ) (value : ι) (told : creation.definition = some m)
      (arisen : Arisen b creation.name m value (madeComponent s₁ creation.name value))
      (length : creation.chainLength = s.container.chain.length)
      (sees : Sees (s.container.chain.map (·, creation)) events s s₁)
      (chain : s₁.container.chain = s.container.chain) :
      Tells b hitch s (madeComponent s₁ creation.name value)
        (.madeComponent creation.name value :: .ended creation.name :: events)
  | spoilt {s' : State κ ι ω} {events : List (Event κ ι)} {seen : List (Extension κ)} (hook : hitch)
      (creation : Creation κ) (length : creation.chainLength = s.container.chain.length)
      (part : seen <+: s.container.chain) (sees : Sees (seen.map (·, creation)) events s s')
      (chain : s'.container.chain = s.container.chain) : Tells b hitch s s' events

theorem Step.tells (h : Step s s') : ∃ events, Tells b hitch s s' events := by
  cases h with
  | announced n => exact ⟨[_], .nothing (.unseen rfl rfl rfl rfl) rfl⟩
  | registryHook e => exact ⟨[_], .nothing (.unseen rfl rfl rfl rfl) rfl⟩
  | factoryHook e => exact ⟨[_], .nothing (.unseen rfl rfl rfl rfl) rfl⟩
  | registered h =>
      refine ⟨[_], .nothing (.unseen rfl rfl rfl rfl) ?_⟩
      obtain ⟨-, rfl⟩ | rfl := register_cases h
      · rfl
      · rfl
  | removed h =>
      refine ⟨[_], .nothing (.unseen rfl rfl rfl rfl) ?_⟩
      rw [remove_eq h]
      rfl
  | edited h => exact ⟨[_], .nothing (.unseen rfl rfl rfl rfl) rfl⟩
  | world w => exact ⟨[], .nothing (.unseen rfl rfl rfl rfl) rfl⟩
  | numbered => exact ⟨[], .nothing (.unseen rfl rfl rfl rfl) rfl⟩
  | merged new h => exact ⟨[_], .nothing (.unseen rfl rfl rfl rfl) rfl⟩
  | attached e => exact ⟨_, .joined e (.unseen rfl rfl rfl rfl) rfl⟩
  | cleared => exact ⟨[], .nothing (.unseen rfl rfl rfl rfl) rfl⟩

theorem Tick.tells (tick : Tick b hitch s s') : ∃ events, Tells b hitch s s' events := by
  cases tick with
  | step h => exact h.tells
  | began name => exact ⟨[_], .nothing (.unseen rfl rfl rfl rfl) rfl⟩
  | shown run =>
      obtain ⟨events, sees⟩ := showTo_unseen _ run
      exact ⟨events, .nothing sees (congrArg _ (showTo_watches _ run).container)⟩
  | supplied name d => exact ⟨[_], .nothing (.unseen rfl rfl rfl rfl) rfl⟩
  | @passed s₁ name m value passed arisen run =>
      obtain ⟨seen, events, -, sees, all⟩ := passThrough_sees run
      obtain rfl := all passed rfl
      have chain := congrArg Container.chain (passThrough_watches _ _ run).container
      exact ⟨_, .made (creationOf s name m) m passed rfl arisen rfl sees chain⟩
  | spoilt hook run =>
      obtain ⟨seen, events, part, sees, -⟩ := passThrough_sees run
      have chain := congrArg Container.chain (passThrough_watches _ _ run).container
      exact ⟨events, .spoilt hook _ rfl part sees chain⟩
  | ended name => exact ⟨[_], .nothing (.unseen rfl rfl rfl rfl) rfl⟩
  | built name h => exact ⟨[_, _, _], .nothing (.unseen rfl rfl rfl rfl) rfl⟩

theorem Tells.past {events : List (Event κ ι)} (tells : Tells b hitch s s' events) :
    s'.history = events ++ s.history := by
  cases tells with
  | nothing sees chain => exact sees.past
  | joined e sees chain => exact sees.past
  | made creation m value told arisen length sees chain =>
      show Event.madeComponent _ _ :: Event.ended _ :: _ = _
      rw [sees.past]
      rfl
  | spoilt hook creation length part sees chain => exact sees.past

/-- A component that was told to hooks is one that has passed through the chain as it was. -/
theorem Tells.told {events : List (Event κ ι)} (tells : Tells b hitch s s' events) :
    ∀ x ∈ sights events, x.2.chainLength = s.container.chain.length ∧
      s'.container.chain = s.container.chain := by
  intro x mem
  cases tells with
  | nothing sees chain =>
      rw [sees.sight] at mem
      cases mem
  | joined e sees chain => cases mem
  | @made s₁ events creation m value told arisen length sees chain =>
      have same : sights (.madeComponent creation.name value :: .ended creation.name :: events) =
        sights events := rfl
      rw [same, sees.sight] at mem
      exact ⟨eq_of_mem_alone mem ▸ length, chain⟩
  | spoilt hook creation length part sees chain =>
      rw [sees.sight] at mem
      exact ⟨eq_of_mem_alone mem ▸ length, chain⟩

end Ticks

/-! ## 4. The chain -/

/-- The identities in the chain. -/
abbrev ids (c : Container κ ι) : List Nat := c.chain.map Extension.id

section Chain

/-- The identities in the chain after an extension has joined. -/
theorem mem_ids_join (chain : List (Extension κ)) (e : Extension κ) (n : Nat) :
    n ∈ (chain.filter (fun other => other.id ≠ e.id) ++ [e]).map Extension.id ↔
      n ∈ chain.map Extension.id ∨ n = e.id := by
  rw [List.map_append, List.mem_append, List.map_singleton, List.mem_singleton]
  by_cases same : n = e.id
  · simp [same]
  · have left : n ∈ (chain.filter fun other => other.id ≠ e.id).map Extension.id ↔
        n ∈ chain.map Extension.id := by
      simp only [List.mem_map, List.mem_filter, decide_eq_true_eq]
      constructor
      · rintro ⟨other, ⟨mem, -⟩, rfl⟩
        exact ⟨other, mem, rfl⟩
      · rintro ⟨other, mem, rfl⟩
        exact ⟨other, ⟨mem, same⟩, rfl⟩
    rw [left]

theorem distinct_join {chain : List (Extension κ)} (distinct : (chain.map Extension.id).Nodup)
    (e : Extension κ) :
    ((chain.filter (fun other => other.id ≠ e.id) ++ [e]).map Extension.id).Nodup := by
  rw [List.map_append]
  refine List.Nodup.append (distinct.sublist (List.filter_sublist.map _))
    (List.nodup_singleton _) fun n left right => ?_
  obtain ⟨other, mem, rfl⟩ := List.mem_map.mp left
  exact of_decide_eq_true (List.mem_filter.mp mem).2 (List.mem_singleton.mp right)

/-- A chain is as long as it has identities. -/
theorem length_le_of_ids {chain chain' : List (Extension κ)}
    (distinct : (chain.map Extension.id).Nodup)
    (ids : chain.map Extension.id ⊆ chain'.map Extension.id) : chain.length ≤ chain'.length := by
  have length := (distinct.subperm ids).length_le
  rwa [List.length_map, List.length_map] at length

/-- **The chain has only grown**: no identity is twice in it and none has left it, and what has
    passed through it was told how long it was. -/
structure Grown (events : List (Event κ ι)) (s s' : State κ ι ω) : Prop where
  past : s'.history = events ++ s.history
  distinct : (ids s'.container).Nodup
  kept : ids s.container ⊆ ids s'.container
  longer : s.container.chain.length ≤ s'.container.chain.length
  told : ∀ x ∈ sights events, s.container.chain.length ≤ x.2.chainLength ∧
    x.2.chainLength ≤ s'.container.chain.length

theorem Tells.grown {b : Behaviour κ ι ω} {hitch : Prop} {s s' : State κ ι ω}
    {events : List (Event κ ι)} (tells : Tells b hitch s s' events) (distinct : (ids s.container).Nodup) :
    Grown events s s' := by
  have chain : s'.container.chain = s.container.chain ∨
      ∃ e, s'.container.chain = (s.container.attach e).chain := by
    cases tells with
    | nothing sees chain => exact .inl chain
    | joined e sees chain => exact .inr ⟨e, chain⟩
    | made creation m value told arisen length sees chain => exact .inl chain
    | spoilt hook creation length part sees chain => exact .inl chain
  have kept : ids s.container ⊆ ids s'.container := by
    unfold ids
    obtain chain | ⟨e, chain⟩ := chain
    · rw [chain]
      exact List.Subset.refl _
    · rw [chain]
      exact fun n mem => (mem_ids_join s.container.chain e n).mpr (.inl mem)
  have still : (ids s'.container).Nodup := by
    unfold ids
    obtain chain | ⟨e, chain⟩ := chain
    · rwa [chain]
    · rw [chain]
      exact distinct_join distinct e
  exact
    { past := tells.past
      distinct := still
      kept := kept
      longer := length_le_of_ids distinct kept
      told := fun x mem => by
        obtain ⟨length, same⟩ := tells.told x mem
        rw [length, same]
        exact ⟨Nat.le_refl _, Nat.le_refl _⟩ }

theorem Grown.trans {events events' : List (Event κ ι)} {s s' s'' : State κ ι ω}
    (h₁ : Grown events s s') (h₂ : Grown events' s' s'') : Grown (events' ++ events) s s'' where
  past := by rw [h₂.past, h₁.past, List.append_assoc]
  distinct := h₂.distinct
  kept := List.Subset.trans h₁.kept h₂.kept
  longer := Nat.le_trans h₁.longer h₂.longer
  told x mem := by
    have longer₁ := h₁.longer
    have longer₂ := h₂.longer
    rw [sights_append] at mem
    rcases List.mem_append.mp mem with mem | mem
    · obtain ⟨low, high⟩ := h₁.told x mem
      omega
    · obtain ⟨low, high⟩ := h₂.told x mem
      omega

/-- **In all stories the chain only grows.** -/
theorem Story.grown {b : Behaviour κ ι ω} {hitch : Prop} {s s' : State κ ι ω}
    (story : Story b hitch s s') (distinct : (ids s.container).Nodup) :
    ∃ events, Grown events s s' := by
  induction story with
  | refl =>
      exact ⟨[], rfl, distinct, List.Subset.refl _, Nat.le_refl _,
        fun _ mem => absurd mem List.not_mem_nil⟩
  | tail _ tick ih =>
      obtain ⟨events, grown⟩ := ih
      obtain ⟨events', tells⟩ := tick.tells
      exact ⟨_, grown.trans (tells.grown grown.distinct)⟩

end Chain

end Container

end ComponentContainer
