/-
  File:      ComponentContainer/Proofs/Watching.lean
  Subject:   What comes to an extension in the chain, and what the watchers note of it.

  * `Posted` -- an extension is in the chain; `Sole` -- nothing else joins under its identity.
  * `Faithful` -- what hooks are told of a component is what it was made from.
  * `Attended` -- what is said of a stretch during which it is in the chain; `Story.attended` -- **it
    is said of all stories**, by induction over ticks.
  * `Watching`, `Story.watching` -- this for the watcher for completeness, with what it notes.
  * `Story.unmet` -- nothing is noted under an identity that nobody in the chain has.
-/
import ComponentContainer.Proofs.Notes

namespace ComponentContainer.Container

variable {κ ι ω : Type}

/-! ## 1. An extension in the chain -/

/-- Nothing else joins under the identity of the extension. -/
def Sole (w : Extension κ) (events : List (Event κ ι)) : Prop :=
  ∀ e, .attached e ∈ events → e.id = w.id → e = w

/-- **The extension is in the chain**, where no identity is twice. -/
structure Posted (w : Extension κ) (c : Container κ ι) : Prop where
  here : w ∈ c.chain
  distinct : (ids c).Nodup

namespace Posted

variable {w e : Extension κ} {c c' : Container κ ι}

theorem single (h : Posted w c) (mem : e ∈ c.chain) (own : e.id = w.id) : e = w :=
  List.inj_on_of_nodup_map h.distinct mem h.here own

/-- Who has joined is in the chain. -/
theorem joined (c : Container κ ι) (distinct : (ids c).Nodup)
    (w : Extension κ) : Posted w (c.attach w) :=
  ⟨List.mem_append_right _ (List.mem_singleton_self _), distinct_join distinct w⟩

theorem attach (h : Posted w c) (own : e.id = w.id → e = w) : Posted w (c.attach e) where
  here := by
    by_cases same : e.id = w.id
    · obtain rfl := own same
      exact List.mem_append_right _ (List.mem_singleton_self _)
    · exact List.mem_append_left _ (List.mem_filter.mpr ⟨h.here, decide_eq_true (Ne.symm same)⟩)
  distinct := distinct_join h.distinct e

theorem of_chain (h : Posted w c) (chain : c'.chain = c.chain) : Posted w c' where
  here := chain ▸ h.here
  distinct := by
    unfold ids
    rw [chain]
    exact h.distinct

/-- Of all in the chain, one is the extension. -/
theorem seen_once (h : Posted w c) (creation : Creation κ) :
    seenBy w.id (c.chain.map (·, creation)) = [creation] := by
  have once : (c.chain.filter (·.id == w.id)).length = 1 := by
    rw [← List.countP_eq_length_filter]
    have count := List.count_eq_one_of_mem h.distinct (List.mem_map_of_mem h.here)
    rwa [List.count, List.countP_map] at count
  unfold seenBy
  rw [List.filter_map, List.map_map]
  show (c.chain.filter (·.id == w.id)).map (fun _ => creation) = [creation]
  rw [List.map_const', once]
  rfl

end Posted

/-! ## 2. What hooks are told of components -/

/-- **What hooks have been told of each component is what it was made from.** The creation that was
    finished when the component was made tells its name and the definition it has arisen from; the
    events are those since the `past`. -/
def Faithful (b : Behaviour κ ι ω) (past events : List (Event κ ι)) : Prop :=
  ∀ later earlier name value, events = later ++ .madeComponent name value :: earlier →
    ∃ creation m t,
      finished (.madeComponent name value :: earlier) = finished earlier ++ [creation] ∧
      creation.name = name ∧ creation.definition = some m ∧ Arisen b name m value t ∧
      t.history = .madeComponent name value :: (earlier ++ past)

section Telling

variable {b : Behaviour κ ι ω} {past events events' later earlier : List (Event κ ι)}
  {name : String} {value : ι}

/-- What was finished earlier is finished. -/
theorem finished_prefix (later earlier : List (Event κ ι)) :
    finished earlier <+: finished (later ++ earlier) := by
  induction later with
  | nil => exact List.prefix_rfl
  | cons event later ih =>
      cases event with
      | madeComponent name value => exact ih.trans (List.prefix_append _ _)
      | _ => exact ih

/-- A component was made before the last events, if none was made in them. -/
theorem cut_of_unmade (unmade : madeNames events' = [])
    (cut : events' ++ events = later ++ .madeComponent name value :: earlier) :
    ∃ later', events = later' ++ .madeComponent name value :: earlier := by
  induction events' generalizing later with
  | nil => exact ⟨later, cut⟩
  | cons event events' ih =>
      have rest : madeNames events' = [] := by
        cases event with
        | madeComponent name value => cases unmade
        | _ => exact unmade
      cases later with
      | nil =>
          obtain ⟨rfl, -⟩ := List.cons.inj cut
          cases unmade
      | cons _ later => exact ih rest (List.cons.inj cut).2

namespace Faithful

theorem nil : Faithful b past [] := by
  intro later earlier name value cut
  cases List.append_ne_nil_of_right_ne_nil later (List.cons_ne_nil _ _) cut.symm

/-- Where nothing is made, nothing is told of a component that was made. -/
theorem append (h : Faithful b past events) (unmade : madeNames events' = []) :
    Faithful b past (events' ++ events) := by
  intro later earlier name value cut
  obtain ⟨later', cut⟩ := cut_of_unmade unmade cut
  exact h later' earlier name value cut

/-- One component more has been made. -/
theorem made (h : Faithful b past events) {creation : Creation κ} {m : MergedDefinition κ}
    {t : State κ ι ω} (unmade : madeNames events' = [])
    (finishes : finished (.madeComponent creation.name value :: (events' ++ events)) =
      finished (events' ++ events) ++ [creation])
    (told : creation.definition = some m) (arisen : Arisen b creation.name m value t)
    (history : t.history = .madeComponent creation.name value :: ((events' ++ events) ++ past)) :
    Faithful b past (.madeComponent creation.name value :: (events' ++ events)) := by
  intro later earlier name' value' cut
  cases later with
  | nil =>
      obtain ⟨same, rfl⟩ := List.cons.inj cut
      cases same
      exact ⟨creation, m, t, finishes, rfl, told, arisen, history⟩
  | cons _ later =>
      exact h.append unmade later earlier name' value' (List.cons.inj cut).2

/-- A component that was made is among what was finished. -/
theorem mem_finished (h : Faithful b past events)
    (made : events = later ++ .madeComponent name value :: earlier) :
    ∃ creation ∈ finished events, ∃ m t, creation.name = name ∧ creation.definition = some m ∧
      Arisen b name m value t ∧ t.history = .madeComponent name value :: (earlier ++ past) := by
  obtain ⟨creation, m, t, finishes, told⟩ := h _ _ _ _ made
  refine ⟨creation, ?_, m, t, told⟩
  have stays : finished (.madeComponent name value :: earlier) <+: finished events :=
    made ▸ finished_prefix later _
  refine stays.subset ?_
  rw [finishes]
  exact List.mem_append_right _ (List.mem_singleton_self _)

end Faithful

end Telling

/-! ## 3. Stretches during which an extension is in the chain -/

/-- **What is said of a stretch during which the extension is in the chain.** Each component made has
    come to it once, in that order, with the definition it was made from, and nobody else has seen
    anything under its identity; and if no hook has failed, no other component has come to any
    hook. -/
structure Attended (b : Behaviour κ ι ω) (w : Extension κ) (hitch : Prop)
    (events : List (Event κ ι)) (s s' : State κ ι ω) : Prop where
  past : s'.history = events ++ s.history
  posted : Posted w s'.container
  single : ∀ x ∈ sights events, x.1.id = w.id → x.1 = w
  seen : (finished events).Sublist (seenBy w.id (sights events))
  names : (finished events).map Creation.name = (madeNames events).reverse
  told : Faithful b s.history events
  whole : ¬hitch → seenBy w.id (sights events) = finished events ∧
    ∀ x ∈ sights events, x.2 ∈ finished events

namespace Attended

variable {b : Behaviour κ ι ω} {hitch : Prop} {w : Extension κ} {events events' : List (Event κ ι)}
  {s s' s'' : State κ ι ω}

theorem refl (posted : Posted w s.container) : Attended b w hitch [] s s where
  past := rfl
  posted := posted
  single := fun _ mem => absurd mem List.not_mem_nil
  seen := List.Sublist.refl _
  names := rfl
  told := .nil
  whole := fun _ => ⟨rfl, fun _ mem => absurd mem List.not_mem_nil⟩

/-- Hooks may have run, but none after the initialization. -/
theorem quiet (h : Attended b w hitch events s s') (sees : Sees [] events' s' s'')
    (posted : Posted w s''.container) : Attended b w hitch (events' ++ events) s s'' := by
  have sight : sights (events' ++ events) = sights events := by
    rw [sights_append, sees.sight, List.append_nil]
  exact
    { past := by rw [sees.past, h.past, List.append_assoc]
      posted := posted
      single := by
        rw [sight]
        exact h.single
      seen := by
        rw [sight, finished_append sees.unmade]
        exact h.seen
      names := by
        rw [finished_append sees.unmade, madeNames_append, sees.unmade]
        exact h.names
      told := h.told.append sees.unmade
      whole := fun smooth => by
        rw [sight, finished_append sees.unmade]
        exact h.whole smooth }

/-- Who has seen things under the identity, where one component more has come to some in the chain. -/
theorem single_append (h : Attended b w hitch events s s') {creation : Creation κ}
    {seen : List (Extension κ)} (part : ∀ e ∈ seen, e ∈ s'.container.chain)
    (sight : sights events' = seen.map (·, creation)) :
    ∀ x ∈ sights (events' ++ events), x.1.id = w.id → x.1 = w := by
  intro x mem own
  rw [sights_append, sight] at mem
  rcases List.mem_append.mp mem with mem | mem
  · exact h.single x mem own
  · obtain ⟨e, there, rfl⟩ := List.mem_map.mp mem
    exact h.posted.single (part e there) own

/-- A component has come to all in the chain, and is made. -/
theorem made (h : Attended b w hitch events s s') {s₁ : State κ ι ω} {creation : Creation κ}
    {m : MergedDefinition κ} {value : ι} (told : creation.definition = some m)
    (arisen : Arisen b creation.name m value (madeComponent s₁ creation.name value))
    (sees : Sees (s'.container.chain.map (·, creation)) events' s' s₁)
    (chain : s₁.container.chain = s'.container.chain) :
    Attended b w hitch
      ((.madeComponent creation.name value :: .ended creation.name :: events') ++ events) s
      (madeComponent s₁ creation.name value) := by
  have sight : sights ((.madeComponent creation.name value :: .ended creation.name :: events') ++
      events) = sights events ++ s'.container.chain.map (·, creation) := by
    rw [sights_append, ← sees.sight]
    rfl
  have once : seenBy w.id (s'.container.chain.map (·, creation)) = [creation] :=
    h.posted.seen_once creation
  have finishes : finished ((.madeComponent creation.name value :: .ended creation.name :: events') ++
      events) = finished events ++ [creation] := by
    have earlier : finished (.ended creation.name :: (events' ++ events)) = finished events :=
      finished_append (show madeNames (.ended creation.name :: events') = [] from sees.unmade)
    obtain ⟨e, last⟩ : ∃ e, s'.container.chain.getLast? = some e :=
      ⟨_, List.getLast?_eq_some_getLast (List.ne_nil_of_mem h.posted.here)⟩
    show finished (.ended creation.name :: (events' ++ events)) ++
      ((sights (events' ++ events)).getLast?.map Prod.snd).toList = _
    rw [earlier, sights_append, sees.sight, List.getLast?_append, List.getLast?_map, last]
    rfl
  have past : (madeComponent s₁ creation.name value).history =
      ((.madeComponent creation.name value :: .ended creation.name :: events') ++ events) ++
        s.history := by
    show Event.madeComponent _ _ :: Event.ended _ :: s₁.history = _
    rw [sees.past, h.past, ← List.append_assoc]
    rfl
  exact
    { past := past
      posted := h.posted.of_chain chain
      single := h.single_append (fun _ mem => mem) sees.sight
      seen := by
        rw [sight, seenBy_append, once, finishes]
        exact h.seen.append_right _
      names := by
        have names : madeNames ((.madeComponent creation.name value :: .ended creation.name ::
            events') ++ events) = creation.name :: madeNames events := by
          rw [madeNames_append]
          show creation.name :: (madeNames events' ++ madeNames events) = _
          rw [sees.unmade]
          rfl
        rw [finishes, names, List.map_append, h.names, List.reverse_cons]
        rfl
      told := by
        have unmade : madeNames (.ended creation.name :: events') = [] := sees.unmade
        refine h.told.made unmade ?_ told arisen past
        rw [finished_append unmade]
        exact finishes
      whole := fun smooth => by
        obtain ⟨same, all⟩ := h.whole smooth
        rw [sight, seenBy_append, once, finishes, same]
        refine ⟨rfl, fun x mem => ?_⟩
        rcases List.mem_append.mp mem with mem | mem
        · exact List.mem_append_left _ (all x mem)
        · rw [eq_of_mem_alone mem]
          exact List.mem_append_right _ (List.mem_singleton_self _) }

/-- A component has come to some in the chain, and is spoilt. -/
theorem spoilt (h : Attended b w hitch events s s') (hook : hitch) {creation : Creation κ}
    {seen : List (Extension κ)} (part : seen <+: s'.container.chain)
    (sees : Sees (seen.map (·, creation)) events' s' s'')
    (chain : s''.container.chain = s'.container.chain) :
    Attended b w hitch (events' ++ events) s s'' where
  past := by rw [sees.past, h.past, List.append_assoc]
  posted := h.posted.of_chain chain
  single := h.single_append (fun _ mem => part.subset mem) sees.sight
  seen := by
    rw [sights_append, seenBy_append, finished_append sees.unmade]
    exact h.seen.trans (List.sublist_append_left _ _)
  names := by
    rw [finished_append sees.unmade, madeNames_append, sees.unmade]
    exact h.names
  told := h.told.append sees.unmade
  whole smooth := absurd hook smooth

/-- One tick more. -/
theorem tells (h : Attended b w hitch events s s') (tells : Tells b hitch s' s'' events')
    (sole : Sole w s''.history) : Attended b w hitch (events' ++ events) s s'' := by
  cases tells with
  | nothing sees chain => exact h.quiet sees (h.posted.of_chain chain)
  | joined e sees chain =>
      refine h.quiet sees ((h.posted.attach (sole e ?_)).of_chain chain)
      rw [sees.past]
      exact List.mem_cons_self
  | made creation m value told arisen length sees chain => exact h.made told arisen sees chain
  | spoilt hook creation length part sees chain => exact h.spoilt hook part sees chain

end Attended

section Stretches

variable {b : Behaviour κ ι ω} {hitch : Prop} {w : Extension κ} {id target : Nat}
  {s s' : State κ ι ω}

/-- **A story that begins with the extension in the chain is such a stretch**, where nothing else
    joins under its identity; and the extension has noted what it has to of what it has seen. By
    induction over the ticks. -/
theorem Story.attended (story : Story b hitch s s') (posted : Posted w s.container)
    (sole : Sole w s'.history) :
    ∃ events, Attended b w hitch events s s' ∧
      s'.noted w.id = (seenBy w.id (sights events)).foldl w.noting (s.noted w.id) := by
  obtain ⟨events, attended⟩ : ∃ events, Attended b w hitch events s s' := by
    induction story with
    | refl => exact ⟨[], .refl posted⟩
    | tail _ tick ih =>
        obtain ⟨events, attended⟩ := ih fun e mem => sole e (tick.past.subset mem)
        obtain ⟨events', tells⟩ := tick.tells
        exact ⟨_, attended.tells tells sole⟩
  obtain ⟨events', past, noted⟩ := story.noted
  obtain rfl : events' = events := List.append_cancel_right (past.symm.trans attended.past)
  exact ⟨_, attended, by rw [noted, notedOf_single attended.single]⟩

/-- **What is said of a stretch during which the watcher for completeness is in the chain.** It has
    noted what was premature of what it has seen. Each component made has come to it once, in that
    order; and if no hook has failed, no other has come to any hook. -/
structure Watching (id target : Nat) (hitch : Prop) (events : List (Event κ ι))
    (s s' : State κ ι ω) : Prop where
  past : s'.history = events ++ s.history
  posted : Posted (watcher id target) s'.container
  noted : s'.noted id = s.noted id ++ premature target (seenBy id (sights events))
  seen : (finished events).Sublist (seenBy id (sights events))
  names : (finished events).map Creation.name = (madeNames events).reverse
  whole : ¬hitch → seenBy id (sights events) = finished events ∧
    ∀ x ∈ sights events, x.2 ∈ finished events

/-- **A story that begins with the watcher in the chain is such a stretch**, where nothing else joins
    under the watcher's identity. -/
theorem Story.watching (story : Story b hitch s s') (posted : Posted (watcher id target) s.container)
    (sole : Sole (watcher id target) s'.history) :
    ∃ events, Watching id target hitch events s s' := by
  obtain ⟨events, attended, noted⟩ := story.attended posted sole
  exact ⟨events, attended.past, attended.posted, noted.trans (foldl_noting_watcher _ _ _ _),
    attended.seen, attended.names, attended.whole⟩

end Stretches

/-! ## 4. Identities that nobody has -/

section Unmet

variable {b : Behaviour κ ι ω} {hitch : Prop} {id : Nat} {events : List (Event κ ι)}
  {s s' : State κ ι ω}

theorem Sees.unmet {seen : List (Extension κ × Creation κ)} (sees : Sees seen events s s')
    (nobody : ∀ x ∈ seen, x.1.id ≠ id) : s'.noted id = s.noted id := by
  have none : seenBy id seen = [] := List.eq_nil_iff_forall_not_mem.mpr fun creation mem => by
    obtain ⟨e, own, there⟩ := mem_seenBy.mp mem
    exact nobody _ there own
  have noted : s'.noted id = s.noted id ++ premature 0 (seenBy id seen) :=
    sees.noted fun x mem own => absurd own (nobody x mem)
  rw [none] at noted
  exact noted.trans (List.append_nil _)

theorem Tells.unmet (tells : Tells b hitch s s' events) (absent : ∀ e ∈ s.container.chain, e.id ≠ id)
    (never : ∀ e, .attached e ∈ events → e.id ≠ id) :
    (∀ e ∈ s'.container.chain, e.id ≠ id) ∧ s'.noted id = s.noted id := by
  have nobody {seen : List (Extension κ)} {creation : Creation κ}
      (part : ∀ e ∈ seen, e ∈ s.container.chain) : ∀ x ∈ seen.map (·, creation), x.1.id ≠ id := by
    intro x mem
    obtain ⟨e, there, rfl⟩ := List.mem_map.mp mem
    exact absent e (part e there)
  cases tells with
  | nothing sees chain =>
      exact ⟨chain ▸ absent, sees.unmet fun _ mem => absurd mem List.not_mem_nil⟩
  | joined e sees chain =>
      refine ⟨fun other mem => ?_, sees.unmet fun _ mem => absurd mem List.not_mem_nil⟩
      rw [chain] at mem
      rcases List.mem_append.mp mem with mem | mem
      · exact absent other (List.mem_filter.mp mem).1
      · rw [List.mem_singleton.mp mem]
        exact never e (List.mem_singleton_self _)
  | made creation m value told arisen length sees chain =>
      have still := chain ▸ absent
      exact ⟨still, sees.unmet (nobody fun _ mem => mem)⟩
  | spoilt hook creation length part sees chain =>
      exact ⟨chain ▸ absent, sees.unmet (nobody fun _ mem => part.subset mem)⟩

/-- **Nothing is noted under an identity that nobody in the chain has**, and none joins under. -/
theorem Story.unmet (story : Story b hitch s s') (absent : ∀ e ∈ s.container.chain, e.id ≠ id)
    (never : ∀ e, .attached e ∈ s'.history → e.id ≠ id) :
    (∀ e ∈ s'.container.chain, e.id ≠ id) ∧ s'.noted id = s.noted id := by
  induction story with
  | refl => exact ⟨absent, rfl⟩
  | tail _ tick ih =>
      obtain ⟨still, same⟩ := ih fun e mem => never e (tick.past.subset mem)
      obtain ⟨events, tells⟩ := tick.tells
      obtain ⟨after, noted⟩ := tells.unmet still fun e mem => never e <| by
        rw [tells.past]
        exact List.mem_append_left _ mem
      exact ⟨after, noted.trans same⟩

end Unmet

end ComponentContainer.Container
