/-
  File:      ComponentContainer/Proofs/ListenerReports.lean
  Subject:   What the watcher for listeners reports.

  * `phases_join_last` -- a bootstrap that succeeds ends with the watcher for listeners joining, under
    an identity that was not given out before.
  * `Gathered` -- what is remembered was remembered before, or made meanwhile; `Story.gathered` --
    **that is so in all stories.**
  * `refresh_reports_listeners` -- **what a refresh reports**: each listener that came to the watcher
    since it joined, once. What was made before is not reported: `overheard_refresh_loses_early`.
-/
import ComponentContainer.Proofs.Lifecycle
import ComponentContainer.Proofs.Templates

namespace ComponentContainer.Bootstrap

open Phase Container Relation

variable {κ ι ω : Type} {b : Behaviour κ ι ω} {hitch : Prop} {depth : Nat} {view : View}
  {P P' : Processed} {s s' : State κ ι ω}

/-! ## 1. How a bootstrap ends -/

/-- The state when phase 7 is over, where `s` was the state before its last extension joined. -/
def endedBy (s : State κ ι ω) (e : Extension κ) : State κ ι ω :=
  { s with
    container := s.container.attach e
    history := .announced (.chainDone (s.container.attach e).chain.length) :: .attached e ::
      s.history }

/-- Wave after wave is a story, until the watcher for listeners joins. -/
theorem Waves.ends {cmp : Comparator} {names : List String} {listeners : Extension κ}
    {T : Asked κ ι ω (State κ ι ω)}
    (waves : Waves (serve b depth view) b cmp names listeners T s s') :
    ∃ u, Story b True s u ∧ s' = endedBy u listeners := by
  obtain ⟨first, firstJoin, second, secondJoin, third, thirdJoin, again, last, -⟩ := waves
  have runs := Runs.refl.run first.result |>.run firstJoin.result |>.run second.result
    |>.run secondJoin.result |>.run third.result |>.run thirdJoin.result |>.run again.result
  exact ⟨_, runs.story, last⟩

/-- **A bootstrap that succeeds ends with the watcher for listeners joining**, which is new then. -/
theorem phases_join_last {patience : Nat} {options : Options} {external : List (Handle κ)}
    {outcome : Outcome κ}
    (h : Phase.result (serve b depth view) (phases b patience options external) P s =
      some ((.ok outcome, P'), s')) :
    ∃ id u, outcome.listeners = listenersWatcher id ∧ s.nextId ≤ id ∧ Story b True s u ∧
      s' = endedBy u (listenersWatcher id) := by
  obtain ⟨s₁, P₁, P₂, T, id, named, later, before, chain⟩ := phases_returns h
  obtain ⟨T', -, -, begun⟩ := runChainPhase_begins chain
  obtain ⟨-, waves⟩ := afterWatcher_waves begun
  obtain ⟨u, waves, last⟩ := waves.ends
  have joins : Story b True s₁ (joinedBy s₁ outcome.completeness) :=
    (ReflTransGen.single (.step (.numbered _))).tail (.step (.attached _ _))
  exact ⟨id, u, named, later, (before.story.trans joins).trans waves, named ▸ last⟩

/-! ## 2. Where what is remembered comes from -/

/-- What is remembered was remembered before, or has been made meanwhile. -/
def Gathered (s s' : State κ ι ω) : Prop :=
  ∃ events, s'.history = events ++ s.history ∧ ∀ name value,
    s'.container.components.find? name = some value →
      s.container.components.find? name = some value ∨ .madeComponent name value ∈ events

namespace Gathered

variable {s'' : State κ ι ω}

theorem refl (s : State κ ι ω) : Gathered s s := ⟨[], rfl, fun _ _ found => .inl found⟩

theorem trans (h₁ : Gathered s s') (h₂ : Gathered s' s'') : Gathered s s'' := by
  obtain ⟨events₁, past₁, from₁⟩ := h₁
  obtain ⟨events₂, past₂, from₂⟩ := h₂
  refine ⟨events₂ ++ events₁, by rw [past₂, past₁, List.append_assoc], fun name value found => ?_⟩
  rcases from₂ name value found with before | made
  · exact (from₁ name value before).imp_right (List.mem_append_right _)
  · exact .inr (List.mem_append_left _ made)

/-- Where nothing is made, what is remembered was remembered before. -/
theorem of_recalls (past : s.history <:+ s'.history)
    (recalls : ∀ name value, s'.container.components.find? name = some value →
      s.container.components.find? name = some value) : Gathered s s' := by
  obtain ⟨events, past⟩ := past
  exact ⟨events, past.symm, fun name value found => .inl (recalls name value found)⟩

theorem of_watched (h : Watched s s') : Gathered s s' :=
  of_recalls h.past fun _ _ found => h.container ▸ found

theorem madeComponent (s : State κ ι ω) (name : String) (value : ι) :
    Gathered s (madeComponent s name value) := by
  refine ⟨[.madeComponent name value, .ended name], rfl, fun other value' found => ?_⟩
  replace found : (s.container.components.set name value).find? other = some value' := found
  rw [Table.find?_set] at found
  split at found
  next same =>
    cases found
    subst same
    exact .inr List.mem_cons_self
  next => exact .inl found

end Gathered

theorem Tick.gathered (tick : Tick b hitch s s') : Gathered s s' := by
  cases tick with
  | step h => exact .of_recalls h.past h.recalls.components
  | began name => exact .of_recalls (List.suffix_cons _ _) fun _ _ found => found
  | shown run => exact .of_watched (showTo_watches _ run)
  | supplied name d => exact .of_recalls (List.suffix_cons _ _) fun _ _ found => found
  | passed arisen run =>
      exact (Gathered.of_watched (passThrough_watches _ _ run)).trans (.madeComponent _ _ _)
  | spoilt hook run => exact .of_watched (passThrough_watches _ _ run)
  | ended name => exact .of_recalls (List.suffix_cons _ _) fun _ _ found => found
  | built name h => exact .of_recalls ⟨[_, _, _], rfl⟩ fun _ _ found => found

/-- **In all stories what is remembered was remembered before, or is made.** -/
theorem Story.gathered (story : Story b hitch s s') : Gathered s s' := by
  induction story with
  | refl => exact .refl _
  | tail _ tick ih => exact ih.trans (Tick.gathered tick)

/-! ## 3. The report on a refresh -/

/-- What the watcher for listeners notes since it has joined at the end of a bootstrap. -/
theorem heard_since {id : Nat} {u : State κ ι ω} (distinct : (ids u.container).Nodup)
    (unnoted : u.noted id = []) (story : Story b hitch (endedBy u (listenersWatcher id)) s')
    (sole : Sole (listenersWatcher id) s'.history) :
    ∃ since, Attended b (listenersWatcher id) hitch since (endedBy u (listenersWatcher id)) s' ∧
      s'.noted id = (listenersAmong (seenBy id (sights since))).eraseDups := by
  obtain ⟨since, attended, noted⟩ :=
    story.attended (Posted.joined u.container distinct (listenersWatcher id)) sole
  have first : (endedBy u (listenersWatcher id)).noted id = [] := unnoted
  refine ⟨since, attended, noted.trans ?_⟩
  rw [first]
  exact foldl_noting_listeners id _ []

/-- **What a refresh that succeeds reports as listeners.** The watcher joins at the very end of the
    bootstrap, with nothing noted; and the report has each listener that has come to it `since`, once,
    in the order in which they first came. Each component made since then has come to it with the
    definition it was made from, in the order in which they were made, and if no hook fails meanwhile
    no other has: so nothing is lost that was made when the bootstrap was over and whose definition,
    merged at the time, wants to hear events, while what is remembered from before is not reported on
    that account. That this watcher joins `once`, the one that the bootstrap made, is said of
    identities: nobody else joins under its own. Other extensions, watchers for listeners among them,
    may join as often as they like. -/
theorem refresh_reports_listeners {e : Engine κ ι ω} {times : Times} {c c' : Context κ}
    {report : Report} (h : c.refresh e times s = some ((.ok report, c'), s'))
    (numbered : Numbered s)
    (once : ∀ outcome s₁, c.Boots e s outcome s₁ →
      (joiners s'.history).count outcome.listeners.id ≤ 1) :
    ∃ outcome created s₁ s₂ earlier since, c.Boots e s outcome s₁ ∧
      Container.run e.behaviour e.depth .full preinstantiate.run s₁ = some (.ok created, s₂) ∧
      s₁.history = .announced (.chainDone s₁.container.chain.length) ::
        .attached outcome.listeners :: earlier ∧
      s₁.noted outcome.listeners.id = [] ∧ s₂.history = since ++ s₁.history ∧
      s' = { s₂ with
        history := .announced (.refreshed c.id report.componentsCreated report.chain.length) ::
          s₂.history } ∧
      report.eventListeners =
        (listenersAmong (seenBy outcome.listeners.id (sights since))).eraseDups ∧
      report.eventListeners.Nodup ∧
      (finished since).Sublist (seenBy outcome.listeners.id (sights since)) ∧
      (finished since).map Creation.name = (madeNames since).reverse ∧
      Faithful e.behaviour s₁.history since ∧
      (∀ later before name value, since = later ++ .madeComponent name value :: before →
        ∃ m t, Arisen e.behaviour name m value t ∧
          t.history = .madeComponent name value :: (before ++ s₁.history) ∧
          (m.definition.declares .eventListener = true → name ∈ report.eventListeners)) ∧
      (∀ name value, s'.container.components.find? name = some value →
        s₁.container.components.find? name = some value ∨ .madeComponent name value ∈ since) ∧
      ((∀ q ∈ preinstantiate.run.asked (serve e.behaviour e.depth .full) s₁,
          ¬HookFails e.behaviour e.depth .full q) →
        report.eventListeners = (listenersAmong (finished since)).eraseDups) := by
  obtain ⟨outcome, created, s₁, s₂, bootstrap, instantiation, made, last⟩ := Context.refresh_stages h
  have once := once outcome s₁ bootstrap
  obtain ⟨P, ended⟩ := run_result bootstrap
  obtain ⟨id, u, named, later, before, rfl⟩ := phases_join_last ended
  rw [named] at once
  have begun : Numbered { s with history := .announced (.refreshing c.id) :: s.history } :=
    ⟨numbered.distinct, numbered.chain, numbered.notes⟩
  obtain ⟨_, grown⟩ := before.grown begun.distinct
  have story := run_story instantiation
  obtain ⟨since, past, gathered⟩ := Story.gathered story
  have cut : s'.history = (.announced (.refreshed c.id report.componentsCreated report.chain.length) ::
      since ++ [.announced (.chainDone (u.container.attach (listenersWatcher id)).chain.length)]) ++
      .attached (listenersWatcher id) :: u.history := by
    rw [last, past, List.append_assoc]
    rfl
  -- the watcher has joined once, so nobody else has joined under its identity, before or since
  obtain ⟨sole, never⟩ : Sole (listenersWatcher id) s'.history ∧
      ∀ e, .attached e ∈ u.history → e.id ≠ id := by
    rw [cut] at once ⊢
    exact joined_alone once
  have unnoted : u.noted id = [] := begun.unnoted_of_le before later never
  obtain ⟨since', attended, noted⟩ := heard_since grown.distinct unnoted story
    fun e mem => sole e (last ▸ List.mem_cons_of_mem _ mem)
  obtain rfl : since' = since := List.append_cancel_right (attended.past.symm.trans past)
  have reported : report.eventListeners = (listenersAmong (seenBy id (sights since'))).eraseDups := by
    rw [made]
    show s₂.noted outcome.listeners.id = _
    rw [named]
    exact noted
  have distinct : report.eventListeners.Nodup := by
    rw [reported]
    exact nodup_eraseDups _
  have told : Faithful e.behaviour (endedBy u (listenersWatcher id)).history since' := attended.told
  have complete : ∀ creation ∈ finished since', creation.isListener = true →
      creation.name ∈ report.eventListeners := by
    intro creation mem hears
    rw [reported, List.mem_eraseDups]
    exact List.mem_map_of_mem (List.mem_filter.mpr ⟨attended.seen.subset mem, hears⟩)
  refine ⟨outcome, created, _, s₂, u.history, since', bootstrap, instantiation, ?_⟩
  rw [named]
  refine ⟨rfl, unnoted, past, last, reported, distinct, attended.seen, attended.names, told,
    fun after before name value made => ?_, ?_, fun smooth => ?_⟩
  · obtain ⟨creation, mem, m, t, rfl, definition, arisen, history⟩ := told.mem_finished made
    refine ⟨m, t, arisen, history, fun declares => complete creation mem ?_⟩
    unfold Creation.isListener
    rw [definition]
    exact declares
  · rw [last]
    exact gathered
  · obtain ⟨same, -⟩ := attended.whole fun ⟨q, asked, fails⟩ => smooth q asked fails
    rw [reported]
    exact congrArg (fun seen => (listenersAmong seen).eraseDups) same

/-- The definition of a component that wants to hear events. -/
def hearing (name : String) (asksFor : List String) : Definition (List String) :=
  { thing name .application with supplier := asksFor, listener := true }

/-- Listeners, one of which is asked for by the supplier of a factory post-processor, and another by
    that of a third. -/
def overheard : State (List String) Unit Unit :=
  holding [hearing "early" [], hearing "late" ["inner"], hearing "inner" [],
    processor "hasty" .factory .unordered ["early"]]

/-- The same where an application has added a watcher for listeners of its own, and then again. -/
def overheardByOthers : State (List String) Unit Unit :=
  { overheard with
    container := { overheard.container with chain := [listenersWatcher 0] }
    history := [.attached (listenersWatcher 0), .attached (listenersWatcher 0)]
    nextId := 1 }

/-- What is made when the bootstrap is over is reported in the order in which it is made, a listener
    that another has asked for being made first; it does not matter that another watcher has joined
    twice. -/
theorem overheardByOthers_refresh_reports_listeners :
    ∃ (report : Report) (c' : Context (List String)) (s' : State (List String) Unit Unit)
      (w : Extension (List String)) (n : Nat) (earlier since : List (Event (List String) Unit)),
      refreshed overheardByOthers = some ((.ok report, c'), s') ∧
      joiners s'.history = [2, 3, 0, 0] ∧
      s'.history = .announced (.refreshed "shop" report.componentsCreated report.chain.length) ::
        (since ++ .announced (.chainDone n) :: .attached w :: earlier) ∧
      madeNames since ++ madeNames earlier = ["late", "inner", "early"] ∧
      report.eventListeners = ["inner", "late"] ∧
      report.eventListeners = (listenersAmong (finished since)).eraseDups := by
  have ends : refreshPasses overheardByOthers (fun report t =>
      report.eventListeners == ["inner", "late"] &&
      madeNames t.history == ["late", "inner", "early"] &&
      joiners t.history == [2, 3, 0, 0]) = true := by decide +kernel
  obtain ⟨report, c', s', run, ends⟩ := exists_refreshed ends
  simp only [Bool.and_eq_true, beq_iff_eq] at ends
  obtain ⟨⟨reported, made⟩, joins⟩ := ends
  have numbered : Numbered overheardByOthers := ⟨by decide, by decide, by decide⟩
  have once : ∀ outcome s₁, Context.Boots { id := "shop" } ⟨asking, 2, 2⟩ overheardByOthers outcome
      s₁ → (joiners s'.history).count outcome.listeners.id ≤ 1 := by
    intro outcome s₁ boots
    have own : (Container.run asking 2 .full (Bootstrap.run asking 2 {} [])
        { overheardByOthers with
          history := .announced (.refreshing "shop") :: overheardByOthers.history }).all (fun r =>
        match r.1 with
        | .ok outcome => outcome.listeners.id == 2
        | .error _ => true) = true := by decide +kernel
    have boots : Container.run asking 2 .full (Bootstrap.run asking 2 {} []) _ = _ := boots
    rw [boots] at own
    rw [joins, beq_iff_eq.mp own]
    decide
  obtain ⟨outcome, _, s₁, s₂, earlier, since, -, -, bootstrap, -, past, last, -, -, -, -, -, -, -,
    whole⟩ := refresh_reports_listeners run numbered once
  have history : s'.history =
      .announced (.refreshed "shop" report.componentsCreated report.chain.length) ::
        (since ++ s₁.history) := by
    rw [last, ← past]
  rw [bootstrap] at history
  have split : madeNames since ++ madeNames earlier = ["late", "inner", "early"] := by
    rw [← made, history]
    exact (madeNames_append since
      (.announced (.chainDone _) :: .attached outcome.listeners :: earlier)).symm
  exact ⟨report, c', s', outcome.listeners, _, earlier, since, run, joins, history, split, reported,
    whole fun q _ => not_hookFails asking_obliging q⟩

/-- What a supplier has asked for before is remembered, and its definition declares that it wants to
    hear events, and yet it is not reported. -/
theorem overheard_refresh_loses_early :
    ∃ report c' s', refreshed overheard = some ((.ok report, c'), s') ∧
      madeNames s'.history = ["late", "inner", "early"] ∧
      (s'.container.components.find? "early").isSome ∧
      (s'.container.definitions.find? "early").any (·.declares .eventListener) ∧
      report.eventListeners = ["inner", "late"] := by
  have ends : refreshPasses overheard (fun report t =>
      report.eventListeners == ["inner", "late"] &&
      madeNames t.history == ["late", "inner", "early"] &&
      (t.container.components.find? "early").isSome &&
      (t.container.definitions.find? "early").any (·.declares .eventListener)) = true := by
    decide +kernel
  obtain ⟨report, c', s', run, ends⟩ := exists_refreshed ends
  simp only [Bool.and_eq_true, beq_iff_eq] at ends
  obtain ⟨⟨⟨reported, made⟩, remembered⟩, declared⟩ := ends
  exact ⟨report, c', s', run, made, remembered, declared, reported⟩

end ComponentContainer.Bootstrap
