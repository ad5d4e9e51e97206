/-
  File:      ComponentContainer/Proofs/PrematureReports.lean
  Subject:   What the watcher for completeness reports.

  * `asking` -- a behaviour to try things with: its suppliers ask for components.
  * `phase7_reports_exactly` -- **where suppliers add nobody to the chain and no hook fails, the
    report on phase 7 is exact**: it has all that was made meanwhile but infrastructure.
  * `reports_after_phase7` -- **what is reported afterwards**: what comes to the watcher while the
    chain is shorter than it waits for. The chain may remain so: `crowded_reports_for_ever`.
  * `refresh_reports_premature` -- **what a refresh reports**: what came to the watcher since it
    joined. What was made before is not reported: `hasty_refresh_reports_nothing`.
-/
import ComponentContainer.Proofs.Resolution
import ComponentContainer.Proofs.Waves
import Mathlib.Data.List.Dedup

namespace ComponentContainer.Bootstrap

open Phase Container

variable {κ ι ω : Type} {b : Behaviour κ ι ω} {depth : Nat} {view : View} {P P' : Processed}
  {s s' t : State κ ι ω} {T : Asked κ ι ω (State κ ι ω)} {listeners checker : Extension κ}

/-! ## 1. Suppliers that ask for components -/

/-- The behaviour where code is a list of names, and its supplier asks for these components; the
    hooks do nothing. -/
def asking : Behaviour (List String) Unit Unit where
  name _ := ""
  supply names := (names.forM fun name => Plan.component name : Plan _ Unit Unit _).run
  build names := (do names.forM fun name => Plan.component name; return names : Plan _ Unit Unit _).run
  onRegistry _ := .done (.ok ())
  onFactory _ := .done (.ok ())
  mergedAware _ := false
  onMerged _ _ _ world := (.ok (), world)
  before _ value _ world := (.ok value, world)
  after _ value _ world := (.ok value, world)

/-- Where hooks succeed, none fails. -/
theorem not_hookFails (obliging : ∀ e, Obliging b e) (q : Request κ ι ω × State κ ι ω) :
    ¬HookFails b depth view q := by
  intro fails
  induction fails with
  | passing makes shown supply run =>
      obtain ⟨_, _, passes, -⟩ := passThrough_runs (fun e _ => obliging e) _ _ _
      rw [passes] at run
      cases run
  | within enters asked fails ih => exact ih

theorem asking_obliging (e : Extension (List String)) : Obliging asking e where
  merged _ _ _ _ _ := rfl
  before _ _ value _ _ := ⟨value, rfl⟩
  after _ _ value _ _ := ⟨value, rfl⟩

/-- The definition of a component. -/
def thing (name : String) (role : Role) : Definition (List String) :=
  { name, typeName := "Thing", kind := .component, supplier := [], role }

/-- The definition of a post-processor whose supplier asks for components. -/
def processor (name : String) (family : PostProcessor) (precedence : Precedence)
    (asksFor : List String) : Definition (List String) :=
  { name, typeName := "P", kind := .postProcessor family, supplier := asksFor, precedence }

/-- A container with these definitions, and nothing made so far. -/
def holding (definitions : List (Definition (List String))) : State (List String) Unit Unit where
  container := { definitions := definitions.foldl (fun t d => t.set d.name d) .empty }
  world := ()

/-- No supplier adds anybody to the chain, computed from what was asked for. -/
def noneAdded (b : Behaviour κ ι ω) (depth : Nat) (view : View)
    (T : Asked κ ι ω (State κ ι ω)) : Bool :=
  T.all fun
    | (.extension name expected, u) => (serve b depth view (.extension name expected) u).all fun r =>
        r.2.container.chain.length ≤ u.container.chain.length
    | _ => true

theorem noneAdded_of_computed (h : noneAdded b depth view T = true) : NoneAdded b depth view T := by
  intro name expected u mem answer t answered
  have spare := List.all_eq_true.mp h _ mem
  simp only [answered, Option.all_some, decide_eq_true_eq] at spare
  exact spare

/-- Nobody else joins under the identity of that one, computed. -/
def alone [DecidableEq κ] (w : Extension κ) (events : List (Event κ ι)) : Bool :=
  events.all fun
    | .attached e => e.id != w.id || e == w
    | _ => true

theorem sole_of_computed [DecidableEq κ] {w : Extension κ} {events : List (Event κ ι)}
    (h : alone w events = true) : Sole w events := by
  intro e mem own
  have one := List.all_eq_true.mp h _ mem
  simpa [own] using one

/-! ## 2. During phase 7 -/

/-- Where the chain is too short for all, only infrastructure is not premature. -/
theorem premature_of_shorter {target : Nat} {seen : List (Creation κ)}
    (shorter : ∀ creation ∈ seen, creation.chainLength < target) :
    premature target seen = (seen.filter (!·.isInfrastructure)).map Creation.name := by
  unfold premature
  congr 1
  refine List.filter_congr fun creation mem => ?_
  have short := shorter creation mem
  simp [Creation.isPremature, short]

/-- What has been seen of a stretch in which the chain was too short. -/
theorem premature_of_below {target id : Nat} {events : List (Event κ ι)}
    (below : Below target s s') (past : s'.history = events ++ s.history) :
    premature target (seenBy id (sights events)) =
      ((seenBy id (sights events)).filter (!·.isInfrastructure)).map Creation.name := by
  obtain ⟨events', past', shorter⟩ := below
  obtain rfl : events' = events := List.append_cancel_right (past'.symm.trans past)
  refine premature_of_shorter fun creation mem => ?_
  obtain ⟨e, -, there⟩ := mem_seenBy.mp mem
  exact shorter _ there

/-- **The report on phase 7 is exact**, where suppliers add nobody to the chain and no hook around a
    component fails: it has, in order, what is no infrastructure among the components that were made
    meanwhile. These are the ones that hooks after the initialization have run for, whoever's
    supplier asked for them and however many had joined by then. -/
theorem phase7_reports_exactly
    (h : Returns (serve b depth view) (runChainPhase b listeners) P s T checker P' s')
    (distinct : (ids s.container).Nodup) (unnoted : s.noted s.nextId = [])
    (sole : Sole checker s'.history)
    (spares : NoneAdded b depth view T)
    (smooth : ∀ q ∈ T, ¬HookFails b depth view q) :
    ∃ events, s'.history = events ++ .attached checker :: s.history ∧
      s'.noted checker.id = ((seenBy checker.id (sights events)).filter (!·.isInfrastructure)).map
        Creation.name ∧
      (seenBy checker.id (sights events)).map Creation.name = (madeNames events).reverse ∧
      ∀ creation, creation ∈ seenBy checker.id (sights events) ↔
        ∃ e value, .sawAfter e creation value ∈ events := by
  obtain ⟨group, -, -, rfl, story, -, below⟩ := runChainPhase_gathers h
  generalize s.container.chain.length + 1 + (undealt s.container P).length = target at *
  have posted := Posted.joined s.container distinct (watcher s.nextId target)
  obtain ⟨events, watching⟩ := story.watching posted sole
  obtain ⟨same, all⟩ := watching.whole fun ⟨q, asked, fails⟩ => smooth q asked fails
  refine ⟨events, watching.past, ?_, ?_, fun creation => ⟨fun mem => ?_, ?_⟩⟩
  · have first : (joinedBy s (watcher s.nextId target)).noted s.nextId = [] := unnoted
    rw [watching.noted, first, List.nil_append]
    exact premature_of_below (below spares distinct) watching.past
  · show (seenBy s.nextId _).map _ = _
    rw [same]
    exact watching.names
  · obtain ⟨e, -, there⟩ := mem_seenBy.mp mem
    exact ⟨e, mem_sights.mp there⟩
  · rintro ⟨e, seen⟩
    show creation ∈ seenBy s.nextId _
    rw [same]
    exact all _ (mem_sights.mpr seen)

/-- Two post-processors whose suppliers ask for components: one in the priority group, and one in
    the last group. Nobody asks for the order. -/
def waiting : State (List String) Unit Unit :=
  holding [thing "service" .application, thing "executor" .infrastructure,
    thing "clock" .application, thing "order" .application,
    processor "eager" .component (.priority 0) ["service", "executor"],
    processor "late" .component .unordered ["clock"]]

/-- Phase 7 in a container to try things with, if it returns. -/
theorem exists_phase7 (s : State (List String) Unit Unit)
    (comes : Phase.returns (serve asking 2 .full) (runChainPhase asking ⟨9, .listeners⟩) .empty s =
      true) :
    ∃ P' s', Returns (serve asking 2 .full) (runChainPhase asking ⟨9, .listeners⟩) .empty s
      (Phase.asked (serve asking 2 .full) (runChainPhase asking ⟨9, .listeners⟩) .empty s)
      (watcher s.nextId (s.container.chain.length + 1 + (undealt s.container .empty).length))
      P' s' := by
  obtain ⟨checker, P', s', returns⟩ := exists_returns comes
  obtain ⟨_, -, rfl, -⟩ := runChainPhase_begins returns
  exact ⟨P', s', returns⟩

/-- What both suppliers have asked for is reported, but for the executor. -/
theorem waiting_phase7_reports_exactly :
    ∃ T P' s' events, Returns (serve asking 2 .full) (runChainPhase asking ⟨9, .listeners⟩) .empty
        waiting T (watcher 0 3) P' s' ∧
      s'.noted 0 = ["service", "clock"] ∧ s'.history = events ++ [.attached (watcher 0 3)] ∧
      (seenBy 0 (sights events)).map Creation.name = ["service", "executor", "clock"] ∧
      s'.noted 0 = ((seenBy 0 (sights events)).filter (!·.isInfrastructure)).map Creation.name := by
  have none : noneAdded asking 2 .full (Phase.asked (serve asking 2 .full)
      (runChainPhase asking ⟨9, .listeners⟩) .empty waiting) = true := by decide +kernel
  have ends : (Phase.result (serve asking 2 .full) (runChainPhase asking ⟨9, .listeners⟩) .empty
      waiting).all (fun r => r.2.noted 0 == ["service", "clock"] &&
        madeNames r.2.history == ["clock", "executor", "service"] &&
        alone (watcher 0 3) r.2.history) = true := by decide +kernel
  have two : (undealt waiting.container .empty).length = 2 := by decide +kernel
  obtain ⟨P', s', returns⟩ := exists_phase7 waiting (by decide +kernel)
  rw [two] at returns
  rw [returns.result] at ends
  simp only [Option.all_some, Bool.and_eq_true, beq_iff_eq] at ends
  obtain ⟨⟨reported, made⟩, sole⟩ := ends
  obtain ⟨events, past, exact, names, -⟩ := phase7_reports_exactly returns (by decide) rfl
    (sole_of_computed sole) (noneAdded_of_computed none)
    fun q _ => not_hookFails asking_obliging q
  rw [past, madeNames_append] at made
  replace made : madeNames events = ["clock", "executor", "service"] :=
    (List.append_nil _).symm.trans made
  exact ⟨_, P', s', events, returns, reported, past, names.trans (by rw [made]; rfl), exact⟩

/-! ## 3. After phase 7 -/

/-- How many extensions there are in a list, with each identity counted once. -/
def headcount (l : List (Extension κ)) : Nat := (l.map Extension.id).dedup.length

theorem headcount_le {l chain : List (Extension κ)}
    (among : l.map Extension.id ⊆ chain.map Extension.id) : headcount l ≤ chain.length := by
  have dedup : (l.map Extension.id).dedup ⊆ chain.map Extension.id := fun n mem =>
    among (List.mem_dedup.mp mem)
  have length := ((List.nodup_dedup _).subperm dedup).length_le
  rwa [List.length_map] at length

theorem length_le_headcount {l chain : List (Extension κ)}
    (distinct : (chain.map Extension.id).Nodup)
    (among : chain.map Extension.id ⊆ l.map Extension.id) : chain.length ≤ headcount l := by
  have dedup : chain.map Extension.id ⊆ (l.map Extension.id).dedup := fun n mem =>
    List.mem_dedup.mpr (among mem)
  have length := (distinct.subperm dedup).length_le
  rwa [List.length_map] at length

theorem premature_eq_nil {target : Nat} {seen : List (Creation κ)}
    (long : ∀ creation ∈ seen, target ≤ creation.chainLength) : premature target seen = [] := by
  unfold premature
  rw [List.filter_eq_nil_iff.mpr, List.map_nil]
  intro creation mem
  have enough := long creation mem
  simp [Creation.isPremature, enough]

/-- All that are in the chain after phase 7: those that were there, the watcher for completeness, what
    was made of those that were found, and the watcher for listeners. -/
def company (s : State κ ι ω) (checker : Extension κ) (group : List (Candidate κ))
    (listeners : Extension κ) : List (Extension κ) :=
  s.container.chain ++ checker :: (group.map (·.handle.extension) ++ [listeners])

/-- **How long the chain is after phase 7.** The watcher waits for all that were there, itself, and
    all that were found; each is in the chain afterwards, and the watcher for listeners as well, but
    once only. -/
theorem length_after_phase7
    (h : Returns (serve b depth view) (runChainPhase b listeners) P s T checker P' s')
    (distinct : (ids s.container).Nodup) :
    ∃ group : List (Candidate κ),
      (group.map Candidate.name).Perm ((undealt s.container P).map Prod.fst) ∧
      (∀ c ∈ group, Made (serve b depth view) T c) ∧
      checker.target = s.container.chain.length + 1 + group.length ∧
      headcount (company s checker group listeners) ≤ s'.container.chain.length ∧
      (NoneAdded b depth view T →
        s'.container.chain.length = headcount (company s checker group listeners)) := by
  obtain ⟨group, names, made, rfl, -, gains, -⟩ := runChainPhase_gathers h
  have counts := names.length_eq
  rw [List.length_map, List.length_map] at counts
  rw [← counts] at gains ⊢
  generalize waits : s.container.chain.length + 1 + group.length = target at gains ⊢
  have joins := distinct_join distinct (watcher s.nextId target)
  have first (n : Nat) : n ∈ ids (joinedBy s (watcher s.nextId target)).container ↔
      n ∈ ids s.container ∨ n = s.nextId := mem_ids_join _ _ n
  have all (n : Nat) : n ∈ (company s (watcher s.nextId target) group listeners).map Extension.id ↔
      n ∈ ids (joinedBy s (watcher s.nextId target)).container ∨
        n ∈ (group.map (·.handle.extension) ++ [listeners]).map Extension.id := by
    unfold company
    rw [first, List.map_append, List.mem_append, List.map_cons, List.mem_cons, or_assoc]
  have least : headcount (company s (watcher s.nextId target) group listeners) ≤
      s'.container.chain.length := headcount_le fun n mem => gains.kept joins n ((all n).mp mem)
  refine ⟨group, names, made, waits.symm, least, fun none => Nat.le_antisymm ?_ least⟩
  exact length_le_headcount (gains.distinct joins) fun n mem =>
    (all n).mpr (gains.only none joins n mem)

/-- **What is reported after phase 7**, whatever programs are run then: exactly what is premature of
    the components that come to the watcher; and it is told a chain at least as long as it was when
    phase 7 ended. So there are no more reports if the chain was as long by then as the watcher
    waits for. It was so if at most one extension was counted twice, and without extensions added by
    suppliers only then; for there is also the watcher for listeners. -/
theorem reports_after_phase7
    (h : Returns (serve b depth view) (runChainPhase b listeners) P s T checker P' s')
    (distinct : (ids s.container).Nodup) (runs : Runs b s' t) (sole : Sole checker t.history) :
    (∃ events, t.history = events ++ s'.history ∧
      t.noted checker.id = s'.noted checker.id ++
        premature checker.target (seenBy checker.id (sights events)) ∧
      (finished events).Sublist (seenBy checker.id (sights events)) ∧
      ∀ creation ∈ seenBy checker.id (sights events),
        s'.container.chain.length ≤ creation.chainLength) ∧
    (checker.target ≤ s'.container.chain.length → t.noted checker.id = s'.noted checker.id) ∧
    ∃ group : List (Candidate κ),
      (group.map Candidate.name).Perm ((undealt s.container P).map Prod.fst) ∧
      (∀ c ∈ group, Made (serve b depth view) T c) ∧
      checker.target = s.container.chain.length + 1 + group.length ∧
      headcount (company s checker group listeners) ≤ s'.container.chain.length ∧
      (NoneAdded b depth view T →
        s'.container.chain.length = headcount (company s checker group listeners)) := by
  have lengths := length_after_phase7 h distinct
  obtain ⟨-, -, -, rfl, story, -, -⟩ := runChainPhase_gathers h
  generalize s.container.chain.length + 1 + (undealt s.container P).length = target at *
  have joins := distinct_join distinct (watcher s.nextId target)
  obtain ⟨events₁, watching₁⟩ := story.watching
    (Posted.joined s.container distinct (watcher s.nextId target))
    fun e mem => sole e (runs.course.past.subset mem)
  obtain ⟨events, watching⟩ := runs.story.watching watching₁.posted sole
  obtain ⟨events', grown⟩ := runs.story.grown watching₁.posted.distinct
  obtain rfl : events' = events := List.append_cancel_right (grown.past.symm.trans watching.past)
  have told : ∀ creation ∈ seenBy s.nextId (sights events'),
      s'.container.chain.length ≤ creation.chainLength := by
    intro creation mem
    obtain ⟨e, -, there⟩ := mem_seenBy.mp mem
    exact (grown.told _ there).1
  refine ⟨⟨events', watching.past, watching.noted, watching.seen, told⟩, fun complete => ?_, lengths⟩
  have none : premature target (seenBy s.nextId (sights events')) = [] :=
    premature_eq_nil fun creation mem => Nat.le_trans complete (told creation mem)
  exact watching.noted.trans (by rw [none, List.append_nil])

/-- Asks for a component from outside. -/
def askOnce (name : String) : FactoryProgram (List String) Unit Unit (Except Failure Unit) :=
  Program.request (I := factoryInterface (List String) Unit Unit) (.component name)

/-- Where all that were found are new, the chain is longer in the end than the watcher waits for, and
    what is made later is not reported. -/
theorem waiting_reports_no_more :
    ∃ T P' s' t, Returns (serve asking 2 .full) (runChainPhase asking ⟨9, .listeners⟩) .empty waiting
        T (watcher 0 3) P' s' ∧
      s'.container.chain.length = 4 ∧ Container.run asking 2 .full (askOnce "order") s' =
        some (.ok (), t) ∧ t.noted 0 = s'.noted 0 := by
  have ends : (Phase.result (serve asking 2 .full) (runChainPhase asking ⟨9, .listeners⟩) .empty
      waiting).all (fun r => r.2.container.chain.length == 4 &&
        (Container.run asking 2 .full (askOnce "order") r.2).any fun r' =>
          r'.1.isOk && alone (watcher 0 3) r'.2.history) = true := by decide +kernel
  have two : (undealt waiting.container .empty).length = 2 := by decide +kernel
  obtain ⟨P', s', returns⟩ := exists_phase7 waiting (by decide +kernel)
  rw [two] at returns
  rw [returns.result] at ends
  simp only [Option.all_some, Bool.and_eq_true, beq_iff_eq] at ends
  obtain ⟨length, later⟩ := ends
  rcases run : Container.run asking 2 .full (askOnce "order") s' with _ | ⟨r, t⟩
  · rw [run] at later
    cases later
  · rw [run] at later
    cases r with
    | error failure => cases later
    | ok _ =>
        obtain ⟨-, complete, -⟩ := reports_after_phase7 returns (by decide) (Runs.refl.run run)
          (sole_of_computed later)
        exact ⟨_, P', s', t, returns, length, run, complete (by rw [length]; decide)⟩

/-- A chain to which two post-processors have been added by hand, which phase 7 finds as well. -/
def crowded : State (List String) Unit Unit :=
  let registered := holding [processor "p" .component .unordered [],
    processor "q" .component .unordered [], thing "service" .application]
  { registered with
    container := { registered.container with
      chain := [⟨0, .custom []⟩, ⟨1, .custom []⟩]
      extensions := (Table.empty.set "p" ⟨.component, ⟨0, .custom []⟩⟩).set "q"
        ⟨.component, ⟨1, .custom []⟩⟩ }
    nextId := 2 }

/-- The watcher waits for five where there are four in the end, since two are counted twice; and so
    a component is reported that all four have seen. -/
theorem crowded_reports_for_ever :
    ∃ T P' s' t, Returns (serve asking 2 .full) (runChainPhase asking ⟨9, .listeners⟩) .empty crowded
        T (watcher 2 5) P' s' ∧
      s'.container.chain.length = 4 ∧ s'.noted 2 = [] ∧
      Container.run asking 2 .full (askOnce "service") s' = some (.ok (), t) ∧
      t.noted 2 = ["service"] := by
  have ends : (Phase.result (serve asking 2 .full) (runChainPhase asking ⟨9, .listeners⟩) .empty
      crowded).all (fun r => r.2.container.chain.length == 4 && r.2.noted 2 == [] &&
        (Container.run asking 2 .full (askOnce "service") r.2).any fun r' =>
          r'.1.isOk && r'.2.noted 2 == ["service"]) = true := by decide +kernel
  have two : (undealt crowded.container .empty).length = 2 := by decide +kernel
  obtain ⟨P', s', returns⟩ := exists_phase7 crowded (by decide +kernel)
  rw [two] at returns
  rw [returns.result] at ends
  simp only [Option.all_some, Bool.and_eq_true, beq_iff_eq] at ends
  obtain ⟨⟨length, none⟩, later⟩ := ends
  rcases run : Container.run asking 2 .full (askOnce "service") s' with _ | ⟨r, t⟩
  · rw [run] at later
    cases later
  · rw [run] at later
    cases r with
    | error failure => cases later
    | ok _ => exact ⟨_, P', s', t, returns, length, none, run, beq_iff_eq.mp later⟩

/-! ## 4. The report on a refresh -/

/-- A bootstrap is its phases, from no names dealt with. -/
theorem run_result {serve : Program.Handler (factoryInterface κ ι ω) (State κ ι ω)} {patience : Nat}
    {options : Options} {external : List (Handle κ)} {r : Except Failure (Outcome κ)}
    (h : (Bootstrap.run b patience options external).run serve s = some (r, s')) :
    ∃ P, Phase.result serve (phases b patience options external) .empty s = some ((r, P), s') := by
  unfold Bootstrap.run at h
  rw [Program.run_bind] at h
  unfold Phase.result
  rcases hr : ((phases b patience options external).perform .empty).run serve s with
    _ | ⟨⟨r', P⟩, s₁⟩
  · rw [hr] at h
    cases h
  · rw [hr] at h
    cases h
    exact ⟨P, rfl⟩

/-- A bootstrap that returns has gone through phase 7, after programs were run for the phases before
    and a new watcher for listeners was made; then nothing more happens. -/
theorem phases_returns {patience : Nat} {options : Options} {external : List (Handle κ)}
    {outcome : Outcome κ}
    (h : Phase.result (serve b depth view) (phases b patience options external) P s =
      some ((.ok outcome, P'), s')) :
    ∃ s₁ P₁ P₂ T id, outcome.listeners = listenersWatcher id ∧ s.nextId ≤ id ∧ Runs b s s₁ ∧
      Returns (serve b depth view) (runChainPhase b outcome.listeners) P₁ s₁ T outcome.completeness
        P₂ s' := by
  have returns : Returns (serve b depth view) (phases b patience options external) P s _ outcome P' s' :=
    ⟨h, rfl⟩
  unfold phases at returns
  obtain ⟨T₁, _, stats, P₁, s₁, factory, rest, -⟩ := returns.of_bind
  obtain ⟨T₂, _, listeners, P₂, s₂, created, rest, -⟩ := Returns.of_bind rest
  obtain ⟨T₃, _, checker, P₃, s₃, chain, rest, -⟩ := Returns.of_bind rest
  obtain ⟨T₄, _, processed, P₄, s₄, got, rest, -⟩ := Returns.of_bind rest
  obtain ⟨-, -, -, rfl⟩ := got.of_get
  obtain ⟨-, rfl, -, rfl⟩ := rest.of_pure
  have before := Runs.refl.run factory.result
  have named : listeners = listenersWatcher s₁.nextId := by
    obtain ⟨-, -, new⟩ := created.of_ask
    rw [serve_create] at new
    cases new
    rfl
  exact ⟨s₂, P₂, P₃, T₃, s₁.nextId, named, before.story.nextId_le, before.run created.result, chain⟩

/-- **A refresh that succeeds has gone through phase 7**, as the last of its bootstrap, and reports
    what the watcher for completeness that the bootstrap made has noted by the end. -/
theorem refresh_phases {e : Engine κ ι ω} {times : Times} {c c' : Context κ} {report : Report}
    (h : c.refresh e times s = some ((.ok report, c'), s')) :
    ∃ outcome s₁ s₂ P P' T, c.Boots e s outcome s₂ ∧ Runs e.behaviour s s₁ ∧
      Returns (serve e.behaviour e.depth .full) (runChainPhase e.behaviour outcome.listeners) P s₁ T
        outcome.completeness P' s₂ ∧
      Runs e.behaviour s₂ s' ∧ report.premature = s'.noted outcome.completeness.id := by
  obtain ⟨outcome, created, s₂, s₃, bootstrap, instantiation, rfl, rfl⟩ := Context.refresh_stages h
  obtain ⟨P, ended⟩ := run_result bootstrap
  obtain ⟨s₁, P₁, P₂, T, _, -, -, before, chain⟩ := phases_returns ended
  have started : Runs e.behaviour s _ := Runs.refl.announced (.refreshing c.id)
  have filled := Runs.refl.run instantiation
  exact ⟨outcome, s₁, s₂, P₁, P₂, T, bootstrap, started.trans before, chain, filled.announced _, rfl⟩

/-- The identities under which extensions have joined, latest first. -/
def joiners (events : List (Event κ ι)) : List Nat :=
  events.filterMap fun
    | .attached e => some e.id
    | _ => none

theorem mem_joiners {events : List (Event κ ι)} {e : Extension κ} (mem : .attached e ∈ events) :
    e.id ∈ joiners events := List.mem_filterMap.mpr ⟨_, mem, rfl⟩

/-- Where one has joined under an identity, and nobody has more than once, it is the only one. -/
theorem joined_alone {later earlier : List (Event κ ι)} {w : Extension κ}
    (once : (joiners (later ++ .attached w :: earlier)).count w.id ≤ 1) :
    Sole w (later ++ .attached w :: earlier) ∧ ∀ e, .attached e ∈ earlier → e.id ≠ w.id := by
  have cut : joiners (later ++ .attached w :: earlier) =
      joiners later ++ w.id :: joiners earlier := List.filterMap_append
  rw [cut, List.count_append, List.count_cons_self] at once
  have late : w.id ∉ joiners later := List.count_eq_zero.mp (by omega)
  have early : w.id ∉ joiners earlier := List.count_eq_zero.mp (by omega)
  have others : ∀ e, .attached e ∈ earlier → e.id ≠ w.id := fun e mem same =>
    early (same ▸ mem_joiners mem)
  refine ⟨fun e mem same => ?_, others⟩
  rcases List.mem_append.mp mem with mem | mem
  · exact absurd (same ▸ mem_joiners mem) late
  · rcases List.mem_cons.mp mem with here | mem
    · cases here
      rfl
    · exact absurd same (others e mem)

/-- No identity is twice in the chain, and the identities to come are neither in it nor among the
    notes. -/
structure Numbered (s : State κ ι ω) : Prop where
  distinct : (ids s.container).Nodup
  chain : ∀ e ∈ s.container.chain, e.id < s.nextId
  notes : ∀ note ∈ s.notes, note.1 < s.nextId

/-- Under an identity that is still to come, nothing is noted as long as nobody joins under it. -/
theorem Numbered.unnoted_of_le (numbered : Numbered s) {hitch : Prop} {id : Nat}
    (story : Story b hitch s s') (later : s.nextId ≤ id)
    (never : ∀ e, .attached e ∈ s'.history → e.id ≠ id) : s'.noted id = [] := by
  have absent : ∀ e ∈ s.container.chain, e.id ≠ id := fun e mem =>
    Nat.ne_of_lt (Nat.lt_of_lt_of_le (numbered.chain e mem) later)
  obtain ⟨-, same⟩ := story.unmet absent never
  rw [same]
  unfold State.noted
  rw [List.filter_eq_nil_iff.mpr, List.map_nil]
  intro note mem own
  have small := numbered.notes note mem
  have own : note.1 = id := beq_iff_eq.mp own
  omega

theorem Numbered.unnoted (numbered : Numbered s) (runs : Runs b s s')
    (never : ∀ e, .attached e ∈ s'.history → e.id ≠ s'.nextId) : s'.noted s'.nextId = [] :=
  numbered.unnoted_of_le runs.story runs.story.nextId_le never

/-- **What a refresh that succeeds reports as premature**: what the watcher for completeness that its
    bootstrap made has found so, of what has come to it since it joined in phase 7; and each
    component made during phase 7 has come to it. Without extensions added by suppliers it has found
    all of these premature, but for infrastructure. Nothing is reported on account of what was made
    before. That this watcher joins `once` is said of identities: nobody else joins under its own.
    Other extensions may join as often as they like. -/
theorem refresh_reports_premature {e : Engine κ ι ω} {times : Times} {c c' : Context κ}
    {report : Report} (h : c.refresh e times s = some ((.ok report, c'), s'))
    (numbered : Numbered s)
    (once : ∀ outcome s₂, c.Boots e s outcome s₂ →
      (joiners s'.history).count outcome.completeness.id ≤ 1) :
    ∃ outcome s₁ s₂ P P' T id target during after,
      c.Boots e s outcome s₂ ∧ outcome.completeness = watcher id target ∧
      Runs e.behaviour s s₁ ∧
      Returns (serve e.behaviour e.depth .full) (runChainPhase e.behaviour outcome.listeners) P s₁ T
        (watcher id target) P' s₂ ∧
      s₂.history = during ++ .attached (watcher id target) :: s₁.history ∧
      s'.history = after ++ s₂.history ∧
      report.premature = premature target (seenBy id (sights during)) ++
        premature target (seenBy id (sights after)) ∧
      (finished during).Sublist (seenBy id (sights during)) ∧
      (finished during).map Creation.name = (madeNames during).reverse ∧
      (NoneAdded e.behaviour e.depth .full T →
        premature target (seenBy id (sights during)) =
          ((seenBy id (sights during)).filter (!·.isInfrastructure)).map Creation.name) := by
  obtain ⟨outcome, s₁, s₂, P, P', T, bootstrap, before, chain, rest, reported⟩ := refresh_phases h
  have once := once outcome s₂ bootstrap
  obtain ⟨-, -, -, made, story, -, below⟩ := runChainPhase_gathers chain
  rw [made] at once chain story below reported
  generalize s₁.container.chain.length + 1 + (undealt s₁.container P).length = target at *
  obtain ⟨_, grown⟩ := before.story.grown numbered.distinct
  obtain ⟨during, meanwhile⟩ := story.grown (distinct_join grown.distinct _)
  obtain ⟨after, afterwards⟩ := rest.story.grown meanwhile.distinct
  have past : s'.history =
      (after ++ during) ++ .attached (watcher s₁.nextId target) :: s₁.history := by
    rw [afterwards.past, meanwhile.past, List.append_assoc]
    rfl
  -- the watcher has joined once, so nobody else has joined under its identity, before or since
  obtain ⟨sole, never⟩ : Sole (watcher s₁.nextId target) s'.history ∧
      ∀ e, .attached e ∈ s₁.history → e.id ≠ s₁.nextId := by
    rw [past] at once ⊢
    exact joined_alone once
  have unnoted := numbered.unnoted before never
  obtain ⟨during', watching⟩ := story.watching (Posted.joined _ grown.distinct _)
    fun e mem => sole e (rest.course.past.subset mem)
  obtain rfl : during' = during := List.append_cancel_right (watching.past.symm.trans meanwhile.past)
  obtain ⟨after', later⟩ := rest.story.watching watching.posted sole
  obtain rfl : after' = after := List.append_cancel_right (later.past.symm.trans afterwards.past)
  refine ⟨outcome, s₁, s₂, P, P', T, s₁.nextId, target, during', after', bootstrap, made, before,
    chain, watching.past, later.past, ?_, watching.seen, watching.names,
    fun none => premature_of_below (below none grown.distinct) watching.past⟩
  have first : (joinedBy s₁ (watcher s₁.nextId target)).noted s₁.nextId = [] := unnoted
  rw [reported]
  show s'.noted s₁.nextId = _
  rw [later.noted, watching.noted, first, List.nil_append]

/-- A refresh of this container, with nothing handed in. -/
def refreshed (s : State (List String) Unit Unit) :
    Option ((Except Failure Report × Context (List String)) × State (List String) Unit Unit) :=
  Context.refresh ⟨asking, 2, 2⟩ ⟨"", ""⟩ { id := "shop" } s

/-- The refresh succeeds, and its report and the state afterwards pass a test. -/
def refreshPasses (s : State (List String) Unit Unit)
    (test : Report → State (List String) Unit Unit → Bool) : Bool :=
  (refreshed s).any fun r => r.1.1.toOption.any fun report => test report r.2

theorem exists_refreshed {s : State (List String) Unit Unit}
    {test : Report → State (List String) Unit Unit → Bool} (h : refreshPasses s test = true) :
    ∃ report c' s', refreshed s = some ((.ok report, c'), s') ∧ test report s' = true := by
  unfold refreshPasses at h
  rcases run : refreshed s with _ | ⟨⟨failure | report, c'⟩, s'⟩
  · rw [run] at h
    cases h
  · rw [run] at h
    cases h
  · rw [run] at h
    exact ⟨report, c', s', rfl, h⟩

/-- What the suppliers in phase 7 have asked for is reported, and not what is made afterwards. -/
theorem waiting_refresh_reports_premature :
    ∃ (report : Report) (c' : Context (List String)) (s' s₁ : State (List String) Unit Unit)
      (id target : Nat) (during after : List (Event (List String) Unit)),
      refreshed waiting = some ((.ok report, c'), s') ∧
      madeNames s'.history = ["order", "clock", "executor", "service"] ∧
      report.premature = ["service", "clock"] ∧
      s'.history = after ++ (during ++ .attached (watcher id target) :: s₁.history) ∧
      report.premature = premature target (seenBy id (sights during)) ++
        premature target (seenBy id (sights after)) := by
  have ends : refreshPasses waiting (fun report t => report.premature == ["service", "clock"] &&
      madeNames t.history == ["order", "clock", "executor", "service"] &&
      joiners t.history == [0, 3, 2, 1]) = true := by decide +kernel
  obtain ⟨report, c', s', run, ends⟩ := exists_refreshed ends
  simp only [Bool.and_eq_true, beq_iff_eq] at ends
  obtain ⟨⟨reported, made⟩, joins⟩ := ends
  have numbered : Numbered waiting := ⟨by decide, by decide, by decide⟩
  have once (id : Nat) : (joiners s'.history).count id ≤ 1 := by
    rw [joins]
    exact List.nodup_iff_count_le_one.mp (by decide) id
  obtain ⟨_, s₁, s₂, _, _, _, id, target, during, after, -, -, -, -, past, later, exact, -⟩ :=
    refresh_reports_premature run numbered fun outcome _ _ => once outcome.completeness.id
  exact ⟨report, c', s', s₁, id, target, during, after, run, made, reported, past ▸ later, exact⟩

/-- A factory post-processor whose supplier asks for a component, and a component post-processor. -/
def hasty : State (List String) Unit Unit :=
  holding [thing "service" .application, processor "early" .factory .unordered ["service"],
    processor "late" .component .unordered []]

/-- What a supplier asks for before phase 7 is seen by no hook at all, and yet it is not reported. -/
theorem hasty_refresh_reports_nothing :
    ∃ report c' s', refreshed hasty = some ((.ok report, c'), s') ∧
      madeNames s'.history = ["service"] ∧ sights s'.history = [] ∧
      s'.container.namesFor (.postProcessor .component) = ["late"] ∧
      (s'.container.definitions.find? "service").map (·.role) = some .application ∧
      report.premature = [] := by
  have ends : refreshPasses hasty (fun report t => report.premature == [] &&
      madeNames t.history == ["service"] && (sights t.history).isEmpty &&
      t.container.namesFor (.postProcessor .component) == ["late"] &&
      (t.container.definitions.find? "service").map (·.role) == some .application) = true := by
    decide +kernel
  obtain ⟨report, c', s', run, ends⟩ := exists_refreshed ends
  simp only [Bool.and_eq_true, beq_iff_eq, List.isEmpty_iff] at ends
  obtain ⟨⟨⟨⟨reported, made⟩, unseen⟩, found⟩, role⟩ := ends
  exact ⟨report, c', s', run, made, unseen, found, role, reported⟩

end ComponentContainer.Bootstrap
