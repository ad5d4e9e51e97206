/-
  File:      ComponentContainer/Proofs/Story.lean
  Subject:   Runs told one thing after another, without what is nested in what.

  * `HookFails` -- while a request is answered, a hook around the initialization of a component
    fails, be it deep in what suppliers and factory hooks do.
  * `Arisen` -- a component has just been made from a definition.
  * `Tick` -- the single things that happen; `Story` -- one after another. A tick in which a hook
    fails bears witness to what is given as `hitch`.
  * `serve_story`, `run_story` -- **whatever a request or a program does is a story whose hitches are
    hooks that fail in it**; so a law about what happens is an induction over ticks, and a run in
    which no hook fails has no hitch.
-/
import ComponentContainer.Proofs.Moments
import Mathlib.Logic.Relation

namespace ComponentContainer.Container

open Act Attempt Relation

variable {κ ι ω α : Type} {b : Behaviour κ ι ω} {hitch hitch' : Prop} {depth : Nat} {view : View}
  {name : String} {expected : Capability} {s s' : State κ ι ω}

/-! ## 1. Hooks that fail -/

/-- **While a request is answered, a hook around the initialization of a component fails**: that of
    the component asked for, or one in a program that the request enters. -/
inductive HookFails (b : Behaviour κ ι ω) : Nat → View → Request κ ι ω × State κ ι ω → Prop
  | passing {depth : Nat} {view : View} {name : String} {m : MergedDefinition κ}
      {s s₁ s₂ s₃ t : State κ ι ω} {value : ι} {failure : Failure} (makes : Makes s name m s₁)
      (shown : outcome (showTo b name m (aware b (beginning s₁ name))) (beginning s₁ name) =
        some (.ok (), s₂))
      (supply : nested b depth .full (b.supply m.definition.supplier)
        (supplied s₂ name m.definition) = some (.ok value, s₃))
      (run : outcome (passThrough b s₃ name m value) s₃ = some (.error failure, t)) :
      HookFails b depth view (.component name, s)
  | within {depth : Nat} {view view' : View} {names : List String} {α : Type} {r : Request κ ι ω}
      {p : FactoryProgram κ ι ω α} {s s₁ : State κ ι ω} {q : Request κ ι ω × State κ ι ω}
      (enters : Enters b view r s names view' p s₁) (asked : q ∈ p.asked (serve b depth view') s₁)
      (fails : HookFails b depth view' q) : HookFails b (depth + 1) view (r, s)

/-! ## 2. Stories -/

/-- **A component has just been made from the definition**: the request for it found none there, merged
    the definition, and made the component from that. -/
inductive Arisen (b : Behaviour κ ι ω) (name : String) (m : MergedDefinition κ) (value : ι) :
    State κ ι ω → Prop
  | intro {depth : Nat} {t t₁ t₂ : State κ ι ω} (makes : Makes t name m t₁)
      (created : outcome (create b (nested b depth .full) name m) (beginning t₁ name) =
        some (.ok value, t₂)) : Arisen b name m value (madeComponent t₂ name value)

/-- **The single things that happen.** The hooks around the initialization of a component are one
    thing, with the component being made and remembered if none of them fails. -/
inductive Tick (b : Behaviour κ ι ω) (hitch : Prop) : State κ ι ω → State κ ι ω → Prop
  | step {s s' : State κ ι ω} (h : Step s s') : Tick b hitch s s'
  | began (s : State κ ι ω) (name : String) : Tick b hitch s (beginning s name)
  | shown {s s' : State κ ι ω} {name : String} {m : MergedDefinition κ} {es : List (Extension κ)}
      {r : Except Failure Unit} (run : outcome (showTo b name m es) s = some (r, s')) :
      Tick b hitch s s'
  | supplied (s : State κ ι ω) (name : String) (d : Definition κ) :
      Tick b hitch s (Container.supplied s name d)
  | passed {s s' : State κ ι ω} {name : String} {m : MergedDefinition κ} {value passed : ι}
      (arisen : Arisen b name m passed (madeComponent s' name passed))
      (run : outcome (passThrough b s name m value) s = some (.ok passed, s')) :
      Tick b hitch s (madeComponent s' name passed)
  | spoilt {s s' : State κ ι ω} {name : String} {m : MergedDefinition κ} {value : ι}
      {failure : Failure} (hook : hitch)
      (run : outcome (passThrough b s name m value) s = some (.error failure, s')) :
      Tick b hitch s s'
  | ended (s : State κ ι ω) (name : String) : Tick b hitch s (ending s name)
  | built (s : State κ ι ω) (name : String) (h : Handle κ) : Tick b hitch s (made s name h)

/-- One thing after another. -/
abbrev Story (b : Behaviour κ ι ω) (hitch : Prop) : State κ ι ω → State κ ι ω → Prop :=
  ReflTransGen (Tick b hitch)

theorem closed_story (b : Behaviour κ ι ω) (hitch : Prop) : Closed (Story b hitch) :=
  ⟨fun _ => .refl, .trans, fun h => .single (.step h)⟩

/-- What has happened stays in the history. -/
theorem Tick.past (tick : Tick b hitch s s') : s.history <:+ s'.history := by
  cases tick with
  | step h => exact h.past
  | began name => exact List.suffix_cons _ _
  | shown run => exact (showTo_watches _ run).past
  | supplied name d => exact List.suffix_cons _ _
  | passed arisen run => exact (passThrough_watches _ _ run).past.trans ⟨[_, _], rfl⟩
  | spoilt hook run => exact (passThrough_watches _ _ run).past
  | ended name => exact List.suffix_cons _ _
  | built name handle => exact ⟨[_, _, _], rfl⟩

/-- An identity is given out once. -/
theorem Tick.nextId_le (tick : Tick b hitch s s') : s.nextId ≤ s'.nextId := by
  cases tick with
  | step h =>
      cases h with
      | numbered => exact Nat.le_succ _
      | _ => exact Nat.le_refl _
  | began name => exact Nat.le_refl _
  | shown run => exact Nat.le_of_eq (showTo_watches _ run).nextId.symm
  | supplied name d => exact Nat.le_refl _
  | passed arisen run => exact Nat.le_of_eq (passThrough_watches _ _ run).nextId.symm
  | spoilt hook run => exact Nat.le_of_eq (passThrough_watches _ _ run).nextId.symm
  | ended name => exact Nat.le_refl _
  | built name handle => exact Nat.le_succ _

theorem Story.nextId_le (story : Story b hitch s s') : s.nextId ≤ s'.nextId := by
  induction story with
  | refl => exact Nat.le_refl _
  | tail _ tick ih => exact Nat.le_trans ih tick.nextId_le

theorem Tick.mono (h : hitch → hitch') (tick : Tick b hitch s s') : Tick b hitch' s s' := by
  cases tick with
  | step h => exact .step h
  | began name => exact .began _ name
  | shown run => exact .shown run
  | supplied name d => exact .supplied _ name d
  | passed arisen run => exact .passed arisen run
  | spoilt hook run => exact .spoilt (h hook) run
  | ended name => exact .ended _ name
  | built name handle => exact .built _ name handle

theorem Story.mono (h : hitch → hitch') (story : Story b hitch s s') : Story b hitch' s s' :=
  story.lift id fun _ _ tick => tick.mono h

/-! ## 3. All that happens is a story -/

/-- The programs that a request enters are stories, whose hitches are those of the request. -/
def Entered (b : Behaviour κ ι ω) (depth : Nat) (view : View) (r : Request κ ι ω)
    (s : State κ ι ω) : Prop :=
  ∀ {names : List String} {view' : View} {α : Type} {p : FactoryProgram κ ι ω α}
    {s₁ s₂ : State κ ι ω} {x : α}, Enters b view r s names view' p s₁ →
      nested b depth view' p s₁ = some (x, s₂) → Story b (HookFails b depth view (r, s)) s₁ s₂

/-- The request for a component. -/
theorem component_story (entered : Entered b depth view (.component name) s) :
    Leads (Story b (HookFails b depth view (.component name, s)))
      (outcome (Container.component b (nested b depth .full) name)) s := by
  have closed := closed_story b (HookFails b depth view (.component name, s))
  intro x s' h
  obtain ⟨answer, merged, fixed⟩ | ⟨m, s₁, makes⟩ := component_cases b name s
  · rw [fixed] at h
    cases h
    obtain rfl | ⟨o, merged⟩ := merged
    · exact .refl
    · exact mergedDefinition_leads closed name s merged
  · have begins : Story b (HookFails b depth view (.component name, s)) s (beginning s₁ name) :=
      (mergedDefinition_leads closed name s makes.merged).tail (.began s₁ name)
    rw [outcome_component_made makes, outcome_create] at h
    rcases shown : outcome (showTo b name m (aware b (beginning s₁ name))) (beginning s₁ name)
      with _ | ⟨failure | u, s₂⟩
    · rw [shown] at h
      cases h
    · rw [shown] at h
      cases h
      exact (begins.tail (.shown shown)).tail (.ended s₂ name)
    · have supplies := (begins.tail (.shown shown)).tail (.supplied s₂ name m.definition)
      rw [shown] at h
      rcases supply : nested b depth .full (b.supply m.definition.supplier)
        (Container.supplied s₂ name m.definition) with _ | ⟨failure | value, s₃⟩
      · simp only [supply] at h
        cases h
      · simp only [supply] at h
        cases h
        exact (supplies.trans (entered (.component makes shown) supply)).tail (.ended s₃ name)
      · have comes := supplies.trans (entered (.component makes shown) supply)
        simp only [supply] at h
        rcases run : outcome (passThrough b s₃ name m value) s₃ with _ | ⟨failure | passed, s₄⟩
        · rw [run] at h
          cases h
        · rw [run] at h
          cases h
          have fails : HookFails b depth view (.component name, s) := .passing makes shown supply run
          exact (comes.tail (.spoilt fails run)).tail (.ended s₄ name)
        · rw [run] at h
          cases h
          have created : outcome (create b (nested b depth .full) name m) (beginning s₁ name) =
              some (.ok passed, s₄) := by
            rw [outcome_create, shown]
            simp only [supply]
            exact run
          exact comes.tail (.passed (.intro makes created) run)

/-- The request for an extension. -/
theorem extension_story (entered : Entered b depth view (.extension name expected) s) :
    Leads (Story b (HookFails b depth view (.extension name expected, s)))
      (outcome (Container.extension b (nested b depth .full) name expected)) s := by
  intro x s' h
  obtain ⟨answer, ends, fixed⟩ | ⟨d, family, builds⟩ := extension_ways b name expected s
  · rw [fixed] at h
    cases h
    obtain rfl | rfl := ends
    · exact .refl
    · exact (ReflTransGen.single (.began s name)).tail (.ended _ name)
  · rw [outcome_extension_new builds.found builds.declares builds.new builds.idle,
      builds.kind] at h
    have supplies : Story b (HookFails b depth view (.extension name expected, s)) s
        (supplying s name d) :=
      (ReflTransGen.single (.began s name)).tail (.supplied (beginning s name) name d)
    rcases supply : nested b depth .full (b.build d.supplier) (supplying s name d) with
      _ | ⟨failure | code, s₁⟩
    · simp only [supply] at h
      cases h
    · simp only [supply] at h
      cases h
      exact (supplies.trans (entered (.extension builds) supply)).tail (.ended s₁ name)
    · simp only [supply] at h
      cases h
      exact (supplies.trans (entered (.extension builds) supply)).tail (.built s₁ name _)

/-- **Whatever a request does is a story, whose hitches are hooks that fail in it.** By induction on
    the depth: what a request enters runs one level below. -/
theorem serve_story (depth : Nat) (view : View) (r : Request κ ι ω) (s : State κ ι ω) :
    Leads (Story b (HookFails b depth view (r, s))) (serve b depth view r) s := by
  have answered (depth : Nat) (view : View) (r : Request κ ι ω) (s : State κ ι ω)
      (entered : Entered b depth view r s) :
      Leads (Story b (HookFails b depth view (r, s))) (answer b (nested b depth) view r) s :=
    answer_leads (closed_story b _)
      (fun name hr => by subst hr; exact component_story entered)
      (fun name expected hr => by subst hr; exact extension_story entered)
      (fun e code hr body => by subst hr; exact fun _ _ h => entered (.factoryHook body) h)
  rw [serve_eq_answer]
  induction depth generalizing view r s with
  | zero => exact answered 0 view r s fun _ h => nomatch h
  | succ depth ih =>
      refine answered (depth + 1) view r s fun {_ view' _ p s₁ _ _} enters h => ?_
      refine Program.run_of_asked (fun _ => .refl) .trans (fun q hq {answer t} hs => ?_) h
      rw [serve_eq_answer] at hs
      exact Story.mono (.within enters hq) (ih view' q.1 q.2 hs)

/-- **Whatever a program does is a story, whose hitches are hooks that fail in it.** -/
theorem run_story {p : FactoryProgram κ ι ω α} {x : α}
    (h : p.run (serve b depth view) s = some (x, s')) :
    Story b (∃ q ∈ p.asked (serve b depth view) s, HookFails b depth view q) s s' :=
  Program.run_of_asked (fun _ => .refl) .trans
    (fun q hq _ _ hs => Story.mono (fun fails => ⟨q, hq, fails⟩) (serve_story depth view q.1 q.2 hs)) h

/-- **Programs that are run one after another are a story.** -/
theorem Runs.story (h : Runs b s s') : Story b True s s' := by
  induction h with
  | refl => exact .refl
  | run _ hrun ih => exact ih.trans (Story.mono (fun _ => trivial) (run_story hrun))

end ComponentContainer.Container
