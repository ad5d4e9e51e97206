/-
  File:      ComponentContainer/Proofs/Lifecycle.lean
  Subject:   A context over all calls that are made on it.

  * `Context.refreshBody` -- a refresh once it has been admitted; `refresh_created`, `refresh_later`
    -- a refresh is this or a refusal.
  * `Call`, `Session` -- calls on a context, and runs of them; on the container of a context anything
    at all may be done.
  * `firstRefresh` -- the outcome of the first refresh of a run; `Decided` -- what it decides.
  * `perform_decided` -- **one call**, `Session.decided` -- **a run of calls**; `Session.kept` -- after
    the first refresh a context stays as it is.
  * `lifecycle` -- **the whole life of a context**: one refresh at most, one way from there, and
    nothing handed in that a bootstrap would turn down.
-/
import ComponentContainer.Proofs.HookOrder
import ComponentContainer.Proofs.PrematureReports

namespace ComponentContainer

open Act Attempt

variable {κ ι ω : Type}

/-! ## 1. A refresh, admitted or refused -/

namespace Context

/-- A context that nothing has been done with. -/
def new (id : String) (options : Bootstrap.Options) : Context κ := { id, options }

/-- A refresh once it has been admitted. -/
def refreshBody (e : Engine κ ι ω) (times : Times) (c : Context κ) :
    Act κ ι ω (Except Failure Report × Context κ) := do
  announce (.refreshing c.id)
  match ← (e.bootstrap .full c.options c.external).outcome with
  | .error failure => c.fail failure
  | .ok outcome =>
    let c := { c with listeners := some outcome.listeners }
    match ← (e.attempt preinstantiate).outcome with
    | .error failure => c.fail failure
    | .ok created =>
      let report := c.makeReport e.behaviour.name times outcome created (← get)
      announce (.refreshed c.id report.componentsCreated report.chain.length)
      return (.ok report, { c with stage := .active, report := some report })

variable {e : Engine κ ι ω} {times : Times} {c c' : Context κ} {s s' : State κ ι ω}

theorem refresh_created (created : c.stage = .created) :
    c.refresh e times = c.refreshBody e times := by
  unfold refresh ensureCreated
  rw [if_pos created]
  rfl

theorem refresh_later (later : c.stage ≠ .created) :
    c.refresh e times = pure (.error (.invalidState (.alreadyRefreshed c.id)), c) := by
  unfold refresh ensureCreated
  rw [if_neg later]

theorem add_later (later : c.stage ≠ .created) (name : κ → String) (h : Handle κ) :
    c.add name h = .error (.invalidState (.alreadyRefreshed c.id)) := by
  unfold add ensureCreated
  rw [if_neg later]
  rfl

theorem componentAs_inactive {α : Type} {expected : Expected ι α} {name : String}
    (inactive : c.stage ≠ .active) :
    (c.componentAs e expected name).outcome s =
      some (.error (.invalidState (.notActive c.id)), s) := by
  have idle : c.isActive = false := beq_eq_false_iff_ne.mpr inactive
  unfold componentAs ensureActive
  rw [idle]
  rfl

/-- **What an admitted refresh makes of the context.** The watcher may be there even if it failed,
    for a component made ahead may have been what failed. -/
theorem refreshBody_cases {r : Except Failure Report}
    (h : c.refreshBody e times s = some ((r, c'), s')) :
    (∃ report listeners, r = .ok report ∧
      c' = { c with listeners, stage := .active, report := some report }) ∨
    ∃ failure listeners, r = .error failure ∧ c' = { c with listeners, stage := .failed } := by
  unfold refreshBody at h
  obtain ⟨_, s₁, -, h⟩ := run_bind_eq_some h
  obtain ⟨outcome, s₂, -, h⟩ := run_bind_eq_some h
  cases outcome with
  | error failure =>
      cases h
      exact .inr ⟨_, _, rfl, rfl⟩
  | ok outcome =>
      obtain ⟨made, s₃, -, h⟩ := run_bind_eq_some h
      cases made with
      | error failure =>
          cases h
          exact .inr ⟨_, _, rfl, rfl⟩
      | ok made =>
          cases h
          exact .inl ⟨_, _, rfl, rfl⟩

end Context

/-! ## 2. Calls -/

/-- A call on a context, by the type of its answer. -/
inductive Call (κ ι ω : Type) : Type → Type 1 where
  | register (d : Definition κ) : Call κ ι ω (Except Failure Unit)
  | add (h : Handle κ) : Call κ ι ω (Except Failure Unit)
  | refresh (times : Times) : Call κ ι ω (Except Failure Report)
  | component {α : Type} (expected : Expected ι α) (name : String) :
      Call κ ι ω (Except Failure α)
  /-- Anything that is done to the container itself. -/
  | container {α : Type} (act : Act κ ι ω α) : Call κ ι ω α
  /-- Anything that is asked of the context. -/
  | query {α : Type} (look : Context κ → State κ ι ω → α) : Call κ ι ω α

/-- Makes a call: its answer, and the context afterwards. -/
def Call.perform (e : Engine κ ι ω) {α : Type} (call : Call κ ι ω α) (c : Context κ) :
    Act κ ι ω (α × Context κ) :=
  match call with
  | .register d => do return (← Container.answerRegistry (.register d), c)
  | .add h =>
    match c.add e.behaviour.name h with
    | .error failure => return (.error failure, c)
    | .ok c => return (.ok (), c)
  | .refresh times => c.refresh e times
  | .component expected name => do return (← (c.componentAs e expected name).outcome, c)
  | .container act => do return (← act, c)
  | .query look => do return (look c (← get), c)

/-- A call that was made, with the context it was made on and its answer. -/
structure Turn (κ ι ω : Type) where
  Answer : Type
  call : Call κ ι ω Answer
  context : Context κ
  answer : Answer

namespace Turn

/-- The outcome of a refresh; `none` for the other calls. -/
def refreshed? : Turn κ ι ω → Option (Except Failure Report)
  | ⟨_, .refresh _, _, r⟩ => some r
  | _ => none

/-- A refresh that was admitted, so that its body has run. -/
def admitted (t : Turn κ ι ω) : Bool := t.refreshed?.isSome && t.context.stage == .created

end Turn

/-- Calls made one after the other, with the bounds that each needs. -/
inductive Session (b : Behaviour κ ι ω) (c₀ : Context κ) (s₀ : State κ ι ω) :
    List (Turn κ ι ω) → Context κ → State κ ι ω → Prop
  | start : Session b c₀ s₀ [] c₀ s₀
  | call {turns : List (Turn κ ι ω)} {c c' : Context κ} {s s' : State κ ι ω} {depth patience : Nat}
      {α : Type} {call : Call κ ι ω α} {answer : α} (before : Session b c₀ s₀ turns c s)
      (performed : call.perform ⟨b, depth, patience⟩ c s = some ((answer, c'), s')) :
      Session b c₀ s₀ (turns ++ [⟨α, call, c, answer⟩]) c' s'

/-! ## 3. What the first refresh decides -/

/-- The outcome of the first refresh. -/
def firstRefresh (turns : List (Turn κ ι ω)) : Option (Except Failure Report) :=
  turns.findSome? Turn.refreshed?

theorem firstRefresh_concat (turns : List (Turn κ ι ω)) (t : Turn κ ι ω) :
    firstRefresh (turns ++ [t]) = (firstRefresh turns).or t.refreshed? := by
  unfold firstRefresh
  rw [List.findSome?_append, List.findSome?_singleton]

/-- The stage of a context whose first refresh had that outcome. -/
def Stage.after : Option (Except Failure Report) → Stage
  | none => .created
  | some (.ok _) => .active
  | some (.error _) => .failed

/-- The report of a context whose first refresh had that outcome. -/
def reportAfter : Option (Except Failure Report) → Option Report
  | some (.ok report) => some report
  | _ => none

theorem Stage.after_eq_created {first : Option (Except Failure Report)} :
    Stage.after first = .created ↔ first = none := by
  rcases first with _ | _ | _ <;> simp [Stage.after]

/-- The context is as its first refresh has left it, and nothing was handed in that has no factory
    hook. -/
structure Decided (first : Option (Except Failure Report)) (c : Context κ) : Prop where
  stage : c.stage = .after first
  report : c.report = reportAfter first
  capable : ∀ h ∈ c.external, h.family ≠ .component

section Steps

variable {b : Behaviour κ ι ω} {e : Engine κ ι ω} {c c' c₀ : Context κ} {s s' s₀ : State κ ι ω}
  {turns : List (Turn κ ι ω)} {α : Type} {call : Call κ ι ω α} {answer : α}
  {first : Option (Except Failure Report)}

theorem Handle.family_of_capable {name : κ → String} {h : Handle κ}
    (capable : h.ensureFactoryCapable name = .ok ()) : h.family ≠ .component := by
  intro family
  unfold ensureFactoryCapable at capable
  rw [family] at capable
  cases capable

/-- What is handed in goes to the end, and nothing else changes. -/
theorem Context.add_eq_ok {name : κ → String} {h : Handle κ} (added : c.add name h = .ok c') :
    h.family ≠ .component ∧ c' = { c with external := c.external ++ [h] } := by
  unfold add at added
  cases created : c.ensureCreated with
  | error failure =>
      rw [created] at added
      cases added
  | ok _ =>
      rw [created] at added
      cases capable : h.ensureFactoryCapable name with
      | error failure =>
          rw [capable] at added
          cases added
      | ok _ =>
          rw [capable] at added
          cases added
          exact ⟨h.family_of_capable capable, rfl⟩

/-- An act on the container leaves the context as it is. -/
theorem context_kept {act : Act κ ι ω α}
    (h : (do return (← act, c) : Act κ ι ω (α × Context κ)) s = some ((answer, c'), s')) :
    c' = c := by
  obtain ⟨_, _, -, h⟩ := run_bind_eq_some h
  cases h
  rfl

/-- **After the first refresh no call changes the context.** -/
theorem perform_later (performed : call.perform e c s = some ((answer, c'), s'))
    (later : c.stage ≠ .created) : c' = c := by
  cases call with
  | register d => exact context_kept performed
  | add h =>
      simp only [Call.perform, Context.add_later later] at performed
      cases performed
      rfl
  | refresh times =>
      simp only [Call.perform, Context.refresh_later later] at performed
      cases performed
      rfl
  | component expected name => exact context_kept performed
  | container act => exact context_kept performed
  | query look =>
      cases performed
      rfl

/-- **One call**: a refresh decides on the context unless that was done before, and no other call
    does. -/
theorem perform_decided (performed : call.perform e c s = some ((answer, c'), s'))
    (decided : Decided first c) :
    Decided (first.or (Turn.refreshed? ⟨α, call, c, answer⟩)) c' := by
  by_cases created : c.stage = .created
  · obtain rfl : first = none := Stage.after_eq_created.mp (decided.stage.symm.trans created)
    rw [Option.none_or]
    cases call with
    | register d =>
        obtain rfl := context_kept performed
        exact decided
    | add h =>
        simp only [Call.perform] at performed
        cases added : c.add e.behaviour.name h with
        | error failure =>
            rw [added] at performed
            cases performed
            exact decided
        | ok longer =>
            rw [added] at performed
            cases performed
            obtain ⟨family, rfl⟩ := Context.add_eq_ok added
            refine ⟨decided.stage, decided.report, fun other mem => ?_⟩
            rcases List.mem_append.mp mem with mem | mem
            · exact decided.capable other mem
            · rwa [List.mem_singleton.mp mem]
    | refresh times =>
        simp only [Call.perform, Context.refresh_created created] at performed
        rcases Context.refreshBody_cases performed with ⟨report, _, rfl, rfl⟩ | ⟨failure, _, rfl, rfl⟩
        · exact ⟨rfl, rfl, decided.capable⟩
        · exact ⟨rfl, decided.report, decided.capable⟩
    | component expected name =>
        obtain rfl := context_kept performed
        exact decided
    | container act =>
        obtain rfl := context_kept performed
        exact decided
    | query look =>
        cases performed
        exact decided
  · obtain rfl := perform_later performed created
    rw [decided.stage, Stage.after_eq_created] at created
    obtain ⟨r, rfl⟩ := Option.ne_none_iff_exists'.mp created
    exact decided

/-! ## 4. Runs of calls -/

/-- **A run of calls** leaves a new context as its first refresh has decided. -/
theorem Session.decided {id : String} {options : Bootstrap.Options}
    (session : Session b (.new id options) s₀ turns c s) : Decided (firstRefresh turns) c := by
  induction session with
  | start => exact ⟨rfl, rfl, fun _ mem => nomatch mem⟩
  | call _ performed decided =>
      rw [firstRefresh_concat]
      exact perform_decided performed decided

/-- **After the first refresh no run of calls changes the context.** -/
theorem Session.kept (session : Session b c₀ s₀ turns c s) (later : c₀.stage ≠ .created) :
    c = c₀ := by
  induction session with
  | start => rfl
  | call _ performed same =>
      subst same
      exact perform_later performed later

/-- The first refresh is the one that is admitted. -/
theorem Session.admitted {id : String} {options : Bootstrap.Options}
    (session : Session b (.new id options) s₀ turns c s) :
    (turns.filter Turn.admitted).length = (firstRefresh turns).isSome.toNat := by
  induction session with
  | start => rfl
  | @call turns c c' s s' _ _ α call answer before _ counted =>
      rw [List.filter_append, List.length_append, counted, firstRefresh_concat]
      have stage := before.decided.stage
      cases first : firstRefresh turns with
      | none =>
          have created : (c.stage == .created) = true := by
            rw [stage, first]
            rfl
          cases refreshed : Turn.refreshed? ⟨α, call, c, answer⟩ <;>
            simp [Turn.admitted, refreshed, created]
      | some r =>
          have later : (c.stage == .created) = false := by
            rw [stage, first, beq_eq_false_iff_ne]
            exact fun same => nomatch Stage.after_eq_created.mp same
          simp [Turn.admitted, later]

end Steps

/-! ## 5. The check of what was handed in -/

namespace Bootstrap

open Phase

variable {b : Behaviour κ ι ω}

/-- Phases 1 to 6 where what was handed in is not checked. -/
def runUnchecked (b : Behaviour κ ι ω) (patience : Nat) (options : Options)
    (external : List (Handle κ)) : Phase κ ι ω Stats := do
  let cmp ← comparator
  let (registryPasses, found) ← runRegistryPhases b cmp patience options external
  let (registry, regular) ← runOwnHooks b external found
  let rest ← runRemaining b cmp
  ask .clearMerged
  announce (.factoryPhasesDone registry (registry + regular + rest))
  return ⟨registryPasses, registry + regular + rest⟩

theorem runFactoryPhases_of_capable {external : List (Handle κ)}
    (capable : ∀ h ∈ external, h.family ≠ .component) (patience : Nat) (options : Options) :
    runFactoryPhases b patience options external = runUnchecked b patience options external := by
  unfold runFactoryPhases runUnchecked
  rw [ensureCapable_ok capable]
  rfl

end Bootstrap

/-! ## 6. The whole life -/

/-- **The life of a context**, over all calls on it, whatever extensions do and whatever is done to
    its container meanwhile. The body of a refresh runs for the first refresh and for no other, and
    the outcome of the first refresh is what stage and report depend on. From then on the context
    stays as it is: another refresh, or handing in an extension, is refused and changes nothing, and
    so is the request for a component as long as the context is not active. What was handed in has a
    factory hook, so that the check at the beginning of a bootstrap never turns it down. -/
theorem lifecycle {b : Behaviour κ ι ω} {id : String} {options : Bootstrap.Options}
    {s₀ s : State κ ι ω} {turns : List (Turn κ ι ω)} {c : Context κ}
    (session : Session b (.new id options) s₀ turns c s) :
    (turns.filter Turn.admitted).length = (firstRefresh turns).isSome.toNat ∧
    (c.stage = .created → ∀ (e : Engine κ ι ω) times,
      (Call.refresh times).perform e c = c.refreshBody e times) ∧
    c.stage = .after (firstRefresh turns) ∧ c.report = reportAfter (firstRefresh turns) ∧
    (c.report.isSome ↔ c.stage = .active) ∧
    (c.stage ≠ .created →
      (∀ more c' s', Session b c s more c' s' → c' = c) ∧
      (∀ (e : Engine κ ι ω) times, (Call.refresh times).perform e c s =
        some ((.error (.invalidState (.alreadyRefreshed c.id)), c), s)) ∧
      ∀ (e : Engine κ ι ω) h, (Call.add h).perform e c s =
        some ((.error (.invalidState (.alreadyRefreshed c.id)), c), s)) ∧
    (c.stage ≠ .active → ∀ (e : Engine κ ι ω) (α : Type) (expected : Expected ι α) name,
      (Call.component expected name).perform e c s =
        some ((.error (.invalidState (.notActive c.id)), c), s)) ∧
    (∀ h ∈ c.external, h.family ≠ .component) ∧
    Bootstrap.ensureCapable b c.external = .ok () ∧
    ∀ patience, Bootstrap.runFactoryPhases b patience c.options c.external =
      Bootstrap.runUnchecked b patience c.options c.external := by
  have decided := session.decided
  have active : c.report.isSome ↔ c.stage = .active := by
    rw [decided.stage, decided.report]
    rcases firstRefresh turns with _ | _ | _ <;> simp [Stage.after, reportAfter]
  refine ⟨session.admitted, fun created e times => Context.refresh_created created, decided.stage,
    decided.report, active, fun later => ⟨fun more c' s' rest => rest.kept later, ?_, ?_⟩, ?_,
    decided.capable, Bootstrap.ensureCapable_ok decided.capable,
    fun patience => Bootstrap.runFactoryPhases_of_capable decided.capable patience c.options⟩
  · intro e times
    simp only [Call.perform, Context.refresh_later later]
    rfl
  · intro e h
    simp only [Call.perform, Context.add_later later]
    rfl
  · intro inactive e α expected name
    simp only [Call.perform]
    rw [run_bind, Context.componentAs_inactive inactive]
    rfl

/-- A container with a component that asks for itself. -/
def looping : State (List String) Unit Unit :=
  Bootstrap.holding [{ Bootstrap.thing "loop" .application with supplier := ["loop"] }]

/-- An extension of a family, with code of its own that does nothing. -/
def idler (family : PostProcessor) : Handle (List String) := ⟨family, ⟨7, .custom []⟩⟩

/-- A refresh whose bootstrap succeeds, while a component made ahead fails, is the last one all the
    same. -/
theorem looping_lifecycle :
    ∃ turns c s, Session Bootstrap.asking (.new "shop" {}) looping turns c s ∧
      firstRefresh turns = some (.error (.circularReference "loop")) ∧
      c.external = [idler .registry] ∧ c.listeners.isSome ∧
      c.stage = .failed ∧ c.report = none ∧
      (Call.refresh ⟨"", ""⟩).perform ⟨Bootstrap.asking, 2, 2⟩ c s =
        some ((.error (.invalidState (.alreadyRefreshed c.id)), c), s) := by
  have added : (Call.add (idler .registry)).perform ⟨Bootstrap.asking, 2, 2⟩ (.new "shop" {}) looping =
      some ((.ok (), { id := "shop", external := [idler .registry] }), looping) := rfl
  have refused : (Call.add (idler .component)).perform ⟨Bootstrap.asking, 2, 2⟩
      { id := "shop", external := [idler .registry] } looping =
      some ((.error (.typeMismatch "" "factory post-processor" "instance post-processor"),
        { id := "shop", external := [idler .registry] }), looping) := rfl
  have ends : ((Call.refresh ⟨"", ""⟩).perform ⟨Bootstrap.asking, 2, 2⟩
      { id := "shop", external := [idler .registry] } looping).any (fun r =>
      (match r.1.1 with
        | .ok _ => false
        | .error failure => failure == .circularReference "loop") &&
      r.1.2.external == [idler .registry] && r.1.2.listeners.isSome) = true := by decide +kernel
  rcases run : (Call.refresh ⟨"", ""⟩).perform ⟨Bootstrap.asking, 2, 2⟩
      { id := "shop", external := [idler .registry] } looping with _ | ⟨⟨failure | report, c⟩, s⟩
  · rw [run] at ends
    cases ends
  · rw [run] at ends
    simp only [Option.any_some, Bool.and_eq_true, beq_iff_eq] at ends
    obtain ⟨⟨rfl, external⟩, listeners⟩ := ends
    have session := ((Session.start.call added).call refused).call run
    obtain ⟨-, -, stage, report, -, later, -⟩ := lifecycle session
    have failed : c.stage = .failed := stage
    exact ⟨_, c, s, session, rfl, external, listeners, failed, report,
      (later (by rw [failed]; decide)).2.1 _ _⟩
  · rw [run] at ends
    cases ends

end ComponentContainer
