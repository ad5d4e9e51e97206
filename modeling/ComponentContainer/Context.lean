/-
  File:      ComponentContainer/Context.lean
  Subject:   Contexts: a container that is refreshed once.

  * `Stage` -- created, active after a refresh that succeeded, failed after one that did not;
    there is no way back.
  * `Context κ` -- the stage, the extensions handed in, and what the refresh left.
  * `Context.add` -- hands in an extension, before the refresh only.
  * `Context.refresh` -- a bootstrap, then all components to be made ahead; the first refresh is
    the only one.
  * `Context.componentAs` -- a component, while the context is active.
-/
import ComponentContainer.Context.Report
import ComponentContainer.Engine

namespace ComponentContainer

variable {κ ι ω : Type}

/-- How far a context has come. -/
inductive Stage where
  | created
  | active
  | failed
  deriving DecidableEq, Repr

/-- A context; its container is in the state of the acts. -/
structure Context (κ : Type) where
  id : String
  options : Bootstrap.Options := {}
  external : List (Handle κ) := []
  stage : Stage := .created
  report : Option Report := none
  /-- The watcher for listeners, once a bootstrap has succeeded. -/
  listeners : Option (Extension κ) := none

/-- The times at which a refresh begins and ends. -/
structure Times where
  started : String
  finished : String

namespace Context

/-- Up and running. -/
def isActive (c : Context κ) : Bool := c.stage == .active

/-- Refuses what is possible before the refresh only. -/
def ensureCreated (c : Context κ) : Except Failure Unit :=
  if c.stage = .created then .ok () else .error (.invalidState (.alreadyRefreshed c.id))

/-- Refuses what is possible while the context is active only. -/
def ensureActive (c : Context κ) : Except Failure Unit :=
  if c.isActive then .ok () else .error (.invalidState (.notActive c.id))

/-- Hands in an extension. -/
def add (c : Context κ) (name : κ → String) (h : Handle κ) : Except Failure (Context κ) := do
  c.ensureCreated
  h.ensureFactoryCapable name
  return { c with external := c.external ++ [h] }

open Act

/-- Ends a refresh that failed. -/
def fail (c : Context κ) (failure : Failure) :
    Act κ ι ω (Except Failure Report × Context κ) := do
  announce (.refreshFailed c.id failure)
  return (.error failure, { c with stage := .failed })

/-- The report on what a refresh has left in the state. -/
def makeReport (c : Context κ) (name : κ → String) (times : Times)
    (outcome : Bootstrap.Outcome κ) (created : Nat) (s : State κ ι ω) : Report where
  contextId := c.id
  startedAt := times.started
  finishedAt := times.finished
  processedExtensions := outcome.processed.names
  registryPasses := outcome.stats.registryPasses
  factoryHooks := outcome.stats.factoryHooks
  chain := s.container.chainNames name
  componentsCreated := created
  premature := s.noted outcome.completeness.id
  eventListeners := s.noted outcome.listeners.id

/-- Refreshes the context: a bootstrap, then all components to be made ahead. -/
def refresh (e : Engine κ ι ω) (times : Times) (c : Context κ) :
    Act κ ι ω (Except Failure Report × Context κ) := do
  match c.ensureCreated with
  | .error failure => return (.error failure, c)
  | .ok () =>
    announce (.refreshing c.id)
    match ← (e.bootstrap .full c.options c.external).outcome with
    | .error failure => c.fail failure
    | .ok outcome =>
      let c := { c with listeners := some outcome.listeners }
      match ← (e.attempt preinstantiate).outcome with
      | .error failure => c.fail failure
      | .ok created =>
        let report := c.makeReport e.behaviour.name times outcome created (← get)
        announce (.refreshed c.id report.componentsCreated report.chain.length)
        return (.ok report, { c with stage := .active, report := some report })

/-- The listeners detected so far, also those made after the refresh. -/
def eventListeners (c : Context κ) (s : State κ ι ω) : List String :=
  match c.listeners with
  | some watcher => s.noted watcher.id
  | none => []

/-- A component of an expected type. -/
def componentAs {α : Type} (e : Engine κ ι ω) (c : Context κ) (expected : Expected ι α)
    (name : String) : Attempt κ ι ω α := do
  .ofOutcome (pure c.ensureActive)
  e.attempt (ComponentContainer.componentAs expected name)

end Context

end ComponentContainer
