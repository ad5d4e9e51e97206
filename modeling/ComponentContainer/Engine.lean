/-
  File:      ComponentContainer/Engine.lean
  Subject:   An engine: the code that runs in a container, and how far its runs are followed.

  * `Engine` -- a behaviour with two bounds. Code can nest creations without an end, and it can
    register extensions without an end; a run that needs more than the bounds has no result. A
    run within them does not depend on them.
  * `Engine.run`, `Engine.attempt` -- runs a program, a plan.
  * `Engine.bootstrap` -- runs a bootstrap; `Engine.runPhase` -- a part of one.
-/
import ComponentContainer.Bootstrap
import ComponentContainer.Container.Answering
import ComponentContainer.Plan

namespace ComponentContainer

/-- The code that runs in a container, and how far its runs are followed. -/
structure Engine (κ ι ω : Type) where
  behaviour : Behaviour κ ι ω
  /-- How deep creations and hooks may nest. -/
  depth : Nat
  /-- How many passes a bootstrap without a limit may take. -/
  patience : Nat

namespace Engine

variable {κ ι ω α : Type} (e : Engine κ ι ω)

open Container

/-- Runs a program on a view of the container. -/
def run (view : View) (p : FactoryProgram κ ι ω α) : Act κ ι ω α :=
  Container.run e.behaviour e.depth view p

/-- Runs a plan on the container itself. -/
def attempt (plan : Plan κ ι ω α) : Attempt κ ι ω α := .ofOutcome (e.run .full plan.run)

/-- Runs a part of a bootstrap from the names dealt with so far. -/
def runPhase (processed : Processed) (phase : Phase κ ι ω α) :
    Act κ ι ω (Except Failure α × Processed) :=
  e.run .full (phase.perform processed)

/-- Runs a bootstrap on a view of the container. -/
def bootstrap (view : View) (options : Bootstrap.Options) (external : List (Handle κ)) :
    Attempt κ ι ω (Bootstrap.Outcome κ) :=
  .ofOutcome (e.run view (Bootstrap.run e.behaviour e.patience options external))

end Engine

end ComponentContainer
