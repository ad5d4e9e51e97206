/-
  File:      ComponentContainer/Bootstrap.lean
  Subject:   A bootstrap: all phases in a row.

  * `Bootstrap.Outcome` -- what a bootstrap leaves: the names dealt with, the counts, and the two
    watchers.
  * `Bootstrap.run` -- phases 1 to 7, starting with no names dealt with.
-/
import ComponentContainer.Bootstrap.FactoryPhases
import ComponentContainer.Bootstrap.ChainPhase

namespace ComponentContainer

variable {κ ι ω : Type}

/-- What a bootstrap leaves. -/
structure Bootstrap.Outcome (κ : Type) where
  processed : Processed
  stats : Bootstrap.Stats
  /-- The watcher for completeness. -/
  completeness : Extension κ
  /-- The watcher for listeners. -/
  listeners : Extension κ

/-- The number of extensions that the watcher for completeness waits for. -/
def Extension.target (e : Extension κ) : Nat :=
  match e.body with
  | .completeness n => n
  | _ => 0

namespace Bootstrap

/-- Phases 1 to 7, as a phase. -/
def phases (b : Behaviour κ ι ω) (patience : Nat) (options : Options)
    (external : List (Handle κ)) : Phase κ ι ω (Outcome κ) := do
  let stats ← runFactoryPhases b patience options external
  let listeners ← Phase.ask (.create .listeners)
  let completeness ← runChainPhase b listeners
  return ⟨← get, stats, completeness, listeners⟩

/-- A whole bootstrap. -/
def run (b : Behaviour κ ι ω) (patience : Nat) (options : Options) (external : List (Handle κ)) :
    FactoryProgram κ ι ω (Except Failure (Outcome κ)) := do
  return (← (phases b patience options external).perform .empty).1

end Bootstrap

end ComponentContainer
