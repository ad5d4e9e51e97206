/-
  File:      ComponentContainer/Bootstrap/FactoryPhases.lean
  Subject:   The first half of a bootstrap: registry and factory post-processors.

  1. The registry hooks of the registry post-processors handed in.
  2. Those of the registry post-processors found in the priority group.
  3. Those of the ones found with an order.
  4. Those of all others, in passes, until a pass finds none; a limit may cut the passes short.
  5. The factory hooks of all of these in the same order, then those of the factory
     post-processors handed in.
  6. The factory hooks of the factory post-processors found and not dealt with: the priority group,
     the ordered, the others. Each group is made only when the one before has run. In the end
     the merged definitions are forgotten, for the hooks may have changed what they came from.

  * `Options`, `Stats` -- what may be set, and what is counted.
  * `collect` -- finds the registry post-processors not dealt with; from then on they count as
    dealt with.
  * `passes` -- phase 4.
  * `runRegistryPhases`, `runOwnHooks`, `runRemaining` -- phases 1 to 4, phase 5, phase 6.
  * `runFactoryPhases` -- all six.
-/
import ComponentContainer.Bootstrap.Phase

namespace ComponentContainer.Bootstrap

variable {κ ι ω : Type}

open Phase

/-- What may be set. -/
structure Options where
  /-- The largest number of passes of phase 4. -/
  maxPasses : Option Nat := none
  deriving DecidableEq, Repr

/-- What is counted. -/
structure Stats where
  /-- The passes of phase 4 that found something. -/
  registryPasses : Nat
  /-- The factory hooks that ran. -/
  factoryHooks : Nat
  deriving DecidableEq, Repr

/-! ## 1. Registry post-processors -/

/-- Of the names, those not dealt with whose standing is accepted: made and marked as dealt
    with. -/
def collectFrom (accept : Precedence → Bool) : List String → Phase κ ι ω (List (Candidate κ))
  | [] => return []
  | name :: rest => do
    let precedence ← standing name
    if (← get).contains name || !accept precedence then collectFrom accept rest
    else
      let handle ← extensionOf name .registry
      modify (·.insert name)
      return ⟨name, precedence, handle⟩ :: (← collectFrom accept rest)

/-- The registry post-processors not dealt with whose standing is accepted, sorted. -/
def collect (cmp : Comparator) (accept : Precedence → Bool) : Phase κ ι ω (List (Candidate κ)) := do
  return Candidate.sort cmp (← collectFrom accept (← namesFor .registry))

/-- Runs the registry hooks of a batch. -/
def runRegistryHooks (batch : List (Candidate κ)) : Phase κ ι ω Unit :=
  batch.forM fun c => do
    announce (.registryHook c.name c.precedence)
    registryHook c.handle.extension

/-- One of the phases 2 and 3: the extensions whose hooks it has run. -/
def registryPhase (cmp : Comparator) (accept : Precedence → Bool) :
    Phase κ ι ω (List (Candidate κ)) := do
  let batch ← collect cmp accept
  runRegistryHooks batch
  return batch

/-- No further pass may be made once there have been as many as the limit allows. -/
def ensureAllowed (limit : Option Nat) (done : Nat) : Except Failure Unit :=
  match limit with
  | some n => if n ≤ done then .error (.passLimitExceeded n) else .ok ()
  | none => .ok ()

/-- Phase 4: passes until nothing new is found. A batch beyond the limit is found but not run. The
    first number bounds the passes followed, the second counts those done. -/
def passes (cmp : Comparator) (limit : Option Nat) :
    Nat → Nat → Phase κ ι ω (Nat × List (Candidate κ))
  | 0, _ => forever
  | patience + 1, done => do
    let batch ← collect cmp fun _ => true
    if batch.isEmpty then return (done, [])
    else
      demand (pure (ensureAllowed limit done))
      announce (.registryPass (done + 1) batch.length)
      runRegistryHooks batch
      let (total, others) ← passes cmp limit patience (done + 1)
      return (total, batch ++ others)

/-- The passes to follow: with a limit, one more than it allows; without one, `patience`. -/
def passesToFollow (limit : Option Nat) (patience : Nat) : Nat :=
  match limit with
  | some n => n + 1
  | none => patience

/-! ## 2. Extensions handed in -/

/-- Phase 1: the registry hooks of what was handed in. -/
def runSupplied (b : Behaviour κ ι ω) (external : List (Handle κ)) : Phase κ ι ω Unit :=
  (external.filter (·.family == .registry)).forM fun h => do
    announce (.suppliedHook (h.name b.name))
    registryHook h.extension

/-- Nothing without a factory hook may be handed in. -/
def ensureCapable (b : Behaviour κ ι ω) (external : List (Handle κ)) : Except Failure Unit :=
  external.forM (Handle.ensureFactoryCapable b.name)

/-! ## 3. Factory post-processors -/

/-- Makes a group of factory post-processors and takes their standings. -/
def makeGroup (names : List String) : Phase κ ι ω (List (Candidate κ)) :=
  names.mapM fun name => do
    let handle ← extension name (.postProcessor .factory)
    return ⟨name, ← standing name, handle⟩

/-- Runs the factory hooks of a group; how many there are. -/
def runFactoryHooks (b : Behaviour κ ι ω) (group : List (Candidate κ)) : Phase κ ι ω Nat := do
  group.forM fun c => do
    announce (.factoryHook c.name c.precedence)
    demand (c.handle.runFactoryHook b.name)
  return group.length

/-- A group of phase 6, sorted if `sort` says how. -/
def factoryGroup (b : Behaviour κ ι ω) (sort : List (Candidate κ) → List (Candidate κ))
    (names : List String) : Phase κ ι ω Nat := do
  runFactoryHooks b (sort (← makeGroup names))

/-- The factory post-processors not dealt with, with the group each is in. -/
def remaining : Phase κ ι ω (List (String × Tier)) := do
  let names ← namesFor .factory
  let processed ← get
  (names.filter (!processed.contains ·)).mapM fun name => return (name, (← standing name).tier)

/-- The names in one group. -/
def inTier (tier : Tier) (names : List (String × Tier)) : List String :=
  (names.filter (·.2 == tier)).map Prod.fst

/-! ## 4. The first half -/

/-- Phases 1 to 4: the passes of phase 4 that found something, and all that was found, in the order
    in which the hooks have run. -/
def runRegistryPhases (b : Behaviour κ ι ω) (cmp : Comparator) (patience : Nat) (options : Options)
    (external : List (Handle κ)) : Phase κ ι ω (Nat × List (Candidate κ)) := do
  runSupplied b external
  let priority ← registryPhase cmp (·.isPriority)
  let ordered ← registryPhase cmp (·.isOrdered)
  let (registryPasses, others) ←
    passes cmp options.maxPasses (passesToFollow options.maxPasses patience) 0
  return (registryPasses, priority ++ ordered ++ others)

/-- Phase 5: the factory hooks of the registry post-processors, then those of the factory
    post-processors handed in. How many there are of each. -/
def runOwnHooks (b : Behaviour κ ι ω) (external : List (Handle κ)) (found : List (Candidate κ)) :
    Phase κ ι ω (Nat × Nat) := do
  let supplied := (external.filter (·.family == .registry)).map Handle.extension
  let registry := supplied ++ found.map (·.handle.extension)
  registry.forM factoryHook
  let regular := external.filter (·.family != .registry)
  regular.forM fun h => demand (h.runFactoryHook b.name)
  return (registry.length, regular.length)

/-- Phase 6: how many factory hooks there are. -/
def runRemaining (b : Behaviour κ ι ω) (cmp : Comparator) : Phase κ ι ω Nat := do
  let names ← remaining
  let first ← factoryGroup b (Candidate.sort cmp) (inTier .highest names)
  let second ← factoryGroup b (Candidate.sort cmp) (inTier .ordered names)
  let third ← factoryGroup b id (inTier .unordered names)
  return first + second + third

/-- Phases 1 to 6. -/
def runFactoryPhases (b : Behaviour κ ι ω) (patience : Nat) (options : Options)
    (external : List (Handle κ)) : Phase κ ι ω Stats := do
  let cmp ← comparator
  demand (pure (ensureCapable b external))
  let (registryPasses, found) ← runRegistryPhases b cmp patience options external
  let (registry, regular) ← runOwnHooks b external found
  let rest ← runRemaining b cmp
  ask .clearMerged
  announce (.factoryPhasesDone registry (registry + regular + rest))
  return ⟨registryPasses, registry + regular + rest⟩

end ComponentContainer.Bootstrap
