/-
  File:      ComponentContainer/Container/Answering.lean
  Subject:   How a container answers requests.

  * `View` -- whether code sees the container itself or a bare view of it, which hides the
    comparator; hooks see what the bootstrap sees, suppliers always see the container itself.
  * `answerRegistry` -- the requests of a registry hook; all of them have an end.
  * `answer` -- the requests to the factory, given a way to run programs.
  * `serve` -- a handler that lets creations and hooks nest up to a given depth; what goes deeper
    is never answered.
-/
import ComponentContainer.Container.Creation

namespace ComponentContainer.Container

variable {κ ι ω : Type}

open Act Attempt

/-- What code sees of a container. -/
inductive View where
  | full
  /-- Without the comparator. -/
  | bare
  deriving DecidableEq, Repr

/-! ## 1. The registry -/

/-- Answers a request of a registry hook. -/
def answerRegistry : (r : RegistryRequest κ ω) → Act κ ι ω r.Answer
  | .register d => do
    let c ← container
    match c.register d with
    | .error failure => return .error failure
    | .ok registered =>
      if c.definitions.contains d.name then announce (.overriding d.name)
      announce (.registering d.name d.kind)
      record (.registered d)
      changeContainer fun _ => registered
      return .ok ()
  | .remove name => do
    match (← container).remove name with
    | .error failure => return .error failure
    | .ok (d, rest) =>
      announce (.removed name)
      record (.removed name)
      changeContainer fun _ => rest
      return .ok d
  | .find name => return (← container).definitions.find? name
  | .edit name change => do
    let known := (← container).definitions.contains name
    if known then
      record (.edited name change)
      changeContainer (·.edit name change)
    return known
  | .names => return (← container).definitions.keys
  | .namesFor capability => return (← container).namesFor capability
  | .world change => outside fun w => (w, change w)

/-! ## 2. The factory -/

/-- Runs the registry hook of an extension. The watchers have none of their own. -/
def registryHook (b : Behaviour κ ι ω) (e : Extension κ) : Act κ ι ω (Except Failure Unit) := do
  record (.registryHook e)
  match e.body with
  | .custom code => (b.onRegistry code).run answerRegistry
  | _ => return .ok ()

/-- Runs the factory hook of an extension. The watchers have none of their own. -/
def factoryHook (b : Behaviour κ ι ω) (exec : Exec κ ι ω) (e : Extension κ) :
    Act κ ι ω (Except Failure Unit) := do
  record (.factoryHook e)
  match e.body with
  | .custom code => exec (b.onFactory code)
  | _ => return .ok ()

/-- Answers a request, given a way to run programs on each view. -/
def answer (b : Behaviour κ ι ω) (exec : View → Exec κ ι ω) (view : View) :
    (r : Request κ ι ω) → Act κ ι ω r.Answer
  | .registry r => answerRegistry r
  | .extension name expected => outcome (Container.extension b (exec .full) name expected)
  | .component name => outcome (Container.component b (exec .full) name)
  | .merged name => outcome (mergedDefinition name)
  | .attach e => do
    record (.attached e)
    changeContainer (·.attach e)
  | .chainLength => return (← container).chain.length
  | .chainNames => return (← container).chainNames b.name
  | .clearMerged => do
    announce (.clearing (← container).merged.size)
    changeContainer fun c => { c with merged := .empty }
  | .comparator => do
    let c ← container
    return match view with
      | .full => c.comparator
      | .bare => none
  | .create body => return ⟨← freshId, body⟩
  | .registryHook e => registryHook b e
  | .factoryHook e => factoryHook b (exec view) e
  | .announce n => announce n
  | .forever => endless

/-- Answers requests; creations and hooks nest at most `depth` deep. -/
def serve (b : Behaviour κ ι ω) : (depth : Nat) → View → (r : Request κ ι ω) → Act κ ι ω r.Answer
  | 0 => answer b fun _ _ _ => endless
  | depth + 1 => answer b fun view _ p => p.run (serve b depth view)

/-- Runs a program in a container. -/
def run {α : Type} (b : Behaviour κ ι ω) (depth : Nat) (view : View)
    (p : FactoryProgram κ ι ω α) : Act κ ι ω α :=
  Program.run (serve b depth view) p

end ComponentContainer.Container
