/-
  File:      ComponentContainer/Container/State.lean
  Subject:   The state in which requests are answered, and the acts that change it.

  * `Event` -- what happens in a container, fit for being looked at afterwards.
  * `State κ ι ω` -- the container, the world outside, the identities given out, what the watchers
    have noted, and the history.
  * `Act`, `Attempt` -- changes of the state that may be without an end, and such that may fail as
    well; a failed attempt keeps what it changed before it failed.
  * `State.noted` -- what a watcher has noted so far, in order.
  * `State.log` -- the announcements so far, in order.
-/
import ComponentContainer.Request

namespace ComponentContainer

/-! ## 1. Events -/

/-- What happens in a container. -/
inductive Event (κ ι : Type) where
  | announced (notice : Notice)
  | registered (definition : Definition κ)
  | removed (name : String)
  | edited (name : String) (change : Definition κ → Definition κ)
  /-- A merged definition was computed and remembered. -/
  | merged (name : String)
  /-- The making of something of that name begins. -/
  | began (name : String)
  /-- The making of something of that name is over, whatever its outcome. -/
  | ended (name : String)
  /-- The supplier of a definition begins, to make something of that name. -/
  | supplied (name : String) (definition : Definition κ)
  | sawMerged (extension : Extension κ) (name : String)
  | sawBefore (extension : Extension κ) (creation : Creation κ) (component : ι)
  | sawAfter (extension : Extension κ) (creation : Creation κ) (component : ι)
  | madeComponent (name : String) (component : ι)
  | madeExtension (name : String) (handle : Handle κ)
  | attached (extension : Extension κ)
  | registryHook (extension : Extension κ)
  | factoryHook (extension : Extension κ)

/-- The announcement made by an event. -/
def Event.notice? {κ ι : Type} : Event κ ι → Option Notice
  | .announced n => some n
  | _ => none

/-! ## 2. States -/

/-- The container and all around it. -/
structure State (κ ι ω : Type) where
  container : Container κ ι := {}
  /-- The world that the code shares outside of the container. -/
  world : ω
  /-- The identity of the next new extension. -/
  nextId : Nat := 0
  /-- What the watchers have noted: the watcher's identity and the name of a component. -/
  notes : List (Nat × String) := []
  /-- What has happened, latest first. -/
  history : List (Event κ ι) := []

namespace State

variable {κ ι ω : Type}

/-- What the watcher of that identity has noted, in order. -/
def noted (s : State κ ι ω) (watcher : Nat) : List String :=
  (s.notes.filter fun n => n.1 == watcher).map Prod.snd

/-- The announcements so far, in order. -/
def log (s : State κ ι ω) : List Notice := (s.history.filterMap Event.notice?).reverse

end State

/-! ## 3. Acts -/

/-- A change of the state with a result; `none` if it has no end. -/
abbrev Act (κ ι ω : Type) : Type → Type := StateT (State κ ι ω) Option

/-- An act that may fail. -/
abbrev Attempt (κ ι ω : Type) : Type → Type := ExceptT Failure (Act κ ι ω)

namespace Act

variable {κ ι ω α : Type}

/-- The act that has no end. -/
def endless : Act κ ι ω α := fun _ => none

/-- Adds an event to the history. -/
def record (e : Event κ ι) : Act κ ι ω Unit :=
  modify fun s => { s with history := e :: s.history }

/-- Makes an announcement. -/
def announce (n : Notice) : Act κ ι ω Unit := record (.announced n)

/-- Changes the container. -/
def changeContainer (f : Container κ ι → Container κ ι) : Act κ ι ω Unit :=
  modify fun s => { s with container := f s.container }

/-- The container as it is. -/
def container : Act κ ι ω (Container κ ι) := do return (← get).container

/-- Lets code change the world outside. -/
def outside (f : ω → α × ω) : Act κ ι ω α :=
  modifyGet fun s => ((f s.world).1, { s with world := (f s.world).2 })

/-- A new identity. -/
def freshId : Act κ ι ω Nat :=
  modifyGet fun s => (s.nextId, { s with nextId := s.nextId + 1 })

/-- A watcher notes the name of a component. -/
def note (watcher : Nat) (name : String) : Act κ ι ω Unit :=
  modify fun s => { s with notes := s.notes ++ [(watcher, name)] }

end Act

namespace Attempt

variable {κ ι ω α : Type}

/-- An act that cannot fail, as an attempt. -/
def perform (a : Act κ ι ω α) : Attempt κ ι ω α := ExceptT.lift a

/-- The attempt whose outcome is the result of an act. -/
def ofOutcome (a : Act κ ι ω (Except Failure α)) : Attempt κ ι ω α := ExceptT.mk a

/-- The outcome of an attempt, be it a failure, as the result of an act. -/
def outcome (a : Attempt κ ι ω α) : Act κ ι ω (Except Failure α) := a.run

end Attempt

end ComponentContainer
