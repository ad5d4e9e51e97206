/-
  File:      ComponentContainer/Plan.lean
  Subject:   Plans: programs over the factory that may fail.

  * `Plan` -- such programs; single requests whose answers may be failures.
  * `preinstantiate` -- makes all components that are to be made ahead of the first request.
  * `componentAs` -- a component of an expected type.
-/
import ComponentContainer.Request

namespace ComponentContainer

variable {κ ι ω : Type}

/-! ## 1. Requests -/

/-- A program over the factory that may fail. -/
abbrev Plan (κ ι ω : Type) : Type → Type := ExceptT Failure (FactoryProgram κ ι ω)

namespace Plan

def ask (r : Request κ ι ω) : Plan κ ι ω r.Answer :=
  ExceptT.lift (Program.request (I := factoryInterface κ ι ω) r)

def component (name : String) : Plan κ ι ω ι :=
  ExceptT.mk (Program.request (I := factoryInterface κ ι ω) (.component name))

def merged (name : String) : Plan κ ι ω (MergedDefinition κ) :=
  ExceptT.mk (Program.request (I := factoryInterface κ ι ω) (.merged name))

def extension (name : String) (expected : Capability) : Plan κ ι ω (Handle κ) :=
  ExceptT.mk (Program.request (I := factoryInterface κ ι ω) (.extension name expected))

def register (d : Definition κ) : Plan κ ι ω Unit :=
  ExceptT.mk (Program.request (I := factoryInterface κ ι ω) (.registry (.register d)))

end Plan

/-! ## 2. Components -/

/-- The names of the components to be made ahead of the first request, in the order of
    registration. -/
def eagerNames : Plan κ ι ω (List String) := do
  (← Plan.ask (.registry .names)).filterM fun name => do
    return match ← Plan.ask (.registry (.find name)) with
      | some d => d.isEager
      | none => false

/-- Makes all components that are to be made ahead of the first request; how many there are. -/
def preinstantiate : Plan κ ι ω Nat := do
  let names ← eagerNames
  names.forM fun name => do
    let _ ← Plan.component name
  Plan.ask (.announce (.preinstantiated names.length))
  return names.length

/-- A type that components may be expected to have. -/
structure Expected (ι α : Type) where
  typeName : String
  cast : ι → Option α

/-- The component of that name, which has to be of the expected type. -/
def componentAs {α : Type} (expected : Expected ι α) (name : String) : Plan κ ι ω α := do
  match expected.cast (← Plan.component name) with
  | some value => return value
  | none => throw (.typeMismatch name expected.typeName "instance of another type")

end ComponentContainer
