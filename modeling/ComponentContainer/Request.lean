/-
  File:      ComponentContainer/Request.lean
  Subject:   What code that runs in a container may ask for.

  * `RegistryRequest` -- what a registry hook may ask for: the registry, and the world that the
    code shares outside of the container.
  * `Request` -- what suppliers, factory hooks and the bootstrap may ask for: the registry and the
    factory.
  * `registryInterface`, `factoryInterface` -- the requests with their answers; a request that can
    fail is answered with an `Except`, and it is for the code to go on or to give up.
  * `Program.onRegistry` -- a program over the registry as one over the factory.
-/
import ComponentContainer.Container
import ComponentContainer.Notice
import ComponentContainer.Program

namespace ComponentContainer

variable {κ ι ω : Type}

/-! ## 1. The registry -/

/-- What a registry hook may ask for. -/
inductive RegistryRequest (κ ω : Type) where
  | register (definition : Definition κ)
  | remove (name : String)
  | find (name : String)
  /-- Changes a definition in place; answers whether there is one. -/
  | edit (name : String) (change : Definition κ → Definition κ)
  | names
  | namesFor (capability : Capability)
  /-- Changes the world outside; answers with the world before. -/
  | world (change : ω → ω)

@[reducible] def RegistryRequest.Answer : RegistryRequest κ ω → Type
  | .register _ => Except Failure Unit
  | .remove _ => Except Failure (Definition κ)
  | .find _ => Option (Definition κ)
  | .edit _ _ => Bool
  | .names => List String
  | .namesFor _ => List String
  | .world _ => ω

/-- The registry as seen by a registry hook. -/
@[reducible] def registryInterface (κ ω : Type) : Interface :=
  ⟨RegistryRequest κ ω, RegistryRequest.Answer⟩

/-! ## 2. The factory -/

/-- What suppliers, factory hooks and the bootstrap may ask for. -/
inductive Request (κ ι ω : Type) where
  | registry (request : RegistryRequest κ ω)
  /-- The extension of that name, made if need be; it has to have the capability. -/
  | extension (name : String) (expected : Capability)
  /-- The component of that name, made if need be. -/
  | component (name : String)
  | merged (name : String)
  /-- Puts an extension at the end of the chain. -/
  | attach (extension : Extension κ)
  | chainLength
  | chainNames
  | clearMerged
  | comparator
  /-- A new extension, with an identity of its own. -/
  | create (body : Body κ)
  | registryHook (extension : Extension κ)
  | factoryHook (extension : Extension κ)
  | announce (notice : Notice)
  /-- Never answered. -/
  | forever

@[reducible] def Request.Answer : Request κ ι ω → Type
  | .registry r => r.Answer
  | .extension _ _ => Except Failure (Handle κ)
  | .component _ => Except Failure ι
  | .merged _ => Except Failure (MergedDefinition κ)
  | .attach _ => Unit
  | .chainLength => Nat
  | .chainNames => List String
  | .clearMerged => Unit
  | .comparator => Option Comparator
  | .create _ => Extension κ
  | .registryHook _ => Except Failure Unit
  | .factoryHook _ => Except Failure Unit
  | .announce _ => Unit
  | .forever => Empty

/-- The factory as seen by suppliers, factory hooks and the bootstrap. -/
@[reducible] def factoryInterface (κ ι ω : Type) : Interface :=
  ⟨Request κ ι ω, Request.Answer⟩

/-- A program over the factory. -/
abbrev FactoryProgram (κ ι ω : Type) : Type → Type := Program (factoryInterface κ ι ω)

/-- A program over the registry. -/
abbrev RegistryProgram (κ ω : Type) : Type → Type := Program (registryInterface κ ω)

/-- A program over the registry as one over the factory. -/
def Program.onRegistry {α : Type} (p : RegistryProgram κ ω α) : FactoryProgram κ ι ω α :=
  Program.embed Request.registry (fun _ answer => answer) p

/-! ## 3. Behaviour -/

/-- The code that runs in a container, under the names `κ`: what the suppliers and the hooks of the
    extensions do. Hooks around the making of a component cannot reach the container; they see
    the component, what is known of its creation, and the world outside. -/
structure Behaviour (κ ι ω : Type) where
  /-- The name of an extension. -/
  name : κ → String
  /-- The supplier of a component. -/
  supply : κ → FactoryProgram κ ι ω (Except Failure ι)
  /-- The supplier of an extension: the code of the extension. -/
  build : κ → FactoryProgram κ ι ω (Except Failure κ)
  /-- The extension that code stands for, where it is one that was there before. -/
  existing : κ → Option (Extension κ) := fun _ => none
  onRegistry : κ → RegistryProgram κ ω (Except Failure Unit)
  onFactory : κ → FactoryProgram κ ι ω (Except Failure Unit)
  /-- The extension wants to see merged definitions. -/
  mergedAware : κ → Bool
  onMerged : κ → MergedDefinition κ → String → ω → Except Failure Unit × ω
  before : κ → ι → Creation κ → ω → Except Failure ι × ω
  after : κ → ι → Creation κ → ω → Except Failure ι × ω

/-- The extension that a supplier has yielded: the one that the code stands for, or a new one. -/
def Behaviour.yielded (b : Behaviour κ ι ω) (code : κ) (id : Nat) : Extension κ :=
  (b.existing code).getD ⟨id, .custom code⟩

end ComponentContainer
