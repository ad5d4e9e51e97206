/-
  File:      ComponentContainer/Extension.lean
  Subject:   Extensions: things with an identity that take part in the bootstrap.

  * `Body κ` -- what an extension does: code of its own, or one of the two watchers that the
    container brings along.
  * `Extension κ` -- a body with an identity; two extensions are the same exactly if their
    identities are, whatever they are called.
  * `Handle κ` -- an extension together with the family it was made for.
  * `Creation κ` -- what an extension is told about a component that is being made.
-/
import ComponentContainer.Definition

namespace ComponentContainer

/-! ## 1. Extensions -/

/-- What an extension does. -/
inductive Body (κ : Type) where
  /-- Code of its own. -/
  | custom (code : κ)
  /-- Notes each component made while the chain is shorter than `target`. -/
  | completeness (target : Nat)
  /-- Notes each component that wants to hear events. -/
  | listeners
  deriving DecidableEq

/-- A body with an identity. -/
structure Extension (κ : Type) where
  id : Nat
  body : Body κ
  deriving DecidableEq

namespace Body

variable {κ : Type}

/-- The name an extension is shown under; `name` names the code of its own. -/
def name (name : κ → String) : Body κ → String
  | .custom code => name code
  | .completeness _ => "PrematureInstantiationChecker"
  | .listeners => "ListenerDetector"

end Body

/-- An extension and the family it was made for. -/
structure Handle (κ : Type) where
  family : PostProcessor
  extension : Extension κ
  deriving DecidableEq

/-- The capability a handle provides. -/
def Handle.capability {κ : Type} (h : Handle κ) : Capability := .postProcessor h.family

/-! ## 2. Creations -/

/-- What an extension is told about a component that is being made. -/
structure Creation (κ : Type) where
  name : String
  /-- The definition, merged when the creation began; absent for a thing made without one. -/
  definition : Option (MergedDefinition κ)
  /-- The length of the chain the component goes through. -/
  chainLength : Nat
  deriving DecidableEq

namespace Creation

variable {κ : Type}

def role (c : Creation κ) : Option Role := c.definition.map (·.definition.role)

def isInfrastructure (c : Creation κ) : Bool := c.role == some .infrastructure

/-- Made before `target` extensions were in the chain, and not part of the inner workings. -/
def isPremature (c : Creation κ) (target : Nat) : Bool :=
  !c.isInfrastructure && c.chainLength < target

/-- Declared to hear events. -/
def isListener (c : Creation κ) : Bool :=
  match c.definition with
  | some merged => merged.definition.declares .eventListener
  | none => false

/-- The name of the type that is made, as far as it is known. -/
def typeName (c : Creation κ) : String :=
  match c.definition with
  | some merged => merged.definition.typeName
  | none => "unknown"

end Creation

end ComponentContainer
