/-
  File:      ComponentContainer/Definition.lean
  Subject:   Definitions: the named descriptions from which the container makes things.

  * `Role`, `PostProcessor`, `Kind`, `Capability` -- what a definition is for, what it makes, and
    what it can be asked for.
  * `Kind.declares` -- a registry post-processor can also be asked for as a factory
    post-processor; nothing else has two capabilities by its kind.
  * `Definition κ` -- a definition whose maker is the code `κ`.
  * `MergedDefinition`, `MergedDefinition.ofAncestry` -- a definition with the attributes of its
    ancestors under its own; `get?_ofAncestry` says which value each key gets.
-/
import ComponentContainer.Attributes
import ComponentContainer.Precedence

namespace ComponentContainer

/-! ## 1. What a definition is for -/

/-- Whose business a component is. -/
inductive Role where
  | application
  | support
  | infrastructure
  deriving DecidableEq, Repr

instance : Inhabited Role := ⟨.application⟩

def Role.text : Role → String
  | .application => "Application"
  | .support => "Support"
  | .infrastructure => "Infrastructure"

/-- The three families of extensions. -/
inductive PostProcessor where
  /-- Adds, changes and removes definitions; then takes its turn as a factory post-processor. -/
  | registry
  /-- Changes the definitions once they are all there. -/
  | factory
  /-- Sees every component as it is made. -/
  | component
  deriving DecidableEq, Repr

/-- What a definition makes. -/
inductive Kind where
  | component
  | postProcessor (family : PostProcessor)
  deriving DecidableEq, Repr

/-- What a definition can be asked for. -/
inductive Capability where
  | component
  | postProcessor (family : PostProcessor)
  | eventListener
  deriving DecidableEq, Repr

def PostProcessor.text : PostProcessor → String
  | .registry => "registry post-processor"
  | .factory => "factory post-processor"
  | .component => "instance post-processor"

def Kind.text : Kind → String
  | .component => "component"
  | .postProcessor family => family.text

def Capability.text : Capability → String
  | .component => "component"
  | .postProcessor family => family.text
  | .eventListener => "event listener"

/-- A kind provides a capability. Being an event listener is never a matter of the kind. -/
def Kind.declares : Kind → Capability → Bool
  | .component, .component => true
  | .postProcessor .registry, .postProcessor .factory => true
  | .postProcessor f, .postProcessor g => f == g
  | _, _ => false

/-! ## 2. Definitions -/

/-- A named description of a thing to make. The code `supplier` makes it. -/
structure Definition (κ : Type) where
  name : String
  /-- The name of the type of what is made. -/
  typeName : String
  kind : Kind
  supplier : κ
  role : Role := .application
  precedence : Precedence := .unordered
  parent : Option String := none
  attributes : Attributes := .empty
  /-- Not made ahead of the first request. -/
  lazy : Bool := false
  /-- Passes on its attributes to its children and is never made itself. -/
  template : Bool := false
  /-- What is made wants to hear events. -/
  listener : Bool := false
  deriving DecidableEq

namespace Definition

variable {κ : Type}

/-- The definition can be asked for as `capability`. -/
def declares (d : Definition κ) : Capability → Bool
  | .eventListener => d.listener
  | capability => d.kind.declares capability

/-- Part of the inner workings. -/
def isInfrastructure (d : Definition κ) : Bool := d.role == .infrastructure

/-- Puts an attribute. -/
def setAttribute (d : Definition κ) (key value : String) : Definition κ :=
  { d with attributes := d.attributes.set key value }

/-- To be made ahead of the first request: a component, neither lazy nor a template. -/
def isEager (d : Definition κ) : Bool :=
  d.declares .component && !d.lazy && !d.template

end Definition

/-! ## 3. Merged definitions -/

/-- A definition together with what it inherits. -/
structure MergedDefinition (κ : Type) where
  definition : Definition κ
  deriving DecidableEq

namespace MergedDefinition

variable {κ : Type}

/-- The attributes of a line of ancestors, nearest first: the nearer one decides. -/
def inherited : List (Definition κ) → Attributes
  | [] => .empty
  | d :: ancestors => d.attributes.onto (inherited ancestors)

/-- Merges a definition with its ancestors, nearest first. Only attributes are inherited; all else
    is the definition's own. -/
def ofAncestry (d : Definition κ) (ancestors : List (Definition κ)) : MergedDefinition κ :=
  ⟨{ d with attributes := inherited (d :: ancestors) }⟩

theorem get?_inherited (line : List (Definition κ)) (key : String) :
    (inherited line).get? key = line.findSome? (·.attributes.get? key) := by
  induction line with
  | nil => rfl
  | cons d rest ih =>
    rw [inherited, Attributes.get?_onto, ih, List.findSome?_cons]
    cases d.attributes.get? key <;> rfl

/-- **Each key gets the value of the nearest definition that sets it.** -/
theorem get?_ofAncestry (d : Definition κ) (ancestors : List (Definition κ)) (key : String) :
    (ofAncestry d ancestors).definition.attributes.get? key =
      (d :: ancestors).findSome? (·.attributes.get? key) :=
  get?_inherited (d :: ancestors) key

end MergedDefinition

end ComponentContainer
