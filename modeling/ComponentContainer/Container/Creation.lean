/-
  File:      ComponentContainer/Container/Creation.lean
  Subject:   How a container makes components and extensions.

  * `Extension.seeMerged`, `seeBefore`, `seeAfter` -- the hooks around the making of a component,
    of an extension with code of its own and of the two watchers.
  * `create` -- the making of a component: the merged definition is shown to those who want to see
    it, the supplier runs, and the component goes through the chain as it is then, first all hooks
    before and then all hooks after the initialization.
  * `whileCreating` -- marks a name as being made for as long as an attempt takes, whatever its
    outcome; a name so marked cannot be made again.
  * `component`, `extension` -- the request for a component, for an extension.

  Suppliers run by way of a parameter `exec`, so that nothing here depends on how deep creations
  may nest.
-/
import ComponentContainer.Container.State

namespace ComponentContainer

variable {κ ι ω : Type}

open Act Attempt

/-! ## 1. The hooks around the making of a component -/

namespace Extension

/-- The extension wants to see merged definitions. -/
def isMergedAware (b : Behaviour κ ι ω) (e : Extension κ) : Bool :=
  match e.body with
  | .custom code => b.mergedAware code
  | _ => false

/-- Shows a merged definition to an extension. -/
def seeMerged (b : Behaviour κ ι ω) (merged : MergedDefinition κ) (name : String)
    (e : Extension κ) : Attempt κ ι ω Unit := do
  perform <| record (.sawMerged e name)
  match e.body with
  | .custom code => ofOutcome (outside (b.onMerged code merged name))
  | _ => pure ()

/-- The hook before the initialization. The watchers let every component pass. -/
def seeBefore (b : Behaviour κ ι ω) (creation : Creation κ) (value : ι) (e : Extension κ) :
    Attempt κ ι ω ι := do
  perform <| record (.sawBefore e creation value)
  match e.body with
  | .custom code => ofOutcome (outside (b.before code value creation))
  | _ => pure value

/-- The hook after the initialization. The watchers let every component pass: one notes it if it
    is premature, each time; the other notes it if it is a listener, once. -/
def seeAfter (b : Behaviour κ ι ω) (creation : Creation κ) (value : ι) (e : Extension κ) :
    Attempt κ ι ω ι := do
  perform <| record (.sawAfter e creation value)
  match e.body with
  | .custom code => ofOutcome (outside (b.after code value creation))
  | .completeness target =>
    if creation.isPremature target then
      perform <| announce (.premature creation.name creation.typeName creation.chainLength target)
      perform <| note e.id creation.name
    pure value
  | .listeners =>
    if creation.isListener && !((← perform get).noted e.id).contains creation.name then
      perform <| announce (.listener creation.name)
      perform <| note e.id creation.name
    pure value

end Extension

/-! ## 2. Making -/

namespace Container

/-- A way to run the programs of suppliers. -/
abbrev Exec (κ ι ω : Type) := {α : Type} → FactoryProgram κ ι ω α → Act κ ι ω α

/-- Makes a component from its merged definition. -/
def create (b : Behaviour κ ι ω) (exec : Exec κ ι ω) (name : String)
    (merged : MergedDefinition κ) : Attempt κ ι ω ι := do
  let aware := (← perform container).chain.filter (Extension.isMergedAware b)
  aware.forM (Extension.seeMerged b merged name)
  perform <| record (.supplied name merged.definition)
  let value ← ofOutcome (exec (b.supply merged.definition.supplier))
  let chain := (← perform container).chain
  let creation : Creation κ := ⟨name, some merged, chain.length⟩
  let value ← chain.foldlM (Extension.seeBefore b creation) value
  chain.foldlM (Extension.seeAfter b creation) value

/-- Makes an extension from its definition. A definition that makes no extension cannot do so,
    even if it declares what is expected. -/
def createExtension (b : Behaviour κ ι ω) (exec : Exec κ ι ω) (name : String)
    (expected : Capability) (d : Definition κ) : Attempt κ ι ω (Handle κ) :=
  match d.kind with
  | .component => throw (.typeMismatch name expected.text Capability.component.text)
  | .postProcessor family => do
    perform <| record (.supplied name d)
    let code ← ofOutcome (exec (b.build d.supplier))
    return ⟨family, b.yielded code (← perform freshId)⟩

/-- Marks a name as being made while an attempt takes place. -/
def whileCreating {α : Type} (name : String) (attempt : Attempt κ ι ω α) : Attempt κ ι ω α := do
  if name ∈ (← perform container).creating then throw (.circularReference name)
  perform <| record (.began name)
  perform <| changeContainer fun c => { c with creating := name :: c.creating }
  let made ← perform (outcome attempt)
  perform <| record (.ended name)
  perform <| changeContainer fun c => { c with creating := c.creating.erase name }
  ofOutcome (pure made)

/-! ## 3. Requests -/

/-- The merged definition of that name; computed once and then remembered. -/
def mergedDefinition (name : String) : Attempt κ ι ω (MergedDefinition κ) := do
  let c ← perform container
  match c.merged.find? name with
  | some merged => return merged
  | none =>
    let merged ← ofOutcome (pure (freshMerge c.definitions name))
    perform <| record (.merged name)
    perform <| changeContainer fun c => { c with merged := c.merged.set name merged }
    return merged

/-- The component of that name; made once and then remembered. -/
def component (b : Behaviour κ ι ω) (exec : Exec κ ι ω) (name : String) : Attempt κ ι ω ι := do
  match (← perform container).components.find? name with
  | some value => return value
  | none =>
    let merged ← mergedDefinition name
    if merged.definition.template then throw (.invalidDefinition (.template name))
    match merged.definition.kind with
    | .postProcessor family =>
      throw (.typeMismatch name Capability.component.text family.text)
    | .component =>
      let value ← whileCreating name (create b exec name merged)
      perform <| record (.madeComponent name value)
      perform <| changeContainer fun c => { c with components := c.components.set name value }
      return value

/-- The extension of that name; made once and then remembered. -/
def extension (b : Behaviour κ ι ω) (exec : Exec κ ι ω) (name : String) (expected : Capability) :
    Attempt κ ι ω (Handle κ) := do
  let c ← perform container
  match c.definitions.find? name with
  | none => throw (.noSuchDefinition name)
  | some d =>
    if !d.declares expected then throw (.typeMismatch name expected.text d.kind.text)
    match c.extensions.find? name with
    | some handle => return handle
    | none =>
      let handle ← whileCreating name (createExtension b exec name expected d)
      perform <| announce (.instantiated name handle.family)
      perform <| record (.madeExtension name handle)
      perform <| changeContainer fun c => { c with extensions := c.extensions.set name handle }
      return handle

end Container

end ComponentContainer
