/-
  File:      ComponentContainer/Container.lean
  Subject:   A container: definitions, what was made from them, and the chain.

  * `Container κ ι` -- definitions with suppliers `κ`, components `ι`.
  * `Container.register`, `remove`, `edit` -- the registry; a refusal is a failure and no new
    container, so it cannot leave a trace.
  * `Container.freshMerge` -- merges a definition with its ancestors, without any cache.
  * `Container.attach` -- puts an extension at the end of the chain, from wherever it was.
-/
import ComponentContainer.Extension
import ComponentContainer.Failure
import ComponentContainer.Table
import ComponentContainer.Text.Blank
import ComponentContainer.Text.Pieces

namespace ComponentContainer

/-! ## 1. The container -/

/-- Definitions, what was made from them, and the chain that components go through. -/
structure Container (κ ι : Type) where
  /-- The definitions, in the order of their registration. -/
  definitions : Table (Definition κ) := .empty
  /-- A definition may replace another of its name. -/
  overriding : Bool := true
  /-- Merged definitions computed so far. -/
  merged : Table (MergedDefinition κ) := .empty
  /-- Extensions made so far. -/
  extensions : Table (Handle κ) := .empty
  /-- Components made so far. -/
  components : Table ι := .empty
  /-- The names being made right now, innermost first. -/
  creating : List String := []
  /-- The extensions that each new component goes through, in order. -/
  chain : List (Extension κ) := []
  /-- Replaces the usual order among extensions. -/
  comparator : Option Comparator := none

namespace Container

variable {κ ι : Type}

instance : Inhabited (Container κ ι) := ⟨{}⟩

/-! ## 2. The registry -/

/-- Forgets all that was computed or made under a name. -/
def evict (c : Container κ ι) (name : String) : Container κ ι :=
  { c with
    merged := c.merged.erase name
    extensions := c.extensions.erase name
    components := c.components.erase name }

/-- Registers a definition. A definition that replaces another keeps its place, and what was made
    from the other is forgotten. -/
def register (c : Container κ ι) (d : Definition κ) : Except Failure (Container κ ι) :=
  if Text.isBlank d.name then .error (.invalidDefinition .blankName)
  else if d.parent = some d.name then .error (.invalidDefinition (.ownParent d.name))
  else if c.definitions.contains d.name then
    if c.overriding then .ok { c.evict d.name with definitions := c.definitions.set d.name d }
    else .error (.duplicateDefinition d.name)
  else .ok { c with definitions := c.definitions.set d.name d }

/-- Removes a definition together with what was made from it. -/
def remove (c : Container κ ι) (name : String) :
    Except Failure (Definition κ × Container κ ι) :=
  match c.definitions.find? name with
  | none => .error (.noSuchDefinition name)
  | some d => .ok (d, { c.evict name with definitions := c.definitions.erase name })

/-- Changes a definition in place. What was computed or made from it stays as it is. -/
def edit (c : Container κ ι) (name : String) (change : Definition κ → Definition κ) :
    Container κ ι :=
  { c with definitions := c.definitions.modify name change }

/-- The names of the definitions that declare a capability, in the order of registration. -/
def namesFor (c : Container κ ι) (capability : Capability) : List String :=
  (c.definitions.entries.filter fun e => e.2.declares capability).map Prod.fst

/-! ## 3. Merging -/

/-- The ancestors along the parent links from `parent` on, nearest first. A name met before closes
    a circle, and `start` is to blame; `steps` bounds the number of links. -/
def ancestorsWithin (definitions : Table (Definition κ)) (start : String) :
    Nat → List String → Option String → Except Failure (List (Definition κ))
  | _, _, none => .ok []
  | 0, _, some _ => .error (.circularReference start)
  | steps + 1, visited, some name =>
    if name ∈ visited then .error (.circularReference start)
    else match definitions.find? name with
      | none => .error (.noSuchDefinition name)
      | some d =>
        match ancestorsWithin definitions start steps (name :: visited) d.parent with
        | .error failure => .error failure
        | .ok ancestors => .ok (d :: ancestors)

/-- Merges a definition with its ancestors as they are now. There are at most as many links as
    definitions before a name comes up again. -/
def freshMerge (definitions : Table (Definition κ)) (name : String) :
    Except Failure (MergedDefinition κ) :=
  match definitions.find? name with
  | none => .error (.noSuchDefinition name)
  | some d =>
    match ancestorsWithin definitions name (definitions.size + 1) [name] d.parent with
    | .error failure => .error failure
    | .ok ancestors => .ok (.ofAncestry d ancestors)

/-! ## 4. The chain -/

/-- Puts an extension at the end of the chain; if it was in the chain, it leaves its old place. -/
def attach (c : Container κ ι) (e : Extension κ) : Container κ ι :=
  { c with chain := c.chain.filter (fun other => other.id ≠ e.id) ++ [e] }

/-- The names of the extensions in the chain, without their paths. -/
def chainNames (c : Container κ ι) (name : κ → String) : List String :=
  c.chain.map fun e => Text.shortName (e.body.name name)

end Container

end ComponentContainer
