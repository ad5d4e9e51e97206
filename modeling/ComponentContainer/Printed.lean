/-
  File:      ComponentContainer/Printed.lean
  Subject:   Definitions and handles printed for people who look for a mistake.

  * `record` -- a named record with its fields, in braces.
  * `Definition.printed` -- all fields of a definition but its supplier.
  * `Handle.printed` -- the name of a handle's extension and its capability.
-/
import ComponentContainer.Extension
import ComponentContainer.Text.Quoted

namespace ComponentContainer

open Text

/-- A record: its name and its fields in braces. -/
def record (name : String) (fields : List (String × String)) : String :=
  name ++ " \x7b " ++ ", ".intercalate (fields.map fun f => f.1 ++ ": " ++ f.2) ++ " \x7d"

/-- A name that may be missing. -/
def printedOption : Option String → String
  | none => "None"
  | some s => "Some(" ++ quoted s ++ ")"

/-- Attributes as a map in braces. -/
def Attributes.printed (a : Attributes) : String :=
  "\x7b" ++ ", ".intercalate (a.entries.map fun e => quoted e.1 ++ ": " ++ quoted e.2) ++ "\x7d"

/-- All fields of a definition but its supplier. -/
def Definition.printed {κ : Type} (d : Definition κ) : String :=
  record "ComponentDefinition"
    [("name", quoted d.name), ("type_name", quoted d.typeName), ("kind", quoted d.kind.text),
     ("role", d.role.text), ("order", d.precedence.text), ("parent", printedOption d.parent),
     ("attributes", d.attributes.printed), ("lazy_init", toString d.lazy),
     ("abstract_template", toString d.template), ("event_listener", toString d.listener)]

/-- The word for a family where words are names of things. -/
def PostProcessor.word : PostProcessor → String
  | .registry => "RegistryPostProcessor"
  | .factory => "FactoryPostProcessor"
  | .component => "InstancePostProcessor"

/-- The name of a handle's extension and its capability; `name` names the code of its own. -/
def Handle.printed {κ : Type} (name : κ → String) (h : Handle κ) : String :=
  record "ExtensionHandle"
    [("name", quoted (h.extension.body.name name)), ("capability", h.family.word)]

end ComponentContainer
