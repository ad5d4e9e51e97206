/-
  File:      ComponentContainer/Context/Report.lean
  Subject:   The report on a refresh.

  * `Report` -- what a refresh has done.
  * `Report.toJson` -- the report as JSON, its fields in the order of the structure.
-/
import ComponentContainer.Json

namespace ComponentContainer

/-- What a refresh has done. -/
structure Report where
  contextId : String
  startedAt : String
  finishedAt : String
  /-- The registry post-processors in the order in which they were dealt with. -/
  processedExtensions : List String
  registryPasses : Nat
  factoryHooks : Nat
  /-- The chain at the end. -/
  chain : List String
  componentsCreated : Nat
  /-- The components made before the chain was complete. -/
  premature : List String
  eventListeners : List String
  deriving DecidableEq

/-- A list of texts as JSON. -/
def Json.texts (l : List String) : Json := .array (l.map .text)

/-- The report as JSON. -/
def Report.toJson (r : Report) : Json :=
  .object
    [("context_id", .text r.contextId), ("started_at", .text r.startedAt),
     ("finished_at", .text r.finishedAt),
     ("processed_extensions", .texts r.processedExtensions),
     ("registry_passes", .number r.registryPasses),
     ("factory_hooks_invoked", .number r.factoryHooks),
     ("instance_post_processors", .texts r.chain),
     ("singletons_created", .number r.componentsCreated),
     ("premature_components", .texts r.premature),
     ("event_listeners", .texts r.eventListeners)]

end ComponentContainer
