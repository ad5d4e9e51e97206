/-
  File:      ComponentContainer/Notice.lean
  Subject:   What a container announces in its log.

  * `Notice` -- the announcements, with what they are about.
  * `Notice.line` -- level and wording of each, here and nowhere else.
-/
import ComponentContainer.Failure
import ComponentContainer.Log
import ComponentContainer.Definition

namespace ComponentContainer

open Log

/-- An announcement. -/
inductive Notice where
  /-- A definition is about to replace another. -/
  | overriding (name : String)
  | registering (name : String) (kind : Kind)
  | removed (name : String)
  | instantiated (name : String) (family : PostProcessor)
  | preinstantiated (count : Nat)
  /-- So many merged definitions are about to be forgotten. -/
  | clearing (count : Nat)
  /-- The registry hook of an extension that was handed in is about to run. -/
  | suppliedHook (name : String)
  | registryHook (name : String) (precedence : Precedence)
  | registryPass (number found : Nat)
  | factoryHook (name : String) (precedence : Precedence)
  | factoryPhasesDone (registryPostProcessors hooks : Nat)
  /-- An extension is about to join the chain. -/
  | joining (name : String)
  | chainDone (length : Nat)
  | premature (name typeName : String) (chainLength target : Nat)
  | listener (name : String)
  | refreshing (context : String)
  | refreshed (context : String) (components chainLength : Nat)
  | refreshFailed (context : String) (failure : Failure)
  deriving DecidableEq

/-- Level and wording of an announcement. -/
def Notice.line : Notice → Line
  | .overriding name => ⟨.info, "🔁 Overriding component definition '" ++ name ++ "'"⟩
  | .registering name kind =>
    ⟨.debug, "📦 Registering definition '" ++ name ++ "' (" ++ kind.text ++ ")"⟩
  | .removed name => ⟨.debug, "Removed definition '" ++ name ++ "'"⟩
  | .instantiated name family =>
    ⟨.debug, "Instantiated extension '" ++ name ++ "' as " ++ family.text⟩
  | .preinstantiated count =>
    ⟨.debug, "Pre-instantiated " ++ toString count ++ " singleton components"⟩
  | .clearing count => ⟨.debug, "Clearing " ++ toString count ++ " merged definitions"⟩
  | .suppliedHook name =>
    ⟨.debug, "🧩 Invoking supplied registry post-processor '" ++ name ++ "'"⟩
  | .registryHook name precedence =>
    ⟨.debug, "🧩 Invoking registry post-processor '" ++ name ++ "' (" ++ precedence.text ++ ")"⟩
  | .registryPass number found =>
    ⟨.debug, "🔁 Registry pass " ++ toString number ++ " found " ++ toString found ++
      " new post-processors"⟩
  | .factoryHook name precedence =>
    ⟨.debug, "🔧 Invoking factory post-processor '" ++ name ++ "' (" ++ precedence.text ++ ")"⟩
  | .factoryPhasesDone registryPostProcessors hooks =>
    ⟨.info, "✅ Factory post-processing finished: " ++ toString registryPostProcessors ++
      " registry post-processors, " ++ toString hooks ++ " factory hooks"⟩
  | .joining name => ⟨.debug, "⛓️ Registering instance post-processor '" ++ name ++ "'"⟩
  | .chainDone length =>
    ⟨.info, "✅ Registered " ++ toString length ++ " instance post-processors"⟩
  | .premature name typeName chainLength target =>
    ⟨.info, "⚠️ Component '" ++ name ++ "' of type [" ++ typeName ++
      "] is not eligible for getting processed by all instance post-processors (" ++
      toString chainLength ++ "/" ++ toString target ++ " registered)"⟩
  | .listener name => ⟨.debug, "👂 Detected event listener '" ++ name ++ "'"⟩
  | .refreshing context => ⟨.info, "🚀 Refreshing context " ++ context⟩
  | .refreshed context components chainLength =>
    ⟨.info, "✅ Context " ++ context ++ " refreshed: " ++ toString components ++
      " singletons, " ++ toString chainLength ++ " instance post-processors"⟩
  | .refreshFailed context failure =>
    ⟨.error, "❌ Context " ++ context ++ " refresh failed: " ++ failure.message⟩

end ComponentContainer
