/-
  File:      ComponentContainer/Failure.lean
  Subject:   What can go wrong in a container, and how it is worded.

  * `DefinitionFlaw`, `RuleFlaw`, `StateFlaw`, `SettingFlaw` -- the particular reasons why a
    definition, a rollback rule, the state of a context or a setting is refused; each has room for
    a reason in the words of the code that the container runs.
  * `Failure` -- the failures; `Failure.message` -- their wording, here and nowhere else.
  * `Failure.within` -- a failure reported by a surrounding activity.
-/
import ComponentContainer.Text.Numeral

namespace ComponentContainer

/-! ## 1. Reasons -/

/-- Why a definition is refused. -/
inductive DefinitionFlaw where
  | blankName
  | ownParent (name : String)
  | template (name : String)
  | stated (text : String)
  deriving DecidableEq, Repr

def DefinitionFlaw.message : DefinitionFlaw → String
  | .blankName => "definition name must not be blank"
  | .ownParent name => "'" ++ name ++ "' cannot be its own parent"
  | .template name => "'" ++ name ++ "' is a template definition and cannot be instantiated"
  | .stated text => text

/-- Why a rollback rule is refused. -/
inductive RuleFlaw where
  | blankPattern
  | notAnErrorType (name : String)
  | stated (text : String)
  deriving DecidableEq, Repr

def RuleFlaw.message : RuleFlaw → String
  | .blankPattern => "rollback rule pattern must not be empty"
  | .notAnErrorType name =>
    "cannot construct rollback rule from [" ++ name ++ "]: it is not an error type"
  | .stated text => text

/-- Why a context cannot do what it is asked. -/
inductive StateFlaw where
  | alreadyRefreshed (context : String)
  | notActive (context : String)
  | stated (text : String)
  deriving DecidableEq, Repr

def StateFlaw.message : StateFlaw → String
  | .alreadyRefreshed context => "context " ++ context ++ " has already been refreshed"
  | .notActive context => "context " ++ context ++ " is not active"
  | .stated text => text

/-- Why a setting is refused. The name of the variable comes first. -/
inductive SettingFlaw where
  | notABoolean (key text : String)
  | notANumeral (key : String) (fault : Text.NumeralFault)
  | zero (key : String)
  | stated (text : String)
  deriving DecidableEq, Repr

def SettingFlaw.message : SettingFlaw → String
  | .notABoolean key text => key ++ " must be a boolean, got '" ++ text ++ "'"
  | .notANumeral key fault => key ++ " must be a positive integer: " ++ fault.message
  | .zero key => key ++ " must be at least 1"
  | .stated text => text

/-! ## 2. Failures -/

/-- What can go wrong in a container. -/
inductive Failure where
  | noSuchDefinition (name : String)
  | duplicateDefinition (name : String)
  | invalidDefinition (flaw : DefinitionFlaw)
  | typeMismatch (name expected actual : String)
  | circularReference (name : String)
  | creationFailed (name reason : String)
  | extensionFailed (extension reason : String)
  | invalidRule (flaw : RuleFlaw)
  | invalidState (flaw : StateFlaw)
  | passLimitExceeded (limit : Nat)
  | invalidConfiguration (flaw : SettingFlaw)
  | internal (text : String)
  deriving DecidableEq, Repr

namespace Failure

/-- The wording of a failure. -/
def message : Failure → String
  | .noSuchDefinition name => "No component definition named '" ++ name ++ "'"
  | .duplicateDefinition name =>
    "Component definition '" ++ name ++ "' is already registered and overriding is disabled"
  | .invalidDefinition flaw => "Invalid component definition: " ++ flaw.message
  | .typeMismatch name expected actual =>
    "Component '" ++ name ++ "' is expected to be a " ++ expected ++ " but is a " ++ actual
  | .circularReference name => "Circular reference detected while creating '" ++ name ++ "'"
  | .creationFailed name reason => "Failed to create component '" ++ name ++ "': " ++ reason
  | .extensionFailed extension reason => "Extension '" ++ extension ++ "' failed: " ++ reason
  | .invalidRule flaw => "Invalid rollback rule: " ++ flaw.message
  | .invalidState flaw => "Invalid container state: " ++ flaw.message
  | .passLimitExceeded limit =>
    "Registry post-processing did not settle after " ++ toString limit ++ " passes"
  | .invalidConfiguration flaw => "Invalid configuration: " ++ flaw.message
  | .internal text => "Internal error: " ++ text

/-- The failure as reported by a surrounding activity: its own wording is kept behind the
    activity's. -/
def within (activity : String) (failure : Failure) : Failure :=
  .internal (activity ++ ": " ++ failure.message)

end Failure

end ComponentContainer
