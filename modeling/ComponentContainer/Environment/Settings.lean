/-
  File:      ComponentContainer/Environment/Settings.lean
  Subject:   The settings of a container and of the rollback policy.

  * `readBoolean` -- a boolean in one of its spellings; `readPassLimit` -- a positive number.
  * `Environment.overriding`, `Environment.passLimit` -- the settings of a container; a variable
    that is absent means the default, one that cannot be read is refused.
  * `Environment.rollbackPatterns`, `noRollbackPatterns`, `policy` -- the rollback policy.
  * `Environment.container`, `bootstrapOptions` -- what the settings are for; `setUp` -- both, as a
    context needs them.
-/
import ComponentContainer.Bootstrap.FactoryPhases
import ComponentContainer.Environment
import ComponentContainer.Rollback.Policy
import ComponentContainer.Text.Lowercase

namespace ComponentContainer

/-! ## 1. Values -/

/-- A boolean in one of its spellings, in any case and with blanks around it. -/
def readBoolean (key value : String) : Except Failure Bool :=
  let word := Text.lowercase (Text.trim value)
  if word ∈ ["true", "1", "yes", "on"] then .ok true
  else if word ∈ ["false", "0", "no", "off"] then .ok false
  else .error (.invalidConfiguration (.notABoolean key word))

/-- The largest count of a machine word of 64 bits. -/
def maxCount : Nat := Nat.pow 2 64 - 1

/-- The variable for replacing definitions. -/
def overridingKey : String := "CONTAINER_ALLOW_DEFINITION_OVERRIDING"

/-- The variable for the limit of registry passes. -/
def passLimitKey : String := "CONTAINER_MAX_REGISTRY_PASSES"

/-- A positive number with blanks around it. -/
def readPassLimit (value : String) : Except Failure Nat :=
  match Text.readNumeral maxCount (Text.trim value).toList with
  | .error fault => .error (.invalidConfiguration (.notANumeral passLimitKey fault))
  | .ok 0 => .error (.invalidConfiguration (.zero passLimitKey))
  | .ok n => .ok n

/-! ## 2. Settings -/

namespace Environment

variable (e : Environment)

/-- Definitions may be replaced. -/
def overriding : Except Failure Bool :=
  match e.text? overridingKey with
  | some value => readBoolean overridingKey value
  | none => .ok true

/-- The limit of registry passes, if there is one. -/
def passLimit : Except Failure (Option Nat) :=
  match e.text? passLimitKey with
  | some value => (readPassLimit value).map some
  | none => .ok none

/-- An empty container with the settings in force. -/
def container {κ ι : Type} : Except Failure (Container κ ι) :=
  e.overriding.map fun overriding => { overriding }

/-- The options of a bootstrap in force. -/
def bootstrapOptions : Except Failure Bootstrap.Options :=
  e.passLimit.map fun maxPasses => { maxPasses }

/-- What a context with the settings in force begins with: its container and its options. -/
def setUp {κ ι : Type} : Except Failure (Container κ ι × Bootstrap.Options) := do
  let container ← e.container
  let options ← e.bootstrapOptions
  return (container, options)

/-- The patterns that a variable lists. -/
def patterns (key : String) : List String :=
  match e.text? key with
  | some value => Text.patterns value
  | none => []

/-- The patterns of errors to roll back for. -/
def rollbackPatterns : List String := e.patterns "TX_ROLLBACK_FOR"

/-- The patterns of errors not to roll back for. -/
def noRollbackPatterns : List String := e.patterns "TX_NO_ROLLBACK_FOR"

/-- The rollback policy in force. -/
def policy : Except Failure Rollback.Policy :=
  Rollback.Policy.ofPatterns e.rollbackPatterns e.noRollbackPatterns

end Environment

end ComponentContainer
