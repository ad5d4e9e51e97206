/-
  File:      ComponentContainer/Environment/Profile.lean
  Subject:   Profiles: what a program is being run for.

  * `Profile` -- development, test, staging, production.
  * `Profile.ofText` -- the profile of a name; any other name is that of production.
  * `Environment.profile` -- the profile in force.
  * `Profile.file`, `Profile.logLevel` -- its file of variables and its log level.
-/
import ComponentContainer.Environment
import ComponentContainer.Log
import ComponentContainer.Text.Blank
import ComponentContainer.Text.Lowercase

namespace ComponentContainer

/-- What a program is being run for. -/
inductive Profile where
  | development
  | test
  | staging
  | production
  deriving DecidableEq, Repr

namespace Profile

/-- The profile of a name, in any case and with blanks around it; any other name is that of
    production. -/
def ofText (s : String) : Profile :=
  let name := Text.lowercase (Text.trim s)
  if name = "development" ∨ name = "dev" then .development
  else if name = "test" ∨ name = "testing" then .test
  else if name = "staging" ∨ name = "stage" then .staging
  else .production

def text : Profile → String
  | .development => "Development"
  | .test => "Test"
  | .staging => "Staging"
  | .production => "Production"

/-- The file with the variables of a profile. -/
def file : Profile → String
  | .development => ".env.development"
  | .test => ".env.test"
  | .staging => ".env.staging"
  | .production => ".env.production"

/-- The log level of a profile, unless another is asked for. -/
def logLevel : Profile → Log.Level
  | .development => .debug
  | _ => .info

/-- The word for the log level of a profile. -/
def logFilter (p : Profile) : String :=
  match p.logLevel with
  | .debug => "debug"
  | _ => "info"

end Profile

/-- The profile in force. -/
def Environment.profile (e : Environment) : Profile :=
  Profile.ofText ((e.text? "ENVIRONMENT").getD "production")

end ComponentContainer
