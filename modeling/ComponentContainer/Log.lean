/-
  File:      ComponentContainer/Log.lean
  Subject:   Log lines.

  * `Level` -- how urgent a line is; `Level.shows` -- a log at one level shows the lines at that
    level and the more urgent ones.
  * `Line` -- a line of the log.
-/
namespace ComponentContainer.Log

/-- How urgent a line is. -/
inductive Level where
  | error
  | info
  | debug
  | trace
  deriving DecidableEq, Repr

/-- The more urgent, the smaller. -/
def Level.rank : Level → Nat
  | .error => 0
  | .info => 1
  | .debug => 2
  | .trace => 3

/-- A log at this level shows lines of the other one. -/
def Level.shows (log line : Level) : Bool := line.rank ≤ log.rank

def Level.text : Level → String
  | .error => "ERROR"
  | .info => "INFO"
  | .debug => "DEBUG"
  | .trace => "TRACE"

/-- A line of the log. -/
structure Line where
  level : Level
  text : String
  deriving DecidableEq, Repr

end ComponentContainer.Log
