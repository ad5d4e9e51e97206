/-
  File:      ComponentContainer/Rollback/Rule.lean
  Subject:   Rollback rules: patterns that match error types by their names.

  * `Rule` -- a pattern; `Rule.ofPattern`, `Rule.ofType` -- the ways to make one.
  * `Rule.matchesName` -- the pattern is part of the type's name.
  * `Rule.depth` -- the distance from the thrown type to the nearest type of its line that matches;
    nothing above the root of all errors is looked at. A line is taken to have fewer than 2^31
    types: a distance has no bound here, and on a longer line a signed count of 32 bits would run
    over.
  * `PolicyRule` -- a rule together with what it demands.
-/
import ComponentContainer.Failure
import ComponentContainer.Log
import ComponentContainer.Rollback.ErrorType
import ComponentContainer.Text.Blank

namespace ComponentContainer.Rollback

/-! ## 1. Rules -/

/-- A pattern that matches error types by their names. -/
structure Rule where
  pattern : String
  deriving DecidableEq, Repr

namespace Rule

/-- The rule for a pattern, which must not be blank; it is taken as it is. -/
def ofPattern (pattern : String) : Except Failure Rule :=
  if Text.isBlank pattern then .error (.invalidRule .blankPattern) else .ok ⟨pattern⟩

/-- The rule for an error type: its whole name. -/
def ofType (t : ErrorType) : Except Failure Rule :=
  if t.isErrorType then .ok ⟨t.name⟩ else .error (.invalidRule (.notAnErrorType t.name))

/-- The rule for all runtime exceptions. -/
def onRuntimeExceptions : Rule := ⟨ErrorType.runtimeException.name⟩

/-- The wording of a rule. -/
def text (r : Rule) : String := "RollbackRule with pattern [" ++ r.pattern ++ "]"

/-! ## 2. Matching -/

/-- `part` is a run of characters of `whole`. -/
def isPart (part : List Char) : List Char → Bool
  | [] => part.isEmpty
  | c :: rest => part.isPrefixOf (c :: rest) || isPart part rest

/-- The pattern is part of the type's name. -/
def matchesName (r : Rule) (t : ErrorType) : Bool := isPart r.pattern.toList t.name.toList

/-- The distance to the first type of a line that matches. The root of all errors is the last to be
    looked at. -/
def depthAlong (r : Rule) : List ErrorType → Option Nat
  | [] => none
  | t :: line =>
    if r.matchesName t then some 0
    else if t.isRootError then none
    else (r.depthAlong line).map (· + 1)

/-- The distance from a thrown type to the nearest type of its line that matches. -/
def depth (r : Rule) (thrown : ErrorType) : Option Nat := r.depthAlong thrown.ancestors

/-- The lines that looking for the depth writes to the log. -/
def depthLog (r : Rule) (thrown : ErrorType) : List Log.Line :=
  match r.depth thrown with
  | some d => [⟨.trace, r.text ++ " matched " ++ thrown.name ++ " at depth " ++ toString d⟩]
  | none => []

end Rule

/-! ## 3. Rules with a demand -/

/-- What a rule demands. -/
inductive Demand where
  | rollback
  | noRollback
  deriving DecidableEq, Repr

/-- A rule together with what it demands. -/
structure PolicyRule where
  demand : Demand
  rule : Rule
  deriving DecidableEq, Repr

/-- The sign of a demand. -/
def Demand.sign : Demand → String
  | .rollback => "+"
  | .noRollback => "-"

namespace PolicyRule

/-- The rule demands that everything be undone. -/
def rollsBack (r : PolicyRule) : Bool := r.demand == .rollback

def depth (r : PolicyRule) (thrown : ErrorType) : Option Nat := r.rule.depth thrown

/-- The wording: the sign of the demand and the pattern. -/
def text (r : PolicyRule) : String := r.demand.sign ++ r.rule.pattern

end PolicyRule

end ComponentContainer.Rollback
