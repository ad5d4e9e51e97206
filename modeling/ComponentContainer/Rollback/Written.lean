/-
  File:      ComponentContainer/Rollback/Written.lean
  Subject:   Rollback rules and policies as JSON.

  A rule is written as the text of its pattern; a rule with a demand as an object with the members
  `kind` and `pattern`; a policy as an object with the member `rules`. More is read than written:
  the members may come in either order, members of other names are passed over, a list of the
  members' values stands for the object, and the member `kind` may be an object whose only key is
  the demand, with the value null. A member given twice, a missing one and a blank pattern do not
  fit.

  * `Rule.toJson`, `PolicyRule.toJson`, `Policy.toJson` -- writing.
  * `readRule`, `readPolicyRule`, `readPolicy` -- reading a value; the first number is the depth
    that is left.
  * `Rule.ofJson`, `PolicyRule.ofJson`, `Policy.ofJson` -- reading a whole text.
-/
import ComponentContainer.Json.Reading
import ComponentContainer.Rollback.Policy

namespace ComponentContainer.Rollback

open Json

/-! ## 1. Writing -/

/-- The word for a demand. -/
def Demand.keyword : Demand → String
  | .rollback => "rollback"
  | .noRollback => "no_rollback"

def Rule.toJson (r : Rule) : Json := .text r.pattern

def PolicyRule.toJson (r : PolicyRule) : Json :=
  .object [("kind", .text r.demand.keyword), ("pattern", r.rule.toJson)]

def Policy.toJson (p : Policy) : Json := .object [("rules", .array (p.rules.map PolicyRule.toJson))]

/-! ## 2. Reading rules -/

/-- A reader of a value from the left. -/
abbrev Reader (α : Type) := List Char → Except Fault (α × List Char)

/-- A pattern that has been read, as a rule. -/
def ruleOf (pattern : String) : Except Fault Rule :=
  match Rule.ofPattern pattern with
  | .ok r => .ok r
  | .error _ => .error .unfit

/-- A demand whose word has been read. -/
def demandOf (keyword : String) : Except Fault Demand :=
  if keyword = Demand.rollback.keyword then .ok .rollback
  else if keyword = Demand.noRollback.keyword then .ok .noRollback
  else .error .unfit

/-- A string. -/
def readString : Reader String := fun cs =>
  match skipSpaces cs with
  | '"' :: rest => (readText rest).map fun read => (String.ofList read.1, read.2)
  | rest => .error (misfit rest)

/-- A rule. -/
def readRule : Reader Rule := fun cs => do
  let (pattern, rest) ← readString cs
  return (← ruleOf pattern, rest)

/-- The word null. -/
def readNull (cs : List Char) : Except Fault (List Char) :=
  match skipSpaces cs with
  | 'n' :: rest => word ['u', 'l', 'l'] rest
  | rest => .error (misfit rest)

/-- A demand: its word. -/
def readKeyword : Reader Demand := fun cs => do
  let (keyword, rest) ← readString cs
  return (← demandOf keyword, rest)

/-- A demand under its key: its word, or an object whose only key is the word. -/
def readDemand (depth : Nat) : Reader Demand := fun cs =>
  match skipSpaces cs with
  | '"' :: _ => readKeyword cs
  | '{' :: rest => do
    let _ ← enter depth
    match skipSpaces rest with
    | '"' :: _ =>
      let (demand, rest) ← readKeyword rest
      let rest ← colon rest
      let rest ← readNull rest
      return (demand, ← close '}' rest)
    | _ => throw .malformed
  | _ => .error .malformed

/-- The next of the known keys of an object; members of other names are passed over. The number
    bounds how many. -/
def nextKnown (known : List String) : Nat → Bool → Reader (Option String)
  | 0, _, _ => .error .malformed
  | steps + 1, first, cs => do
    let (key, rest) ← nextKey first cs
    match key with
    | none => return (none, rest)
    | some key =>
      if key ∈ known then return (some key, rest)
      else
        let rest ← colon rest
        let rest ← skipValue rest
        nextKnown known steps false rest

/-- The next of the known keys; there are fewer members than characters. -/
def nextField (known : List String) (first : Bool) : Reader (Option String) := fun cs =>
  nextKnown known (cs.length + 1) first cs

/-- The end of an object in which none of the known keys may come any more. -/
def endObject (known : List String) (cs : List Char) : Except Fault (List Char) := do
  let (key, rest) ← nextField known false cs
  if key.isSome then throw .unfit
  close '}' rest

/-- The keys of a rule with a demand. -/
def ruleKeys : List String := ["kind", "pattern"]

/-- The members of a rule with a demand. If the pattern comes first, it is judged only when the
    demand has been read. -/
def readRuleMembers (depth : Nat) : Reader PolicyRule := fun cs => do
  let (first, rest) ← nextField ruleKeys true cs
  match first with
  | none => throw .unfit
  | some "kind" =>
    let rest ← colon rest
    let (demand, rest) ← readDemand depth rest
    let (second, rest) ← nextField ruleKeys false rest
    if second ≠ some "pattern" then throw .unfit
    let rest ← colon rest
    let (rule, rest) ← readRule rest
    return (⟨demand, rule⟩, ← endObject ruleKeys rest)
  | some _ =>
    let rest ← colon rest
    let (pattern, rest) ← readAny depth rest
    let (second, rest) ← nextField ruleKeys false rest
    if second ≠ some "kind" then throw .unfit
    let rest ← colon rest
    let (demand, rest) ← readDemand depth rest
    match pattern with
    | none => throw .unfit
    | some pattern =>
      let rule ← ruleOf pattern
      return (⟨demand, rule⟩, ← endObject ruleKeys rest)

/-- The values of a rule with a demand, in order. -/
def readRuleValues : Reader PolicyRule := fun cs => do
  let (found, rest) ← nextElement true cs
  if !found then throw .unfit
  let (demand, rest) ← readKeyword rest
  let (found, rest) ← nextElement false rest
  if !found then throw .unfit
  let (rule, rest) ← readRule rest
  return (⟨demand, rule⟩, ← close ']' rest)

/-- A rule with a demand. -/
def readPolicyRule (depth : Nat) : Reader PolicyRule := fun cs =>
  match skipSpaces cs with
  | '[' :: rest => do
    let _ ← enter depth
    readRuleValues rest
  | '{' :: rest => do readRuleMembers (← enter depth) rest
  | rest => .error (misfit rest)

/-! ## 3. Reading policies -/

/-- The rules of a list up to its end. The number bounds how many. -/
def readRulesFrom (depth : Nat) : Nat → Bool → Reader (List PolicyRule)
  | 0, _, _ => .error .malformed
  | steps + 1, first, cs => do
    let (found, rest) ← nextElement first cs
    if found then
      let (rule, rest) ← readPolicyRule depth rest
      let (rules, rest) ← readRulesFrom depth steps false rest
      return (rule :: rules, rest)
    else return ([], ← close ']' rest)

/-- A list of rules. -/
def readRules (depth : Nat) : Reader (List PolicyRule) := fun cs =>
  match skipSpaces cs with
  | '[' :: rest => do readRulesFrom (← enter depth) (rest.length + 1) true rest
  | rest => .error (misfit rest)

/-- The key of a policy. -/
def policyKeys : List String := ["rules"]

/-- A policy. -/
def readPolicy (depth : Nat) : Reader Policy := fun cs =>
  match skipSpaces cs with
  | '[' :: rest => do
    let depth ← enter depth
    let (found, rest) ← nextElement true rest
    if !found then throw .unfit
    let (rules, rest) ← readRules depth rest
    return (⟨rules⟩, ← close ']' rest)
  | '{' :: rest => do
    let depth ← enter depth
    let (key, rest) ← nextField policyKeys true rest
    if key.isNone then throw .unfit
    let rest ← colon rest
    let (rules, rest) ← readRules depth rest
    return (⟨rules⟩, ← endObject policyKeys rest)
  | rest => .error (misfit rest)

/-! ## 4. Whole texts -/

def Rule.ofJson (s : String) : Except Fault Rule := whole readRule s

def PolicyRule.ofJson (s : String) : Except Fault PolicyRule := whole (readPolicyRule maxDepth) s

def Policy.ofJson (s : String) : Except Fault Policy := whole (readPolicy maxDepth) s

end ComponentContainer.Rollback
