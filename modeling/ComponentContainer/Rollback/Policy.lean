/-
  File:      ComponentContainer/Rollback/Policy.lean
  Subject:   Rollback policies: the rule that matches nearest decides.

  * `Policy` -- rules in order.
  * `Policy.winner` -- the first rule of the least depth; rules that do not match take no part.
  * `Policy.rollsBack` -- what the winner demands; without one, runtime exceptions and errors are
    rolled back and nothing else.
  * `Policy.ofPatterns` -- the rules for two lists of patterns.
-/
import ComponentContainer.Rollback.Rule

namespace ComponentContainer.Rollback

/-- Rules in order. -/
structure Policy where
  rules : List PolicyRule := []
  deriving DecidableEq, Repr

namespace Policy

/-! ## 1. Rules -/

/-- One more rule that demands a rollback. -/
def rollbackFor (p : Policy) (r : Rule) : Policy := ⟨p.rules ++ [⟨.rollback, r⟩]⟩

/-- One more rule that forbids a rollback. -/
def noRollbackFor (p : Policy) (r : Rule) : Policy := ⟨p.rules ++ [⟨.noRollback, r⟩]⟩

/-- The rules for two lists of patterns; those that demand a rollback come first. -/
def ofPatterns (rollback noRollback : List String) : Except Failure Policy := do
  let first ← rollback.mapM Rule.ofPattern
  let second ← noRollback.mapM Rule.ofPattern
  return ⟨first.map (⟨.rollback, ·⟩) ++ second.map (⟨.noRollback, ·⟩)⟩

/-! ## 2. Decisions -/

/-- The better of the best so far and one more rule: only a smaller depth beats the best. -/
def better (thrown : ErrorType) (best : Option (Nat × PolicyRule)) (rule : PolicyRule) :
    Option (Nat × PolicyRule) :=
  match rule.depth thrown, best with
  | none, _ => best
  | some d, none => some (d, rule)
  | some d, some (least, _) => if d < least then some (d, rule) else best

/-- The first rule of the least depth. -/
def winner (p : Policy) (thrown : ErrorType) : Option PolicyRule :=
  (p.rules.foldl (better thrown) none).map Prod.snd

/-- What holds if no rule matches. -/
def rollsBackByDefault (thrown : ErrorType) : Bool :=
  thrown.isSubtypeOf .runtimeException || thrown.isSubtypeOf .error

/-- The decision for a thrown type. -/
def rollsBack (p : Policy) (thrown : ErrorType) : Bool :=
  match p.winner thrown with
  | some rule => rule.rollsBack
  | none => rollsBackByDefault thrown

/-! ## 3. The log -/

/-- The lines that looking for the winner writes to the log. -/
def winnerLog (p : Policy) (thrown : ErrorType) : List Log.Line :=
  p.rules.flatMap fun r => r.rule.depthLog thrown

/-- The lines that a decision writes to the log. -/
def decisionLog (p : Policy) (thrown : ErrorType) : List Log.Line :=
  p.winnerLog thrown ++
    match p.winner thrown with
    | some rule => [⟨.trace, "Winning rule for " ++ thrown.name ++ ": " ++ rule.text⟩]
    | none => [⟨.trace, "No rule matched " ++ thrown.name ++ ", using default policy"⟩]

end Policy

end ComponentContainer.Rollback
