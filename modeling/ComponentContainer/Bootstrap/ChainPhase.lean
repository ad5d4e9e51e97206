/-
  File:      ComponentContainer/Bootstrap/ChainPhase.lean
  Subject:   The second half of a bootstrap: the chain that components go through.

  7. A watcher for completeness joins first, then the component post-processors found and not dealt
     with: the priority group, the ordered, the others; each group is made before it joins. Those
     that want to see merged definitions then move to the end, and the watcher for listeners
     joins last.

  * `split` -- walks through the names, makes those that stand in the priority group when their
    turn comes, and puts the others off.
  * `runChainPhase` -- phase 7; its result is the watcher for completeness.
-/
import ComponentContainer.Bootstrap.Phase

namespace ComponentContainer.Bootstrap

variable {κ ι ω : Type}

open Phase

/-- Makes a component post-processor found with a standing. -/
def makeMember (name : String) (precedence : Precedence) : Phase κ ι ω (Candidate κ) := do
  return ⟨name, precedence, ← extensionOf name .component⟩

/-- Makes the members of the priority group; the ordered and the other names are put off. -/
def split : List String → Phase κ ι ω (List (Candidate κ) × List String × List String)
  | [] => return ([], [], [])
  | name :: rest => do
    let precedence ← standing name
    match precedence.tier with
    | .highest =>
      let member ← makeMember name precedence
      let (priority, ordered, others) ← split rest
      return (member :: priority, ordered, others)
    | .ordered =>
      let (priority, ordered, others) ← split rest
      return (priority, name :: ordered, others)
    | .unordered =>
      let (priority, ordered, others) ← split rest
      return (priority, ordered, name :: others)

/-- Makes the members of a group that was put off, with the standings they have by now. -/
def makeMembers (names : List String) : Phase κ ι ω (List (Candidate κ)) :=
  names.mapM fun name => do makeMember name (← standing name)

/-- Lets a group join the chain, in order. -/
def join (group : List (Candidate κ)) : Phase κ ι ω Unit :=
  group.forM fun c => do
    announce (.joining c.name)
    ask (.attach c.handle.extension)

/-- The extension has code that wants to see merged definitions. -/
def wantsMerged (b : Behaviour κ ι ω) (c : Candidate κ) : Bool :=
  match c.handle.extension.body with
  | .custom code => b.mergedAware code
  | _ => false

/-- Phase 7. The watcher for completeness counts on the chain there is, itself, and all that was
    found. -/
def runChainPhase (b : Behaviour κ ι ω) (listeners : Extension κ) : Phase κ ι ω (Extension κ) := do
  let cmp ← comparator
  let processed ← get
  let names := (← namesFor .component).filter (!processed.contains ·)
  let target := (← ask .chainLength) + 1 + names.length
  let completeness ← ask (.create (.completeness target))
  ask (.attach completeness)
  let (priority, orderedNames, otherNames) ← split names
  join (Candidate.sort cmp priority)
  let ordered ← makeMembers orderedNames
  join (Candidate.sort cmp ordered)
  let others ← makeMembers otherNames
  join others
  join (Candidate.sort cmp ((priority ++ ordered ++ others).filter (wantsMerged b)))
  ask (.attach listeners)
  announce (.chainDone (← ask .chainLength))
  return completeness

end ComponentContainer.Bootstrap
