/-
  File:      ComponentContainer/Bootstrap/Phase.lean
  Subject:   What the phases of a bootstrap are made of.

  * `Phase` -- programs over the factory that may fail and that keep the names dealt with; a
    failure does not take names back.
  * `Phase.ask` and the demands -- single requests; a demand fails if its answer is a failure.
  * `Candidate` -- an extension found in the registry, with the standing it was found with.
  * `Handle.ensureFactoryCapable`, `Handle.runFactoryHook` -- an extension of the component family
    has no factory hook.
-/
import ComponentContainer.Bootstrap.Processed
import ComponentContainer.Request

namespace ComponentContainer

variable {κ ι ω : Type}

/-! ## 1. Phases -/

/-- A part of a bootstrap. -/
abbrev Phase (κ ι ω : Type) : Type → Type :=
  ExceptT Failure (StateT Processed (FactoryProgram κ ι ω))

namespace Phase

/-- A request whose answer is the result. -/
def ask (r : Request κ ι ω) : Phase κ ι ω r.Answer :=
  ExceptT.lift (StateT.lift (Program.request (I := factoryInterface κ ι ω) r))

/-- A request whose answer may be a failure of the phase. -/
def demand {α : Type} (p : FactoryProgram κ ι ω (Except Failure α)) : Phase κ ι ω α :=
  ExceptT.mk (StateT.lift p)

def extension (name : String) (expected : Capability) : Phase κ ι ω (Handle κ) :=
  demand (Program.request (I := factoryInterface κ ι ω) (.extension name expected))

/-- The extension of that name, which has to be of the family itself. -/
def extensionOf (name : String) (family : PostProcessor) : Phase κ ι ω (Handle κ) := do
  let handle ← extension name (.postProcessor family)
  if handle.family = family then return handle
  else throw (.typeMismatch name family.text handle.capability.text)

def registryHook (e : Extension κ) : Phase κ ι ω Unit :=
  demand (Program.request (I := factoryInterface κ ι ω) (.registryHook e))

def factoryHook (e : Extension κ) : Phase κ ι ω Unit :=
  demand (Program.request (I := factoryInterface κ ι ω) (.factoryHook e))

def namesFor (family : PostProcessor) : Phase κ ι ω (List String) :=
  ask (.registry (.namesFor (.postProcessor family)))

def announce (n : Notice) : Phase κ ι ω Unit := ask (.announce n)

/-- The standing declared under a name now; undeclared if the name is gone. -/
def standing (name : String) : Phase κ ι ω Precedence := do
  return match ← ask (.registry (.find name)) with
    | some d => d.precedence
    | none => .unordered

/-- The comparator in force. -/
def comparator : Phase κ ι ω Comparator := do
  return Comparator.resolve (← ask .comparator)

/-- A phase that has no end. -/
def forever {α : Type} : Phase κ ι ω α := do
  nomatch ← ask .forever

/-- Runs a phase from the names dealt with so far: its outcome and the names afterwards. -/
def perform {α : Type} (phase : Phase κ ι ω α) (processed : Processed) :
    FactoryProgram κ ι ω (Except Failure α × Processed) :=
  StateT.run (ExceptT.run phase) processed

end Phase

/-! ## 2. Extensions found -/

/-- An extension found in the registry under a name, with the standing it was found with. -/
structure Candidate (κ : Type) where
  name : String
  precedence : Precedence
  handle : Handle κ

/-- Sorts candidates by their standing. -/
def Candidate.sort (cmp : Comparator) (found : List (Candidate κ)) : List (Candidate κ) :=
  sortBy cmp Candidate.precedence found

/-! ## 3. Factory hooks -/

namespace Handle

/-- The name of the extension; `name` names the code of its own. -/
def name (name : κ → String) (h : Handle κ) : String := h.extension.body.name name

/-- An extension of the component family has no factory hook. -/
def ensureFactoryCapable (name : κ → String) (h : Handle κ) : Except Failure Unit :=
  match h.family with
  | .component => .error (.typeMismatch (h.name name) (PostProcessor.text .factory)
      (PostProcessor.text .component))
  | _ => .ok ()

/-- Runs the factory hook of an extension; that of a registry post-processor, too. -/
def runFactoryHook (name : κ → String) (h : Handle κ) :
    FactoryProgram κ ι ω (Except Failure Unit) :=
  match h.ensureFactoryCapable name with
  | .error failure => .done (.error failure)
  | .ok () => Program.request (I := factoryInterface κ ι ω) (.factoryHook h.extension)

end Handle

end ComponentContainer
