/-
  File:      ComponentContainer/Proofs/HookCalls.lean
  Subject:   The hooks that a bootstrap runs, read off what it asks for.

  * `HookCall` -- a hook that is run, with the name it is run under if it was found in the registry.
  * `calls` -- the hooks among the requests, in order. A bootstrap announces a hook under the name it
    found the extension by, and runs it with its next request; this is how a hook gets its name.
  * `Settled` -- no announced hook is left to run; `calls_append` -- what is asked for after such a
    stretch is read on its own.
  * `Answered` -- the container was asked for the extension of a name, and this was its answer.
-/
import ComponentContainer.Proofs.PhaseRuns

namespace ComponentContainer

variable {κ ι ω σ : Type}

/-! ## 1. Hooks and the names they are run under -/

/-- A hook that a bootstrap runs. -/
inductive HookCall (κ : Type) where
  /-- The registry hook of an extension that was handed in. -/
  | supplied (extension : Extension κ)
  /-- The registry hook of an extension found under a name. -/
  | found (name : String) (extension : Extension κ)
  /-- The factory hook of an extension that was handed in, or whose registry hook has run. -/
  | factory (extension : Extension κ)
  /-- The factory hook of an extension found under a name in the end. -/
  | remaining (name : String) (extension : Extension κ)
  deriving DecidableEq

namespace HookCall

/-- The name under which a registry hook was run. -/
def foundName? : HookCall κ → Option String
  | .found name _ => some name
  | _ => none

/-- The name under which a factory hook was run in the end. -/
def remainingName? : HookCall κ → Option String
  | .remaining name _ => some name
  | _ => none

end HookCall

/-- The announcement of a hook that is to be run under a name. -/
def Request.label? : Request κ ι ω → Option Notice
  | .announce (.registryHook name precedence) => some (.registryHook name precedence)
  | .announce (.factoryHook name precedence) => some (.factoryHook name precedence)
  | _ => none

/-- The hook that a request runs, after the announcement `label`. -/
def Request.call? (label : Option Notice) : Request κ ι ω → Option (HookCall κ)
  | .registryHook e =>
    match label with
    | some (.registryHook name _) => some (.found name e)
    | _ => some (.supplied e)
  | .factoryHook e =>
    match label with
    | some (.factoryHook name _) => some (.remaining name e)
    | _ => some (.factory e)
  | _ => none

/-- The request neither runs nor announces a hook. -/
def Request.Silent (r : Request κ ι ω) : Prop := r.label? = none ∧ ∀ label, r.call? label = none

namespace Phase

/-- The hooks among the requests, where `label` has been announced before the first of them. -/
def callsAfter : Option Notice → Asked κ ι ω σ → List (HookCall κ)
  | _, [] => []
  | label, x :: T => (x.1.call? label).toList ++ callsAfter x.1.label? T

/-- The hooks among the requests, in order. -/
def calls (T : Asked κ ι ω σ) : List (HookCall κ) := callsAfter none T

/-- What is announced and not yet run at the end of the requests. -/
def labelAfter : Option Notice → Asked κ ι ω σ → Option Notice
  | label, [] => label
  | _, x :: T => labelAfter x.1.label? T

/-- No announced hook is left to run. -/
def Settled (T : Asked κ ι ω σ) : Prop := labelAfter none T = none

theorem labelAfter_append (label : Option Notice) (T₁ T₂ : Asked κ ι ω σ) :
    labelAfter label (T₁ ++ T₂) = labelAfter (labelAfter label T₁) T₂ := by
  induction T₁ generalizing label with
  | nil => rfl
  | cons x T₁ ih => exact ih x.1.label?

theorem callsAfter_append (label : Option Notice) (T₁ T₂ : Asked κ ι ω σ) :
    callsAfter label (T₁ ++ T₂) = callsAfter label T₁ ++ callsAfter (labelAfter label T₁) T₂ := by
  induction T₁ generalizing label with
  | nil => rfl
  | cons x T₁ ih =>
      rw [List.cons_append, callsAfter, ih, callsAfter, List.append_assoc]
      rfl

theorem Settled.nil : Settled ([] : Asked κ ι ω σ) := rfl

theorem Settled.append {T₁ T₂ : Asked κ ι ω σ} (h₁ : Settled T₁) (h₂ : Settled T₂) :
    Settled (T₁ ++ T₂) := by
  unfold Settled at h₁ h₂ ⊢
  rw [labelAfter_append, h₁, h₂]

/-- **After a settled stretch the requests are read on their own.** -/
theorem calls_append {T₁ T₂ : Asked κ ι ω σ} (h : Settled T₁) :
    calls (T₁ ++ T₂) = calls T₁ ++ calls T₂ := by
  unfold calls
  rw [callsAfter_append, h]

/-- The hooks of a sequence whose first part returns. -/
theorem calls_bind {α β : Type} {serve : Program.Handler (factoryInterface κ ι ω) σ}
    {x : Phase κ ι ω α} {f : α → Phase κ ι ω β} {P P₁ : Processed} {s s₁ : σ} {a : α}
    (hx : Yields serve x P s a P₁ s₁) (h : Settled (Phase.asked serve x P s)) :
    calls (Phase.asked serve (x >>= f) P s) =
      calls (Phase.asked serve x P s) ++ calls (Phase.asked serve (f a) P₁ s₁) := by
  rw [Phase.asked_bind, hx, calls_append h]

/-! ## 2. Stretches without hooks -/

/-- None of the requests runs or announces a hook. -/
def Silent (T : Asked κ ι ω σ) : Prop := ∀ x ∈ T, x.1.Silent

theorem Silent.nil : Silent ([] : Asked κ ι ω σ) := fun _ h => absurd h List.not_mem_nil

theorem Silent.append {T₁ T₂ : Asked κ ι ω σ} (h₁ : Silent T₁) (h₂ : Silent T₂) :
    Silent (T₁ ++ T₂) := fun x hx => (List.mem_append.mp hx).elim (h₁ x) (h₂ x)

theorem Silent.single {r : Request κ ι ω} {s : σ} (h : r.Silent) : Silent [(r, s)] := by
  intro x hx
  rw [List.mem_singleton.mp hx]
  exact h

theorem Silent.callsAfter {T : Asked κ ι ω σ} (h : Silent T) (label : Option Notice) :
    Phase.callsAfter label T = [] := by
  induction T generalizing label with
  | nil => rfl
  | cons x T ih =>
      rw [Phase.callsAfter, (h x List.mem_cons_self).2 label,
        ih (fun y hy => h y (List.mem_cons_of_mem x hy))]
      rfl

theorem Silent.calls {T : Asked κ ι ω σ} (h : Silent T) : Phase.calls T = [] := h.callsAfter none

theorem Silent.settled {T : Asked κ ι ω σ} (h : Silent T) : Settled T := by
  suffices ∀ label, label = none → labelAfter label T = none from this none rfl
  intro label hl
  induction T generalizing label with
  | nil => exact hl
  | cons x T ih =>
      exact ih (fun y hy => h y (List.mem_cons_of_mem x hy)) _ (h x List.mem_cons_self).1

/-! ## 3. Names -/

/-- The names under which registry hooks were run, in order. -/
def foundNames (T : Asked κ ι ω σ) : List String := (calls T).filterMap HookCall.foundName?

/-- The names under which factory hooks were run in the end, in order. -/
def remainingNames (T : Asked κ ι ω σ) : List String :=
  (calls T).filterMap HookCall.remainingName?

theorem foundNames_append {T₁ T₂ : Asked κ ι ω σ} (h : Settled T₁) :
    foundNames (T₁ ++ T₂) = foundNames T₁ ++ foundNames T₂ := by
  unfold foundNames
  rw [calls_append h, List.filterMap_append]

/-- Only a request for a registry hook runs one. -/
theorem not_found_of_no_registryHook {T : Asked κ ι ω σ}
    (h : ∀ x ∈ T, ∀ e, x.1 ≠ .registryHook e) (n : String) (e : Extension κ) :
    .found n e ∉ calls T := by
  suffices ∀ label, HookCall.found n e ∉ callsAfter label T from this none
  intro label hc
  induction T generalizing label with
  | nil => exact absurd hc List.not_mem_nil
  | cons x T ih =>
      rcases List.mem_append.mp hc with hc | hc
      · have hx := h x List.mem_cons_self
        rw [Option.mem_toList] at hc
        unfold Request.call? at hc
        split at hc
        · rename_i e' hr
          exact hx e' hr
        · split at hc <;> cases hc
        · cases hc
      · exact ih (fun y hy => h y (List.mem_cons_of_mem x hy)) _ hc

theorem Silent.foundNames {T : Asked κ ι ω σ} (h : Silent T) : Phase.foundNames T = [] := by
  rw [Phase.foundNames, h.calls]
  rfl

/-- The container was asked for the extension of that name in a family, and `e` was its answer. -/
def Answered (serve : Program.Handler (factoryInterface κ ι ω) σ) (T : Asked κ ι ω σ)
    (name : String) (family : PostProcessor) (e : Extension κ) : Prop :=
  ∃ s s' h, (Request.extension name (.postProcessor family), s) ∈ T ∧
    serve (.extension name (.postProcessor family)) s = some (.ok h, s') ∧ h.extension = e

theorem Answered.mono {serve : Program.Handler (factoryInterface κ ι ω) σ} {T T' : Asked κ ι ω σ}
    {name : String} {family : PostProcessor} {e : Extension κ} (hT : T ⊆ T')
    (h : Answered serve T name family e) : Answered serve T' name family e := by
  obtain ⟨s, s', handle, hm, hs, he⟩ := h
  exact ⟨s, s', handle, hT hm, hs, he⟩

end Phase

end ComponentContainer
