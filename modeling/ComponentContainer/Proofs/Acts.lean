/-
  File:      ComponentContainer/Proofs/Acts.lean
  Subject:   What acts and attempts do to a state.

  * `Act.run_bind`, `Attempt.outcome_bind` -- **a sequence is opened by these**; the other lemmas say
    what the single acts do.
  * `Attempt.outcome_bind_of_ok` -- going on after a part that did not fail.
-/
import ComponentContainer.Container.State

namespace ComponentContainer

variable {κ ι ω α β : Type}

/-! ## 1. Acts -/

namespace Act

theorem run_bind (a : Act κ ι ω α) (f : α → Act κ ι ω β) (s : State κ ι ω) :
    (a >>= f) s =
      match a s with
      | none => none
      | some (x, s') => f x s' := by
  show StateT.bind a f s = _
  unfold StateT.bind
  cases a s <;> rfl

/-- What a sequence that returns has gone through. -/
theorem run_bind_eq_some {a : Act κ ι ω α} {f : α → Act κ ι ω β} {s : State κ ι ω}
    {r : β × State κ ι ω} (h : (a >>= f) s = some r) :
    ∃ x s', a s = some (x, s') ∧ f x s' = some r := by
  rw [run_bind] at h
  rcases ha : a s with _ | ⟨x, s'⟩
  · rw [ha] at h
    cases h
  · rw [ha] at h
    exact ⟨x, s', rfl, h⟩

@[simp] theorem run_pure (x : α) (s : State κ ι ω) :
    (pure x : Act κ ι ω α) s = some (x, s) := rfl

@[simp] theorem run_record (e : Event κ ι) (s : State κ ι ω) :
    (record e : Act κ ι ω Unit) s = some ((), { s with history := e :: s.history }) := rfl

@[simp] theorem run_announce (n : Notice) (s : State κ ι ω) :
    (announce n : Act κ ι ω Unit) s =
      some ((), { s with history := .announced n :: s.history }) := rfl

@[simp] theorem run_container (s : State κ ι ω) :
    (container : Act κ ι ω (Container κ ι)) s = some (s.container, s) := rfl

@[simp] theorem run_changeContainer (f : Container κ ι → Container κ ι) (s : State κ ι ω) :
    (changeContainer f : Act κ ι ω Unit) s =
      some ((), { s with container := f s.container }) := rfl

@[simp] theorem run_outside (f : ω → α × ω) (s : State κ ι ω) :
    (outside f : Act κ ι ω α) s =
      some ((f s.world).1, { s with world := (f s.world).2 }) := rfl

@[simp] theorem run_freshId (s : State κ ι ω) :
    (freshId : Act κ ι ω Nat) s = some (s.nextId, { s with nextId := s.nextId + 1 }) := rfl

@[simp] theorem run_note (watcher : Nat) (name : String) (s : State κ ι ω) :
    (note watcher name : Act κ ι ω Unit) s =
      some ((), { s with notes := s.notes ++ [(watcher, name)] }) := rfl

end Act

/-! ## 2. Attempts -/

namespace Attempt

theorem outcome_bind (a : Attempt κ ι ω α) (f : α → Attempt κ ι ω β) (s : State κ ι ω) :
    outcome (a >>= f) s =
      match outcome a s with
      | none => none
      | some (.ok x, s') => outcome (f x) s'
      | some (.error failure, s') => some (.error failure, s') := by
  show (ExceptT.run a >>= ExceptT.bindCont f) s = _
  rw [Act.run_bind]
  show _ = match a s with
    | none => none
    | some (.ok x, s') => outcome (f x) s'
    | some (.error failure, s') => some (.error failure, s')
  rcases h : a s with _ | ⟨_ | x, s'⟩ <;> rw [show ExceptT.run a s = _ from h] <;> rfl

theorem outcome_bind_of_ok {a : Attempt κ ι ω α} {s s' : State κ ι ω} {x : α}
    (h : outcome a s = some (.ok x, s')) (f : α → Attempt κ ι ω β) :
    outcome (a >>= f) s = outcome (f x) s' := by
  rw [outcome_bind, h]

@[simp] theorem outcome_pure (x : α) (s : State κ ι ω) :
    outcome (pure x : Attempt κ ι ω α) s = some (.ok x, s) := rfl

@[simp] theorem outcome_throw (failure : Failure) (s : State κ ι ω) :
    outcome (throw failure : Attempt κ ι ω α) s = some (.error failure, s) := rfl

theorem outcome_perform (a : Act κ ι ω α) (s : State κ ι ω) :
    outcome (perform a) s =
      match a s with
      | none => none
      | some (x, s') => some (.ok x, s') := by
  show (a >>= fun x => pure (Except.ok x)) s = _
  rw [Act.run_bind]
  rfl

theorem outcome_perform_of_run {a : Act κ ι ω α} {s s' : State κ ι ω} {x : α}
    (h : a s = some (x, s')) : outcome (perform a) s = some (.ok x, s') := by
  rw [outcome_perform, h]

@[simp] theorem outcome_ofOutcome (a : Act κ ι ω (Except Failure α)) (s : State κ ι ω) :
    outcome (ofOutcome a) s = a s := rfl

/-- An act at the front of an attempt. -/
theorem outcome_perform_bind {a : Act κ ι ω α} {s s' : State κ ι ω} {x : α}
    (h : a s = some (x, s')) (f : α → Attempt κ ι ω β) :
    outcome (perform a >>= f) s = outcome (f x) s' :=
  outcome_bind_of_ok (outcome_perform_of_run h) f

end Attempt

end ComponentContainer
