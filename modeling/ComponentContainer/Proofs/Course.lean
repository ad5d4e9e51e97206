/-
  File:      ComponentContainer/Proofs/Course.lean
  Subject:   What happens in a container while requests are answered.

  * `Within` -- all that an attempt does is within a relation; `Watched` -- a stretch in which the
    hooks around the making of a component run. They cannot reach the container.
  * `Step` -- the single changes; `Closed` -- a relation of states that has them and sequences.
  * `Leads` -- all that an act does is within a relation; `answer_leads` -- **a request stays within
    a closed relation if what it makes or runs does.**
  * `Supplies` -- the definition whose supplier makes something.
  * `Course` -- **the least relation of states that has the steps, sequences, and the making of
    components and extensions, in which a course of its own takes place.** A law about all that
    suppliers and hooks may do is an induction over courses.
  * `serve_course`, `run_course` -- whatever a request or a program does, it is a course.
-/
import ComponentContainer.Proofs.Answers
import ComponentContainer.Proofs.PhaseRuns

namespace ComponentContainer

variable {κ ι ω α β : Type}

/-! ## 1. The hooks around the making of a component -/

/-- What the hooks around the making of a component note. -/
def Event.isWatch : Event κ ι → Bool
  | .announced _ => true
  | .sawMerged _ _ => true
  | .sawBefore _ _ _ => true
  | .sawAfter _ _ _ => true
  | _ => false

/-- Nothing has happened but that hooks around the making of a component have run. -/
structure Watched (s s' : State κ ι ω) : Prop where
  container : s'.container = s.container
  nextId : s'.nextId = s.nextId
  history : ∃ events, s'.history = events ++ s.history ∧ ∀ e ∈ events, e.isWatch = true

namespace Watched

variable {s s' s'' : State κ ι ω}

theorem refl (s : State κ ι ω) : Watched s s :=
  ⟨rfl, rfl, [], rfl, fun _ h => absurd h List.not_mem_nil⟩

theorem trans (h₁ : Watched s s') (h₂ : Watched s' s'') : Watched s s'' := by
  obtain ⟨events₁, he₁, hw₁⟩ := h₁.history
  obtain ⟨events₂, he₂, hw₂⟩ := h₂.history
  refine ⟨h₂.container.trans h₁.container, h₂.nextId.trans h₁.nextId, events₂ ++ events₁, ?_, ?_⟩
  · rw [he₂, he₁, List.append_assoc]
  · intro e he
    exact (List.mem_append.mp he).elim (hw₂ e) (hw₁ e)

theorem record {e : Event κ ι} (h : e.isWatch = true) :
    Watched s { s with history := e :: s.history } :=
  ⟨rfl, rfl, [e], rfl, fun e' he => by rwa [List.mem_singleton.mp he]⟩

theorem past (h : Watched s s') : s.history <:+ s'.history := by
  obtain ⟨events, he, _⟩ := h.history
  exact ⟨events, he.symm⟩

end Watched

namespace Attempt

open Act

/-- Whatever the attempt does, be it failed, is within the relation. -/
def Within (R : State κ ι ω → State κ ι ω → Prop) (x : Attempt κ ι ω α) : Prop :=
  ∀ ⦃s y s'⦄, outcome x s = some (y, s') → R s s'

namespace Within

variable {R : State κ ι ω → State κ ι ω → Prop} (refl : ∀ s, R s s)

include refl

theorem pure (a : α) : Within R (Pure.pure a : Attempt κ ι ω α) := by
  intro s y s' h
  cases h
  exact refl s

variable (trans : ∀ {s s' s''}, R s s' → R s' s'' → R s s'')

include trans

omit refl in
theorem bind {x : Attempt κ ι ω α} {f : α → Attempt κ ι ω β} (hx : Within R x)
    (hf : ∀ a, Within R (f a)) : Within R (x >>= f) := by
  intro s y s' h
  rw [outcome_bind] at h
  rcases hr : outcome x s with _ | ⟨failure | a, s₁⟩
  · rw [hr] at h
    cases h
  · rw [hr] at h
    cases h
    exact hx hr
  · rw [hr] at h
    exact trans (hx hr) (hf a h)

theorem forM {f : β → Attempt κ ι ω PUnit} {l : List β} (hf : ∀ x ∈ l, Within R (f x)) :
    Within R (l.forM f) := by
  induction l with
  | nil => exact pure refl _
  | cons x l ih =>
      obtain ⟨hx, hl⟩ := List.forall_mem_cons.mp hf
      exact bind (R := R) trans hx fun _ => ih hl

theorem foldlM {f : α → β → Attempt κ ι ω α} {l : List β} (hf : ∀ x ∈ l, ∀ a, Within R (f a x))
    (a : α) : Within R (l.foldlM f a) := by
  induction l generalizing a with
  | nil => exact pure refl _
  | cons x l ih =>
      obtain ⟨hx, hl⟩ := List.forall_mem_cons.mp hf
      rw [List.foldlM_cons]
      exact bind (R := R) trans (hx a) fun a => ih hl a

end Within

/-- Whatever the attempt does, be it failed, is such a stretch. -/
abbrev Watches (x : Attempt κ ι ω α) : Prop := Within Watched x

namespace Watches

theorem pure (a : α) : Watches (Pure.pure a : Attempt κ ι ω α) := Within.pure .refl a

theorem bind {x : Attempt κ ι ω α} {f : α → Attempt κ ι ω β} (hx : Watches x)
    (hf : ∀ a, Watches (f a)) : Watches (x >>= f) := Within.bind .trans hx hf

theorem record {e : Event κ ι} (he : e.isWatch = true) :
    Watches (perform (Act.record e) : Attempt κ ι ω Unit) := by
  intro s y s' h
  cases h
  exact .record he

theorem note (watcher : Nat) (name : String) :
    Watches (perform (Act.note watcher name) : Attempt κ ι ω Unit) := by
  intro s y s' h
  cases h
  exact ⟨rfl, rfl, [], rfl, fun _ h => absurd h List.not_mem_nil⟩

theorem get : Watches (perform MonadState.get : Attempt κ ι ω (State κ ι ω)) := by
  intro s y s' h
  cases h
  exact .refl s

theorem outside (f : ω → Except Failure α × ω) :
    Watches (ofOutcome (Act.outside f) : Attempt κ ι ω α) := by
  intro s y s' h
  cases h
  exact ⟨rfl, rfl, [], rfl, fun _ h => absurd h List.not_mem_nil⟩

theorem forM {f : β → Attempt κ ι ω PUnit} (hf : ∀ x, Watches (f x)) (l : List β) :
    Watches (l.forM f) := Within.forM .refl .trans fun x _ => hf x

theorem foldlM {f : α → β → Attempt κ ι ω α} (hf : ∀ a x, Watches (f a x)) (a : α) (l : List β) :
    Watches (l.foldlM f a) := Within.foldlM .refl .trans (fun x _ a => hf a x) a

end Watches

end Attempt

namespace Extension

open Attempt

variable {b : Behaviour κ ι ω}

theorem seeMerged_watches (merged : MergedDefinition κ) (name : String) (e : Extension κ) :
    Watches (seeMerged b merged name e) := by
  refine (Watches.record rfl).bind fun _ => ?_
  rcases e.body with code | target | _
  · exact .outside _
  · exact .pure _
  · exact .pure _

theorem seeBefore_watches (creation : Creation κ) (value : ι) (e : Extension κ) :
    Watches (seeBefore b creation value e) := by
  refine (Watches.record rfl).bind fun _ => ?_
  rcases e.body with code | target | _
  · exact .outside _
  · exact .pure _
  · exact .pure _

theorem seeAfter_watches (creation : Creation κ) (value : ι) (e : Extension κ) :
    Watches (seeAfter b creation value e) := by
  refine (Watches.record rfl).bind fun _ => ?_
  rcases e.body with code | target | _
  · exact .outside _
  · show Watches (if _ then _ else _)
    split
    · exact (Watches.record rfl).bind fun _ => (Watches.note _ _).bind fun _ => .pure _
    · exact .pure _
  · refine Watches.get.bind fun s => ?_
    show Watches (if _ then _ else _)
    split
    · exact (Watches.record rfl).bind fun _ => (Watches.note _ _).bind fun _ => .pure _
    · exact .pure _

end Extension

/-! ## 2. Steps -/

namespace Container

open Act Attempt

/-- The single changes of a state. -/
inductive Step : State κ ι ω → State κ ι ω → Prop
  | announced (s : State κ ι ω) (n : Notice) :
      Step s { s with history := .announced n :: s.history }
  | registryHook (s : State κ ι ω) (e : Extension κ) :
      Step s { s with history := .registryHook e :: s.history }
  | factoryHook (s : State κ ι ω) (e : Extension κ) :
      Step s { s with history := .factoryHook e :: s.history }
  | registered {s : State κ ι ω} {d : Definition κ} {c : Container κ ι}
      (h : s.container.register d = .ok c) :
      Step s { s with container := c, history := .registered d :: s.history }
  | removed {s : State κ ι ω} {name : String} {d : Definition κ} {c : Container κ ι}
      (h : s.container.remove name = .ok (d, c)) :
      Step s { s with container := c, history := .removed name :: s.history }
  | edited {s : State κ ι ω} {name : String} {change : Definition κ → Definition κ}
      (h : s.container.definitions.contains name = true) :
      Step s { s with
        container := s.container.edit name change
        history := .edited name change :: s.history }
  | world (s : State κ ι ω) (w : ω) : Step s { s with world := w }
  | numbered (s : State κ ι ω) : Step s { s with nextId := s.nextId + 1 }
  | merged {s : State κ ι ω} {name : String} {m : MergedDefinition κ}
      (new : s.container.merged.find? name = none)
      (h : freshMerge s.container.definitions name = .ok m) :
      Step s { s with
        container := { s.container with merged := s.container.merged.set name m }
        history := .merged name :: s.history }
  | attached (s : State κ ι ω) (e : Extension κ) :
      Step s { s with container := s.container.attach e, history := .attached e :: s.history }
  | cleared (s : State κ ι ω) :
      Step s { s with container := { s.container with merged := .empty } }

/-! ## 3. Courses -/

/-- The making of something of that name would run the supplier of this definition. -/
inductive Supplies (s : State κ ι ω) (name : String) : Definition κ → Prop
  | component {m : MergedDefinition κ} (new : s.container.components.find? name = none)
      (merged : s.container.merged.find? name = some m)
      (template : m.definition.template = false) (kind : m.definition.kind = .component) :
      Supplies s name m.definition
  | extension {d : Definition κ} {family : PostProcessor}
      (new : s.container.extensions.find? name = none)
      (found : s.container.definitions.find? name = some d)
      (kind : d.kind = .postProcessor family) : Supplies s name d

/-- The state when a component has been made, where the hooks were done in `s`. -/
def madeComponent (s : State κ ι ω) (name : String) (value : ι) : State κ ι ω :=
  { ending s name with
    container := { (ending s name).container with
      components := (ending s name).container.components.set name value }
    history := .madeComponent name value :: (ending s name).history }

/-- **What happens while requests are answered.** Each making of a component or of an extension has
    a course of its own in it, which is that of its supplier. -/
inductive Course (b : Behaviour κ ι ω) : State κ ι ω → State κ ι ω → Prop
  | refl (s : State κ ι ω) : Course b s s
  | trans {s s' s'' : State κ ι ω} (h₁ : Course b s s') (h₂ : Course b s' s'') : Course b s s''
  | step {s s' : State κ ι ω} (h : Step s s') : Course b s s'
  /-- The making of something is given up before a supplier has run. -/
  | unmade {s s₁ : State κ ι ω} {name : String} (idle : name ∉ s.container.creating)
      (shown : Watched (beginning s name) s₁) : Course b s (ending s₁ name)
  /-- The supplier fails, or a hook that gets what it has made. -/
  | failed {s s₁ s₂ s₃ : State κ ι ω} {name : String} {d : Definition κ}
      (idle : name ∉ s.container.creating) (supplies : Supplies s name d)
      (shown : Watched (beginning s name) s₁) (supply : Course b (supplied s₁ name d) s₂)
      (passed : Watched s₂ s₃) : Course b s (ending s₃ name)
  | component {s s₁ s₂ s₃ : State κ ι ω} {name : String} {m : MergedDefinition κ} {value : ι}
      (idle : name ∉ s.container.creating) (new : s.container.components.find? name = none)
      (merged : s.container.merged.find? name = some m)
      (template : m.definition.template = false) (kind : m.definition.kind = .component)
      (run : ∃ depth, outcome (create b (nested b depth .full) name m) (beginning s name) =
        some (.ok value, s₃))
      (shown : Watched (beginning s name) s₁)
      (supply : Course b (supplied s₁ name m.definition) s₂) (passed : Watched s₂ s₃) :
      Course b s (madeComponent s₃ name value)
  | extension {s s₁ : State κ ι ω} {name : String} {d : Definition κ} {family : PostProcessor}
      {code : κ} (idle : name ∉ s.container.creating)
      (new : s.container.extensions.find? name = none)
      (found : s.container.definitions.find? name = some d) (kind : d.kind = .postProcessor family)
      (run : ∃ depth, nested b depth .full (b.build d.supplier) (supplying s name d) =
        some (.ok code, s₁)) (supply : Course b (supplying s name d) s₁) :
      Course b s (made s₁ name ⟨family, b.yielded code s₁.nextId⟩)

variable {b : Behaviour κ ι ω}

theorem Step.past {s s' : State κ ι ω} (h : Step s s') : s.history <:+ s'.history := by
  cases h <;> first | exact List.suffix_cons _ _ | exact List.suffix_refl _

/-- What has happened stays in the history. -/
theorem Course.past {s s' : State κ ι ω} (h : Course b s s') : s.history <:+ s'.history := by
  induction h with
  | refl s => exact List.suffix_refl _
  | trans _ _ ih₁ ih₂ => exact ih₁.trans ih₂
  | step h => exact h.past
  | @unmade s s₁ name idle shown =>
      have begins : s.history <:+ s₁.history := (List.suffix_cons _ _).trans shown.past
      exact begins.trans (List.suffix_cons _ _)
  | @failed s s₁ s₂ s₃ name d idle supplies shown supply passed ih =>
      have begins : s.history <:+ s₁.history := (List.suffix_cons _ _).trans shown.past
      have supplies : s₁.history <:+ s₂.history := (List.suffix_cons _ _).trans ih
      have ends : s₂.history <:+ (ending s₃ name).history :=
        passed.past.trans (List.suffix_cons _ _)
      exact (begins.trans supplies).trans ends
  | @component s s₁ s₂ s₃ name m value idle new merged template kind run shown supply passed ih =>
      have begins : s.history <:+ s₁.history := (List.suffix_cons _ _).trans shown.past
      have supplies : s₁.history <:+ s₂.history := (List.suffix_cons _ _).trans ih
      have ends : s₃.history <:+ (madeComponent s₃ name value).history := ⟨[_, _], rfl⟩
      exact (begins.trans supplies).trans (passed.past.trans ends)
  | @extension s s₁ name d family code idle new found kind run supply ih =>
      have begins : s.history <:+ (supplying s name d).history := ⟨[_, _], rfl⟩
      have ends (h : Handle κ) : s₁.history <:+ (made s₁ name h).history := ⟨[_, _, _], rfl⟩
      exact (begins.trans ih).trans (ends _)

/-- The name of the component that has been made. -/
def madeName? : Event κ ι → Option String
  | .madeComponent name _ => some name
  | _ => none

/-- The names of the components that have been made, latest first. -/
def madeNames (events : List (Event κ ι)) : List String := events.filterMap madeName?

theorem madeNames_append (events earlier : List (Event κ ι)) :
    madeNames (events ++ earlier) = madeNames events ++ madeNames earlier :=
  List.filterMap_append

/-! ## 4. Acts within a relation -/

/-- A relation of states that has the steps, and sequences. -/
structure Closed (R : State κ ι ω → State κ ι ω → Prop) : Prop where
  refl (s : State κ ι ω) : R s s
  trans {s s' s'' : State κ ι ω} (h₁ : R s s') (h₂ : R s' s'') : R s s''
  step {s s' : State κ ι ω} (h : Step s s') : R s s'

theorem closed_course (b : Behaviour κ ι ω) : Closed (Course b) := ⟨.refl, .trans, .step⟩

/-- Whatever the act does in that state is within the relation. -/
def Leads (R : State κ ι ω → State κ ι ω → Prop) (a : Act κ ι ω α) (s : State κ ι ω) : Prop :=
  ∀ ⦃x s'⦄, a s = some (x, s') → R s s'

/-- Whatever the act does in that state is a course. -/
abbrev Follows (b : Behaviour κ ι ω) (a : Act κ ι ω α) (s : State κ ι ω) : Prop :=
  Leads (Course b) a s

namespace Leads

variable {R : State κ ι ω → State κ ι ω → Prop} {s : State κ ι ω}

theorem of_run {a : Act κ ι ω α} {x : α} {s' : State κ ι ω} (h : a s = some (x, s'))
    (hs : R s s') : Leads R a s := by
  intro y s'' h'
  rw [h] at h'
  cases h'
  exact hs

theorem endless : Leads R (Act.endless : Act κ ι ω α) s := fun _ _ h => nomatch h

variable (closed : Closed R)

include closed

theorem pure (x : α) : Leads R (Pure.pure x : Act κ ι ω α) s := of_run (run_pure x s) (closed.refl s)

theorem bind {a : Act κ ι ω α} {f : α → Act κ ι ω β} (ha : Leads R a s)
    (hf : ∀ x s', a s = some (x, s') → Leads R (f x) s') : Leads R (a >>= f) s := by
  intro y s' h
  rw [run_bind] at h
  rcases hr : a s with _ | ⟨x, s₁⟩
  · rw [hr] at h
    cases h
  · rw [hr] at h
    exact closed.trans (ha hr) (hf x s₁ hr h)

/-- Going on after an act whose outcome is known. -/
theorem bind_of_run {a : Act κ ι ω α} {f : α → Act κ ι ω β} {x : α} {s' : State κ ι ω}
    (h : a s = some (x, s')) (hs : R s s') (hf : Leads R (f x) s') : Leads R (a >>= f) s :=
  bind closed (of_run h hs) fun y s'' h' => by
    rw [h] at h'
    cases h'
    exact hf

theorem container_bind {f : Container κ ι → Act κ ι ω β} (hf : Leads R (f s.container) s) :
    Leads R (container >>= f) s := bind_of_run closed (run_container s) (closed.refl s) hf

theorem announce (n : Notice) : Leads R (Act.announce n) s :=
  of_run (run_announce n s) (closed.step (.announced s n))

/-- An event and the change of the container that goes with it. -/
theorem record_change {e : Event κ ι} {f : Container κ ι → Container κ ι} (x : α)
    (h : Step s { s with container := f s.container, history := e :: s.history }) :
    Leads R (do
      record e
      changeContainer f
      return x) s := by
  intro y s' h'
  cases h'
  exact closed.step h

end Leads

theorem outcome_mergedDefinition (name : String) (s : State κ ι ω) :
    outcome (mergedDefinition name) s =
      match s.container.merged.find? name with
      | some m => some (.ok m, s)
      | none =>
        match freshMerge s.container.definitions name with
        | .error failure => some (.error failure, s)
        | .ok m => some (.ok m, { s with
            container := { s.container with merged := s.container.merged.set name m }
            history := .merged name :: s.history }) := by
  unfold mergedDefinition
  rw [outcome_perform_bind (run_container s)]
  cases hm : s.container.merged.find? name with
  | some m => rfl
  | none => cases freshMerge s.container.definitions name <;> rfl

/-- A merged definition that is asked for is known already, or cannot be merged, or is merged anew;
    it is then that anything changes. -/
theorem mergedDefinition_cases {name : String} {s s' : State κ ι ω}
    {r : Except Failure (MergedDefinition κ)}
    (h : outcome (mergedDefinition name) s = some (r, s')) :
    (∃ m, s.container.merged.find? name = some m ∧ r = .ok m ∧ s' = s) ∨
    (∃ failure, freshMerge s.container.definitions name = .error failure ∧
      r = .error failure ∧ s' = s) ∨
    (∃ m, s.container.merged.find? name = none ∧
      freshMerge s.container.definitions name = .ok m ∧ r = .ok m ∧ s' = { s with
        container := { s.container with merged := s.container.merged.set name m }
        history := .merged name :: s.history }) := by
  rw [outcome_mergedDefinition] at h
  cases known : s.container.merged.find? name with
  | some m =>
      rw [known] at h
      cases h
      exact .inl ⟨m, rfl, rfl, rfl⟩
  | none =>
      rw [known] at h
      cases fresh : freshMerge s.container.definitions name with
      | error failure =>
          rw [fresh] at h
          cases h
          exact .inr (.inl ⟨failure, rfl, rfl, rfl⟩)
      | ok m =>
          rw [fresh] at h
          cases h
          exact .inr (.inr ⟨m, rfl, rfl, rfl, rfl⟩)

/-- A merged definition that was asked for is remembered, and nothing else in the container has
    changed. -/
theorem mergedDefinition_ok {name : String} {s s' : State κ ι ω} {m : MergedDefinition κ}
    (h : outcome (mergedDefinition name) s = some (.ok m, s')) :
    s'.container.merged.find? name = some m ∧
      s'.container = { s.container with merged := s'.container.merged } := by
  rcases mergedDefinition_cases h with
    ⟨m, known, ⟨⟩, rfl⟩ | ⟨failure, fresh, ⟨⟩, -⟩ | ⟨m, new, fresh, ⟨⟩, rfl⟩
  · exact ⟨known, rfl⟩
  · exact ⟨by rw [Table.find?_set, if_pos rfl], rfl⟩

section Within

variable {R : State κ ι ω → State κ ι ω → Prop} (closed : Closed R)

include closed

/-- The requests of a registry hook. -/
theorem answerRegistry_leads (r : RegistryRequest κ ω) (s : State κ ι ω) :
    Leads R (answerRegistry r) s := by
  cases r with
  | register d =>
      refine .container_bind closed ?_
      cases hc : s.container.register d with
      | error failure => exact .pure closed _
      | ok c =>
          have hrest : ∀ s' : State κ ι ω, s'.container = s.container → Leads R (do
              Act.announce (.registering d.name d.kind)
              record (.registered d)
              changeContainer fun _ => c
              return (.ok () : Except Failure Unit)) s' := by
            intro s' hs'
            refine .bind_of_run closed (run_announce _ s') (closed.step (.announced s' _)) ?_
            exact .record_change closed _ (.registered (by rw [hs']; exact hc))
          show Leads R (if _ then _ else _) s
          split
          · exact .bind_of_run closed (run_announce _ s) (closed.step (.announced s _)) (hrest _ rfl)
          · exact hrest s rfl
  | remove name =>
      refine .container_bind closed ?_
      cases hc : s.container.remove name with
      | error failure => exact .pure closed _
      | ok removed =>
          obtain ⟨d, c⟩ := removed
          exact .bind_of_run closed (run_announce _ s) (closed.step (.announced s _))
            (.record_change closed _ (.removed hc))
  | find name => exact .container_bind closed (.pure closed _)
  | edit name change =>
      refine .container_bind closed ?_
      show Leads R (if _ then _ else _) s
      split
      · rename_i h
        exact .record_change closed _ (.edited h)
      · exact .pure closed _
  | names => exact .container_bind closed (.pure closed _)
  | namesFor capability => exact .container_bind closed (.pure closed _)
  | world change =>
      exact Leads.of_run (a := outside fun w => (w, change w)) (run_outside _ s)
        (closed.step (.world s _))

theorem mergedDefinition_leads (name : String) (s : State κ ι ω) :
    Leads R (outcome (mergedDefinition name)) s := by
  intro r s' h
  rcases mergedDefinition_cases h with
    ⟨m, known, rfl, rfl⟩ | ⟨failure, fresh, rfl, rfl⟩ | ⟨m, new, fresh, rfl, rfl⟩
  · exact closed.refl _
  · exact closed.refl _
  · exact closed.step (.merged new fresh)

/-- A program is within the relation if the answers to its requests are. -/
theorem run_leads {I : Interface} {serve : Program.Handler I (State κ ι ω)}
    (h : ∀ r s, Leads R (serve r) s) (p : Program I α) (s : State κ ι ω) :
    Leads R (p.run serve) s := fun _ _ hrun =>
  Program.run_of_asked closed.refl closed.trans (fun _ _ _ _ answered => h _ _ answered) hrun

/-- **A request stays within a closed relation** if the making of a component, the making of an
    extension, and the code of a factory hook do, whichever of these the request is for. -/
theorem answer_leads {b : Behaviour κ ι ω} {exec : View → Exec κ ι ω} {view : View}
    {r : Request κ ι ω} {s : State κ ι ω}
    (component : ∀ name, r = .component name →
      Leads R (outcome (Container.component b (exec .full) name)) s)
    (extension : ∀ name expected, r = .extension name expected →
      Leads R (outcome (Container.extension b (exec .full) name expected)) s)
    (factoryHook : ∀ e code, r = .factoryHook e → e.body = .custom code →
      Leads R (exec view (b.onFactory code)) { s with history := .factoryHook e :: s.history }) :
    Leads R (answer b exec view r) s := by
  cases r with
  | registry r => exact answerRegistry_leads closed r s
  | extension name expected => exact extension name expected rfl
  | component name => exact component name rfl
  | merged name => exact mergedDefinition_leads closed name s
  | attach e => exact .of_run rfl (closed.step (.attached s e))
  | chainLength => exact .container_bind closed (.pure closed _)
  | chainNames => exact .container_bind closed (.pure closed _)
  | clearMerged =>
      refine .container_bind closed (.bind_of_run closed (run_announce _ s)
        (closed.step (.announced s _)) ?_)
      exact .of_run (run_changeContainer _ _) (closed.step (.cleared _))
  | comparator => exact .container_bind closed (.pure closed _)
  | create body =>
      exact .bind_of_run closed (run_freshId s) (closed.step (.numbered s)) (.pure closed _)
  | registryHook e =>
      refine .bind_of_run closed (run_record _ s) (closed.step (.registryHook s e)) ?_
      cases e.body with
      | custom code => exact run_leads closed (answerRegistry_leads closed) _ _
      | completeness target => exact .pure closed _
      | listeners => exact .pure closed _
  | factoryHook e =>
      refine .bind_of_run closed (run_record _ s) (closed.step (.factoryHook s e)) ?_
      cases body : e.body with
      | custom code => exact factoryHook e code rfl body
      | completeness target => exact .pure closed _
      | listeners => exact .pure closed _
  | announce n => exact .announce closed n
  | forever => exact .endless

end Within

/-! ## 5. All that happens is a course -/

section Making

variable {exec : Exec κ ι ω} {name : String} {s s' : State κ ι ω}

/-- The making of a component: the hooks that see the merged definition, the supplier, and the hooks
    that see the component; or it fails before the supplier runs. -/
theorem create_cases {m : MergedDefinition κ} {made : Except Failure ι}
    (h : outcome (create b exec name m) s = some (made, s')) :
    ((∃ failure, made = .error failure) ∧ Watched s s') ∨
      ∃ s₁ s₂ o, Watched s s₁ ∧
        exec (b.supply m.definition.supplier) (supplied s₁ name m.definition) = some (o, s₂) ∧
        Watched s₂ s' := by
  unfold create at h
  rw [outcome_perform_bind (run_container s), outcome_bind] at h
  have shown : Watches ((s.container.chain.filter (Extension.isMergedAware b)).forM
      (Extension.seeMerged b m name)) :=
    .forM (fun e => Extension.seeMerged_watches m name e) _
  rcases hr : outcome ((s.container.chain.filter (Extension.isMergedAware b)).forM
      (Extension.seeMerged b m name)) s with _ | ⟨failure | u, s₁⟩
  · rw [hr] at h
    cases h
  · rw [hr] at h
    cases h
    exact Or.inl ⟨⟨failure, rfl⟩, shown hr⟩
  · rw [hr] at h
    replace h : outcome (ofOutcome (exec (b.supply m.definition.supplier)) >>= _)
      (supplied s₁ name m.definition) = some (made, s') := h
    rw [outcome_bind, outcome_ofOutcome] at h
    rcases hx : exec (b.supply m.definition.supplier) (supplied s₁ name m.definition) with
      _ | ⟨o, s₂⟩
    · rw [hx] at h
      cases h
    · refine Or.inr ⟨s₁, s₂, o, shown hr, hx, ?_⟩
      rw [hx] at h
      cases o with
      | error failure =>
          cases h
          exact .refl s'
      | ok value =>
          replace h : outcome (perform container >>= _) s₂ = some (made, s') := h
          rw [outcome_perform_bind (run_container s₂)] at h
          have passed : Watches (do
              let value ← s₂.container.chain.foldlM
                (Extension.seeBefore b ⟨name, some m, s₂.container.chain.length⟩) value
              s₂.container.chain.foldlM
                (Extension.seeAfter b ⟨name, some m, s₂.container.chain.length⟩) value) :=
            Watches.bind (.foldlM (fun _ _ => Extension.seeBefore_watches _ _ _) _ _) fun _ =>
              .foldlM (fun _ _ => Extension.seeAfter_watches _ _ _) _ _
          exact passed h

variable {depth : Nat}

/-- The making of a component from its merged definition. -/
theorem makeComponent_follows {m : MergedDefinition κ}
    (hexec : ∀ (p : FactoryProgram κ ι ω (Except Failure ι)) s, Follows b (nested b depth .full p) s)
    (new : s.container.components.find? name = none)
    (merged : s.container.merged.find? name = some m) (template : m.definition.template = false)
    (kind : m.definition.kind = .component) :
    Follows b (outcome (do
      let value ← whileCreating name (create b (nested b depth .full) name m)
      perform <| record (.madeComponent name value)
      perform <| changeContainer fun c => { c with components := c.components.set name value }
      return value)) s := by
  intro r s' h
  rw [outcome_bind] at h
  by_cases idle : name ∈ s.container.creating
  · rw [outcome_whileCreating_busy idle] at h
    cases h
    exact .refl s
  · rw [outcome_whileCreating idle] at h
    rcases hr : outcome (create b (nested b depth .full) name m) (beginning s name) with
      _ | ⟨made, s₃⟩
    · rw [hr] at h
      cases h
    · rw [hr] at h
      rcases create_cases hr with ⟨⟨failure, rfl⟩, shown⟩ | ⟨s₁, s₂, o, shown, hx, passed⟩
      · cases h
        exact .unmade idle shown
      · have supply := hexec _ _ hx
        cases made with
        | error failure =>
            cases h
            exact .failed idle (.component new merged template kind) shown supply passed
        | ok value =>
            cases h
            exact .component idle new merged template kind ⟨depth, hr⟩ shown supply passed

theorem component_follows
    (hexec : ∀ (p : FactoryProgram κ ι ω (Except Failure ι)) s, Follows b (nested b depth .full p) s)
    (name : String) (s : State κ ι ω) :
    Follows b (outcome (Container.component b (nested b depth .full) name)) s := by
  intro r s' h
  unfold Container.component at h
  rw [outcome_perform_bind (run_container s)] at h
  cases hnew : s.container.components.find? name with
  | some value =>
      rw [hnew] at h
      cases h
      exact .refl s
  | none =>
      rw [hnew] at h
      replace h : outcome (mergedDefinition name >>= _) s = some (r, s') := h
      rw [outcome_bind] at h
      rcases hr : outcome (mergedDefinition name) s with _ | ⟨failure | m, s₁⟩
      · rw [hr] at h
        cases h
      · rw [hr] at h
        cases h
        exact mergedDefinition_leads (closed_course b) name s hr
      · rw [hr] at h
        refine (mergedDefinition_leads (closed_course b) name s hr).trans ?_
        obtain ⟨hm, hsame⟩ := mergedDefinition_ok hr
        have new : s₁.container.components.find? name = none := by
          rw [hsame]
          exact hnew
        replace h : outcome (if m.definition.template = true then _ else _) s₁ = some (r, s') := h
        split at h
        · cases h
          exact .refl _
        · rename_i htemplate
          have template : m.definition.template = false := by simpa using htemplate
          cases hk : m.definition.kind with
          | postProcessor family =>
              rw [hk] at h
              cases h
              exact .refl _
          | component =>
              rw [hk] at h
              exact makeComponent_follows hexec new hm template hk h

theorem extension_follows
    (hexec : ∀ (p : FactoryProgram κ ι ω (Except Failure κ)) s, Follows b (nested b depth .full p) s)
    (name : String) (expected : Capability) (s : State κ ι ω) :
    Follows b (outcome (Container.extension b (nested b depth .full) name expected)) s := by
  intro r s' h
  cases extension_cases h with
  | refused failure => exact .refl s
  | known found declares known => exact .refl s
  | unfit idle => exact .unmade idle (.refl _)
  | failed idle new found kind run =>
      exact .failed idle (.extension new found kind) (.refl _) (hexec _ _ run) (.refl _)
  | made idle new found declares kind run =>
      exact .extension idle new found kind ⟨depth, run⟩ (hexec _ _ run)

end Making

/-- **Whatever a request does is a course**, at every depth and on both views. -/
theorem serve_course (depth : Nat) (view : View) (r : Request κ ι ω) (s : State κ ι ω) :
    Follows b (serve b depth view r) s := by
  have answered (depth : Nat) (hexec : ∀ {α : Type} (view : View) (p : FactoryProgram κ ι ω α) s,
      Follows b (nested b depth view p) s) (view : View) (r : Request κ ι ω) (s : State κ ι ω) :
      Follows b (answer b (nested b depth) view r) s :=
    answer_leads (closed_course b) (fun name _ => component_follows (hexec .full) name s)
      (fun name expected _ => extension_follows (hexec .full) name expected s)
      fun _ _ _ _ => hexec view _ _
  rw [serve_eq_answer]
  induction depth generalizing view r s with
  | zero => exact answered 0 (fun _ _ _ => .endless) view r s
  | succ depth ih =>
      have once (view : View) (r : Request κ ι ω) (s : State κ ι ω) :
          Follows b (serve b depth view r) s := by
        rw [serve_eq_answer]
        exact ih view r s
      exact answered (depth + 1) (fun view p s => run_leads (closed_course b) (once view) p s) view r s

/-- **Whatever a program does is a course.** -/
theorem run_course (depth : Nat) (view : View) (p : FactoryProgram κ ι ω α) (s : State κ ι ω) :
    Follows b (run b depth view p) s := run_leads (closed_course b) (serve_course depth view) p s

end Container

end ComponentContainer
