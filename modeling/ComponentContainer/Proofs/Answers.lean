/-
  File:      ComponentContainer/Proofs/Answers.lean
  Subject:   What a container answers to single requests, at every depth and on both views.

  * `Container.nested` -- how the programs of suppliers and hooks run while a request is answered.
  * `serve_eq_answer` -- one request is answered by `answer`; the lemmas on the single requests
    follow from it.
  * `nodup_namesFor` -- the names of a capability are distinct.
  * `serve_extension_known`, `serve_extension_made` -- the request for an extension, when it was made
    before and when its supplier makes it now; `extension_cases` -- **all that the request for an
    extension may lead to.**
-/
import ComponentContainer.Container.Answering
import ComponentContainer.Proofs.Acts

namespace ComponentContainer.Container

open Act Attempt

variable {κ ι ω : Type} (b : Behaviour κ ι ω) (depth : Nat) (view : View) (s : State κ ι ω)

/-- How the programs of suppliers and hooks run while a request is answered. -/
def nested (b : Behaviour κ ι ω) : Nat → View → Exec κ ι ω
  | 0 => fun _ _ _ => Act.endless
  | depth + 1 => fun view _ p => p.run (serve b depth view)

theorem serve_eq_answer : serve b depth view = answer b (nested b depth) view := by
  cases depth <;> rfl

theorem serve_registry (r : RegistryRequest κ ω) :
    serve b depth view (.registry r) s = answerRegistry r s := by
  rw [serve_eq_answer]
  rfl

theorem serve_namesFor (capability : Capability) :
    serve b depth view (.registry (.namesFor capability)) s =
      some (s.container.namesFor capability, s) := by
  rw [serve_registry]
  rfl

theorem serve_find (name : String) :
    serve b depth view (.registry (.find name)) s =
      some (s.container.definitions.find? name, s) := by
  rw [serve_registry]
  rfl

/-- **The names of a capability are distinct**, for the names of a table are. -/
theorem nodup_namesFor (c : Container κ ι) (capability : Capability) :
    (c.namesFor capability).Nodup :=
  c.definitions.distinct.sublist (List.filter_sublist.map _)

theorem serve_announce (n : Notice) :
    serve b depth view (.announce n) s =
      some ((), { s with history := .announced n :: s.history }) := by
  rw [serve_eq_answer]
  rfl

theorem serve_attach (e : Extension κ) :
    serve b depth view (.attach e) s =
      some ((), { s with container := s.container.attach e, history := .attached e :: s.history }) := by
  rw [serve_eq_answer]
  rfl

theorem serve_chainLength :
    serve b depth view .chainLength s = some (s.container.chain.length, s) := by
  rw [serve_eq_answer]
  rfl

theorem serve_create (body : Body κ) :
    serve b depth view (.create body) s =
      some (⟨s.nextId, body⟩, { s with nextId := s.nextId + 1 }) := by
  rw [serve_eq_answer]
  rfl

theorem serve_clearMerged :
    serve b depth view .clearMerged s = some ((), { s with
      container := { s.container with merged := .empty }
      history := .announced (.clearing s.container.merged.size) :: s.history }) := by
  rw [serve_eq_answer]
  rfl

/-- The comparator that code sees. -/
def View.comparator (view : View) (c : Container κ ι) : Option Comparator :=
  match view with
  | .full => c.comparator
  | .bare => none

theorem serve_comparator :
    serve b depth view .comparator s = some (view.comparator s.container, s) := by
  rw [serve_eq_answer]
  rfl

/-! ## 2. While something is being made -/

/-- The state in which the making of something begins. -/
def beginning (s : State κ ι ω) (name : String) : State κ ι ω :=
  { s with
    container := { s.container with creating := name :: s.container.creating }
    history := .began name :: s.history }

/-- The state in which the making of something is over. -/
def ending (s : State κ ι ω) (name : String) : State κ ι ω :=
  { s with
    container := { s.container with creating := s.container.creating.erase name }
    history := .ended name :: s.history }

variable {b depth view s} {name : String}

theorem outcome_whileCreating {α : Type} {attempt : Attempt κ ι ω α}
    (idle : name ∉ s.container.creating) :
    outcome (whileCreating name attempt) s =
      match outcome attempt (beginning s name) with
      | none => none
      | some (made, s') => some (made, ending s' name) := by
  unfold whileCreating
  rw [outcome_perform_bind (run_container s), if_neg idle]
  show outcome (perform _ >>= fun _ => perform _ >>= fun _ => _) s = _
  rw [outcome_perform_bind (run_record _ s), outcome_perform_bind (run_changeContainer _ _)]
  show outcome (perform (outcome attempt) >>= _) (beginning s name) = _
  rcases h : outcome attempt (beginning s name) with _ | ⟨made, s'⟩
  · rw [outcome_bind, outcome_perform, h]
  · rw [outcome_perform_bind h]
    rfl

/-- What is being made cannot be made again. -/
theorem outcome_whileCreating_busy {α : Type} {attempt : Attempt κ ι ω α}
    (busy : name ∈ s.container.creating) :
    outcome (whileCreating name attempt) s = some (.error (.circularReference name), s) := by
  unfold whileCreating
  rw [outcome_perform_bind (run_container s), if_pos busy]
  rfl

/-- The request for a component, at every depth. -/
theorem serve_component : serve b depth view (.component name) s =
    outcome (Container.component b (nested b depth .full) name) s := by
  rw [serve_eq_answer]
  rfl

/-! ## 3. The request for an extension -/

variable {expected : Capability} {d : Definition κ}

/-- The state in which the supplier of a definition begins. -/
def supplied (s : State κ ι ω) (name : String) (d : Definition κ) : State κ ι ω :=
  { s with history := .supplied name d :: s.history }

/-- The state in which the supplier of an extension runs. -/
def supplying (s : State κ ι ω) (name : String) (d : Definition κ) : State κ ι ω :=
  { beginning s name with history := .supplied name d :: (beginning s name).history }

/-- The state when an extension has been made, where `s` is the state when its supplier was done. -/
def made (s : State κ ι ω) (name : String) (h : Handle κ) : State κ ι ω :=
  { s with
    container := { s.container with
      creating := s.container.creating.erase name
      extensions := s.container.extensions.set name h }
    nextId := s.nextId + 1
    history := .madeExtension name h :: .announced (.instantiated name h.family) ::
      .ended name :: s.history }

theorem serve_extension : serve b depth view (.extension name expected) s =
    outcome (Container.extension b (nested b depth .full) name expected) s := by
  rw [serve_eq_answer]
  rfl

/-- An extension that was made before is the answer. -/
theorem serve_extension_known {h : Handle κ} (hd : s.container.definitions.find? name = some d)
    (declares : d.declares expected = true) (known : s.container.extensions.find? name = some h) :
    serve b depth view (.extension name expected) s = some (.ok h, s) := by
  rw [serve_extension, Container.extension, outcome_perform_bind (run_container s)]
  simp only [hd, declares, known]
  rfl

/-- The making of an extension, by the kind of its definition. -/
theorem outcome_createExtension {exec : Exec κ ι ω} :
    outcome (createExtension b exec name expected d) s =
      match d.kind with
      | .component =>
        some (.error (.typeMismatch name expected.text Capability.component.text), s)
      | .postProcessor family =>
        match exec (b.build d.supplier) (supplied s name d) with
        | none => none
        | some (.error failure, s') => some (.error failure, s')
        | some (.ok code, s') =>
          some (.ok ⟨family, b.yielded code s'.nextId⟩, { s' with nextId := s'.nextId + 1 }) := by
  unfold createExtension
  cases d.kind with
  | component => rfl
  | postProcessor family =>
      show outcome (perform _ >>= _) s = _
      rw [outcome_perform_bind (run_record _ s)]
      show outcome (ofOutcome _ >>= _) (supplied s name d) = _
      rw [outcome_bind, outcome_ofOutcome]
      simp only
      generalize exec (b.build d.supplier) (supplied s name d) = r
      rcases r with _ | ⟨failure | code, s'⟩ <;> rfl

/-- A request for an extension that is neither there nor being made. -/
theorem outcome_extension_new {exec : Exec κ ι ω}
    (found : s.container.definitions.find? name = some d) (declares : d.declares expected = true)
    (new : s.container.extensions.find? name = none) (idle : name ∉ s.container.creating) :
    outcome (Container.extension b exec name expected) s =
      match d.kind with
      | .component =>
        some (.error (.typeMismatch name expected.text Capability.component.text),
          ending (beginning s name) name)
      | .postProcessor family =>
        match exec (b.build d.supplier) (supplying s name d) with
        | none => none
        | some (.error failure, s') => some (.error failure, ending s' name)
        | some (.ok code, s') =>
          some (.ok ⟨family, b.yielded code s'.nextId⟩,
            made s' name ⟨family, b.yielded code s'.nextId⟩) := by
  rw [Container.extension, outcome_perform_bind (run_container s)]
  simp only [found, declares, new]
  show outcome (whileCreating name _ >>= _) s = _
  rw [outcome_bind, outcome_whileCreating idle, outcome_createExtension,
    show supplied (beginning s name) name d = supplying s name d from rfl]
  cases d.kind with
  | component => rfl
  | postProcessor family =>
      simp only
      generalize exec (b.build d.supplier) (supplying s name d) = r
      rcases r with _ | ⟨failure | code, s'⟩ <;> rfl

/-- An extension that is not there is made by the supplier of its definition. -/
theorem serve_extension_made {family : PostProcessor} {code : κ} {s' : State κ ι ω}
    (hd : s.container.definitions.find? name = some d) (hk : d.kind = .postProcessor family)
    (declares : d.declares expected = true) (unknown : s.container.extensions.find? name = none)
    (idle : name ∉ s.container.creating)
    (supplied : nested b depth .full (b.build d.supplier) (supplying s name d) =
      some (.ok code, s')) :
    serve b depth view (.extension name expected) s =
      some (.ok ⟨family, b.yielded code s'.nextId⟩,
        made s' name ⟨family, b.yielded code s'.nextId⟩) := by
  rw [serve_extension, outcome_extension_new hd declares unknown idle, hk]
  simp only [supplied]

/-- What the request for an extension leads to. -/
inductive ExtensionAnswer (b : Behaviour κ ι ω) (exec : Exec κ ι ω) (name : String)
    (expected : Capability) (s : State κ ι ω) : Except Failure (Handle κ) → State κ ι ω → Prop
  /-- There is no such definition, it does not declare what is expected, or it is being made. -/
  | refused (failure : Failure) : ExtensionAnswer b exec name expected s (.error failure) s
  | known {d : Definition κ} {h : Handle κ} (found : s.container.definitions.find? name = some d)
      (declares : d.declares expected = true)
      (known : s.container.extensions.find? name = some h) :
      ExtensionAnswer b exec name expected s (.ok h) s
  /-- The definition makes no extension, whatever it declares. -/
  | unfit {failure : Failure} (idle : name ∉ s.container.creating) :
      ExtensionAnswer b exec name expected s (.error failure) (ending (beginning s name) name)
  | failed {d : Definition κ} {family : PostProcessor} {failure : Failure} {s' : State κ ι ω}
      (idle : name ∉ s.container.creating) (new : s.container.extensions.find? name = none)
      (found : s.container.definitions.find? name = some d) (kind : d.kind = .postProcessor family)
      (run : exec (b.build d.supplier) (supplying s name d) = some (.error failure, s')) :
      ExtensionAnswer b exec name expected s (.error failure) (ending s' name)
  | made {d : Definition κ} {family : PostProcessor} {code : κ} {s' : State κ ι ω}
      (idle : name ∉ s.container.creating) (new : s.container.extensions.find? name = none)
      (found : s.container.definitions.find? name = some d)
      (declares : d.declares expected = true) (kind : d.kind = .postProcessor family)
      (run : exec (b.build d.supplier) (supplying s name d) = some (.ok code, s')) :
      ExtensionAnswer b exec name expected s (.ok ⟨family, b.yielded code s'.nextId⟩)
        (made s' name ⟨family, b.yielded code s'.nextId⟩)

/-- **The request for an extension leads to nothing else.** -/
theorem extension_cases {exec : Exec κ ι ω} {r : Except Failure (Handle κ)} {s' : State κ ι ω}
    (h : outcome (Container.extension b exec name expected) s = some (r, s')) :
    ExtensionAnswer b exec name expected s r s' := by
  have hopen := h
  rw [Container.extension, outcome_perform_bind (run_container s)] at hopen
  cases found : s.container.definitions.find? name with
  | none =>
      rw [found] at hopen
      cases hopen
      exact .refused _
  | some d =>
      rw [found] at hopen
      by_cases declares : d.declares expected = true
      · cases new : s.container.extensions.find? name with
        | some handle =>
            simp only [declares, new] at hopen
            cases hopen
            exact .known found declares new
        | none =>
            by_cases idle : name ∈ s.container.creating
            · simp only [declares, new] at hopen
              replace hopen : outcome (whileCreating name _ >>= _) s = some (r, s') := hopen
              rw [outcome_bind, outcome_whileCreating_busy idle] at hopen
              cases hopen
              exact .refused _
            · rw [outcome_extension_new found declares new idle] at h
              cases kind : d.kind with
              | component =>
                  rw [kind] at h
                  cases h
                  exact .unfit idle
              | postProcessor family =>
                  rw [kind] at h
                  rcases run : exec (b.build d.supplier) (supplying s name d) with
                    _ | ⟨failure | code, s₁⟩
                  · simp only [run] at h
                    cases h
                  · simp only [run] at h
                    cases h
                    exact .failed idle new found kind run
                  · simp only [run] at h
                    cases h
                    exact .made idle new found declares kind run
      · simp only [declares] at hopen
        cases hopen
        exact .refused _

end ComponentContainer.Container
