/-
  File:      ComponentContainer/Proofs/Moments.lean
  Subject:   The moments of a run, also those in the midst of what suppliers and hooks do.

  * `outcome_create`, `outcome_component_made` and the lemmas beside them -- the request for a
    component, opened; `component_cases`, `component_new_cases`, `extension_ways` -- it makes
    something, or its answer has nothing to do with what suppliers do.
  * `Enters` -- the programs that are run while a request is answered; `answer_congr` -- **an answer
    depends on no other run**; `Enters.endless` -- **and there is none before each of them has come
    to an end.** `RunsEntered` -- both together, and the same of registry hooks.
  * `Moment` -- the states a run passes through, each with the names that are being made by the calls
    that have not returned. A run without an end has moments, too.
  * `Moment.keeps` -- a law about states that courses keep holds at all moments.
  * `Runs` -- what programs get to that are run one after another; `refresh_runs` -- a refresh is
    nothing else. `Context.Boots` -- the bootstrap in a refresh; `Context.refresh_stages` -- a refresh
    that succeeds, stage by stage.
-/
import ComponentContainer.Context
import ComponentContainer.Proofs.Caches

namespace ComponentContainer

variable {κ ι ω α β : Type}

namespace Container

open Act Attempt

variable {b : Behaviour κ ι ω} {exec : Exec κ ι ω} {name : String} {s s₁ : State κ ι ω}
  {m : MergedDefinition κ}

/-! ## 1. The making of a component, opened -/

/-- What is told about a component that has come from its supplier in this state. -/
def creationOf (s : State κ ι ω) (name : String) (m : MergedDefinition κ) : Creation κ :=
  ⟨name, some m, s.container.chain.length⟩

/-- Those in the chain that want to see merged definitions. -/
def aware (b : Behaviour κ ι ω) (s : State κ ι ω) : List (Extension κ) :=
  s.container.chain.filter (Extension.isMergedAware b)

/-- Shows a merged definition to some extensions. -/
def showTo (b : Behaviour κ ι ω) (name : String) (m : MergedDefinition κ)
    (es : List (Extension κ)) : Attempt κ ι ω Unit :=
  es.forM (Extension.seeMerged b m name)

/-- Passes a component through some extensions, before its initialization. -/
def passBefore (b : Behaviour κ ι ω) (creation : Creation κ) (es : List (Extension κ)) (value : ι) :
    Attempt κ ι ω ι :=
  es.foldlM (Extension.seeBefore b creation) value

/-- Passes a component through some extensions, after its initialization. -/
def passAfter (b : Behaviour κ ι ω) (creation : Creation κ) (es : List (Extension κ)) (value : ι) :
    Attempt κ ι ω ι :=
  es.foldlM (Extension.seeAfter b creation) value

/-- Passes a component that has come from its supplier through the chain as it is then. -/
def passThrough (b : Behaviour κ ι ω) (s : State κ ι ω) (name : String) (m : MergedDefinition κ)
    (value : ι) : Attempt κ ι ω ι := do
  let value ← passBefore b (creationOf s name m) s.container.chain value
  passAfter b (creationOf s name m) s.container.chain value

theorem showTo_watches (es : List (Extension κ)) :
    Watches (showTo b name m es : Attempt κ ι ω Unit) :=
  .forM (fun e => Extension.seeMerged_watches m name e) es

theorem passBefore_watches (creation : Creation κ) (es : List (Extension κ)) (value : ι) :
    Watches (passBefore b creation es value) :=
  .foldlM (fun value e => Extension.seeBefore_watches creation value e) value es

theorem passAfter_watches (creation : Creation κ) (es : List (Extension κ)) (value : ι) :
    Watches (passAfter b creation es value) :=
  .foldlM (fun value e => Extension.seeAfter_watches creation value e) value es

theorem passThrough_watches (t : State κ ι ω) (value : ι) :
    Watches (passThrough b t name m value) :=
  (passBefore_watches _ _ _).bind fun _ => passAfter_watches _ _ _

theorem outcome_create (exec : Exec κ ι ω) (name : String) (m : MergedDefinition κ)
    (s : State κ ι ω) :
    outcome (create b exec name m) s =
      match outcome (showTo b name m (aware b s)) s with
      | none => none
      | some (.ok _, s₁) =>
        match exec (b.supply m.definition.supplier) (supplied s₁ name m.definition) with
        | none => none
        | some (.ok value, s₂) => outcome (passThrough b s₂ name m value) s₂
        | some (.error failure, s₂) => some (.error failure, s₂)
      | some (.error failure, s₁) => some (.error failure, s₁) := by
  unfold create
  rw [outcome_perform_bind (run_container s)]
  show outcome (showTo b name m (aware b s) >>= _) s = _
  rw [outcome_bind]
  rcases outcome (showTo b name m (aware b s)) s with _ | ⟨failure | u, s₁⟩
  · rfl
  · rfl
  · show outcome (ofOutcome (exec (b.supply m.definition.supplier)) >>= _)
      (supplied s₁ name m.definition) = _
    rw [outcome_bind, outcome_ofOutcome]
    simp only
    rcases exec (b.supply m.definition.supplier) (supplied s₁ name m.definition) with
      _ | ⟨failure | value, s₂⟩
    · rfl
    · rfl
    · exact outcome_perform_bind (run_container s₂) _

theorem outcome_component_known {value : ι}
    (known : s.container.components.find? name = some value) :
    outcome (Container.component b exec name) s = some (.ok value, s) := by
  unfold Container.component
  rw [outcome_perform_bind (run_container s), known]
  rfl

/-- The request for a component that is not there begins by merging its definition. -/
theorem outcome_component_new (new : s.container.components.find? name = none) :
    outcome (Container.component b exec name) s =
      outcome (mergedDefinition name >>= fun merged => do
        if merged.definition.template then throw (.invalidDefinition (.template name))
        match merged.definition.kind with
        | .postProcessor family =>
          throw (.typeMismatch name Capability.component.text family.text)
        | .component =>
          let value ← whileCreating name (create b exec name merged)
          perform <| record (.madeComponent name value)
          perform <| changeContainer fun c => { c with components := c.components.set name value }
          return value) s := by
  unfold Container.component
  rewrite [outcome_perform_bind (run_container s), new]
  rfl

theorem outcome_component_unmerged {failure : Failure}
    (new : s.container.components.find? name = none)
    (merged : outcome (mergedDefinition name) s = some (.error failure, s₁)) :
    outcome (Container.component b exec name) s = some (.error failure, s₁) := by
  rw [outcome_component_new new, outcome_bind, merged]

theorem outcome_component_template (new : s.container.components.find? name = none)
    (merged : outcome (mergedDefinition name) s = some (.ok m, s₁))
    (template : m.definition.template = true) :
    outcome (Container.component b exec name) s =
      some (.error (.invalidDefinition (.template name)), s₁) := by
  rw [outcome_component_new new, outcome_bind_of_ok merged, if_pos template]
  rfl

theorem outcome_component_unfit {family : PostProcessor}
    (new : s.container.components.find? name = none)
    (merged : outcome (mergedDefinition name) s = some (.ok m, s₁))
    (template : m.definition.template = false) (kind : m.definition.kind = .postProcessor family) :
    outcome (Container.component b exec name) s =
      some (.error (.typeMismatch name Capability.component.text family.text), s₁) := by
  rw [outcome_component_new new, outcome_bind_of_ok merged, if_neg (by simp [template]), kind]
  rfl

theorem outcome_component_busy (new : s.container.components.find? name = none)
    (merged : outcome (mergedDefinition name) s = some (.ok m, s₁))
    (template : m.definition.template = false) (kind : m.definition.kind = .component)
    (busy : name ∈ s₁.container.creating) :
    outcome (Container.component b exec name) s = some (.error (.circularReference name), s₁) := by
  rw [outcome_component_new new, outcome_bind_of_ok merged, if_neg (by simp [template]), kind]
  show outcome (whileCreating name _ >>= _) s₁ = _
  rw [outcome_bind, outcome_whileCreating_busy busy]

/-- The request for a component makes it from a merged definition, beginning in the state `s₁`. -/
structure Makes (s : State κ ι ω) (name : String) (m : MergedDefinition κ) (s₁ : State κ ι ω) :
    Prop where
  new : s.container.components.find? name = none
  merged : outcome (mergedDefinition name) s = some (.ok m, s₁)
  template : m.definition.template = false
  kind : m.definition.kind = .component
  idle : name ∉ s₁.container.creating

theorem outcome_component_made (h : Makes s name m s₁) :
    outcome (Container.component b exec name) s =
      match outcome (create b exec name m) (beginning s₁ name) with
      | none => none
      | some (.ok value, s₂) => some (.ok value, madeComponent s₂ name value)
      | some (.error failure, s₂) => some (.error failure, ending s₂ name) := by
  rw [outcome_component_new h.new, outcome_bind_of_ok h.merged, if_neg (by simp [h.template]),
    h.kind]
  show outcome (whileCreating name _ >>= _) s₁ = _
  rw [outcome_bind, outcome_whileCreating h.idle]
  rcases outcome (create b exec name m) (beginning s₁ name) with _ | ⟨failure | value, s₂⟩ <;> rfl

theorem outcome_mergedDefinition_ne_none : outcome (mergedDefinition name) s ≠ none := by
  rw [outcome_mergedDefinition]
  cases s.container.merged.find? name with
  | some m => exact Option.some_ne_none _
  | none => cases freshMerge s.container.definitions name <;> exact Option.some_ne_none _

/-- **The request for a component makes it, or its answer has nothing to do with what suppliers
    do**; then it has merged the definition at most. -/
theorem component_cases (b : Behaviour κ ι ω) (name : String) (s : State κ ι ω) :
    (∃ r, (r.2 = s ∨ ∃ merged, outcome (mergedDefinition name) s = some (merged, r.2)) ∧
      ∀ exec : Exec κ ι ω, outcome (Container.component b exec name) s = some r) ∨
      ∃ m s₁, Makes s name m s₁ := by
  cases known : s.container.components.find? name with
  | some value => exact .inl ⟨_, .inl rfl, fun _ => outcome_component_known known⟩
  | none =>
      rcases merged : outcome (mergedDefinition name) s with _ | ⟨failure | m, s₁⟩
      · exact absurd merged outcome_mergedDefinition_ne_none
      · exact .inl ⟨_, .inr ⟨_, rfl⟩, fun _ => outcome_component_unmerged known merged⟩
      · cases template : m.definition.template with
        | true =>
            exact .inl ⟨_, .inr ⟨_, rfl⟩, fun _ => outcome_component_template known merged template⟩
        | false =>
            cases kind : m.definition.kind with
            | postProcessor family =>
                exact .inl ⟨_, .inr ⟨_, rfl⟩, fun _ =>
                  outcome_component_unfit known merged template kind⟩
            | component =>
                by_cases busy : name ∈ s₁.container.creating
                · exact .inl ⟨_, .inr ⟨_, rfl⟩, fun _ =>
                    outcome_component_busy known merged template kind busy⟩
                · exact .inr ⟨m, s₁, known, merged, template, kind, busy⟩

/-- A request for a component that is not remembered is refused, or makes it. -/
theorem component_new_cases {s' : State κ ι ω} {r : Except Failure ι}
    (new : s.container.components.find? name = none)
    (h : outcome (Container.component b exec name) s = some (r, s')) :
    (∃ failure merged, r = .error failure ∧
      outcome (mergedDefinition name) s = some (merged, s')) ∨ ∃ m s₁, Makes s name m s₁ := by
  rcases merged : outcome (mergedDefinition name) s with _ | ⟨failure | m, s₁⟩
  · exact absurd merged outcome_mergedDefinition_ne_none
  · rw [outcome_component_unmerged new merged] at h
    cases h
    exact .inl ⟨_, _, rfl, rfl⟩
  · cases template : m.definition.template with
    | true =>
        rw [outcome_component_template new merged template] at h
        cases h
        exact .inl ⟨_, _, rfl, rfl⟩
    | false =>
        cases kind : m.definition.kind with
        | postProcessor family =>
            rw [outcome_component_unfit new merged template kind] at h
            cases h
            exact .inl ⟨_, _, rfl, rfl⟩
        | component =>
            by_cases busy : name ∈ s₁.container.creating
            · rw [outcome_component_busy new merged template kind busy] at h
              cases h
              exact .inl ⟨_, _, rfl, rfl⟩
            · exact .inr ⟨m, s₁, new, merged, template, kind, busy⟩

/-! ## 2. The making of an extension -/

/-- The request for an extension makes it from a definition. -/
structure Builds (s : State κ ι ω) (name : String) (expected : Capability) (d : Definition κ)
    (family : PostProcessor) : Prop where
  found : s.container.definitions.find? name = some d
  declares : d.declares expected = true
  new : s.container.extensions.find? name = none
  idle : name ∉ s.container.creating
  kind : d.kind = .postProcessor family

/-- **The request for an extension makes it, or its answer has nothing to do with what suppliers
    do**; then its making has begun and ended at most. -/
theorem extension_ways (b : Behaviour κ ι ω) (name : String) (expected : Capability)
    (s : State κ ι ω) :
    (∃ r, (r.2 = s ∨ r.2 = ending (beginning s name) name) ∧
      ∀ exec : Exec κ ι ω, outcome (Container.extension b exec name expected) s = some r) ∨
      ∃ d family, Builds s name expected d family := by
  cases found : s.container.definitions.find? name with
  | none =>
      refine .inl ⟨(.error (.noSuchDefinition name), s), .inl rfl, fun _ => ?_⟩
      rw [Container.extension, outcome_perform_bind (run_container s), found]
      rfl
  | some d =>
      cases declares : d.declares expected with
      | false =>
          refine .inl ⟨(.error (.typeMismatch name expected.text d.kind.text), s), .inl rfl,
            fun _ => ?_⟩
          rw [Container.extension, outcome_perform_bind (run_container s), found]
          simp only [declares]
          rfl
      | true =>
          cases new : s.container.extensions.find? name with
          | some handle =>
              refine .inl ⟨(.ok handle, s), .inl rfl, fun _ => ?_⟩
              rw [Container.extension, outcome_perform_bind (run_container s), found]
              simp only [declares, new]
              rfl
          | none =>
              by_cases idle : name ∈ s.container.creating
              · refine .inl ⟨(.error (.circularReference name), s), .inl rfl, fun _ => ?_⟩
                rw [Container.extension, outcome_perform_bind (run_container s), found]
                simp only [declares, new]
                show outcome (whileCreating name _ >>= _) s = _
                rw [outcome_bind, outcome_whileCreating_busy idle]
              · cases kind : d.kind with
                | postProcessor family => exact .inr ⟨d, family, found, declares, new, idle, kind⟩
                | component =>
                    refine .inl ⟨(.error (.typeMismatch name expected.text Capability.component.text),
                      ending (beginning s name) name), .inr rfl, fun _ => ?_⟩
                    rw [outcome_extension_new found declares new idle, kind]

/-! ## 3. The programs that a request runs -/

/-- **While a request is answered, a program is run**: the supplier of what is being made under the
    names, or a factory hook, which makes nothing itself. The last state is where the program
    begins. -/
inductive Enters (b : Behaviour κ ι ω) (view : View) : Request κ ι ω → State κ ι ω →
    List String → View → {α : Type} → FactoryProgram κ ι ω α → State κ ι ω → Prop
  | component {name : String} {m : MergedDefinition κ} {s s₁ s₂ : State κ ι ω}
      (makes : Makes s name m s₁)
      (shown : outcome (showTo b name m (aware b (beginning s₁ name))) (beginning s₁ name) =
        some (.ok (), s₂)) :
      Enters b view (.component name) s [name] .full (b.supply m.definition.supplier)
        (supplied s₂ name m.definition)
  | extension {name : String} {expected : Capability} {d : Definition κ} {family : PostProcessor}
      {s : State κ ι ω} (builds : Builds s name expected d family) :
      Enters b view (.extension name expected) s [name] .full (b.build d.supplier)
        (supplying s name d)
  | factoryHook {e : Extension κ} {code : κ} {s : State κ ι ω} (body : e.body = .custom code) :
      Enters b view (.factoryHook e) s [] view (b.onFactory code)
        { s with history := .factoryHook e :: s.history }

/-- **The answer to a request depends on no run but those of the programs it enters.** -/
theorem answer_congr {exec exec' : View → Exec κ ι ω} {view : View} {r : Request κ ι ω}
    (same : ∀ {names : List String} {view' : View} {α : Type} {p : FactoryProgram κ ι ω α}
      {s₁ : State κ ι ω}, Enters b view r s names view' p s₁ → exec view' p s₁ = exec' view' p s₁) :
    answer b exec view r s = answer b exec' view r s := by
  cases r with
  | component name =>
      show outcome (Container.component b _ name) s = outcome (Container.component b _ name) s
      obtain ⟨answer, -, fixed⟩ | ⟨m, s₁, makes⟩ := component_cases b name s
      · rw [fixed, fixed]
      · rw [outcome_component_made makes, outcome_component_made makes, outcome_create,
          outcome_create]
        rcases shown : outcome (showTo b name m (aware b (beginning s₁ name))) (beginning s₁ name)
          with _ | ⟨failure | u, s₂⟩
        · rfl
        · rfl
        · simp only [same (.component makes shown)]
  | extension name expected =>
      show outcome (Container.extension b _ name expected) s =
        outcome (Container.extension b _ name expected) s
      obtain ⟨answer, -, fixed⟩ | ⟨d, family, builds⟩ := extension_ways b name expected s
      · rw [fixed, fixed]
      · have hnew := @outcome_extension_new κ ι ω b s name expected d
        rw [hnew builds.found builds.declares builds.new builds.idle,
          hnew builds.found builds.declares builds.new builds.idle, builds.kind]
        simp only [same (.extension builds)]
  | factoryHook e =>
      show factoryHook b (exec view) e s = factoryHook b (exec' view) e s
      unfold factoryHook
      rw [Act.run_bind, Act.run_bind, run_record]
      cases body : e.body with
      | custom code => exact same (.factoryHook body)
      | completeness target => rfl
      | listeners => rfl
  | _ => rfl

/-- A program over the registry, run with all requests at hand. -/
theorem run_onRegistry (depth : Nat) (view : View) (p : RegistryProgram κ ω α) (s : State κ ι ω) :
    (p.onRegistry : FactoryProgram κ ι ω α).run (serve b depth view) s = p.run answerRegistry s := by
  induction p generalizing s with
  | done a => rfl
  | ask r next ih =>
      show Program.run (serve b depth view) (Program.ask (I := factoryInterface κ ι ω) (.registry r)
        fun answer => (next answer).onRegistry) s = _
      rw [Program.run, Program.run, serve_registry]
      rcases answerRegistry r s with _ | ⟨answer, s'⟩
      · rfl
      · exact ih answer s'

/-- **A registry hook is run as a program** whose requests all go to the registry. -/
theorem serve_registryHook {depth : Nat} {view : View} {e : Extension κ} {code : κ}
    (body : e.body = .custom code) :
    serve b depth view (.registryHook e) s =
      (b.onRegistry code).onRegistry.run (serve b depth view)
        { s with history := .registryHook e :: s.history } := by
  rw [run_onRegistry, serve_eq_answer]
  show registryHook b e s = _
  unfold registryHook
  rw [Act.run_bind, run_record, body]

/-- **A request has no answer before the program that it enters has come to an end.** -/
theorem Enters.endless {exec : View → Exec κ ι ω} {view view' : View} {r : Request κ ι ω}
    {names : List String} {p : FactoryProgram κ ι ω α} (enters : Enters b view r s names view' p s₁)
    (endless : exec view' p s₁ = none) : answer b exec view r s = none := by
  cases enters with
  | component makes shown =>
      show outcome (Container.component b (exec .full) _) s = none
      rw [outcome_component_made makes, outcome_create, shown]
      simp only [endless]
  | extension builds =>
      show outcome (Container.extension b (exec .full) _ _) s = none
      rw [outcome_extension_new builds.found builds.declares builds.new builds.idle, builds.kind]
      simp only [endless]
  | factoryHook body =>
      show Container.factoryHook b (exec view) _ s = none
      unfold Container.factoryHook
      rw [Act.run_bind, run_record, body]
      exact endless

/-- **The programs that are entered are those that are run** while requests are answered. -/
structure RunsEntered (b : Behaviour κ ι ω) (depth : Nat) (view : View) : Prop where
  /-- An answer depends on no run but theirs. -/
  no_other {r : Request κ ι ω} {s : State κ ι ω} {exec : View → Exec κ ι ω}
    (same : ∀ {names : List String} {view' : View} {α : Type} {p : FactoryProgram κ ι ω α}
      {s₁ : State κ ι ω}, Enters b view r s names view' p s₁ →
        nested b depth view' p s₁ = exec view' p s₁) :
    serve b depth view r s = answer b exec view r s
  /-- There is no answer before each of them has come to an end. -/
  each {r : Request κ ι ω} {s s₁ : State κ ι ω} {names : List String} {view' : View} {α : Type}
    {p : FactoryProgram κ ι ω α} (enters : Enters b view r s names view' p s₁)
    (endless : nested b depth view' p s₁ = none) : serve b depth view r s = none
  /-- A registry hook is run as a program whose requests all go to the registry. -/
  registryHook {e : Extension κ} {code : κ} {s : State κ ι ω} (body : e.body = .custom code) :
    serve b depth view (.registryHook e) s =
      (b.onRegistry code).onRegistry.run (serve b depth view)
        { s with history := .registryHook e :: s.history }

theorem runsEntered (b : Behaviour κ ι ω) (depth : Nat) (view : View) : RunsEntered b depth view where
  no_other same := by
    rw [serve_eq_answer]
    exact answer_congr same
  each enters endless := by
    rw [serve_eq_answer]
    exact enters.endless endless
  registryHook := serve_registryHook

/-! ## 4. The moments of a run -/

/-- A state in which a hook around the making of a component has been run, or is about to. -/
inductive Hooked (b : Behaviour κ ι ω) (depth : Nat) (name : String) (s : State κ ι ω) :
    State κ ι ω → Prop
  | merged {m : MergedDefinition κ} {s₁ t : State κ ι ω} {es : List (Extension κ)}
      {r : Except Failure Unit} (makes : Makes s name m s₁)
      (part : es <+: aware b (beginning s₁ name))
      (run : outcome (showTo b name m es) (beginning s₁ name) = some (r, t)) :
      Hooked b depth name s t
  | before {m : MergedDefinition κ} {s₁ s₂ s₃ t : State κ ι ω} {es : List (Extension κ)} {value : ι}
      {r : Except Failure ι} (makes : Makes s name m s₁)
      (shown : outcome (showTo b name m (aware b (beginning s₁ name))) (beginning s₁ name) =
        some (.ok (), s₂))
      (supply : nested b depth .full (b.supply m.definition.supplier)
        (supplied s₂ name m.definition) = some (.ok value, s₃))
      (part : es <+: s₃.container.chain)
      (run : outcome (passBefore b (creationOf s₃ name m) es value) s₃ = some (r, t)) :
      Hooked b depth name s t
  | after {m : MergedDefinition κ} {s₁ s₂ s₃ s₄ t : State κ ι ω} {es : List (Extension κ)}
      {value passed : ι} {r : Except Failure ι} (makes : Makes s name m s₁)
      (shown : outcome (showTo b name m (aware b (beginning s₁ name))) (beginning s₁ name) =
        some (.ok (), s₂))
      (supply : nested b depth .full (b.supply m.definition.supplier)
        (supplied s₂ name m.definition) = some (.ok value, s₃))
      (before : outcome (passBefore b (creationOf s₃ name m) s₃.container.chain value) s₃ =
        some (.ok passed, s₄))
      (part : es <+: s₃.container.chain)
      (run : outcome (passAfter b (creationOf s₃ name m) es passed) s₄ = some (r, t)) :
      Hooked b depth name s t

/-- **The moments of a run**: the run of the program from the state `s` comes to the state `t`, where
    the names in the list are being made by the calls that have not returned, innermost first. -/
inductive Moment (b : Behaviour κ ι ω) : Nat → View → {α : Type} → FactoryProgram κ ι ω α →
    State κ ι ω → List String → State κ ι ω → Prop
  | now {depth : Nat} {view : View} {α : Type} (p : FactoryProgram κ ι ω α) (s : State κ ι ω) :
      Moment b depth view p s [] s
  /-- After a request has been answered. -/
  | later {depth : Nat} {view : View} {α : Type} {r : Request κ ι ω}
      {next : r.Answer → FactoryProgram κ ι ω α} {answer : r.Answer} {s s₁ t : State κ ι ω}
      {names : List String} (answered : serve b depth view r s = some (answer, s₁))
      (rest : Moment b depth view (next answer) s₁ names t) :
      Moment b depth view (.ask r next) s names t
  /-- In the midst of a supplier or of a factory hook. -/
  | within {depth : Nat} {view view' : View} {α β : Type} {r : Request κ ι ω}
      {next : r.Answer → FactoryProgram κ ι ω α} {p : FactoryProgram κ ι ω β}
      {s s₁ t : State κ ι ω} {outer inner : List String} (enters : Enters b view r s outer view' p s₁)
      (rest : Moment b depth view' p s₁ inner t) :
      Moment b (depth + 1) view (.ask r next) s (inner ++ outer) t
  /-- In the midst of a registry hook. -/
  | registryHook {depth : Nat} {view : View} {α : Type} {e : Extension κ} {code : κ}
      {next : Except Failure Unit → FactoryProgram κ ι ω α} {s t : State κ ι ω}
      {names : List String} (body : e.body = .custom code)
      (rest : Moment b depth view (b.onRegistry code).onRegistry
        { s with history := .registryHook e :: s.history } names t) :
      Moment b depth view (.ask (.registryHook e) next) s names t
  /-- Around a supplier. -/
  | hooked {depth : Nat} {view : View} {α : Type} {name : String}
      {next : Except Failure ι → FactoryProgram κ ι ω α} {s t : State κ ι ω}
      (hooked : Hooked b depth name s t) :
      Moment b depth view (.ask (.component name) next) s [name] t

theorem nested_course (depth : Nat) (view : View) (p : FactoryProgram κ ι ω α) (s : State κ ι ω) :
    Follows b (nested b depth view p) s := by
  cases depth with
  | zero =>
      intro x s' h
      cases h
  | succ depth => exact run_leads (closed_course b) (serve_course depth view) p s

theorem mergedDefinition_course {r : Except Failure (MergedDefinition κ)}
    (h : outcome (mergedDefinition name) s = some (r, s₁)) : Course b s s₁ :=
  mergedDefinition_leads (closed_course b) name s h

theorem Makes.supplies (h : Makes s name m s₁) : Supplies s₁ name m.definition := by
  obtain ⟨merged, same⟩ := mergedDefinition_ok h.merged
  exact .component (by rw [same]; exact h.new) merged h.template h.kind

theorem Builds.supplies {expected : Capability} {d : Definition κ} {family : PostProcessor}
    (h : Builds s name expected d family) : Supplies s name d := .extension h.new h.found h.kind

/-- **A law that courses keep holds at all moments**, if it is kept where the making of something
    begins, where a supplier begins, and around suppliers. -/
theorem Moment.keeps {I : State κ ι ω → Prop}
    (course : ∀ {s s' : State κ ι ω}, Course b s s' → I s → I s')
    (watched : ∀ {s s' : State κ ι ω}, Watched s s' → I s → I s')
    (begins : ∀ {s : State κ ι ω} {name : String} {d : Definition κ}, I s →
      Supplies s name d → I (beginning s name))
    (supplies : ∀ {s s₁ : State κ ι ω} {name : String} {d : Definition κ}, I s →
      Supplies s name d → Watched (beginning s name) s₁ → I s₁ → I (supplied s₁ name d))
    {depth : Nat} {view : View} {p : FactoryProgram κ ι ω α} {t : State κ ι ω}
    {names : List String} (h : Moment b depth view p s names t) (hs : I s) : I t := by
  have supplied : ∀ {s s₁ s₂ : State κ ι ω} {name : String} {m : MergedDefinition κ},
      Makes s name m s₁ →
      outcome (showTo b name m (aware b (beginning s₁ name))) (beginning s₁ name) =
        some (.ok (), s₂) → I s → I (supplied s₂ name m.definition) := by
    intro s s₁ s₂ name m makes shown hs
    have hs₁ : I s₁ := course (mergedDefinition_course makes.merged) hs
    have hwatch : Watched (beginning s₁ name) s₂ := showTo_watches _ shown
    exact supplies hs₁ makes.supplies hwatch (watched hwatch (begins hs₁ makes.supplies))
  induction h with
  | now p s => exact hs
  | later answered rest ih => exact ih (course (serve_course _ _ _ _ answered) hs)
  | within enters rest ih =>
      refine ih ?_
      cases enters with
      | component makes shown => exact supplied makes shown hs
      | extension builds =>
          exact supplies hs builds.supplies (.refl _) (begins hs builds.supplies)
      | factoryHook body => exact course (.step (.factoryHook _ _)) hs
  | registryHook body rest ih => exact ih (course (.step (.registryHook _ _)) hs)
  | hooked hooked =>
      cases hooked with
      | merged makes part run =>
          exact watched (showTo_watches _ run)
            (begins (course (mergedDefinition_course makes.merged) hs) makes.supplies)
      | before makes shown supply part run =>
          exact watched (passBefore_watches _ _ _ run)
            (course (nested_course _ _ _ _ supply) (supplied makes shown hs))
      | after makes shown supply before part run =>
          exact watched (passAfter_watches _ _ _ run) (watched (passBefore_watches _ _ _ before)
            (course (nested_course _ _ _ _ supply) (supplied makes shown hs)))

/-! ## 5. One run after another -/

/-- Programs are run one after another from outside. -/
inductive Runs (b : Behaviour κ ι ω) (s : State κ ι ω) : State κ ι ω → Prop
  | refl : Runs b s s
  | run {s' s'' : State κ ι ω} {depth : Nat} {view : View} {α : Type} {p : FactoryProgram κ ι ω α}
      {a : α} (before : Runs b s s') (hrun : Container.run b depth view p s' = some (a, s'')) :
      Runs b s s''

theorem Runs.trans {s' s'' : State κ ι ω} (h₁ : Runs b s s') (h₂ : Runs b s' s'') : Runs b s s'' := by
  induction h₂ with
  | refl => exact h₁
  | run _ hrun ih => exact ih.run hrun

theorem Runs.course {s' : State κ ι ω} (h : Runs b s s') : Course b s s' := by
  induction h with
  | refl => exact .refl s
  | run _ hrun ih => exact ih.trans (run_course _ _ _ _ hrun)

theorem Runs.reachable {s' : State κ ι ω} (h : Runs b s s') (reach : Reachable b s) :
    Reachable b s' := by
  induction h with
  | refl => exact reach
  | run _ hrun ih => exact .run ih hrun

theorem Runs.announced {s' : State κ ι ω} (h : Runs b s s') (n : Notice) :
    Runs b s { s' with history := .announced n :: s'.history } := by
  have hrun : Container.run b 0 .full
      (Program.request (I := factoryInterface κ ι ω) (.announce n)) s' =
        some ((), { s' with history := .announced n :: s'.history }) := by
    rw [Container.run, Program.request, Program.run, serve_announce]
    rfl
  exact h.run hrun

/-- **A refresh runs programs one after another**, be it done or given up. -/
theorem refresh_runs {e : Engine κ ι ω} {times : Times} {c : Context κ} {s s' : State κ ι ω}
    {r : Except Failure Report × Context κ} (h : c.refresh e times s = some (r, s')) :
    Runs e.behaviour s s' := by
  unfold Context.refresh at h
  cases created : c.ensureCreated with
  | error failure =>
      rw [created] at h
      cases h
      exact .refl
  | ok _ =>
      rw [created] at h
      obtain ⟨_, _, ⟨⟩, h⟩ := Act.run_bind_eq_some h
      have started : Runs e.behaviour s _ := Runs.refl.announced (.refreshing c.id)
      obtain ⟨outcome, s₁, bootstrap, h⟩ := Act.run_bind_eq_some h
      have booted := started.run bootstrap
      cases outcome with
      | error failure =>
          cases h
          exact booted.announced _
      | ok outcome =>
          obtain ⟨made, s₂, instantiation, h⟩ := Act.run_bind_eq_some h
          have filled := booted.run instantiation
          cases made with
          | error failure =>
              cases h
              exact filled.announced _
          | ok made =>
              cases h
              exact filled.announced _

end Container

/-! ## 6. The stages of a refresh -/

namespace Context

/-- The bootstrap in a refresh of the context succeeds with that outcome, in the last state. -/
def Boots (c : Context κ) (e : Engine κ ι ω) (s : State κ ι ω) (outcome : Bootstrap.Outcome κ)
    (s₁ : State κ ι ω) : Prop :=
  Container.run e.behaviour e.depth .full
    (Bootstrap.run e.behaviour e.patience c.options c.external)
    { s with history := .announced (.refreshing c.id) :: s.history } = some (.ok outcome, s₁)

/-- **A refresh that succeeds, stage by stage**: the bootstrap, the components made ahead, and the
    report on the state that these have led to. -/
theorem refresh_stages {e : Engine κ ι ω} {times : Times} {c c' : Context κ} {s s' : State κ ι ω}
    {report : Report} (h : c.refresh e times s = some ((.ok report, c'), s')) :
    ∃ outcome created s₁ s₂, c.Boots e s outcome s₁ ∧
      Container.run e.behaviour e.depth .full preinstantiate.run s₁ = some (.ok created, s₂) ∧
      report = c.makeReport e.behaviour.name times outcome created s₂ ∧
      s' = { s₂ with
        history := .announced (.refreshed c.id report.componentsCreated report.chain.length) ::
          s₂.history } := by
  unfold refresh at h
  cases created : c.ensureCreated with
  | error failure =>
      rw [created] at h
      cases h
  | ok _ =>
      rw [created] at h
      obtain ⟨_, _, ⟨⟩, h⟩ := Act.run_bind_eq_some h
      obtain ⟨outcome, s₁, bootstrap, h⟩ := Act.run_bind_eq_some h
      cases outcome with
      | error failure => cases h
      | ok outcome =>
          obtain ⟨made, s₂, instantiation, h⟩ := Act.run_bind_eq_some h
          cases made with
          | error failure => cases h
          | ok made =>
              cases h
              exact ⟨outcome, made, s₁, s₂, bootstrap, instantiation, rfl, rfl⟩

end Context

end ComponentContainer
