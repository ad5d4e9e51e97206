/-
  File:      ComponentContainer/Proofs/Ahead.lean
  Subject:   What making components ahead leaves behind, and what its count counts.

  * `OnlyAdds` -- no definition has been removed or replaced; `Story.preserves` -- then what is
    remembered stays so.
  * `Raises` -- what is asked for, directly or in the end, while a request is answered;
    `serve_unraised` -- **a component comes about only if it is asked for.**
  * `Granted` -- requests for components that are granted one after another.
  * `newNames` -- the components that have come about.
  * `preinstantiated_completely` -- **all eager components are there, others only if eager ones have
    asked for them, and the count is that of the eager ones**, whoever has made them.
-/
import ComponentContainer.Proofs.ChainRuns
import ComponentContainer.Proofs.Making
import ComponentContainer.Proofs.RegistrationOrder
import ComponentContainer.Proofs.Story
import ComponentContainer.Proofs.Templates

namespace ComponentContainer

variable {κ ι ω α : Type}

/-! ## 1. What stays -/

/-- **No definition is removed, and none is replaced**: those that are registered have names that are
    not known, and each another one. -/
structure OnlyAdds (known : List String) (events : List (Event κ ι)) : Prop where
  kept : ∀ name, .removed name ∉ events
  fresh : ∀ name ∈ registeredNames events, name ∉ known
  once : (registeredNames events).Nodup

theorem registeredNames_append (later earlier : List (Event κ ι)) :
    registeredNames (later ++ earlier) = registeredNames later ++ registeredNames earlier :=
  List.filterMap_append

namespace OnlyAdds

variable {known known' : List String} {later earlier : List (Event κ ι)}

theorem before (h : OnlyAdds known (later ++ earlier)) : OnlyAdds known earlier where
  kept name mem := h.kept name (List.mem_append_right later mem)
  fresh name mem := h.fresh name (by
    rw [registeredNames_append]
    exact List.mem_append_right _ mem)
  once := by
    have once := h.once
    rw [registeredNames_append] at once
    exact once.of_append_right

/-- What comes later is such, too, where the names are known that have been registered by then. -/
theorem after (h : OnlyAdds known (later ++ earlier))
    (names : ∀ name, name ∈ known' ↔ name ∈ known ∨ name ∈ registeredNames earlier) :
    OnlyAdds known' later where
  kept name mem := h.kept name (List.mem_append_left earlier mem)
  fresh name mem there := by
    have once := h.once
    rw [registeredNames_append] at once
    rcases (names name).mp there with old | since
    · refine h.fresh name ?_ old
      rw [registeredNames_append]
      exact List.mem_append_left _ mem
    · exact (List.nodup_append.mp once).2.2 name mem name since rfl
  once := by
    have once := h.once
    rw [registeredNames_append] at once
    exact once.of_append_left

/-- Where nothing changes the registry, no definition is removed or replaced. -/
theorem of_unchanged {events : List (Event κ ι)} (h : ∀ e ∈ events, e.isChange = false) :
    OnlyAdds known events := by
  have none : registeredNames events = [] := by
    refine List.filterMap_eq_nil_iff.mpr fun e mem => ?_
    have unchanged := h e mem
    cases e <;> first | rfl | cases unchanged
  refine ⟨fun name mem => ?_, fun name mem => ?_, none ▸ List.nodup_nil⟩
  · have unchanged := h _ mem
    cases unchanged
  · rw [none] at mem
    cases mem

end OnlyAdds

namespace Container

open Act Attempt

variable {b : Behaviour κ ι ω} {hitch : Prop} {depth : Nat} {view : View} {name n : String}
  {s s' s'' t u : State κ ι ω} {events : List (Event κ ι)}

/-- **As long as no definition is removed or replaced**, the names of the definitions are those from
    before and those that were registered, and what was remembered still is. -/
def Preserves (s s' : State κ ι ω) : Prop :=
  ∃ events, s'.history = events ++ s.history ∧ (OnlyAdds s.container.definitions.keys events →
    (∀ name, name ∈ s'.container.definitions.keys ↔
      name ∈ s.container.definitions.keys ∨ name ∈ registeredNames events) ∧
    ∀ name, Remembered s name → Remembered s' name)

namespace Preserves

theorem refl (s : State κ ι ω) : Preserves s s :=
  ⟨[], rfl, fun _ => ⟨fun _ => (or_iff_left List.not_mem_nil).symm, fun _ there => there⟩⟩

theorem trans (h₁ : Preserves s s') (h₂ : Preserves s' s'') : Preserves s s'' := by
  obtain ⟨earlier, past₁, keeps₁⟩ := h₁
  obtain ⟨later, past₂, keeps₂⟩ := h₂
  refine ⟨later ++ earlier, by rw [past₂, past₁, List.append_assoc], fun adds => ?_⟩
  obtain ⟨names₁, there₁⟩ := keeps₁ adds.before
  obtain ⟨names₂, there₂⟩ := keeps₂ (adds.after names₁)
  refine ⟨fun name => ?_, fun name there => there₂ name (there₁ name there)⟩
  rw [names₂, names₁, registeredNames_append, List.mem_append, or_assoc]
  exact or_congr_right or_comm

/-- Where no definition is registered or removed, and nothing is forgotten. -/
theorem of_same (events : List (Event κ ι)) (past : s'.history = events ++ s.history)
    (silent : registeredNames events = [])
    (definitions : s'.container.definitions.keys = s.container.definitions.keys)
    (there : ∀ name, Remembered s name → Remembered s' name) : Preserves s s' := by
  refine ⟨events, past, fun _ => ⟨fun name => ?_, there⟩⟩
  rw [definitions, silent]
  exact (or_iff_left List.not_mem_nil).symm

theorem of_watched (h : Watched s s') : Preserves s s' := by
  obtain ⟨events, past, watches⟩ := h.history
  refine of_same events past ?_ (by rw [h.container]) fun name there => ?_
  · refine List.filterMap_eq_nil_iff.mpr fun e mem => ?_
    have watch := watches e mem
    cases e <;> first | rfl | cases watch
  · unfold Remembered
    rw [h.container]
    exact there

theorem madeComponent (s : State κ ι ω) (name : String) (value : ι) :
    Preserves s (madeComponent s name value) := by
  refine of_same [_, _] rfl rfl rfl fun other ⟨x, found⟩ => ?_
  show ∃ value', (s.container.components.set name value).find? other = some value'
  rw [Table.find?_set]
  split
  · exact ⟨value, rfl⟩
  · exact ⟨x, found⟩

end Preserves

/-- A definition of a new name is registered, and nothing is forgotten. -/
theorem register_new {c c' : Container κ ι} {d : Definition κ} (h : c.register d = .ok c')
    (new : d.name ∉ c.definitions.keys) : c'.components = c.components := by
  have unknown : ¬c.definitions.contains d.name = true := fun known =>
    new ((Table.contains_iff_mem_keys _ _).mp known)
  unfold register at h
  rw [if_neg unknown] at h
  split at h
  · cases h
  · split at h
    · cases h
    · cases h
      rfl

theorem Step.preserves (h : Step s s') : Preserves s s' := by
  cases h with
  | @registered d c h =>
      refine ⟨[.registered d], rfl, fun adds => ?_⟩
      have new : d.name ∉ s.container.definitions.keys := adds.fresh d.name List.mem_cons_self
      refine ⟨fun name => ?_, fun name there => ?_⟩
      · show name ∈ c.definitions.keys ↔ _
        rw [definitions_register h, Table.keys_set, if_neg new, List.mem_append]
        rfl
      · show ∃ value, c.components.find? name = some value
        rw [register_new h new]
        exact there
  | removed h => exact ⟨[_], rfl, fun adds => absurd List.mem_cons_self (adds.kept _)⟩
  | edited h => exact .of_same [_] rfl rfl (Table.keys_modify _ _ _) fun _ there => there
  | world => exact .of_same [] rfl rfl rfl fun _ there => there
  | numbered => exact .of_same [] rfl rfl rfl fun _ there => there
  | cleared => exact .of_same [] rfl rfl rfl fun _ there => there
  | _ => exact .of_same [_] rfl rfl rfl fun _ there => there

theorem Tick.preserves (tick : Tick b hitch s s') : Preserves s s' := by
  cases tick with
  | step h => exact h.preserves
  | began name => exact .of_same [_] rfl rfl rfl fun _ there => there
  | shown run => exact .of_watched (showTo_watches _ run)
  | supplied name d => exact .of_same [_] rfl rfl rfl fun _ there => there
  | passed arisen run =>
      exact (Preserves.of_watched (passThrough_watches _ _ run)).trans (.madeComponent _ _ _)
  | spoilt hook run => exact .of_watched (passThrough_watches _ _ run)
  | ended name => exact .of_same [_] rfl rfl rfl fun _ there => there
  | built name h => exact .of_same [_, _, _] rfl rfl rfl fun _ there => there

/-- **In all stories what is remembered stays so**, if no definition is removed or replaced. -/
theorem Story.preserves (story : Story b hitch s s') : Preserves s s' := by
  induction story with
  | refl => exact .refl _
  | tail _ tick ih => exact ih.trans (Tick.preserves tick)

/-! ## 2. What is asked for -/

/-- **What is asked for while a request is answered**: by a program that the request enters, or while
    a request of such a program is answered. -/
inductive Raises (b : Behaviour κ ι ω) : Nat → View → Request κ ι ω × State κ ι ω →
    Request κ ι ω × State κ ι ω → Prop
  | asked {depth : Nat} {view view' : View} {names : List String} {α : Type} {r : Request κ ι ω}
      {p : FactoryProgram κ ι ω α} {s s₁ : State κ ι ω} {q : Request κ ι ω × State κ ι ω}
      (enters : Enters b view r s names view' p s₁) (asked : q ∈ p.asked (serve b depth view') s₁) :
      Raises b (depth + 1) view (r, s) q
  | within {depth : Nat} {view view' : View} {names : List String} {α : Type} {r : Request κ ι ω}
      {p : FactoryProgram κ ι ω α} {s s₁ : State κ ι ω} {q q' : Request κ ι ω × State κ ι ω}
      (enters : Enters b view r s names view' p s₁) (asked : q ∈ p.asked (serve b depth view') s₁)
      (raises : Raises b depth view' q q') : Raises b (depth + 1) view (r, s) q'

/-- Only a component that is not there makes requests when it is asked for. -/
theorem Raises.new {q : Request κ ι ω × State κ ι ω}
    (h : Raises b depth view (.component name, s) q) : ¬Remembered s name := by
  cases h with
  | asked enters asked =>
      cases enters with
      | component makes shown => exact not_remembered makes.new
  | within enters asked raises =>
      cases enters with
      | component makes shown => exact not_remembered makes.new

/-- The component of that name has not come about. -/
def Unmade (n : String) (s s' : State κ ι ω) : Prop := ¬Remembered s n → ¬Remembered s' n

theorem Unmade.of_components (h : s'.container.components = s.container.components) :
    Unmade n s s' := by
  rintro absent ⟨value, found⟩
  rw [h] at found
  exact absent ⟨value, found⟩

theorem closed_unmade (n : String) :
    Closed (Unmade n : State κ ι ω → State κ ι ω → Prop) where
  refl _ absent := absent
  trans h₁ h₂ absent := h₂ (h₁ absent)
  step h absent := fun ⟨value, found⟩ => absent ⟨value, h.recalls.components n value found⟩

/-- None of the programs that a request enters lets the component come about. -/
def Barren (n : String) (b : Behaviour κ ι ω) (depth : Nat) (view : View) (r : Request κ ι ω)
    (s : State κ ι ω) : Prop :=
  ∀ {names : List String} {view' : View} {α : Type} {p : FactoryProgram κ ι ω α}
    {s₁ : State κ ι ω}, Enters b view r s names view' p s₁ →
      Leads (Unmade n) (nested b depth view' p) s₁

/-- While a component is made, others come about in its supplier only. -/
theorem Creates.unmade {exec : Exec κ ι ω} {m : MergedDefinition κ} {calls : List (Event κ ι)}
    {r : Except Failure ι} (h : Creates b exec name m s calls r t)
    (barren : ∀ {s₁ : State κ ι ω}, outcome (showTo b name m (aware b s)) s = some (.ok (), s₁) →
      Leads (Unmade n) (exec (b.supply m.definition.supplier)) (supplied s₁ name m.definition)) :
    Unmade n s t := by
  have closed := closed_unmade (κ := κ) (ι := ι) (ω := ω) n
  have supplies {s₁ u : State κ ι ω} {r : Except Failure ι} {shown : List (Extension κ × Unit)}
      (show_ : InTurn (fun _ => Extension.seeMerged b m name) (aware b s) () s shown (.ok ()) s₁)
      (supply : exec (b.supply m.definition.supplier) (supplied s₁ name m.definition) =
        some (r, u)) : Unmade n s u := by
    have shown := showTo_iff.mpr ⟨_, show_⟩
    have begins : Unmade n s (supplied s₁ name m.definition) :=
      .of_components (congrArg Container.components (showTo_watches _ shown).container)
    exact closed.trans begins (barren shown supply)
  cases h with
  | unshown show_ =>
      exact .of_components
        (congrArg Container.components (showTo_watches _ (showTo_iff.mpr ⟨_, show_⟩)).container)
  | unsupplied show_ supply => exact supplies show_ supply
  | passed show_ supply pass =>
      have passes := (passThrough_watches _ _ (passThrough_iff.mpr ⟨_, pass⟩)).container
      exact closed.trans (supplies show_ supply)
        (.of_components (congrArg Container.components passes))

theorem component_unmade (other : name ≠ n) (barren : Barren n b depth view (.component name) s) :
    Leads (Unmade n) (outcome (Container.component b (nested b depth .full) name)) s := by
  have closed := closed_unmade (κ := κ) (ι := ι) (ω := ω) n
  intro r s' h
  obtain ⟨answer, effect, fixed⟩ | ⟨m, s₁, makes⟩ := component_cases b name s
  · rw [fixed] at h
    cases h
    rcases effect with rfl | ⟨merged, run⟩
    · exact closed.refl _
    · exact mergedDefinition_leads closed name s run
  · have begins : Unmade n s (beginning s₁ name) :=
      closed.trans (mergedDefinition_leads closed name s makes.merged) (.of_components rfl)
    have during {r : Except Failure ι} {s₂ : State κ ι ω}
        (run : outcome (create b (nested b depth .full) name m) (beginning s₁ name) =
          some (r, s₂)) : Unmade n s s₂ := by
      obtain ⟨calls, creates⟩ := create_iff.mp run
      exact closed.trans begins (creates.unmade fun shown => barren (.component makes shown))
    rw [outcome_component_made makes] at h
    rcases run : outcome (create b (nested b depth .full) name m) (beginning s₁ name) with
      _ | ⟨failure | value, s₂⟩ <;> rw [run] at h <;> cases h
    · exact closed.trans (during run) (.of_components rfl)
    · -- what is remembered now is the component asked for
      refine closed.trans (during run) fun absent ⟨x, found⟩ => absent ⟨x, ?_⟩
      replace found : (s₂.container.components.set name value).find? n = some x := found
      rwa [Table.find?_set, if_neg other.symm] at found

theorem extension_unmade {expected : Capability}
    (barren : Barren n b depth view (.extension name expected) s) :
    Leads (Unmade n) (outcome (Container.extension b (nested b depth .full) name expected)) s := by
  have closed := closed_unmade (κ := κ) (ι := ι) (ω := ω) n
  intro r s' h
  obtain ⟨answer, ends, fixed⟩ | ⟨d, family, builds⟩ := extension_ways b name expected s
  · rw [fixed] at h
    cases h
    rcases ends with rfl | rfl <;> exact .of_components rfl
  · rw [outcome_extension_new builds.found builds.declares builds.new builds.idle,
      builds.kind] at h
    have begins : Unmade n s (supplying s name d) := .of_components rfl
    rcases supply : nested b depth .full (b.build d.supplier) (supplying s name d) with
      _ | ⟨failure | code, s₁⟩
    · simp only [supply] at h
      cases h
    · simp only [supply] at h
      cases h
      exact closed.trans (closed.trans begins (barren (.extension builds) supply))
        (.of_components rfl)
    · simp only [supply] at h
      cases h
      exact closed.trans (closed.trans begins (barren (.extension builds) supply))
        (.of_components rfl)

/-- **A component comes about only if it is asked for.** The induction is on the depth: what a request
    enters runs one level below. -/
theorem serve_unraised (depth : Nat) (view : View) (r : Request κ ι ω) (s : State κ ι ω)
    (other : r ≠ .component n) (unraised : ∀ t, ¬Raises b depth view (r, s) (.component n, t)) :
    Leads (Unmade n) (serve b depth view r) s := by
  have answered (depth : Nat) (view : View) (r : Request κ ι ω) (s : State κ ι ω)
      (other : r ≠ .component n) (barren : Barren n b depth view r s) :
      Leads (Unmade n) (answer b (nested b depth) view r) s :=
    answer_leads (closed_unmade n)
      (fun name hr => by
        subst hr
        exact component_unmade (fun same => other (same ▸ rfl)) barren)
      (fun name expected hr => by subst hr; exact extension_unmade barren)
      (fun e code hr body => by subst hr; exact barren (.factoryHook body))
  rw [serve_eq_answer]
  induction depth generalizing view r s with
  | zero => exact answered 0 view r s other fun _ => .endless
  | succ depth ih =>
      refine answered (depth + 1) view r s other fun {_ view' _ p s₁} enters x s₂ run => ?_
      have closed := closed_unmade (κ := κ) (ι := ι) (ω := ω) n
      refine Program.run_of_asked closed.refl closed.trans (fun q asked {answer t} answers => ?_) run
      rw [serve_eq_answer] at answers
      refine ih view' q.1 q.2 (fun same => ?_) (fun t raises => ?_) answers
      · refine unraised q.2 (.asked enters ?_)
        rw [← same]
        exact asked
      · exact unraised t (.within enters asked raises)

/-! ## 3. Making components ahead -/

/-- **Requests for components are granted one after another**: with the names that are asked for, each
    with the state in which it is. -/
inductive Granted (b : Behaviour κ ι ω) (depth : Nat) (view : View) :
    State κ ι ω → List (String × State κ ι ω) → State κ ι ω → Prop
  | none {s : State κ ι ω} : Granted b depth view s [] s
  | more {name : String} {value : ι} {s s₁ s' : State κ ι ω} {calls : List (String × State κ ι ω)}
      (granted : serve b depth view (.component name) s = some (.ok value, s₁))
      (rest : Granted b depth view s₁ calls s') : Granted b depth view s ((name, s) :: calls) s'

variable {calls : List (String × State κ ι ω)}

theorem granted_of_result {names : List String} {u : PUnit}
    (h : Plan.result (serve b depth view) (names.forM fun name => do let _ ← Plan.component name) s =
      some (.ok u, s')) : ∃ calls, Granted b depth view s calls s' ∧ calls.map Prod.fst = names := by
  induction names generalizing s with
  | nil =>
      cases h
      exact ⟨[], .none, rfl⟩
  | cons name names ih =>
      replace h : Plan.result (serve b depth view) ((do let _ ← Plan.component name) >>= fun _ =>
        names.forM fun name => do let _ ← Plan.component name) s = some (.ok u, s') := h
      rw [Plan.result_bind, Plan.result_bind, Plan.result_component] at h
      rcases granted : serve b depth view (.component name) s with _ | ⟨failure | value, s₁⟩
      · rw [granted] at h
        cases h
      · rw [granted] at h
        cases h
      · rw [granted] at h
        obtain ⟨calls, rest, names⟩ := ih h
        exact ⟨_, .more granted rest, congrArg (name :: ·) names⟩

/-- **Making components ahead succeeds** only if all the eager ones are granted, and says how many of
    these there are. -/
theorem granted_of_preinstantiate {count : Nat}
    (h : run b depth view preinstantiate.run s = some (.ok count, s')) :
    count = (eagerIn s.container.definitions).length ∧ ∃ calls u, Granted b depth view s calls u ∧
      calls.map Prod.fst = eagerIn s.container.definitions ∧
      s' = { u with history := .announced (.preinstantiated count) :: u.history } := by
  replace h : Plan.result (serve b depth view) preinstantiate s = some (.ok count, s') := h
  rw [preinstantiate, Plan.result_bind_of_ok (result_eagerNames s), Plan.result_bind] at h
  rcases asked : Plan.result (serve b depth view) ((eagerIn s.container.definitions).forM fun name =>
    do let _ ← Plan.component name) s with _ | ⟨failure | x, u⟩
  · rw [asked] at h
    cases h
  · rw [asked] at h
    cases h
  · obtain ⟨calls, granted, names⟩ := granted_of_result asked
    simp only [asked] at h
    rw [Plan.result_bind_of_ok (Plan.result_ask (serve_announce b depth view u _))] at h
    cases h
    exact ⟨rfl, calls, u, granted, names, rfl⟩

theorem serve_preserves {q : Request κ ι ω} {answer : q.Answer}
    (h : serve b depth view q s = some (answer, s')) : Preserves s s' :=
  Story.preserves (serve_story depth view q s h)

theorem Granted.preserves (h : Granted b depth view s calls s') : Preserves s s' := by
  induction h with
  | none => exact .refl _
  | more granted rest ih => exact (serve_preserves granted).trans ih

/-- Where a stretch only adds definitions, so does its second part; and nothing is forgotten in the
    first. -/
theorem Preserves.split (first : Preserves s t) (rest : Preserves t s')
    (past : s'.history = events ++ s.history)
    (adds : OnlyAdds s.container.definitions.keys events) :
    (∀ name, Remembered s name → Remembered t name) ∧ ∃ later, s'.history = later ++ t.history ∧
      OnlyAdds t.container.definitions.keys later := by
  obtain ⟨earlier, past₁, keeps⟩ := first
  obtain ⟨later, past₂, -⟩ := rest
  have parts : events = later ++ earlier := by
    refine List.append_cancel_right (past.symm.trans ?_)
    rw [past₂, past₁, List.append_assoc]
  subst parts
  obtain ⟨names, there⟩ := keeps adds.before
  exact ⟨there, later, past₂, adds.after names⟩

/-- What has been granted is there in the end. -/
theorem Granted.there (h : Granted b depth view s calls s') (past : s'.history = events ++ s.history)
    (adds : OnlyAdds s.container.definitions.keys events) : ∀ c ∈ calls, Remembered s' c.1 := by
  induction h generalizing events with
  | none => exact fun c mem => absurd mem List.not_mem_nil
  | @more name value s s₁ s' calls granted rest ih =>
      obtain ⟨-, later, past', adds'⟩ :=
        (serve_preserves granted).split rest.preserves past adds
      refine List.forall_mem_cons.mpr ⟨?_, ih past' adds'⟩
      have stored : Remembered s₁ name :=
        ⟨value, (components_memoize b name).stored (i := (depth, view)) granted⟩
      exact (rest.preserves.split (.refl s') past' adds').1 name stored

/-- **What has come about was asked for**: in the row itself, or while a component was made that was
    not there before. -/
theorem Granted.source (h : Granted b depth view s calls s')
    (past : s'.history = events ++ s.history)
    (adds : OnlyAdds s.container.definitions.keys events) (there : Remembered s' n)
    (new : ¬Remembered s n) : n ∈ calls.map Prod.fst ∨ ∃ c ∈ calls, ¬Remembered s c.1 ∧
      ∃ t, Raises b depth view (.component c.1, c.2) (.component n, t) := by
  induction h generalizing events with
  | none => exact absurd there new
  | @more name value s s₁ s' calls granted rest ih =>
      obtain ⟨stays, later, past', adds'⟩ :=
        (serve_preserves granted).split rest.preserves past adds
      by_cases first : Remembered s₁ n
      · by_cases own : name = n
        · exact .inl (own ▸ List.mem_cons_self)
        · by_cases raised : ∃ t, Raises b depth view (.component name, s) (.component n, t)
          · obtain ⟨t, raises⟩ := raised
            exact .inr ⟨_, List.mem_cons_self, raises.new, t, raises⟩
          · have other : Request.component name ≠ (.component n : Request κ ι ω) := fun same =>
              own (Request.component.inj same)
            exact absurd first
              (serve_unraised depth view _ s other (not_exists.mp raised) granted new)
      · rcases ih past' adds' there first with mem | ⟨c, mem, absent, raised⟩
        · exact .inl (List.mem_cons_of_mem name mem)
        · exact .inr ⟨c, List.mem_cons_of_mem _ mem, fun old => absent (stays _ old), raised⟩

/-! ## 4. Counting -/

/-- The components that have come about between the two states. -/
def newNames (s s' : State κ ι ω) : List String :=
  s'.container.components.keys.filter fun name => !s.container.components.contains name

theorem remembered_iff : Remembered s name ↔ s.container.components.contains name = true := by
  rw [Table.contains, Option.isSome_iff_exists]
  rfl

theorem mem_newNames : name ∈ newNames s s' ↔ Remembered s' name ∧ ¬Remembered s name := by
  rw [newNames, List.mem_filter, ← Table.contains_iff_mem_keys, ← remembered_iff,
    remembered_iff (s := s), Bool.not_eq_true', Bool.not_eq_true]

theorem nodup_newNames (s s' : State κ ι ω) : (newNames s s').Nodup :=
  (Table.nodup_keys _).sublist List.filter_sublist

/-- Where nothing is forgotten, as many are remembered as before, and the new ones. -/
theorem size_eq (stays : ∀ name, Remembered s name → Remembered s' name) :
    s'.container.components.size = s.container.components.size + (newNames s s').length := by
  have old : (s'.container.components.keys.filter fun name =>
      s.container.components.contains name).Perm s.container.components.keys := by
    refine (List.perm_ext_iff_of_nodup ((Table.nodup_keys _).sublist List.filter_sublist)
      (Table.nodup_keys _)).mpr fun name => ?_
    rw [List.mem_filter, ← Table.contains_iff_mem_keys, ← Table.contains_iff_mem_keys,
      ← remembered_iff, ← remembered_iff]
    exact and_iff_right_of_imp (stays name)
  have parts := List.length_eq_length_filter_add (l := s'.container.components.keys)
    fun name => s.container.components.contains name
  rw [old.length_eq] at parts
  rwa [Table.keys, Table.keys, List.length_map, List.length_map] at parts

/-- **Some that are there now, counted against the new ones**: these are those among them that were
    not there before, and others. -/
theorem length_add_eq {names : List String} (distinct : names.Nodup)
    (there : ∀ name ∈ names, Remembered s' name) :
    names.length + ((newNames s s').filter (· ∉ names)).length =
      (newNames s s').length +
        (names.filter fun name => s.container.components.contains name).length := by
  have both : ((newNames s s').filter (· ∈ names)).Perm
      (names.filter fun name => !s.container.components.contains name) := by
    refine (List.perm_ext_iff_of_nodup ((nodup_newNames s s').sublist List.filter_sublist)
      (distinct.sublist List.filter_sublist)).mpr fun name => ?_
    rw [List.mem_filter, List.mem_filter, mem_newNames, remembered_iff (s := s), Bool.not_eq_true,
      Bool.not_eq_true', decide_eq_true_eq]
    constructor
    · rintro ⟨⟨-, absent⟩, mem⟩
      exact ⟨mem, absent⟩
    · rintro ⟨mem, absent⟩
      exact ⟨⟨there name mem, absent⟩, mem⟩
  have listed := List.length_eq_length_filter_add (l := names)
    fun name => s.container.components.contains name
  have made := List.length_eq_length_filter_add (l := newNames s s') fun name => name ∈ names
  have same := both.length_eq
  simp only [decide_not]
  omega

/-! ## 5. What is left behind -/

/-- **Making components ahead, if it succeeds.** Let no definition be removed or replaced meanwhile;
    changes in place make no difference. Then

    - all components are there that were eager at the start;
    - any other that has come about was asked for, directly or in the end, while an eager component
      was made that was not there at the start;
    - the count is the number of the eager ones. The components that have come about are the new
      names, and there may be more of them or fewer: the two numbers agree exactly if there are as
      many new ones that are not eager as eager ones that were there at the start. -/
theorem preinstantiated_completely {count : Nat}
    (succeeds : run b depth view preinstantiate.run s = some (.ok count, s'))
    (past : s'.history = events ++ s.history)
    (adds : OnlyAdds s.container.definitions.keys events) :
    (∀ name ∈ eagerIn s.container.definitions, Remembered s' name) ∧
    (∃ calls u, Granted b depth view s calls u ∧
      calls.map Prod.fst = eagerIn s.container.definitions ∧ s'.container = u.container ∧
      ∀ name, Remembered s' name → ¬Remembered s name →
        name ∈ eagerIn s.container.definitions ∨ ∃ c ∈ calls, ¬Remembered s c.1 ∧
          ∃ t, Raises b depth view (.component c.1, c.2) (.component name, t)) ∧
    count = (eagerIn s.container.definitions).length ∧
    s'.container.components.size = s.container.components.size + (newNames s s').length ∧
    count + ((newNames s s').filter (· ∉ eagerIn s.container.definitions)).length =
      (newNames s s').length + ((eagerIn s.container.definitions).filter fun name =>
        s.container.components.contains name).length := by
  obtain ⟨counts, calls, u, granted, names, rfl⟩ := granted_of_preinstantiate succeeds
  -- the announcement at the end is no part of the row
  obtain ⟨later, past', keeps⟩ := granted.preserves
  have parts : events = [.announced (.preinstantiated count)] ++ later := by
    refine List.append_cancel_right (past.symm.trans ?_)
    rw [List.append_assoc, ← past']
    rfl
  subst parts
  have during := adds.before
  have there : ∀ name ∈ eagerIn s.container.definitions, Remembered u name := by
    rw [← names]
    exact List.forall_mem_map.mpr (granted.there past' during)
  have total := length_add_eq (nodup_eagerIn s.container.definitions) there (s := s)
  rw [← counts] at total
  refine ⟨there, ⟨calls, u, granted, names, rfl, fun name now new => ?_⟩, counts, ?_, total⟩
  · rw [← names]
    exact granted.source past' during now new
  · exact size_eq (keeps during).2

/-- A component is registered and asked for. -/
def askedBefore : FactoryProgram (List String) Nat Unit (Except Failure Nat) :=
  .ask (.registry (.register (countOf "a" []))) fun _ => .ask (.component "a") .done

/-- The state after that. -/
def atHand : State (List String) Nat Unit :=
  after (run counting 1 .full askedBefore) { world := () }

/-- **The count is no count of what is made**: the component "a" is there and is eager, so that
    nothing is made ahead, and the count is one. -/
theorem atHand_counted_unmade :
    Reachable counting atHand ∧
      ∃ s', run counting 1 .full preinstantiate.run atHand = some (.ok 1, s') ∧
      s'.history = [.announced (.preinstantiated 1)] ++ atHand.history ∧
      OnlyAdds atHand.container.definitions.keys
        ([.announced (.preinstantiated 1)] : List (Event (List String) Nat)) ∧
      s'.container.components.size = atHand.container.components.size := by
  have asked : run counting 1 .full askedBefore { world := () } = some (.ok 1, atHand) := by cbv
  have reach : Reachable counting atHand := (Reachable.new true none ()).run asked
  exact ⟨reach, { atHand with history := .announced (.preinstantiated 1) :: atHand.history },
    by cbv, rfl, .of_unchanged (List.forall_mem_singleton.mpr rfl), rfl⟩

/-- Two eager components, one of which asks for a lazy one. -/
def toBeMade : State (List String) Nat Unit where
  container := {
    definitions := [countOf "a" ["l"], { countOf "l" [] with lazy := true }, countOf "b" []].foldl
      (fun t d => t.set d.name d) .empty }
  world := ()

/-- The state when they have been made ahead. -/
def madeAhead : State (List String) Nat Unit :=
  after (run counting 3 .full preinstantiate.run) toBeMade

/-- Three components are made and two are counted; the lazy one was asked for by one of these. -/
theorem toBeMade_made_completely :
    ∃ s', run counting 3 .full preinstantiate.run toBeMade = some (.ok 2, s') ∧
      (∀ name ∈ ["a", "b"], Remembered s' name) ∧ s'.container.components.size = 3 ∧
      ∃ c : String × State (List String) Nat Unit, c.1 ∈ ["a", "b"] ∧ ¬Remembered toBeMade c.1 ∧
        ∃ t, Raises counting 3 .full (.component c.1, c.2) (.component "l", t) := by
  have made : run counting 3 .full preinstantiate.run toBeMade = some (.ok 2, madeAhead) := by cbv
  have past : madeAhead.history = madeAhead.history ++ toBeMade.history :=
    (List.append_nil _).symm
  have unchanged : madeAhead.history.all (fun e => !e.isChange) = true := by cbv
  have adds : OnlyAdds toBeMade.container.definitions.keys madeAhead.history :=
    .of_unchanged fun e mem => by simpa using List.all_eq_true.mp unchanged e mem
  have eager : eagerIn toBeMade.container.definitions = ["a", "b"] := by decide +kernel
  obtain ⟨all, ⟨calls, u, -, names, -, sources⟩, -, -, -⟩ :=
    preinstantiated_completely made past adds
  rw [eager] at all names sources
  refine ⟨madeAhead, made, all, by cbv, ?_⟩
  obtain mem | ⟨c, mem, absent, raised⟩ := sources "l" ⟨1, by cbv⟩ (not_remembered rfl)
  · exact absurd mem (by decide)
  · exact ⟨c, names ▸ List.mem_map_of_mem mem, absent, raised⟩

end Container

end ComponentContainer
