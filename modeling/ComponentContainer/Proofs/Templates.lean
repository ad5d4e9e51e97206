/-
  File:      ComponentContainer/Proofs/Templates.lean
  Subject:   Which definitions suppliers run for, and templates among them.

  * `Called` -- a supplier runs for a component that is no template, or for an extension;
    `AllCalled` -- so it was each time, according to a history.
  * `Spares` -- what is remembered came from no component that is a template.
  * `Wary` -- the invariant; `Course.wary` -- every course keeps it.
  * `templates_make_no_components` -- **at every moment of whatever is asked, no supplier has run for
    a component that is a template.** A template that is an extension is made like any other:
    `templateExtension_is_made`.
-/
import ComponentContainer.Proofs.Nesting

namespace ComponentContainer

variable {κ ι ω α : Type}

/-! ## 1. The runs of suppliers -/

/-- A supplier may run for a definition: for a component that is no template and that is what is
    registered, but for the attributes, unless something was edited; or for an extension as it is
    registered. -/
inductive Called (name : String) (d : Definition κ) (earlier : List (Event κ ι)) : Prop
  | component (kind : d.kind = .component) (template : d.template = false)
      (current : Unedited earlier → ∃ r, (replay earlier).find? name = some r ∧
        d = { r with attributes := d.attributes })
  | extension {family : PostProcessor} (kind : d.kind = .postProcessor family)
      (current : (replay earlier).find? name = some d)

/-- Each run of a supplier in the history is for such a definition. -/
def AllCalled : List (Event κ ι) → Prop
  | [] => True
  | .supplied name d :: earlier => Called name d earlier ∧ AllCalled earlier
  | _ :: earlier => AllCalled earlier

theorem AllCalled.of_suffix {events history : List (Event κ ι)}
    (h : AllCalled (events ++ history)) : AllCalled history := by
  induction events with
  | nil => exact h
  | cons e events ih =>
      refine ih ?_
      cases e <;> first | exact h | exact h.2

theorem AllCalled.called {name : String} {d : Definition κ} {later earlier : List (Event κ ι)}
    (h : AllCalled (later ++ .supplied name d :: earlier)) : Called name d earlier :=
  (AllCalled.of_suffix h).1

theorem AllCalled.watched {s s' : State κ ι ω} (h : Watched s s') (hs : AllCalled s.history) :
    AllCalled s'.history := by
  obtain ⟨events, he, watch⟩ := h.history
  rw [he]
  clear he
  induction events with
  | nil => exact hs
  | cons e events ih =>
      rw [List.forall_mem_cons] at watch
      have rest := ih watch.2
      cases e <;> first | exact rest | cases watch.1

namespace Container

open Act Attempt

variable {b : Behaviour κ ι ω} {s s' s'' t : State κ ι ω}

/-! ## 2. What is remembered -/

/-- In the past of the state a component was made under the name from a merged definition. -/
inductive MadeFrom (b : Behaviour κ ι ω) (s : State κ ι ω) (name : String) (value : ι) :
    MergedDefinition κ → Prop
  | intro {s₁ s₂ : State κ ι ω} {depth : Nat} {m : MergedDefinition κ}
      (run : outcome (create b (nested b depth .full) name m) (beginning s₁ name) =
        some (.ok value, s₂)) (past : (madeComponent s₂ name value).history <:+ s.history) :
      MadeFrom b s name value m

theorem MadeFrom.later {name : String} {value : ι} {m : MergedDefinition κ}
    (h : MadeFrom b s name value m) (past : s.history <:+ s'.history) :
    MadeFrom b s' name value m := by
  obtain ⟨run, before⟩ := h
  exact ⟨run, before.trans past⟩

/-- What is remembered came from no component that is a template. -/
structure Spares (b : Behaviour κ ι ω) (s : State κ ι ω) : Prop where
  components : ∀ name value, s.container.components.find? name = some value →
    ∃ m, MadeFrom b s name value m ∧ m.definition.kind = .component ∧
      m.definition.template = false
  extensions : ∀ name handle, s.container.extensions.find? name = some handle →
    ∃ d left, ExtensionMade b s name d handle left

/-- What is remembered in the second state was remembered in the first. -/
structure Recalls (s s' : State κ ι ω) : Prop where
  components : ∀ name value, s'.container.components.find? name = some value →
    s.container.components.find? name = some value
  extensions : ∀ name handle, s'.container.extensions.find? name = some handle →
    s.container.extensions.find? name = some handle

theorem Spares.of_recalls (h : Spares b s) (recalls : Recalls s s')
    (past : s.history <:+ s'.history) : Spares b s' where
  components := by
    intro name value hv
    obtain ⟨m, made, fit⟩ := h.components name value (recalls.components name value hv)
    exact ⟨m, made.later past, fit⟩
  extensions := by
    intro name handle hv
    obtain ⟨d, left, made⟩ := h.extensions name handle (recalls.extensions name handle hv)
    exact ⟨d, left, made.later past⟩

theorem Recalls.of_same (components : s'.container.components = s.container.components)
    (extensions : s'.container.extensions = s.container.extensions) : Recalls s s' :=
  ⟨fun _ _ hv => components ▸ hv, fun _ _ hv => extensions ▸ hv⟩

theorem Recalls.of_evict {name : String} {definitions : Table (Definition κ)}
    (h : s'.container = { s.container.evict name with definitions := definitions }) :
    Recalls s s' := by
  constructor <;> rw [h]
  · exact fun _ _ hv => (Table.find?_erase_eq_some.mp hv).2
  · exact fun _ _ hv => (Table.find?_erase_eq_some.mp hv).2

/-- No single change remembers a component or an extension. -/
theorem Step.recalls (h : Step s s') : Recalls s s' := by
  cases h with
  | registered h =>
      rcases register_cases h with ⟨_, hc⟩ | hc
      · refine .of_same ?_ ?_ <;> exact hc ▸ rfl
      · exact .of_evict hc
  | removed h => exact .of_evict (remove_eq h)
  | _ => exact .of_same rfl rfl

theorem Spares.madeComponent {name : String} {value : ι} {m : MergedDefinition κ}
    (hs : Spares b s) (made : MadeFrom b (madeComponent s name value) name value m)
    (kind : m.definition.kind = .component) (template : m.definition.template = false) :
    Spares b (madeComponent s name value) := by
  have past : s.history <:+ (Container.madeComponent s name value).history := ⟨[_, _], rfl⟩
  constructor
  · intro other value' hv
    replace hv : (s.container.components.set name value).find? other = some value' := hv
    rw [Table.find?_set] at hv
    split at hv
    · rename_i same
      cases hv
      subst same
      exact ⟨m, made, kind, template⟩
    · obtain ⟨m', made', fit⟩ := hs.components other value' hv
      exact ⟨m', made'.later past, fit⟩
  · intro other handle hv
    obtain ⟨d, left, made'⟩ := hs.extensions other handle hv
    exact ⟨d, left, made'.later past⟩

theorem Spares.madeExtension {name : String} {handle : Handle κ} {d : Definition κ}
    {left : Option (Definition κ)} (hs : Spares b s)
    (hmade : ExtensionMade b (made s name handle) name d handle left) :
    Spares b (made s name handle) := by
  have past : s.history <:+ (made s name handle).history := ⟨[_, _, _], rfl⟩
  constructor
  · intro other value hv
    obtain ⟨m, made', fit⟩ := hs.components other value hv
    exact ⟨m, made'.later past, fit⟩
  · intro other handle' hv
    replace hv : (s.container.extensions.set name handle).find? other = some handle' := hv
    rw [Table.find?_set] at hv
    split at hv
    · rename_i same
      cases hv
      subst same
      exact ⟨d, left, hmade⟩
    · obtain ⟨d', left', made'⟩ := hs.extensions other handle' hv
      exact ⟨d', left', made'.later past⟩

/-! ## 3. The invariant -/

/-- What is known of the definitions, of the runs of suppliers, and of what is remembered. -/
structure Wary (b : Behaviour κ ι ω) (s : State κ ι ω) : Prop where
  recorded : Recorded s
  remembers : Unedited s.history → Remembers b s
  called : AllCalled s.history
  spares : Spares b s

namespace Wary

variable {name : String}

theorem watched (hs : Wary b s) (h : Watched s s') : Wary b s' where
  recorded := h.recorded hs.recorded
  remembers unedited := (hs.remembers (unedited.of_suffix h.past)).watched h
  called := hs.called.watched h
  spares := hs.spares.of_recalls (.of_same (by rw [h.container]) (by rw [h.container])) h.past

theorem beginning (hs : Wary b s) : Wary b (beginning s name) where
  recorded := hs.recorded
  remembers unedited := (hs.remembers (unedited.of_suffix (List.suffix_cons _ _))).beginning
  called := hs.called
  spares := hs.spares.of_recalls (.of_same rfl rfl) (List.suffix_cons _ _)

theorem ending (hs : Wary b s) : Wary b (ending s name) where
  recorded := hs.recorded
  remembers unedited := (hs.remembers (unedited.of_suffix (List.suffix_cons _ _))).ending
  called := hs.called
  spares := hs.spares.of_recalls (.of_same rfl rfl) (List.suffix_cons _ _)

theorem supplied {d : Definition κ} (hs : Wary b s) (called : Called name d s.history) :
    Wary b (supplied s name d) where
  recorded := hs.recorded
  remembers unedited := (hs.remembers (unedited.of_suffix (List.suffix_cons _ _))).supplied
  called := ⟨called, hs.called⟩
  spares := hs.spares.of_recalls (.of_same rfl rfl) (List.suffix_cons _ _)

end Wary

/-- **A supplier that is about to run may run**, also after the hooks that see the merged
    definition. -/
theorem Wary.calls {name : String} {d : Definition κ} (hs : Wary b s) (h : Supplies s name d)
    (shown : Watched (Container.beginning s name) s') : Called name d s'.history := by
  have past : s.history <:+ s'.history := (List.suffix_cons _ _).trans shown.past
  have same : replay s'.history = s.container.definitions := by
    have recorded : Recorded s' := shown.recorded hs.recorded
    rw [← show s'.container.definitions = replay s'.history from recorded, shown.container]
    rfl
  cases h with
  | component new merged template kind =>
      refine .component kind template fun unedited => ?_
      rw [same]
      exact (hs.remembers (unedited.of_suffix past)).merged _ _ merged
  | extension new found kind =>
      refine .extension kind ?_
      rw [same]
      exact found

theorem Step.wary (h : Step s s') (hs : Wary b s) : Wary b s' where
  recorded := h.recorded hs.recorded
  remembers unedited := h.remembers unedited (hs.remembers (unedited.of_suffix h.past))
  called := by cases h <;> exact hs.called
  spares := hs.spares.of_recalls h.recalls h.past

/-- **Every course keeps the invariant.** The induction is on the course; a making begins with a
    supplier that may run, and ends with what has been made from the same definition. -/
theorem Course.wary (h : Course b s s') (hs : Wary b s) : Wary b s' := by
  induction h with
  | refl s => exact hs
  | trans _ _ ih₁ ih₂ => exact ih₂ (ih₁ hs)
  | step h => exact h.wary hs
  | unmade _ shown => exact (hs.beginning.watched shown).ending
  | failed _ supplies shown _ passed ih =>
      have begun := (hs.beginning.watched shown).supplied (hs.calls supplies shown)
      exact ((ih begun).watched passed).ending
  | @component s s₁ s₂ s₃ name m value idle new merged template kind run shown supply passed ih =>
      have supplies : Supplies s name m.definition := .component new merged template kind
      have begun := (hs.beginning.watched shown).supplied (hs.calls supplies shown)
      have ended : Wary b s₃ := (ih begun).watched passed
      have course : Course b s (madeComponent s₃ name value) :=
        .component idle new merged template kind run shown supply passed
      obtain ⟨depth, run⟩ := run
      refine ⟨ended.recorded, fun unedited => ?_, ended.called, ?_⟩
      · exact course.remembers unedited (hs.remembers (unedited.of_suffix course.past))
      · exact ended.spares.madeComponent (.intro run (List.suffix_refl _)) kind template
  | @extension s s₁ name d family code idle new found kind run supply ih =>
      have supplies : Supplies s name d := .extension new found kind
      have begun : Wary b (supplying s name d) :=
        hs.beginning.supplied (hs.calls supplies (.refl _))
      have ended : Wary b s₁ := ih begun
      have course := Course.extension idle new found kind run supply
      obtain ⟨depth, run⟩ := run
      refine ⟨ended.recorded, fun unedited => ?_, ended.called, ?_⟩
      · exact course.remembers unedited (hs.remembers (unedited.of_suffix course.past))
      · exact ended.spares.madeExtension
          (.intro hs.recorded found kind run rfl ended.recorded (List.suffix_refl _))

theorem Reachable.wary (h : Reachable b s) : Wary b s := by
  refine h.keeps (I := Wary b) ?_ ?_ Course.wary
  · intro overriding comparator world
    have new : Reachable b { container := { overriding, comparator }, world } :=
      .new overriding comparator world
    exact ⟨rfl, new.remembers, trivial, ⟨fun _ _ hv => (nomatch hv), fun _ _ hv => (nomatch hv)⟩⟩
  · intro s overriding comparator hs
    refine ⟨hs.recorded, fun unedited => ?_, hs.called, ?_⟩
    · have before := hs.remembers unedited
      exact before.of_keeps (.of_same rfl rfl rfl rfl (List.suffix_refl _)) before.recorded
    · exact hs.spares.of_recalls (.of_same rfl rfl) (List.suffix_refl _)

theorem Moment.wary {depth : Nat} {view : View} {p : FactoryProgram κ ι ω α}
    {names : List String} (h : Moment b depth view p s names t) (hs : Wary b s) : Wary b t := by
  refine h.keeps (I := Wary b) Course.wary (fun watched ht => ht.watched watched)
    (fun ht _ => ht.beginning) ?_ hs
  intro s s₁ name d hs supplies shown hs₁
  exact hs₁.supplied (hs.calls supplies shown)

/-! ## 4. Templates -/

/-- **No supplier runs for a component that is a template.** At every moment of whatever is asked,
    each run of a supplier that has been was for a component that is no template, or for an
    extension; what is remembered was made by these; and a component whose merged definition is a
    template is refused without any further ado. The same holds after a refresh. -/
theorem templates_make_no_components (reach : Reachable b s) :
    (∀ depth view (p : FactoryProgram κ ι ω α) names t, Moment b depth view p s names t →
      (∀ later name d earlier, t.history = later ++ .supplied name d :: earlier →
        Called name d earlier) ∧ Spares b t ∧
      ∀ (exec : Exec κ ι ω) name m t', t.container.components.find? name = none →
        outcome (mergedDefinition name) t = some (.ok m, t') → m.definition.template = true →
        outcome (Container.component b exec name) t =
          some (.error (.invalidDefinition (.template name)), t')) ∧
    ∀ patience depth times c r s', Context.refresh ⟨b, patience, depth⟩ times c s = some (r, s') →
      (∀ later name d earlier, s'.history = later ++ .supplied name d :: earlier →
        Called name d earlier) ∧ Spares b s' := by
  have split : ∀ {t : State κ ι ω}, Wary b t → ∀ later name d earlier,
      t.history = later ++ .supplied name d :: earlier → Called name d earlier :=
    fun ht _ _ _ _ cut => AllCalled.called (cut ▸ ht.called)
  constructor
  · intro depth view p names t moment
    have ht := moment.wary reach.wary
    exact ⟨split ht, ht.spares, fun _ _ _ _ => outcome_component_template⟩
  · intro patience depth times c r s' refreshed
    have hs' := ((refresh_runs refreshed).reachable reach).wary
    exact ⟨split hs', hs'.spares⟩

/-- The shop has made its order service and its data source, but not the template between them. -/
theorem shop_template_makes_nothing :
    ∃ s s' c, Reachable (Demo.behaviour "db") s ∧
      Context.refresh ⟨Demo.behaviour "db", 16, 16⟩ ⟨"", ""⟩ { id := "shop" } s = some (c, s') ∧
      s'.container.components.contains "dataSource" = true ∧
      (∀ value, s'.container.components.find? "dataSource" = some value →
        ∃ m, MadeFrom (Demo.behaviour "db") s' "dataSource" value m ∧
          m.definition.template = false) ∧
      Moment (Demo.behaviour "db") 2 .full serviceRequest s [] s ∧
      ∃ t, outcome (Container.component (Demo.behaviour "db")
        (nested (Demo.behaviour "db") 1 .full) "dataSourceTemplate") s =
          some (.error (.invalidDefinition (.template "dataSourceTemplate")), t) := by
  obtain ⟨s, reach, passes⟩ := exists_reached (Demo.behaviour "db") 0 .full
    (Demo.definitions.forM Plan.register).run ()
    (fun s => (Context.refresh ⟨Demo.behaviour "db", 16, 16⟩ ⟨"", ""⟩ { id := "shop" } s).any
        (fun r => r.2.container.components.contains "dataSource") &&
      (s.container.components.find? "dataSourceTemplate").isNone &&
      (outcome (mergedDefinition "dataSourceTemplate") s).any fun r =>
        match r.1 with
        | .ok m => m.definition.template
        | .error _ => false) (by decide +kernel)
  simp only [Bool.and_eq_true] at passes
  obtain ⟨⟨refreshes, new⟩, template⟩ := passes
  obtain ⟨⟨c, s'⟩, refresh, known⟩ := (Option.any_eq_true _ _).mp refreshes
  obtain ⟨⟨merged, t⟩, hmerged, htemplate⟩ := (Option.any_eq_true _ _).mp template
  have moment : Moment (Demo.behaviour "db") 2 .full serviceRequest s [] s := .now _ _
  obtain ⟨during, refreshed⟩ := templates_make_no_components reach
  cases merged with
  | error failure => cases htemplate
  | ok m =>
      refine ⟨s, s', c, reach, refresh, known, fun value hv => ?_, moment, t, ?_⟩
      · obtain ⟨m, made, -, template⟩ :=
          (refreshed _ _ _ _ _ _ refresh).2.components "dataSource" value hv
        exact ⟨m, made, template⟩
      · exact (during _ _ _ _ _ moment).2.2 _ _ _ _ (Option.isNone_iff_eq_none.mp new) hmerged
          htemplate

/-- An extension that is a template. -/
def templateExtension : Definition Bool :=
  { name := "t", typeName := "T", kind := .postProcessor .factory, supplier := true,
    template := true }

/-- Under that name the supplier of a template has run. -/
def runsTemplate (name : String) : Event κ ι → Bool
  | .supplied name' d => name' == name && d.template
  | _ => false

/-- A template that is an extension is made and remembered: nothing keeps its supplier from
    running. -/
theorem templateExtension_is_made :
    ∃ s, Reachable fleeting s ∧ Unedited s.history ∧
      (s.container.definitions.find? "t").map Definition.template = some true ∧
      s.container.extensions.contains "t" = true ∧
      ∃ d, .supplied "t" d ∈ s.history ∧ d.template = true := by
  obtain ⟨s, reach, passes⟩ := exists_reached fleeting 1 .full
    (Program.ask (.registry (.register templateExtension)) fun _ =>
      .ask (.extension "t" (.postProcessor .factory)) .done) ()
    (fun s => s.history.all (!·.isEdit) &&
      (s.container.definitions.find? "t").map Definition.template == some true &&
      s.container.extensions.contains "t" && s.history.any (runsTemplate "t")) (by decide +kernel)
  simp only [Bool.and_eq_true] at passes
  obtain ⟨⟨⟨unedited, template⟩, known⟩, ran⟩ := passes
  refine ⟨s, reach, by simpa [Unedited] using unedited, beq_iff_eq.mp template, known, ?_⟩
  obtain ⟨e, he, runs⟩ := List.any_eq_true.mp ran
  cases e with
  | supplied name d =>
      obtain ⟨same, template⟩ := Bool.and_eq_true_iff.mp runs
      exact ⟨d, beq_iff_eq.mp same ▸ he, template⟩
  | _ => cases runs

end Container

end ComponentContainer
