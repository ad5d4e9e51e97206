/-
  File:      ComponentContainer/Proofs/Caches.lean
  Subject:   What a container remembers, after whatever has been asked of it.

  * `replay` -- the definitions according to a history; `Course.recorded` -- **the container has
    exactly these.**
  * `Reachable` -- the states that a new container gets to between two requests from outside.
  * `ComponentMade`, `ExtensionMade` -- how a thing was made that is remembered: from which
    definition, and what was registered under the name when that was over.
  * `Remembers` -- the invariant; `Course.remembers` -- every course keeps it.
  * `remembered_as_left` -- **a thing that is remembered is as current as its supplier has left it.**
    A supplier that takes its own definition out is remembered without one: `fleeting_outlives_definition`.
-/
import ComponentContainer.Demo
import ComponentContainer.Proofs.Course

namespace ComponentContainer

variable {κ ι ω α : Type}

/-! ## 1. The definitions according to the history -/

/-- The definitions after an event. -/
def Event.replay (e : Event κ ι) (t : Table (Definition κ)) : Table (Definition κ) :=
  match e with
  | .registered d => t.set d.name d
  | .removed name => t.erase name
  | .edited name change => t.modify name change
  | _ => t

/-- The definitions according to a history, latest event first. -/
def replay (history : List (Event κ ι)) : Table (Definition κ) := history.foldr Event.replay .empty

theorem replay_append_of_watch {events : List (Event κ ι)} (h : ∀ e ∈ events, e.isWatch = true)
    (history : List (Event κ ι)) : replay (events ++ history) = replay history := by
  induction events with
  | nil => rfl
  | cons e events ih =>
      rw [List.forall_mem_cons] at h
      obtain ⟨he, hrest⟩ := h
      show e.replay (replay (events ++ history)) = _
      rw [ih hrest]
      cases e <;> first | rfl | cases he

/-- The definitions are those of the history. -/
def Recorded (s : State κ ι ω) : Prop := s.container.definitions = replay s.history

theorem Watched.recorded {s s' : State κ ι ω} (h : Watched s s') (hs : Recorded s) :
    Recorded s' := by
  obtain ⟨events, he, hw⟩ := h.history
  unfold Recorded
  rw [h.container, he, replay_append_of_watch hw]
  exact hs

/-- The event is a definition being edited. -/
def Event.isEdit : Event κ ι → Bool
  | .edited _ _ => true
  | _ => false

/-- No definition was edited. -/
def Unedited (history : List (Event κ ι)) : Prop := ∀ e ∈ history, e.isEdit = false

theorem Unedited.of_suffix {history history' : List (Event κ ι)} (h : Unedited history')
    (past : history <:+ history') : Unedited history :=
  fun e he => h e (past.subset he)

namespace Container

open Attempt

variable {s s' : State κ ι ω} {b : Behaviour κ ι ω}

/-! ## 2. Registering and removing -/

/-- A definition that is registered is new, or what was made under its name is forgotten. -/
theorem register_cases {c c' : Container κ ι} {d : Definition κ} (h : c.register d = .ok c') :
    (c.definitions.find? d.name = none ∧ c' = { c with definitions := c.definitions.set d.name d }) ∨
      c' = { c.evict d.name with definitions := c.definitions.set d.name d } := by
  unfold register at h
  split at h
  · cases h
  · split at h
    · cases h
    · split at h
      · split at h
        · cases h
          exact .inr rfl
        · cases h
      · rename_i new
        cases h
        exact .inl ⟨by simpa [Table.contains] using new, rfl⟩

theorem definitions_register {c c' : Container κ ι} {d : Definition κ} (h : c.register d = .ok c') :
    c'.definitions = c.definitions.set d.name d := by
  rcases register_cases h with ⟨_, rfl⟩ | rfl <;> rfl

theorem remove_eq {c c' : Container κ ι} {name : String} {d : Definition κ}
    (h : c.remove name = .ok (d, c')) :
    c' = { c.evict name with definitions := c.definitions.erase name } := by
  unfold remove at h
  split at h
  · cases h
  · cases h
    rfl

theorem Step.recorded (h : Step s s') (hs : Recorded s) : Recorded s' := by
  cases h with
  | registered h =>
      show _ = Table.set (replay s.history) _ _
      rw [← show s.container.definitions = replay s.history from hs]
      exact definitions_register h
  | removed h =>
      show _ = Table.erase (replay s.history) _
      rw [← show s.container.definitions = replay s.history from hs]
      exact congrArg Container.definitions (remove_eq h)
  | edited h => exact congrArg (fun t : Table (Definition κ) => t.modify _ _) hs
  | announced n => exact hs
  | registryHook e => exact hs
  | factoryHook e => exact hs
  | world w => exact hs
  | numbered => exact hs
  | merged new h => exact hs
  | attached e => exact hs
  | cleared => exact hs

/-- **The definitions of a container are those of its history.** -/
theorem Course.recorded (h : Course b s s') (hs : Recorded s) : Recorded s' := by
  induction h with
  | refl s => exact hs
  | trans _ _ ih₁ ih₂ => exact ih₂ (ih₁ hs)
  | step h => exact h.recorded hs
  | unmade _ shown => exact shown.recorded hs
  | failed _ _ shown _ passed ih => exact passed.recorded (ih (shown.recorded hs))
  | component _ _ _ _ _ _ shown _ passed ih => exact passed.recorded (ih (shown.recorded hs))
  | extension _ _ _ _ _ _ ih => exact ih hs

/-! ## 3. How the things that are remembered were made -/

/-- In the past of the state a component was made under the name from the definition that was
    registered then. The last argument is what was registered under the name when that was over. -/
inductive ComponentMade (b : Behaviour κ ι ω) (s : State κ ι ω) (name : String) (d : Definition κ)
    (value : ι) : Option (Definition κ) → Prop
  | intro {s₁ s₂ : State κ ι ω} {depth : Nat} {m : MergedDefinition κ} (began : Recorded s₁)
      (registered : s₁.container.definitions.find? name = some d)
      (merged : m.definition = { d with attributes := m.definition.attributes })
      (run : outcome (create b (nested b depth .full) name m) (beginning s₁ name) =
        some (.ok value, s₂)) (ended : Recorded s₂)
      (past : (madeComponent s₂ name value).history <:+ s.history) :
      ComponentMade b s name d value (s₂.container.definitions.find? name)

/-- The same for an extension. -/
inductive ExtensionMade (b : Behaviour κ ι ω) (s : State κ ι ω) (name : String) (d : Definition κ)
    (handle : Handle κ) : Option (Definition κ) → Prop
  | intro {s₁ s₂ : State κ ι ω} {depth : Nat} {family : PostProcessor} {code : κ}
      (began : Recorded s₁) (registered : s₁.container.definitions.find? name = some d)
      (kind : d.kind = .postProcessor family)
      (run : nested b depth .full (b.build d.supplier) (supplying s₁ name d) =
        some (.ok code, s₂)) (is : handle = ⟨family, b.yielded code s₂.nextId⟩)
      (ended : Recorded s₂) (past : (made s₂ name handle).history <:+ s.history) :
      ExtensionMade b s name d handle (s₂.container.definitions.find? name)

theorem ComponentMade.later {name : String} {d : Definition κ} {value : ι}
    {left : Option (Definition κ)} (h : ComponentMade b s name d value left)
    (past : s.history <:+ s'.history) : ComponentMade b s' name d value left := by
  obtain ⟨began, registered, merged, run, ended, before⟩ := h
  exact ⟨began, registered, merged, run, ended, before.trans past⟩

theorem ExtensionMade.later {name : String} {d : Definition κ} {handle : Handle κ}
    {left : Option (Definition κ)} (h : ExtensionMade b s name d handle left)
    (past : s.history <:+ s'.history) : ExtensionMade b s' name d handle left := by
  obtain ⟨began, registered, kind, run, is, ended, before⟩ := h
  exact ⟨began, registered, kind, run, is, ended, before.trans past⟩

/-! ## 4. The invariant -/

/-- Nothing has been registered under the name since `left` was left there; if nothing was left
    there, anything may be. -/
def SinceLeft (s : State κ ι ω) (name : String) (left : Option (Definition κ)) : Prop :=
  left = none ∨ s.container.definitions.find? name = left

/-- What the container remembers. -/
structure Remembers (b : Behaviour κ ι ω) (s : State κ ι ω) : Prop where
  recorded : Recorded s
  merged : ∀ name m, s.container.merged.find? name = some m →
    ∃ d, s.container.definitions.find? name = some d ∧
      m.definition = { d with attributes := m.definition.attributes }
  components : ∀ name value, s.container.components.find? name = some value →
    ∃ d left, ComponentMade b s name d value left ∧ SinceLeft s name left
  extensions : ∀ name handle, s.container.extensions.find? name = some handle →
    ∃ d left, ExtensionMade b s name d handle left ∧ SinceLeft s name left

/-- The name has its definition still, or had none. -/
def Stays (s s' : State κ ι ω) (name : String) : Prop :=
  s'.container.definitions.find? name = s.container.definitions.find? name ∨
    s.container.definitions.find? name = none

/-- All that is remembered was remembered before, and its name stays. -/
structure Keeps (s s' : State κ ι ω) : Prop where
  past : s.history <:+ s'.history
  merged : ∀ name m, s'.container.merged.find? name = some m →
    s.container.merged.find? name = some m ∧ Stays s s' name
  components : ∀ name value, s'.container.components.find? name = some value →
    s.container.components.find? name = some value ∧ Stays s s' name
  extensions : ∀ name handle, s'.container.extensions.find? name = some handle →
    s.container.extensions.find? name = some handle ∧ Stays s s' name

theorem SinceLeft.stays {name : String} {left : Option (Definition κ)} (h : SinceLeft s name left)
    (stays : Stays s s' name) : SinceLeft s' name left := by
  rcases h with h | h
  · exact .inl h
  · rcases stays with same | gone
    · exact .inr (same.trans h)
    · exact .inl (h.symm.trans gone)

theorem Remembers.of_keeps (h : Remembers b s) (keeps : Keeps s s') (recorded : Recorded s') :
    Remembers b s' where
  recorded := recorded
  merged := by
    intro name m hm
    obtain ⟨hm, stays⟩ := keeps.merged name m hm
    obtain ⟨d, hd, of⟩ := h.merged name m hm
    rcases stays with same | gone
    · exact ⟨d, same.trans hd, of⟩
    · rw [gone] at hd
      cases hd
  components := by
    intro name value hv
    obtain ⟨hv, stays⟩ := keeps.components name value hv
    obtain ⟨d, left, made, since⟩ := h.components name value hv
    exact ⟨d, left, made.later keeps.past, since.stays stays⟩
  extensions := by
    intro name handle hv
    obtain ⟨hv, stays⟩ := keeps.extensions name handle hv
    obtain ⟨d, left, made, since⟩ := h.extensions name handle hv
    exact ⟨d, left, made.later keeps.past, since.stays stays⟩

namespace Keeps

/-- What changes no definition and remembers nothing new. -/
theorem of_same (definitions : s'.container.definitions = s.container.definitions)
    (merged : s'.container.merged = s.container.merged)
    (components : s'.container.components = s.container.components)
    (extensions : s'.container.extensions = s.container.extensions)
    (past : s.history <:+ s'.history) : Keeps s s' := by
  have stays : ∀ name, Stays s s' name := fun name => .inl (by rw [definitions])
  refine ⟨past, ?_, ?_, ?_⟩
  · intro name m hm
    exact ⟨merged ▸ hm, stays name⟩
  · intro name value hv
    exact ⟨components ▸ hv, stays name⟩
  · intro name handle hv
    exact ⟨extensions ▸ hv, stays name⟩

/-- A change under a name, together with forgetting what was made under it. -/
theorem of_evict {name : String} {definitions : Table (Definition κ)}
    (elsewhere : ∀ other, other ≠ name →
      definitions.find? other = s.container.definitions.find? other)
    (evicted : s'.container = { s.container.evict name with definitions := definitions })
    (past : s.history <:+ s'.history) : Keeps s s' := by
  have stays : ∀ other, other ≠ name → Stays s s' other := by
    intro other hne
    exact .inl (by rw [evicted]; exact elsewhere other hne)
  refine ⟨past, ?_, ?_, ?_⟩ <;> rw [evicted]
  · intro other m hm
    obtain ⟨hne, hm⟩ := Table.find?_erase_eq_some.mp hm
    exact ⟨hm, stays other hne⟩
  · intro other value hv
    obtain ⟨hne, hv⟩ := Table.find?_erase_eq_some.mp hv
    exact ⟨hv, stays other hne⟩
  · intro other handle hv
    obtain ⟨hne, hv⟩ := Table.find?_erase_eq_some.mp hv
    exact ⟨hv, stays other hne⟩

/-- A definition under a name that had none. -/
theorem of_new {d : Definition κ} (new : s.container.definitions.find? d.name = none)
    (registered : s'.container =
      { s.container with definitions := s.container.definitions.set d.name d })
    (past : s.history <:+ s'.history) : Keeps s s' := by
  have stays : ∀ name, Stays s s' name := by
    intro name
    by_cases hname : name = d.name
    · exact .inr (hname ▸ new)
    · refine .inl ?_
      rw [registered]
      exact (Table.find?_set _ _ _ _).trans (if_neg hname)
  refine ⟨past, ?_, ?_, ?_⟩ <;> rw [registered]
  · exact fun name m hm => ⟨hm, stays name⟩
  · exact fun name value hv => ⟨hv, stays name⟩
  · exact fun name handle hv => ⟨hv, stays name⟩

end Keeps

theorem keeps_of_watched (h : Watched s s') : Keeps s s' := by
  refine .of_same ?_ ?_ ?_ ?_ h.past <;> rw [h.container]

/-! ## 5. Courses keep the invariant -/

theorem freshMerge_ok {definitions : Table (Definition κ)} {name : String} {m : MergedDefinition κ}
    (h : freshMerge definitions name = .ok m) :
    ∃ d, definitions.find? name = some d ∧
      m.definition = { d with attributes := m.definition.attributes } := by
  unfold freshMerge at h
  split at h
  · cases h
  · rename_i d hd
    split at h
    · cases h
    · cases h
      exact ⟨d, hd, rfl⟩

theorem Step.remembers (h : Step s s') (unedited : Unedited s'.history) (hs : Remembers b s) :
    Remembers b s' := by
  have recorded : Recorded s' := h.recorded hs.recorded
  cases h with
  | registered h =>
      rcases register_cases h with ⟨new, hc⟩ | hc
      · exact hs.of_keeps (.of_new new hc (List.suffix_cons _ _)) recorded
      · refine hs.of_keeps (.of_evict ?_ hc (List.suffix_cons _ _)) recorded
        exact fun other hne => (Table.find?_set _ _ _ _).trans (if_neg hne)
  | removed h =>
      refine hs.of_keeps (.of_evict ?_ (remove_eq h) (List.suffix_cons _ _)) recorded
      exact fun other hne => (Table.find?_erase _ _ _).trans (if_neg hne)
  | edited h => cases unedited _ List.mem_cons_self
  | @merged name m new h =>
      refine ⟨recorded, ?_, ?_, ?_⟩
      · intro other m' hm
        rw [Table.find?_set] at hm
        split at hm
        · rename_i hother
          cases hm
          subst hother
          exact freshMerge_ok h
        · exact hs.merged other m' hm
      · intro other value hv
        obtain ⟨d, left, made, since⟩ := hs.components other value hv
        exact ⟨d, left, made.later (List.suffix_cons _ _), since⟩
      · intro other handle hv
        obtain ⟨d, left, made, since⟩ := hs.extensions other handle hv
        exact ⟨d, left, made.later (List.suffix_cons _ _), since⟩
  | cleared =>
      refine hs.of_keeps ⟨List.suffix_refl _, ?_, fun _ _ hv => ⟨hv, .inl rfl⟩,
        fun _ _ hv => ⟨hv, .inl rfl⟩⟩ recorded
      intro name m hm
      rw [Table.find?_empty] at hm
      cases hm
  | announced n => exact hs.of_keeps (.of_same rfl rfl rfl rfl (List.suffix_cons _ _)) recorded
  | registryHook e => exact hs.of_keeps (.of_same rfl rfl rfl rfl (List.suffix_cons _ _)) recorded
  | factoryHook e => exact hs.of_keeps (.of_same rfl rfl rfl rfl (List.suffix_cons _ _)) recorded
  | attached e => exact hs.of_keeps (.of_same rfl rfl rfl rfl (List.suffix_cons _ _)) recorded
  | world w => exact hs.of_keeps (.of_same rfl rfl rfl rfl (List.suffix_refl _)) recorded
  | numbered => exact hs.of_keeps (.of_same rfl rfl rfl rfl (List.suffix_refl _)) recorded

/-- A component has been made and is remembered from now on. -/
theorem Remembers.madeComponent {name : String} {value : ι} {d : Definition κ}
    (hs : Remembers b s) (made : ComponentMade b (madeComponent s name value) name d value
      (s.container.definitions.find? name)) : Remembers b (madeComponent s name value) := by
  have past : s.history <:+ (Container.madeComponent s name value).history :=
    (List.suffix_cons _ _).trans (List.suffix_cons _ _)
  refine ⟨hs.recorded, hs.merged, ?_, ?_⟩
  · intro other value' hv
    rw [show (Container.madeComponent s name value).container.components =
      s.container.components.set name value from rfl, Table.find?_set] at hv
    split at hv
    · rename_i hother
      cases hv
      subst hother
      exact ⟨d, _, made, .inr rfl⟩
    · obtain ⟨d', left, made', since⟩ := hs.components other value' hv
      exact ⟨d', left, made'.later past, since⟩
  · intro other handle hv
    obtain ⟨d', left, made', since⟩ := hs.extensions other handle hv
    exact ⟨d', left, made'.later past, since⟩

theorem Remembers.madeExtension {name : String} {handle : Handle κ} {d : Definition κ}
    (hs : Remembers b s) (hmade : ExtensionMade b (made s name handle) name d handle
      (s.container.definitions.find? name)) : Remembers b (made s name handle) := by
  have past : s.history <:+ (made s name handle).history := ⟨[_, _, _], rfl⟩
  refine ⟨hs.recorded, hs.merged, ?_, ?_⟩
  · intro other value hv
    obtain ⟨d', left, made', since⟩ := hs.components other value hv
    exact ⟨d', left, made'.later past, since⟩
  · intro other handle' hv
    rw [show (made s name handle).container.extensions =
      s.container.extensions.set name handle from rfl, Table.find?_set] at hv
    split at hv
    · rename_i hother
      cases hv
      subst hother
      exact ⟨d, _, hmade, .inr rfl⟩
    · obtain ⟨d', left, made', since⟩ := hs.extensions other handle' hv
      exact ⟨d', left, made'.later past, since⟩

theorem Remembers.watched (hs : Remembers b s) (h : Watched s s') : Remembers b s' :=
  hs.of_keeps (keeps_of_watched h) (h.recorded hs.recorded)

theorem Remembers.beginning {name : String} (hs : Remembers b s) :
    Remembers b (beginning s name) :=
  hs.of_keeps (.of_same rfl rfl rfl rfl (List.suffix_cons _ _)) hs.recorded

theorem Remembers.supplied {name : String} {d : Definition κ} (hs : Remembers b s) :
    Remembers b (supplied s name d) :=
  hs.of_keeps (.of_same rfl rfl rfl rfl (List.suffix_cons _ _)) hs.recorded

theorem Remembers.ending {name : String} (hs : Remembers b s) : Remembers b (ending s name) :=
  hs.of_keeps (.of_same rfl rfl rfl rfl (List.suffix_cons _ _)) hs.recorded

/-- **Every course in which nothing is edited keeps the invariant.** The induction is on the course;
    a making begins and ends in states that have it, its supplier takes a course between them. -/
theorem Course.remembers (h : Course b s s') (unedited : Unedited s'.history)
    (hs : Remembers b s) : Remembers b s' := by
  induction h with
  | refl s => exact hs
  | trans _ h₂ ih₁ ih₂ => exact ih₂ unedited (ih₁ (unedited.of_suffix h₂.past) hs)
  | step h => exact h.remembers unedited hs
  | unmade _ shown => exact (hs.beginning.watched shown).ending
  | @failed s s₁ s₂ s₃ name d idle supplies shown supply passed ih =>
      have before : Unedited s₂.history :=
        unedited.of_suffix (passed.past.trans (List.suffix_cons _ _))
      have begun : Remembers b (supplied s₁ name d) := (hs.beginning.watched shown).supplied
      exact ((ih before begun).watched passed).ending
  | @component s s₁ s₂ s₃ name m value idle new merged template kind run shown supply passed ih =>
      have after : s₃.history <:+ (madeComponent s₃ name value).history :=
        (List.suffix_cons _ _).trans (List.suffix_cons _ _)
      have before : Unedited s₂.history := unedited.of_suffix (passed.past.trans after)
      have begun : Remembers b (supplied s₁ name m.definition) :=
        (hs.beginning.watched shown).supplied
      have ended : Remembers b s₃ := (ih before begun).watched passed
      obtain ⟨d, registered, of⟩ := hs.merged name m merged
      obtain ⟨depth, run⟩ := run
      exact ended.madeComponent
        (.intro hs.recorded registered of run ended.recorded (List.suffix_refl _))
  | @extension s s₁ name d family code idle new found kind run supply ih =>
      have after (h : Handle κ) : s₁.history <:+ (made s₁ name h).history := ⟨[_, _, _], rfl⟩
      have before : Unedited s₁.history := unedited.of_suffix (after _)
      have ended : Remembers b s₁ := ih before hs.beginning.supplied
      obtain ⟨depth, run⟩ := run
      exact ended.madeExtension
        (.intro hs.recorded found kind run rfl ended.recorded (List.suffix_refl _))

/-! ## 6. What a new container gets to -/

/-- The states that a new container gets to between two requests from outside. From outside, the
    settings can be changed and programs be run; whatever the suppliers and hooks do is part of the
    runs. -/
inductive Reachable (b : Behaviour κ ι ω) : State κ ι ω → Prop
  | new (overriding : Bool) (comparator : Option Comparator) (world : ω) :
      Reachable b { container := { overriding, comparator }, world }
  | configured {s : State κ ι ω} (h : Reachable b s) (overriding : Bool)
      (comparator : Option Comparator) :
      Reachable b { s with container := { s.container with overriding, comparator } }
  | run {α : Type} {s s' : State κ ι ω} {depth : Nat} {view : View} {p : FactoryProgram κ ι ω α}
      {a : α} (h : Reachable b s) (hrun : Container.run b depth view p s = some (a, s')) :
      Reachable b s'

/-- A new container remembers nothing, and from there on courses keep the invariant. -/
theorem Reachable.remembers (h : Reachable b s) (unedited : Unedited s.history) :
    Remembers b s := by
  induction h with
  | new overriding comparator world =>
      refine ⟨rfl, ?_, ?_, ?_⟩ <;>
      · intro name x hx
        rw [Table.find?_empty] at hx
        cases hx
  | configured _ overriding comparator ih =>
      have before := ih unedited
      exact before.of_keeps (.of_same rfl rfl rfl rfl (List.suffix_refl _)) before.recorded
  | run _ hrun ih =>
      have course := run_course _ _ _ _ hrun
      exact course.remembers unedited (ih (unedited.of_suffix course.past))

/-! ## 7. What is remembered -/

/-- An extension that is asked for has been made before, or is of the kind of its definition. -/
theorem extension_ok {exec : Exec κ ι ω} {name : String} {expected : Capability}
    {handle : Handle κ}
    (h : outcome (Container.extension b exec name expected) s = some (.ok handle, s')) :
    ∃ d, s.container.definitions.find? name = some d ∧ d.declares expected = true ∧
      (s.container.extensions.find? name = some handle ∨ d.kind = .postProcessor handle.family) := by
  cases extension_cases h with
  | known found declares known => exact ⟨_, found, declares, .inl known⟩
  | made idle new found declares kind run => exact ⟨_, found, declares, .inr kind⟩

/-- **A thing that is remembered is as current as its supplier has left it.** If no definition was
    edited, each component and each extension that is remembered was made from a definition `d` that
    was registered under its name when its making began. What was registered under the name when
    the making was over, `left`, is registered still, unless nothing was. So the definition
    registered now is `d` if the supplier has left it in place; and an extension that is asked
    for as a post-processor is one, unless its supplier has not. -/
theorem remembered_as_left (reach : Reachable b s) (unedited : Unedited s.history) :
    (∀ name value, s.container.components.find? name = some value →
      ∃ d left, ComponentMade b s name d value left ∧ SinceLeft s name left ∧
        (left = some d → s.container.definitions.find? name = some d)) ∧
    (∀ name handle, s.container.extensions.find? name = some handle →
      ∃ d left, ExtensionMade b s name d handle left ∧ SinceLeft s name left ∧
        (left = some d → s.container.definitions.find? name = some d)) ∧
    ∀ depth view name family handle s',
      serve b depth view (.extension name (.postProcessor family)) s = some (.ok handle, s') →
      (Kind.postProcessor handle.family).declares (.postProcessor family) = true ∨
        ∃ d left, ExtensionMade b s name d handle left ∧ left ≠ some d := by
  have remembers := reach.remembers unedited
  have current : ∀ {name left d}, SinceLeft s name left → left = some d →
      s.container.definitions.find? name = some d := by
    rintro name left d (rfl | since) hleft
    · cases hleft
    · exact since.trans hleft
  refine ⟨?_, ?_, ?_⟩
  · intro name value hv
    obtain ⟨d, left, made, since⟩ := remembers.components name value hv
    exact ⟨d, left, made, since, current since⟩
  · intro name handle hv
    obtain ⟨d, left, made, since⟩ := remembers.extensions name handle hv
    exact ⟨d, left, made, since, current since⟩
  · intro depth view name family handle s' h
    rw [serve_extension] at h
    obtain ⟨d, found, declares, known | kind⟩ := extension_ok h
    · obtain ⟨d', left, made, since⟩ := remembers.extensions name handle known
      by_cases hleft : left = some d'
      · left
        have same : d = d' := Option.some.inj (found.symm.trans (current since hleft))
        obtain ⟨began, registered, kind, run, is, ended, past⟩ := made
        rw [is, ← kind, ← same]
        exact declares
      · exact .inr ⟨d', left, made, hleft⟩
    · left
      rw [← kind]
      exact declares

/-- A run of a new container that edits nothing reaches a state that passes the test. -/
theorem exists_reachable (b : Behaviour κ ι ω) (depth : Nat) (view : View)
    (p : FactoryProgram κ ι ω α) (world : ω) (test : Container κ ι → Bool)
    (h : (Container.run b depth view p { world }).any
      (fun r => r.2.history.all (!·.isEdit) && test r.2.container) = true) :
    ∃ s, Reachable b s ∧ Unedited s.history ∧ test s.container = true := by
  obtain ⟨⟨a, s⟩, hrun, hs⟩ := (Option.any_eq_true _ _).mp h
  obtain ⟨unedited, passes⟩ := Bool.and_eq_true_iff.mp hs
  refine ⟨s, .run (.new true none world) hrun, ?_, passes⟩
  simpa [Unedited] using unedited

/-- Registers a definition and asks for its component. -/
def ensure (d : Definition κ) : FactoryProgram κ ι ω (Except Failure ι) :=
  Program.ask (.registry (.register d)) fun _ => .ask (.component d.name) .done

/-- The shop remembers its audit log, and with it the definition that it was made from. -/
theorem shop_remembered_as_left :
    ∃ s, Reachable (Demo.behaviour "db") s ∧ Unedited s.history ∧
      s.container.components.find? "auditLog" = some .auditLog ∧
      ∃ d left, ComponentMade (Demo.behaviour "db") s "auditLog" d .auditLog left ∧
        SinceLeft s "auditLog" left ∧
        (left = some d → s.container.definitions.find? "auditLog" = some d) := by
  obtain ⟨s, reach, unedited, passes⟩ := exists_reachable (Demo.behaviour "db") 1 .full
    (ensure Demo.auditLog) () (fun c => c.components.find? "auditLog" == some .auditLog)
    (by decide +kernel)
  have known := beq_iff_eq.mp passes
  exact ⟨s, reach, unedited, known, (remembered_as_left reach unedited).1 _ _ known⟩

/-- The behaviour where the supplier `true` takes the definition of "a" out and makes 0, and the
    supplier `false` makes 1. -/
def fleeting : Behaviour Bool Nat Unit where
  name _ := ""
  supply code :=
    if code then .ask (.registry (.remove "a")) fun _ => .done (.ok 0) else .done (.ok 1)
  build code := .done (.ok code)
  onRegistry _ := .done (.ok ())
  onFactory _ := .done (.ok ())
  mergedAware _ := false
  onMerged _ _ _ world := (.ok (), world)
  before _ value _ world := (.ok value, world)
  after _ value _ world := (.ok value, world)

/-- The definition of "a" with one of the two suppliers. -/
def definitionOfA (code : Bool) : Definition Bool :=
  { name := "a", typeName := "A", kind := .component, supplier := code }

/-- What such a supplier makes is remembered without a definition, and is what there is when another
    definition has been registered under the name. -/
theorem fleeting_outlives_definition :
    (∃ s, Reachable fleeting s ∧ Unedited s.history ∧
      s.container.components.find? "a" = some 0 ∧ s.container.definitions.find? "a" = none) ∧
    ∃ s, Reachable fleeting s ∧ Unedited s.history ∧
      s.container.components.find? "a" = some 0 ∧
      (s.container.definitions.find? "a").map Definition.supplier = some false := by
  constructor
  · obtain ⟨s, reach, unedited, passes⟩ := exists_reachable fleeting 1 .full (ensure (definitionOfA true)) ()
      (fun c => c.components.find? "a" == some 0 && (c.definitions.find? "a").isNone)
      (by decide +kernel)
    obtain ⟨known, gone⟩ := Bool.and_eq_true_iff.mp passes
    exact ⟨s, reach, unedited, beq_iff_eq.mp known, Option.isNone_iff_eq_none.mp gone⟩
  · obtain ⟨s, reach, unedited, passes⟩ := exists_reachable fleeting 1 .full
      (ensure (definitionOfA true) >>= fun _ => ensure (definitionOfA false)) ()
      (fun c => c.components.find? "a" == some 0 &&
        (c.definitions.find? "a").map Definition.supplier == some false) (by decide +kernel)
    obtain ⟨known, anew⟩ := Bool.and_eq_true_iff.mp passes
    exact ⟨s, reach, unedited, beq_iff_eq.mp known, beq_iff_eq.mp anew⟩

end Container

end ComponentContainer
