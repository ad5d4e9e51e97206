/-
  File:      ComponentContainer/Proofs/Stability.lean
  Subject:   What was made once is what there is, until its definition is replaced or removed.

  * `Memory` -- the two tables that things are remembered in once they have been made: one of
    components, one of extensions. All that follows is said of either.
  * `Event.evicts` -- a definition is registered over another, or removed; `Memory.latest` -- what is
    remembered under a name according to a history.
  * `Kept` -- the tables hold what the history says, and whenever something was made, nothing was
    remembered under its name; `Course.kept` -- **every course keeps that**, for what is being made
    cannot be made again (`Course.absent`).
  * `Memoizes` -- calls that go through a memory; `Memoizes.settles` -- what follows for them.
  * `made_once_until_evicted` -- **at all moments of all runs**, for components and for extensions.
-/
import ComponentContainer.Proofs.Nesting

namespace ComponentContainer

variable {κ ι ω α : Type}

/-! ## 1. Memories -/

/-- The tables that things are remembered in once they have been made. -/
inductive Memory where
  | components
  | extensions

/-- The event takes away what was made under the name: a definition of that name is registered over
    another, or removed. -/
def Event.evicts (name : String) (past : List (Event κ ι)) : Event κ ι → Bool
  | .registered d => d.name == name && (ComponentContainer.replay past).contains name
  | .removed other => other == name
  | _ => false

/-- The event has to do with no memory. -/
def Event.isQuiet : Event κ ι → Bool
  | .registered _ => false
  | .removed _ => false
  | .madeComponent _ _ => false
  | .madeExtension _ _ => false
  | _ => true

theorem Event.isQuiet_of_isWatch {e : Event κ ι} (h : e.isWatch = true) : e.isQuiet = true := by
  cases e <;> first | rfl | cases h

/-- Among the events, latest first, there is one that takes away what was made under the name. -/
def Evicted (name : String) (events past : List (Event κ ι)) : Prop :=
  ∃ later e earlier, events = later ++ e :: earlier ∧ e.evicts name (earlier ++ past) = true

theorem not_evicted_cons {name : String} {e : Event κ ι} {events past : List (Event κ ι)}
    (h : ¬Evicted name (e :: events) past) :
    e.evicts name (events ++ past) = false ∧ ¬Evicted name events past := by
  constructor
  · by_contra evicts
    exact h ⟨[], e, events, rfl, by simpa using evicts⟩
  · rintro ⟨later, e', earlier, rfl, evicts⟩
    exact h ⟨e :: later, e', earlier, rfl, evicts⟩

theorem not_evicted {name : String} {events past : List (Event κ ι)}
    (h : ∀ e ∈ events, ∀ earlier, e.evicts name earlier = false) : ¬Evicted name events past := by
  rintro ⟨later, e, earlier, rfl, evicts⟩
  rw [h e (by simp)] at evicts
  cases evicts

namespace Memory

/-- What is remembered. -/
@[reducible] def Thing (κ ι : Type) : Memory → Type
  | .components => ι
  | .extensions => Handle κ

def entries : (M : Memory) → Container κ ι → Table (M.Thing κ ι)
  | .components => Container.components
  | .extensions => Container.extensions

/-- What has been made under the name. -/
def makes? : (M : Memory) → String → Event κ ι → Option (M.Thing κ ι)
  | .components, name, .madeComponent other value => if other = name then some value else none
  | .extensions, name, .madeExtension other handle => if other = name then some handle else none
  | _, _, _ => none

/-- **What is remembered under a name according to a history**, latest event first: what was made
    last, unless it has been taken away since. -/
def latest (M : Memory) (name : String) : List (Event κ ι) → Option (M.Thing κ ι)
  | [] => none
  | e :: past =>
    match M.makes? name e with
    | some x => some x
    | none => if e.evicts name past then none else M.latest name past

/-- Whenever something was made, nothing was remembered under its name. -/
def Anew (M : Memory) (history : List (Event κ ι)) : Prop :=
  ∀ later e past name x, history = later ++ e :: past → M.makes? name e = some x →
    M.latest name past = none

variable {M : Memory} {name : String} {e : Event κ ι} {events past : List (Event κ ι)}

/-! ## 2. What histories say -/

theorem makes?_of_isQuiet (h : e.isQuiet = true) : M.makes? name e = none := by
  cases M <;> cases e <;> first | rfl | cases h

theorem latest_cons_of_isQuiet (h : e.isQuiet = true) :
    M.latest name (e :: past) = M.latest name past := by
  have evicts : e.evicts name past = false := by cases e <;> first | rfl | cases h
  simp only [latest, makes?_of_isQuiet h, evicts, Bool.false_eq_true, if_false]

theorem latest_append_of_isQuiet (h : ∀ e ∈ events, e.isQuiet = true) :
    M.latest name (events ++ past) = M.latest name past := by
  induction events with
  | nil => rfl
  | cons e events ih =>
      obtain ⟨quiet, rest⟩ := List.forall_mem_cons.mp h
      rw [List.cons_append, latest_cons_of_isQuiet quiet, ih rest]

theorem Anew.cons (h : M.Anew past)
    (new : ∀ name x, M.makes? name e = some x → M.latest name past = none) :
    M.Anew (e :: past) := by
  intro later e' earlier name x cut makes
  cases later with
  | nil =>
      cases cut
      exact new name x makes
  | cons first later =>
      obtain ⟨-, cut⟩ := List.cons.inj cut
      exact h later e' earlier name x cut makes

theorem Anew.append_of_isQuiet (h : M.Anew past) (quiet : ∀ e ∈ events, e.isQuiet = true) :
    M.Anew (events ++ past) := by
  induction events with
  | nil => exact h
  | cons e events ih =>
      obtain ⟨now, rest⟩ := List.forall_mem_cons.mp quiet
      refine (ih rest).cons fun name x makes => ?_
      rw [makes?_of_isQuiet now] at makes
      cases makes

theorem Anew.of_suffix {history : List (Event κ ι)} (h : M.Anew history)
    (before : past <:+ history) : M.Anew past := by
  obtain ⟨events, rfl⟩ := before
  intro later e earlier name x cut makes
  exact h (events ++ later) e earlier name x (by rw [cut, List.append_assoc]) makes

/-- **What is remembered stays** as long as it is not taken away, and nothing is made under its name
    meanwhile. -/
theorem latest_stays {x : M.Thing κ ι} (anew : M.Anew (events ++ past))
    (known : M.latest name past = some x) (kept : ¬Evicted name events past) :
    M.latest name (events ++ past) = some x ∧ ∀ e ∈ events, M.makes? name e = none := by
  induction events with
  | nil => exact ⟨known, fun e he => absurd he List.not_mem_nil⟩
  | cons e events ih =>
      obtain ⟨here, before⟩ := not_evicted_cons kept
      obtain ⟨still, none_made⟩ := ih (anew.of_suffix (List.suffix_cons _ _)) before
      have quiet : M.makes? name e = none := by
        cases makes : M.makes? name e with
        | none => rfl
        | some y =>
            have absent := anew [] e (events ++ past) name y rfl makes
            rw [still] at absent
            cases absent
      refine ⟨?_, List.forall_mem_cons.mpr ⟨quiet, none_made⟩⟩
      simp only [List.cons_append, latest, quiet, here, Bool.false_eq_true, if_false, still]

/-- What is remembered and was not, has been made meanwhile. -/
theorem made_since {x : M.Thing κ ι} (absent : M.latest name past = none)
    (known : M.latest name (events ++ past) = some x) : ∃ e ∈ events, M.makes? name e = some x := by
  induction events with
  | nil =>
      rw [List.nil_append, absent] at known
      cases known
  | cons e events ih =>
      rw [List.cons_append, latest] at known
      cases makes : M.makes? name e with
      | some y =>
          rw [makes] at known
          exact ⟨e, List.mem_cons_self, makes.trans known⟩
      | none =>
          rw [makes] at known
          dsimp only at known
          split at known
          · cases known
          · obtain ⟨e', mem, made⟩ := ih known
            exact ⟨e', List.mem_cons_of_mem e mem, made⟩

/-- **Between two makings under a name it is taken away.** -/
theorem Anew.evicted_between {later between : List (Event κ ι)} {second first : Event κ ι}
    {x y : M.Thing κ ι} (anew : M.Anew (later ++ second :: (between ++ first :: past)))
    (made : M.makes? name first = some x) (again : M.makes? name second = some y) :
    Evicted name between (first :: past) := by
  by_contra kept
  have before : M.Anew (between ++ first :: past) :=
    anew.of_suffix ((List.suffix_cons _ _).trans (List.suffix_append _ _))
  have known : M.latest name (first :: past) = some x := by simp only [latest, made]
  have still := (latest_stays before known kept).1
  have absent := anew later second _ name y rfl again
  rw [still] at absent
  cases absent

end Memory

namespace Container

open Act Attempt

variable {b : Behaviour κ ι ω} {s s' t : State κ ι ω} {M : Memory} {name : String}

/-! ## 3. What the container remembers -/

/-- What is remembered in the container is what the history says, and was new when it was made. -/
structure Kept (M : Memory) (s : State κ ι ω) : Prop where
  recorded : Recorded s
  recalled : ∀ name, (M.entries s.container).find? name = M.latest name s.history
  anew : M.Anew s.history

theorem Kept.of_isQuiet (h : Kept M s) {events : List (Event κ ι)}
    (quiet : ∀ e ∈ events, e.isQuiet = true) (past : s'.history = events ++ s.history)
    (same : M.entries s'.container = M.entries s.container) (recorded : Recorded s') :
    Kept M s' where
  recorded := recorded
  recalled name := by
    rw [same, past, Memory.latest_append_of_isQuiet quiet]
    exact h.recalled name
  anew := past ▸ h.anew.append_of_isQuiet quiet

/-- One more event that has to do with no memory. -/
theorem Kept.event (h : Kept M s) {e : Event κ ι} (quiet : e.isQuiet = true)
    (past : s'.history = e :: s.history)
    (same : M.entries s'.container = M.entries s.container) (recorded : Recorded s') :
    Kept M s' :=
  h.of_isQuiet (List.forall_mem_singleton.mpr quiet) past same recorded

theorem Kept.watched (h : Kept M s) (w : Watched s s') : Kept M s' := by
  obtain ⟨events, past, watch⟩ := w.history
  refine h.of_isQuiet (fun e he => Event.isQuiet_of_isWatch (watch e he)) past ?_
    (w.recorded h.recorded)
  rw [w.container]

theorem entries_beginning : M.entries (beginning s name).container = M.entries s.container := by
  cases M <;> rfl

theorem entries_ending : M.entries (ending s name).container = M.entries s.container := by
  cases M <;> rfl

theorem Kept.beginning (h : Kept M s) : Kept M (beginning s name) :=
  h.event rfl rfl entries_beginning h.recorded

theorem Kept.supplied (h : Kept M s) {d : Definition κ} : Kept M (supplied s name d) :=
  h.event rfl rfl rfl h.recorded

theorem Kept.ending (h : Kept M s) : Kept M (ending s name) :=
  h.event rfl rfl entries_ending h.recorded

/-- A definition takes away what was made under its name exactly if there was one before. -/
theorem entries_register {c c' : Container κ ι} {d : Definition κ} (h : c.register d = .ok c') :
    M.entries c' = if c.definitions.contains d.name then (M.entries c).erase d.name
      else M.entries c := by
  unfold register at h
  split at h
  · cases h
  · split at h
    · cases h
    · split at h
      · rename_i known
        rw [if_pos known]
        split at h
        · cases h
          cases M <;> rfl
        · cases h
      · rename_i new
        rw [if_neg new]
        cases h
        cases M <;> rfl

theorem entries_remove {c c' : Container κ ι} {d : Definition κ} (h : c.remove name = .ok (d, c')) :
    M.entries c' = (M.entries c).erase name := by
  rw [remove_eq h]
  cases M <;> rfl

/-- An event at which something is taken away at most. -/
theorem Kept.evict (h : Kept M s) {e : Event κ ι} (past : s'.history = e :: s.history)
    (makes : ∀ name, M.makes? name e = none)
    (evicts : ∀ name, (M.entries s'.container).find? name =
      if e.evicts name s.history then none else (M.entries s.container).find? name)
    (recorded : Recorded s') : Kept M s' where
  recorded := recorded
  recalled name := by
    rw [evicts name, past]
    simp only [Memory.latest, makes name, h.recalled name]
  anew := by
    rw [past]
    refine h.anew.cons fun name x made => ?_
    rw [makes name] at made
    cases made

theorem Step.kept (step : Step s s') (h : Kept M s) : Kept M s' := by
  have recorded : Recorded s' := step.recorded h.recorded
  have nothing : ∀ e ∈ ([] : List (Event κ ι)), e.isQuiet = true := by simp
  cases step with
  | @registered d c registered =>
      refine h.evict rfl (fun name => by cases M <;> rfl) (fun name => ?_) recorded
      have same : replay s.history = s.container.definitions := h.recorded.symm
      show (M.entries c).find? name = _
      rw [entries_register registered]
      simp only [Event.evicts, same, Bool.and_eq_true, beq_iff_eq]
      by_cases own : d.name = name
      · subst own
        by_cases known : s.container.definitions.contains d.name = true
        · simp [known, Table.find?_erase]
        · simp [known]
      · split <;> simp [own, Table.find?_erase, Ne.symm own]
  | @removed gone d c removed =>
      refine h.evict rfl (fun name => by cases M <;> rfl) (fun name => ?_) recorded
      show (M.entries c).find? name = _
      rw [entries_remove removed]
      by_cases own : gone = name
      · subst own
        simp [Event.evicts, Table.find?_erase]
      · simp [Event.evicts, own, Table.find?_erase, Ne.symm own]
  | world w => exact h.of_isQuiet nothing rfl rfl recorded
  | numbered => exact h.of_isQuiet nothing rfl rfl recorded
  | cleared => exact h.of_isQuiet nothing rfl (by cases M <;> rfl) recorded
  | edited known => exact h.event rfl rfl (by cases M <;> rfl) recorded
  | merged new fresh => exact h.event rfl rfl (by cases M <;> rfl) recorded
  | attached e => exact h.event rfl rfl (by cases M <;> rfl) recorded
  | announced n => exact h.event rfl rfl rfl recorded
  | registryHook e => exact h.event rfl rfl rfl recorded
  | factoryHook e => exact h.event rfl rfl rfl recorded

/-! ## 4. What is being made cannot be made again -/

theorem find?_set_or (t : Table α) (x : α) (other : String) :
    (t.set name x).find? other = (if name = other then some x else none).or (t.find? other) := by
  rw [Table.find?_set]
  by_cases same : name = other
  · rw [if_pos same.symm, if_pos same, Option.some_or]
  · rw [if_neg (Ne.symm same), if_neg same, Option.none_or]

theorem entries_madeComponent (value : ι) (other : String) :
    (M.entries (madeComponent s name value).container).find? other =
      (M.makes? (κ := κ) other (.madeComponent name value)).or
        ((M.entries s.container).find? other) := by
  cases M with
  | components => exact find?_set_or _ value other
  | extensions => rfl

theorem entries_madeExtension (handle : Handle κ) (other : String) :
    (M.entries (made s name handle).container).find? other =
      (M.makes? (ι := ι) other (.madeExtension name handle)).or
        ((M.entries s.container).find? other) := by
  cases M with
  | components => rfl
  | extensions => exact find?_set_or _ handle other

theorem Step.absent (step : Step s s') (absent : (M.entries s.container).find? name = none) :
    (M.entries s'.container).find? name = none := by
  have erased (other : String) : ((M.entries s.container).erase other).find? name = none := by
    rw [Table.find?_erase, absent, ite_self]
  cases step with
  | @registered d c registered =>
      show (M.entries c).find? name = none
      rw [entries_register registered]
      split
      · exact erased d.name
      · exact absent
  | @removed gone d c removed =>
      show (M.entries c).find? name = none
      rw [entries_remove removed]
      exact erased gone
  | _ => cases M <;> exact absent

/-- **What is being made and is not remembered is not remembered afterwards**, whatever happens in
    between: another making under its name is refused. -/
theorem Course.absent (h : Course b s s') (busy : name ∈ s.container.creating)
    (absent : (M.entries s.container).find? name = none) :
    (M.entries s'.container).find? name = none := by
  have begins {s s₁ : State κ ι ω} {other : String} (w : Watched (beginning s other) s₁)
      (busy : name ∈ s.container.creating)
      (absent : (M.entries s.container).find? name = none) :
      name ∈ s₁.container.creating ∧ (M.entries s₁.container).find? name = none := by
    rw [w.container]
    refine ⟨List.mem_cons_of_mem other busy, ?_⟩
    rw [entries_beginning]
    exact absent
  induction h with
  | refl s => exact absent
  | trans first _ ih₁ ih₂ => exact ih₂ (first.creating ▸ busy) (ih₁ busy absent)
  | step step => exact step.absent absent
  | unmade idle shown =>
      rw [entries_ending]
      exact (begins shown busy absent).2
  | failed idle supplies shown supply passed ih =>
      obtain ⟨still, nothing⟩ := begins shown busy absent
      rw [entries_ending, passed.container]
      exact ih still nothing
  | @component s s₁ s₂ s₃ other m value idle new merged template kind run shown supply passed ih =>
      obtain ⟨still, nothing⟩ := begins shown busy absent
      have apart : other ≠ name := fun same => idle (same ▸ busy)
      rw [entries_madeComponent, passed.container, ih still nothing]
      cases M <;> simp [Memory.makes?, apart]
  | @extension s s₁ other d family code idle new found kind run supply ih =>
      obtain ⟨still, nothing⟩ := begins (.refl _) busy absent
      have apart : other ≠ name := fun same => idle (same ▸ busy)
      rw [entries_madeExtension, ih still nothing]
      cases M <;> simp [Memory.makes?, apart]

/-- Something has been made under a name that nothing was remembered under. -/
theorem Kept.making (h : Kept M s) {e : Event κ ι} (past : s'.history = e :: s.history)
    (evicts : ∀ name, e.evicts name s.history = false)
    (entries : ∀ name, (M.entries s'.container).find? name =
      (M.makes? name e).or ((M.entries s.container).find? name))
    (new : ∀ name x, M.makes? name e = some x → (M.entries s.container).find? name = none)
    (recorded : Recorded s') : Kept M s' where
  recorded := recorded
  recalled name := by
    rw [entries name, past, Memory.latest, h.recalled name]
    cases M.makes? name e with
    | some x => rfl
    | none => simp [evicts name]
  anew := by
    rw [past]
    refine h.anew.cons fun name x makes => ?_
    rw [← h.recalled name]
    exact new name x makes

theorem Kept.madeComponent {value : ι} (h : Kept M s)
    (new : s.container.components.find? name = none) : Kept M (madeComponent s name value) := by
  have closing : Kept M (Container.ending s name) := h.ending
  refine closing.making rfl (fun _ => rfl) (fun other => ?_) ?_ h.recorded
  · rw [entries_madeComponent, entries_ending]
  · intro other x makes
    rw [entries_ending]
    cases M with
    | components =>
        have same : name = other := by
          by_contra apart
          simp [Memory.makes?, apart] at makes
        exact same ▸ new
    | extensions => cases makes

theorem Kept.madeExtension {handle : Handle κ} (h : Kept M s)
    (new : s.container.extensions.find? name = none) : Kept M (made s name handle) := by
  have closing : Kept M (Container.ending s name) := h.ending
  have announced : Kept M { Container.ending s name with
      history := .announced (.instantiated name handle.family) ::
        (Container.ending s name).history } := closing.event rfl rfl rfl h.recorded
  refine announced.making rfl (fun _ => rfl) (fun other => ?_) ?_ h.recorded
  · rw [entries_madeExtension]
    show _ = Option.or _ ((M.entries (Container.ending s name).container).find? other)
    rw [entries_ending]
  · intro other x makes
    show (M.entries (Container.ending s name).container).find? other = none
    rw [entries_ending]
    cases M with
    | components => cases makes
    | extensions =>
        have same : name = other := by
          by_contra apart
          simp [Memory.makes?, apart] at makes
        exact same ▸ new

/-- **Every course keeps it.** The induction is on the course. When a making is over, nothing is
    remembered under its name, for nothing was in the beginning. -/
theorem Course.kept (course : Course b s s') (h : Kept M s) : Kept M s' := by
  induction course with
  | refl s => exact h
  | trans _ _ ih₁ ih₂ => exact ih₂ (ih₁ h)
  | step step => exact step.kept h
  | unmade idle shown => exact (h.beginning.watched shown).ending
  | failed idle supplies shown supply passed ih =>
      exact ((ih (h.beginning.watched shown).supplied).watched passed).ending
  | @component s s₁ s₂ s₃ name m value idle new merged template kind run shown supply passed ih =>
      have closing := (ih (h.beginning.watched shown).supplied).watched passed
      have busy : name ∈ s₁.container.creating := by
        rw [shown.container]
        exact List.mem_cons_self
      have before : s₁.container.components.find? name = none := by
        rw [shown.container]
        exact new
      have absent := Course.absent (M := .components) supply busy before
      refine closing.madeComponent ?_
      rw [passed.container]
      exact absent
  | @extension s s₁ name d family code idle new found kind run supply ih =>
      have closing := ih h.beginning.supplied
      exact closing.madeExtension (Course.absent (M := .extensions) supply List.mem_cons_self new)

/-! ## 5. At all moments -/

/-- A moment of a run from a state that a new container gets to. -/
inductive Arises (b : Behaviour κ ι ω) (t : State κ ι ω) : Prop
  | intro {s : State κ ι ω} {depth : Nat} {view : View} {α : Type} {p : FactoryProgram κ ι ω α}
      {names : List String} (reach : Reachable b s) (moment : Moment b depth view p s names t)

theorem Reachable.kept (h : Reachable b s) : Kept M s := by
  refine h.keeps (I := Kept M) (fun _ _ _ => ?_) (fun s _ _ hs => ?_) Course.kept
  · refine ⟨rfl, fun name => by cases M <;> rfl, fun later e past name x cut => ?_⟩
    exact absurd cut.symm (by simp)
  · refine ⟨hs.recorded, fun name => ?_, hs.anew⟩
    rw [← hs.recalled name]
    cases M <;> rfl

/-- **At every moment what is remembered is what the history says.** -/
theorem Arises.kept (h : Arises b t) : Kept M t := by
  obtain ⟨reach, moment⟩ := h
  exact moment.keeps (I := Kept M) Course.kept (fun w hs => hs.watched w)
    (fun hs _ => hs.beginning) (fun _ _ _ hs => hs.supplied) reach.kept

/-! ## 6. Calls that go through a memory -/

/-- The calls for a name go through the memory: what they yield is remembered, what is remembered is
    what they yield, at once and with no effect; and if they fail, nothing is remembered that was
    not remembered before. -/
structure Memoizes {γ : Type} (b : Behaviour κ ι ω) (M : Memory) (name : String)
    (call : γ → Act κ ι ω (Except Failure (M.Thing κ ι))) : Prop where
  course : ∀ {i s r s'}, call i s = some (r, s') → Course b s s'
  stored : ∀ {i s x s'}, call i s = some (.ok x, s') → (M.entries s'.container).find? name = some x
  known : ∀ {s x}, (M.entries s.container).find? name = some x →
    ∀ i, ∃ r, call i s = some (r, s) ∧ ∀ y, r = .ok y → y = x
  missed : ∀ {i s failure s'}, (M.entries s.container).find? name = none →
    call i s = some (.error failure, s') → (M.entries s'.container).find? name = none

theorem components_mergedDefinition {r : Except Failure (MergedDefinition κ)}
    (h : outcome (mergedDefinition name) s = some (r, s')) :
    s'.container.components = s.container.components := by
  rcases mergedDefinition_cases h with ⟨_, -, -, rfl⟩ | ⟨_, -, -, rfl⟩ | ⟨_, -, -, -, rfl⟩ <;> rfl

/-- While a component is made, none is remembered under its name. -/
theorem create_absent {depth : Nat} {m : MergedDefinition κ} {r : Except Failure ι}
    (h : outcome (create b (nested b depth .full) name m) (beginning s name) = some (r, s'))
    (new : s.container.components.find? name = none) :
    s'.container.components.find? name = none := by
  obtain ⟨-, shown⟩ | ⟨s₁, s₂, o, shown, run, passed⟩ := create_cases h
  · rw [shown.container]
    exact new
  · have busy : name ∈ s₁.container.creating := by
      rw [shown.container]
      exact List.mem_cons_self
    have before : s₁.container.components.find? name = none := by
      rw [shown.container]
      exact new
    rw [passed.container]
    exact Course.absent (M := .components) (nested_course _ _ _ _ run) busy before

theorem components_memoize (b : Behaviour κ ι ω) (name : String) :
    Memoizes b .components name fun (i : Nat × View) => serve b i.1 i.2 (.component name) where
  course h := serve_course _ _ _ _ h
  stored := by
    intro i s x s' h
    rw [serve_component] at h
    show s'.container.components.find? name = some x
    cases known : s.container.components.find? name with
    | some value =>
        rw [outcome_component_known known] at h
        cases h
        exact known
    | none =>
        obtain ⟨failure, merged, refused, -⟩ | ⟨m, s₁, makes⟩ := component_new_cases known h
        · cases refused
        · rw [outcome_component_made makes] at h
          rcases run : outcome (create b (nested b i.1 .full) name m) (beginning s₁ name) with
            _ | ⟨failure | value, s₂⟩ <;> rw [run] at h <;> cases h
          exact (Table.find?_set _ _ _ _).trans (if_pos rfl)
  known := by
    intro s x known i
    refine ⟨.ok x, ?_, fun y h => by cases h; rfl⟩
    rw [serve_component]
    exact outcome_component_known known
  missed := by
    intro i s failure s' absent h
    rw [serve_component] at h
    show s'.container.components.find? name = none
    obtain ⟨failure, merged, -, run⟩ | ⟨m, s₁, makes⟩ := component_new_cases absent h
    · rw [components_mergedDefinition run]
      exact absent
    · have before : s₁.container.components.find? name = none := by
        rw [components_mergedDefinition makes.merged]
        exact absent
      rw [outcome_component_made makes] at h
      rcases run : outcome (create b (nested b i.1 .full) name m) (beginning s₁ name) with
        _ | ⟨failure | value, s₂⟩ <;> rw [run] at h <;> cases h
      have during : s₂.container.components.find? name = none := create_absent run before
      exact during

/-- A request for an extension that is remembered has no effect, even if it is refused. -/
theorem outcome_extension_remembered {exec : Exec κ ι ω} {handle : Handle κ}
    (known : s.container.extensions.find? name = some handle) (expected : Capability) :
    ∃ r, outcome (Container.extension b exec name expected) s = some (r, s) ∧
      ∀ other, r = .ok other → other = handle := by
  rw [Container.extension, outcome_perform_bind (run_container s)]
  cases found : s.container.definitions.find? name with
  | none => exact ⟨_, rfl, fun other h => by cases h⟩
  | some d =>
      cases declares : d.declares expected with
      | false =>
          simp only [declares]
          exact ⟨_, rfl, fun other h => by cases h⟩
      | true =>
          simp only [declares, known]
          exact ⟨.ok handle, rfl, fun other h => by cases h; rfl⟩

theorem extensions_memoize (b : Behaviour κ ι ω) (name : String) :
    Memoizes b .extensions name fun (i : Nat × View × Capability) =>
      serve b i.1 i.2.1 (.extension name i.2.2) where
  course h := serve_course _ _ _ _ h
  stored := by
    intro i s x s' h
    rw [serve_extension] at h
    show s'.container.extensions.find? name = some x
    cases extension_cases h with
    | known found declares known => exact known
    | made idle new found declares kind run => exact (Table.find?_set _ _ _ _).trans (if_pos rfl)
  known := by
    intro s x known i
    simp only [serve_extension]
    exact outcome_extension_remembered known i.2.2
  missed := by
    intro i s failure s' absent h
    rw [serve_extension] at h
    show s'.container.extensions.find? name = none
    cases extension_cases h with
    | refused failure => exact absent
    | unfit idle => exact absent
    | failed idle new found kind run =>
        have course := nested_course _ _ _ _ run
        have during := Course.absent (M := .extensions) course List.mem_cons_self absent
        exact during

/-! ## 7. Once made, what there is -/

/-- **What there is under a name is what was made there first since it was last taken away**, as far
    as the calls are concerned. -/
structure Settles {γ : Type} (b : Behaviour κ ι ω) (M : Memory) (name : String)
    (call : γ → Act κ ι ω (Except Failure (M.Thing κ ι))) : Prop where
  /-- At every moment that is remembered which was made last, unless it has been taken away. -/
  recalled : ∀ {t : State κ ι ω}, Arises b t →
    (M.entries t.container).find? name = M.latest name t.history
  /-- After a call that has yielded something, every call at a later moment has no effect at all and
      yields the same if it yields anything, unless it has been taken away in between. -/
  stable : ∀ {t t' u : State κ ι ω} {i x events}, Arises b t → call i t = some (.ok x, t') →
    Arises b u → u.history = events ++ t'.history → ¬Evicted name events t'.history →
    ∀ j, ∃ r, call j u = some (r, u) ∧ ∀ y, r = .ok y → y = x
  /-- After a call that has failed in the making, nothing is remembered; and what a call at a later
      moment yields was made after the failure. -/
  failed : ∀ {t t' : State κ ι ω} {i failure events}, Arises b t →
    call i t = some (.error failure, t') → t'.history = events ++ t.history →
    .began name ∈ events →
    (M.entries t'.container).find? name = none ∧
      ∀ {u u' : State κ ι ω} {j y since}, Arises b u → u.history = since ++ t'.history →
        call j u = some (.ok y, u') →
        ∃ since', u'.history = since' ++ t'.history ∧ ∃ e ∈ since', M.makes? name e = some y
  /-- Of two makings, what the first has made was taken away before the second was over. -/
  once : ∀ {t : State κ ι ω} {later second between first past x y}, Arises b t →
    t.history = later ++ second :: (between ++ first :: past) →
    M.makes? name first = some x → M.makes? name second = some y →
    Evicted name between (first :: past)

/-- **Calls that go through a memory settle.** -/
theorem Memoizes.settles {γ : Type} {call : γ → Act κ ι ω (Except Failure (M.Thing κ ι))}
    (memoizes : Memoizes b M name call) : Settles b M name call where
  recalled moment := moment.kept.recalled name
  stable := by
    intro t t' u i x events moment yields later past kept j
    have after : Kept M t' := (memoizes.course yields).kept moment.kept
    have known : M.latest name t'.history = some x := by
      rw [← after.recalled name]
      exact memoizes.stored yields
    have now : Kept M u := later.kept
    have still := (Memory.latest_stays (past ▸ now.anew) known kept).1
    refine memoizes.known ?_ j
    rw [now.recalled name, past]
    exact still
  failed := by
    intro t t' i failure events moment fails past began
    have absent : (M.entries t'.container).find? name = none := by
      cases known : (M.entries t.container).find? name with
      | none => exact memoizes.missed known fails
      | some x =>
          -- a call for what is remembered has no effect, so that no making has begun
          obtain ⟨r, same, -⟩ := memoizes.known known i
          rw [same] at fails
          cases fails
          have none_new : events = [] := List.append_left_eq_self.mp past.symm
          rw [none_new] at began
          cases began
    refine ⟨absent, fun {u u' j y since} later past yields => ?_⟩
    have course := memoizes.course yields
    have after : Kept M t' := (memoizes.course fails).kept moment.kept
    have now : Kept M u' := course.kept later.kept
    obtain ⟨more, meanwhile⟩ := course.past
    have extended : u'.history = (more ++ since) ++ t'.history := by
      rw [← meanwhile, past, List.append_assoc]
    have known : M.latest name ((more ++ since) ++ t'.history) = some y := by
      rw [← extended, ← now.recalled name]
      exact memoizes.stored yields
    refine ⟨more ++ since, extended, Memory.made_since ?_ known⟩
    rw [← after.recalled name]
    exact absent
  once moment cut made again := (cut ▸ moment.kept.anew).evicted_between made again

/-- **What was made once is what there is until its definition is replaced or removed**, whatever
    suppliers and hooks do, at all moments of all runs: for the requests for a component, and for the
    requests for an extension. -/
theorem made_once_until_evicted (b : Behaviour κ ι ω) (name : String) :
    (Settles b .components name fun (i : Nat × View) => serve b i.1 i.2 (.component name)) ∧
      Settles b .extensions name fun (i : Nat × View × Capability) =>
        serve b i.1 i.2.1 (.extension name i.2.2) :=
  ⟨(components_memoize b name).settles, (extensions_memoize b name).settles⟩

/-- The behaviour where the world counts how often suppliers have run; the first time they fail. -/
def moody : Behaviour Bool Nat Nat where
  name _ := ""
  supply _ := .ask (.registry (.world (· + 1))) fun count =>
    .done (if count = 0 then .error (.creationFailed "a" "too early") else .ok count)
  build code := .done (.ok code)
  onRegistry _ := .done (.ok ())
  onFactory _ := .done (.ok ())
  mergedAware _ := false
  onMerged _ _ _ world := (.ok (), world)
  before _ value _ world := (.ok value, world)
  after _ value _ world := (.ok value, world)

def registration (d : Definition Bool) : FactoryProgram Bool Nat Nat (Except Failure Unit) :=
  Program.request (I := factoryInterface _ _ _) (.registry (.register d))

def requestOfA : FactoryProgram Bool Nat Nat (Except Failure Nat) :=
  Program.request (I := factoryInterface _ _ _) (.component "a")

/-- Another definition. -/
def definitionOfB : Definition Bool := { definitionOfA false with name := "b" }

/-- The state that an act leads to; the same state if it has no end. -/
def after (act : Act κ ι ω α) (s : State κ ι ω) : State κ ι ω := (act s).elim s Prod.snd

def askForA : Act Bool Nat Nat (Except Failure Nat) := serve moody 1 .full (.component "a")

/-- The definition of "a" is registered, "a" is asked for twice, and another definition is
    registered. -/
def stocked : State Bool Nat Nat := after (run moody 0 .full (registration (definitionOfA false)))
  { world := 0 }

def refused : State Bool Nat Nat := after askForA stocked

def settled : State Bool Nat Nat := after askForA refused

def extended : State Bool Nat Nat := after (run moody 0 .full (registration definitionOfB)) settled

/-- The first call for "a" fails and leaves nothing behind; the second yields the count; the third
    yields the same and counts no more. -/
theorem moody_settles :
    askForA stocked = some (.error (.creationFailed "a" "too early"), refused) ∧
      refused.container.components.find? "a" = none ∧ askForA refused = some (.ok 1, settled) ∧
      ∃ r, askForA extended = some (r, extended) ∧ ∀ y, r = .ok y → y = 1 := by
  obtain ⟨settles, -⟩ := made_once_until_evicted moody "a"
  -- a state between two runs is the only moment of the run that asks for nothing
  have arises {s : State Bool Nat Nat} (reach : Reachable moody s) : Arises moody s :=
    .intro reach (@Moment.now _ _ _ moody 0 .full Unit (.done ()) s)
  have stocks : run moody 0 .full (registration (definitionOfA false)) { world := 0 } =
      some (.ok (), stocked) := rfl
  have asks : run moody 1 .full requestOfA stocked =
      some (.error (.creationFailed "a" "too early"), refused) := rfl
  have again : run moody 1 .full requestOfA refused = some (.ok 1, settled) := rfl
  have extends_it : run moody 0 .full (registration definitionOfB) settled =
      some (.ok (), extended) := rfl
  have at_stocked : Reachable moody stocked := (Reachable.new true none 0).run stocks
  have at_refused : Reachable moody refused := at_stocked.run asks
  have at_extended : Reachable moody extended := (at_refused.run again).run extends_it
  have fails : askForA stocked = some (.error (.creationFailed "a" "too early"), refused) := rfl
  have failing : refused.history =
      [.ended "a", .supplied "a" (definitionOfA false), .began "a", .merged "a"] ++
        stocked.history := rfl
  have yields : askForA refused = some (.ok 1, settled) := rfl
  have later : extended.history =
      [.registered definitionOfB, .announced (.registering "b" .component)] ++ settled.history := rfl
  have kept : ¬Evicted "a" [.registered definitionOfB, .announced (.registering "b" .component)]
      settled.history := by
    refine not_evicted fun e mem past => ?_
    rcases List.mem_pair.mp mem with rfl | rfl <;> rfl
  refine ⟨fails, ?_, yields, ?_⟩
  · exact (settles.failed (i := (1, .full)) (arises at_stocked) fails failing (by simp)).1
  · exact settles.stable (i := (1, .full)) (arises at_refused) yields (arises at_extended) later
      kept (1, .full)

end Container

end ComponentContainer
