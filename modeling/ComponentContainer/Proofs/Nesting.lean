/-
  File:      ComponentContainer/Proofs/Nesting.lean
  Subject:   What is being made, at every moment.

  * `Course.creating` -- whatever a request or a program does, afterwards the same names are being
    made as before.
  * `Moment.creating` -- at every moment these are the names of the calls that have not returned, on
    top of those from before.
  * `Since` -- the names that are registered were registered before, or by what has happened since;
    `Moment.known` -- so were the names that are being made.
  * `opening` -- the state in which the supplier of a component begins, computed.
  * `creating_is_call_stack` -- **the names being made are those of the makings under way**, and so
    nothing is taken for being made that is not.
-/
import ComponentContainer.Proofs.Caches
import ComponentContainer.Proofs.Moments
import Mathlib.Data.List.Dedup
import Mathlib.Data.List.Perm.Subperm

namespace ComponentContainer

variable {κ ι ω α β : Type}

/-! ## 1. The names that are registered -/

/-- The name that an event registers a definition under. -/
def registeredName? : Event κ ι → Option String
  | .registered d => some d.name
  | _ => none

/-- The names that definitions were registered under. -/
def registeredNames (events : List (Event κ ι)) : List String := events.filterMap registeredName?

/-- A name that is registered after some events was registered before them, or by them. -/
theorem mem_keys_replay {name : String} {events history : List (Event κ ι)}
    (h : name ∈ (replay (events ++ history)).keys) :
    name ∈ (replay history).keys ∨ name ∈ registeredNames events := by
  induction events with
  | nil => exact .inl h
  | cons e events ih =>
      have before : name ∈ (replay (events ++ history)).keys →
          name ∈ (replay history).keys ∨ name ∈ registeredNames (e :: events) :=
        fun h => (ih h).imp_right fun h => (List.sublist_cons_self e events).filterMap _ |>.subset h
      replace h : name ∈ (e.replay (replay (events ++ history))).keys := h
      cases e with
      | registered d =>
          replace h : name ∈ (Table.set _ d.name d).keys := h
          rw [Table.keys_set] at h
          split at h
          · exact before h
          · rcases List.mem_append.mp h with h | h
            · exact before h
            · rw [List.mem_singleton.mp h]
              exact .inr List.mem_cons_self
      | removed name' =>
          replace h : name ∈ (Table.erase _ name').keys := h
          rw [Table.keys_erase] at h
          exact before (List.mem_of_mem_filter h)
      | edited name' change =>
          replace h : name ∈ (Table.modify _ name' change).keys := h
          rw [Table.keys_modify] at h
          exact before h
      | _ => exact before h

theorem mem_keys_of_find? {α : Type} {t : Table α} {name : String} {value : α}
    (h : t.find? name = some value) : name ∈ t.keys :=
  (t.contains_iff_mem_keys name).mp (by rw [Table.contains, h]; rfl)

/-- No merged definition is remembered under a name that is not registered. -/
def Listed (s : State κ ι ω) : Prop :=
  ∀ name m, s.container.merged.find? name = some m → name ∈ s.container.definitions.keys

theorem Watched.listed {s s' : State κ ι ω} (h : Watched s s') (hs : Listed s) : Listed s' := by
  unfold Listed
  rw [h.container]
  exact hs

namespace Container

open Act Attempt

variable {b : Behaviour κ ι ω} {s s' s'' t : State κ ι ω}

/-! ## 2. Before and after -/

theorem creating_register {c c' : Container κ ι} {d : Definition κ} (h : c.register d = .ok c') :
    c'.creating = c.creating := by
  rcases register_cases h with ⟨_, rfl⟩ | rfl <;> rfl

theorem Step.creating (h : Step s s') : s'.container.creating = s.container.creating := by
  cases h with
  | registered h => exact creating_register h
  | @removed name d c h =>
      show c.creating = _
      rw [remove_eq h]
      rfl
  | _ => rfl

/-- The name on top is taken back when its making is over. -/
theorem creating_ending {name : String} {creating : List String}
    (h : s.container.creating = name :: creating) :
    (ending s name).container.creating = creating := by
  show s.container.creating.erase name = _
  rw [h, List.erase_cons_head]

/-- **Whatever happens, afterwards the same names are being made as before.** The induction is on
    the course; a making takes back the name that it has put on top. -/
theorem Course.creating (h : Course b s s') : s'.container.creating = s.container.creating := by
  induction h with
  | refl s => rfl
  | trans _ _ ih₁ ih₂ => exact ih₂.trans ih₁
  | step h => exact h.creating
  | unmade _ shown => exact creating_ending (congrArg Container.creating shown.container)
  | @failed s s₁ s₂ s₃ name d _ _ shown _ passed ih =>
      have top : s₃.container.creating = name :: s.container.creating := by
        rw [passed.container, ih]
        exact congrArg Container.creating shown.container
      exact creating_ending top
  | @component s s₁ s₂ s₃ name m value _ _ _ _ _ _ shown _ passed ih =>
      have top : s₃.container.creating = name :: s.container.creating := by
        rw [passed.container, ih]
        exact congrArg Container.creating shown.container
      exact creating_ending top
  | @extension s s₁ name d family code _ _ _ _ _ _ ih =>
      have top : s₁.container.creating = name :: s.container.creating := ih
      exact creating_ending top

/-! ## 3. In the midst -/

theorem Enters.creating {view view' : View} {r : Request κ ι ω} {names : List String}
    {p : FactoryProgram κ ι ω α} (h : Enters b view r s names view' p s') :
    s'.container.creating = names ++ s.container.creating := by
  cases h with
  | component makes shown =>
      refine (congrArg Container.creating (showTo_watches _ shown).container).trans ?_
      exact congrArg (_ :: ·) (mergedDefinition_course (b := b) makes.merged).creating
  | extension builds => rfl
  | factoryHook body => rfl

theorem Enters.idle {view view' : View} {r : Request κ ι ω} {names : List String}
    {p : FactoryProgram κ ι ω α} (h : Enters b view r s names view' p s') :
    names.Nodup ∧ ∀ n ∈ names, n ∉ s.container.creating := by
  cases h with
  | @component name m s s₁ s₂ makes shown =>
      refine ⟨List.nodup_singleton _, fun n hn => ?_⟩
      rw [List.mem_singleton.mp hn, ← (mergedDefinition_course (b := b) makes.merged).creating]
      exact makes.idle
  | extension builds =>
      refine ⟨List.nodup_singleton _, fun n hn => ?_⟩
      rw [List.mem_singleton.mp hn]
      exact builds.idle
  | factoryHook body => exact ⟨List.nodup_nil, fun _ hn => absurd hn List.not_mem_nil⟩

theorem Hooked.creating {depth : Nat} {name : String} (h : Hooked b depth name s t) :
    t.container.creating = name :: s.container.creating ∧ name ∉ s.container.creating := by
  have begun : ∀ {m s₁}, Makes s name m s₁ →
      (beginning s₁ name).container.creating = name :: s.container.creating ∧
        name ∉ s.container.creating := by
    intro m s₁ makes
    have same := (mergedDefinition_course (b := b) makes.merged).creating
    exact ⟨congrArg (name :: ·) same, same ▸ makes.idle⟩
  cases h with
  | merged makes part run =>
      rw [(showTo_watches _ run).container]
      exact begun makes
  | before makes shown supply part run =>
      rw [(passBefore_watches _ _ _ run).container, (nested_course _ _ _ _ supply).creating]
      exact (congrArg Container.creating (showTo_watches _ shown).container) ▸ begun makes
  | after makes shown supply before part run =>
      rw [(passAfter_watches _ _ _ run).container, (passBefore_watches _ _ _ before).container,
        (nested_course _ _ _ _ supply).creating]
      exact (congrArg Container.creating (showTo_watches _ shown).container) ▸ begun makes

/-- **At every moment the names being made are those of the calls that have not returned**, on top of
    those that were being made at the start. -/
theorem Moment.creating {depth : Nat} {view : View} {p : FactoryProgram κ ι ω α}
    {names : List String} (h : Moment b depth view p s names t) :
    t.container.creating = names ++ s.container.creating ∧ names.Nodup ∧
      ∀ n ∈ names, n ∉ s.container.creating := by
  induction h with
  | now p s => exact ⟨rfl, List.nodup_nil, fun _ hn => absurd hn List.not_mem_nil⟩
  | later answered rest ih => exact (serve_course _ _ _ _ answered).creating ▸ ih
  | within enters rest ih =>
      obtain ⟨top, distinct, idle⟩ := ih
      obtain ⟨distinct', idle'⟩ := enters.idle
      rw [enters.creating] at top idle
      refine ⟨by rw [top, List.append_assoc], ?_, fun n hn => ?_⟩
      · rw [List.nodup_append]
        refine ⟨distinct, distinct', ?_⟩
        rintro n hn _ hn' rfl
        exact idle n hn (List.mem_append_left _ hn')
      · rcases List.mem_append.mp hn with hn | hn
        · exact fun hs => idle n hn (List.mem_append_right _ hs)
        · exact idle' n hn
  | registryHook body rest ih => exact ih
  | hooked hooked =>
      obtain ⟨top, idle⟩ := hooked.creating
      refine ⟨top, List.nodup_singleton _, fun n hn => ?_⟩
      rw [List.mem_singleton.mp hn]
      exact idle

/-! ## 4. The names that are registered, after a while -/

/-- Between the two states there was a definition of that name. -/
def Known (s t : State κ ι ω) (name : String) : Prop :=
  ∃ events, t.history = events ++ s.history ∧
    (name ∈ s.container.definitions.keys ∨ name ∈ registeredNames events)

theorem Known.later {name : String} (h : Known s s' name) (past : s'.history <:+ t.history) :
    Known s t name := by
  obtain ⟨events, he, known⟩ := h
  obtain ⟨events', he'⟩ := past
  refine ⟨events' ++ events, by rw [← he', he, List.append_assoc], known.imp_right fun h => ?_⟩
  exact (List.sublist_append_right events' events).filterMap _ |>.subset h

theorem known_of_registered {name : String} (hs : Recorded s) (ht : Recorded t)
    (past : s.history <:+ t.history) (h : name ∈ t.container.definitions.keys) :
    Known s t name := by
  obtain ⟨events, he⟩ := past
  refine ⟨events, he.symm, ?_⟩
  rw [ht, ← he] at h
  rw [hs]
  exact mem_keys_replay h

theorem Step.listed (h : Step s s') (hs : Listed s) : Listed s' := by
  cases h with
  | @registered d c h =>
      have grows : ∀ name, name ∈ s.container.definitions.keys → name ∈ c.definitions.keys := by
        intro name hn
        rw [definitions_register h, Table.keys_set]
        split
        · exact hn
        · exact List.mem_append_left _ hn
      intro name m hm
      rcases register_cases h with ⟨_, hc⟩ | hc
      · refine grows name (hs name m ?_)
        rw [hc] at hm
        exact hm
      · rw [hc] at hm
        exact grows name (hs name m (Table.find?_erase_eq_some.mp hm).2)
  | removed h =>
      intro name m hm
      rw [remove_eq h] at hm ⊢
      obtain ⟨hne, hm⟩ := Table.find?_erase_eq_some.mp hm
      show name ∈ (Table.erase _ _).keys
      rw [Table.keys_erase]
      exact List.mem_filter.mpr ⟨hs name m hm, decide_eq_true hne⟩
  | edited h =>
      intro name m hm
      show name ∈ (Table.modify _ _ _).keys
      rw [Table.keys_modify]
      exact hs name m hm
  | merged new h =>
      intro other m hm
      rw [Table.find?_set] at hm
      split at hm
      · rename_i same
        obtain ⟨d, found, _⟩ := freshMerge_ok h
        show other ∈ s.container.definitions.keys
        rw [same]
        exact mem_keys_of_find? found
      · exact hs other m hm
  | cleared => exact fun _ _ hm => nomatch hm
  | _ => exact hs

theorem Course.listed (h : Course b s s') (hs : Listed s) : Listed s' := by
  induction h with
  | refl s => exact hs
  | trans _ _ ih₁ ih₂ => exact ih₂ (ih₁ hs)
  | step h => exact h.listed hs
  | unmade _ shown => exact shown.listed hs
  | failed _ _ shown _ passed ih => exact passed.listed (ih (shown.listed hs))
  | component _ _ _ _ _ _ shown _ passed ih =>
      exact passed.listed (ih (shown.listed hs))
  | extension _ _ _ _ _ _ ih => exact ih hs

/-! ## 5. What is being made has a definition -/

/-- What is made under a name has a definition. -/
theorem Supplies.registered {name : String} {d : Definition κ} (h : Supplies s name d)
    (hs : Listed s) : name ∈ s.container.definitions.keys := by
  cases h with
  | component new merged template kind => exact hs name _ merged
  | extension new found kind => exact mem_keys_of_find? found

/-- The state has come from `s`, and what is being made in it had a definition in between, unless
    it was being made already. -/
structure Traced (s t : State κ ι ω) : Prop where
  past : s.history <:+ t.history
  recorded : Recorded t
  listed : Listed t
  making : ∀ name ∈ t.container.creating, name ∈ s.container.creating ∨ Known s t name

theorem Traced.of_same (h : Traced s s') (recorded : Recorded t) (listed : Listed t)
    (creating : t.container.creating = s'.container.creating)
    (past : s'.history <:+ t.history) : Traced s t := by
  refine ⟨h.past.trans past, recorded, listed, fun name hn => ?_⟩
  rw [creating] at hn
  exact (h.making name hn).imp_right fun known => known.later past

/-- **What is being made at a moment had a definition by then**, unless it was being made at the
    start. -/
theorem Moment.traced {depth : Nat} {view : View} {p : FactoryProgram κ ι ω α}
    {names : List String} (h : Moment b depth view p s names t) (recorded : Recorded s)
    (listed : Listed s) : Traced s t := by
  refine h.keeps (I := Traced s) ?_ ?_ ?_ ?_
    ⟨List.suffix_refl _, recorded, listed, fun name hn => .inl hn⟩
  · intro t t' course ht
    exact ht.of_same (course.recorded ht.recorded) (course.listed ht.listed) course.creating
      course.past
  · intro t t' watched ht
    exact ht.of_same (watched.recorded ht.recorded) (watched.listed ht.listed)
      (congrArg Container.creating watched.container) watched.past
  · intro t name d ht supplies
    have past : t.history <:+ (beginning t name).history := List.suffix_cons _ _
    refine ⟨ht.past.trans past, ht.recorded, ht.listed, fun other hother => ?_⟩
    rcases List.mem_cons.mp hother with rfl | hother
    · right
      exact (known_of_registered recorded ht.recorded ht.past
        (supplies.registered ht.listed)).later past
    · exact (ht.making other hother).imp_right fun known => known.later past
  · intro t t₁ name d _ _ _ ht
    exact ht.of_same ht.recorded ht.listed rfl (List.suffix_cons _ _)

/-- Distinct names that are known are no more than the distinct names that were registered. -/
theorem length_le_of_known {names : List String} {events : List (Event κ ι)}
    (distinct : names.Nodup) (past : t.history = events ++ s.history)
    (known : ∀ name ∈ names, Known s t name) :
    names.length ≤ (s.container.definitions.keys ++ registeredNames events).dedup.length := by
  refine (distinct.subperm fun name hn => List.mem_dedup.mpr ?_).length_le
  obtain ⟨events', he, known⟩ := known name hn
  have same : events' = events := List.append_cancel_right (he.symm.trans past)
  rw [same] at known
  exact List.mem_append.mpr known

/-! ## 6. From the outside -/

/-- **A law that new containers have and courses keep** holds wherever a new container gets to. -/
theorem Reachable.keeps {I : State κ ι ω → Prop}
    (new : ∀ overriding comparator world, I { container := { overriding, comparator }, world })
    (configured : ∀ (s : State κ ι ω) overriding comparator, I s →
      I { s with container := { s.container with overriding, comparator } })
    (course : ∀ {s s' : State κ ι ω}, Course b s s' → I s → I s') (h : Reachable b s) : I s := by
  induction h with
  | new overriding comparator world => exact new overriding comparator world
  | configured _ overriding comparator ih => exact configured _ overriding comparator ih
  | run _ hrun ih => exact course (run_course _ _ _ _ hrun) ih

theorem Reachable.recorded (h : Reachable b s) : Recorded s :=
  h.keeps (I := Recorded) (fun _ _ _ => rfl) (fun _ _ _ hs => hs) Course.recorded

theorem Reachable.listed (h : Reachable b s) : Listed s :=
  h.keeps (I := Listed) (fun _ _ _ _ _ hm => nomatch hm) (fun _ _ _ hs => hs) Course.listed

/-- Between two requests from outside nothing is being made. -/
theorem Reachable.creating (h : Reachable b s) : s.container.creating = [] :=
  h.keeps (I := fun s => s.container.creating = []) (fun _ _ _ => rfl) (fun _ _ _ hs => hs)
    fun course hs => course.creating.trans hs

/-- **The names being made are those of the makings under way**, whatever suppliers and hooks do.
    After a run, and after a refresh, the same names are being made as before. At every moment of a
    run these are the names of the makings under way, all distinct, on top of those from before;
    and the programs that moments go into are those that are run. So from the outside nothing is
    being made; what is not under way can always be made, also after a failure; and makings nest no
    deeper than there are names that were registered by then. -/
theorem creating_is_call_stack (b : Behaviour κ ι ω) (s : State κ ι ω) :
    (∀ depth view (p : FactoryProgram κ ι ω α) a s', run b depth view p s = some (a, s') →
      s'.container.creating = s.container.creating) ∧
    (∀ patience depth times c r s', Context.refresh ⟨b, patience, depth⟩ times c s = some (r, s') →
      s'.container.creating = s.container.creating) ∧
    (∀ depth view, RunsEntered b depth view) ∧
    ∀ depth view (p : FactoryProgram κ ι ω α) names t, Moment b depth view p s names t →
      (t.container.creating = names ++ s.container.creating ∧ names.Nodup ∧
        ∀ name ∈ names, name ∉ s.container.creating) ∧
      (Reachable b s → t.container.creating = names ∧
        (∀ name {β : Type} (attempt : Attempt κ ι ω β), outcome (whileCreating name attempt) t =
          if name ∈ names then some (.error (.circularReference name), t)
          else match outcome attempt (beginning t name) with
            | none => none
            | some (made, t') => some (made, ending t' name)) ∧
        ∃ events, t.history = events ++ s.history ∧
          names.length ≤ (s.container.definitions.keys ++ registeredNames events).dedup.length) := by
  refine ⟨?_, ?_, runsEntered b, ?_⟩
  · intro depth view p a s' h
    exact (run_course depth view p s h).creating
  · intro patience depth times c r s' h
    exact (refresh_runs h).course.creating
  · intro depth view p names t h
    have stack := h.creating
    refine ⟨stack, fun reach => ?_⟩
    have traced := h.traced reach.recorded reach.listed
    have creating : t.container.creating = names := by
      rw [stack.1, reach.creating, List.append_nil]
    refine ⟨creating, fun name β attempt => ?_, ?_⟩
    · by_cases busy : name ∈ names
      · rw [if_pos busy, outcome_whileCreating_busy (creating ▸ busy)]
      · rewrite [if_neg busy, outcome_whileCreating (creating ▸ busy)]
        rfl
    · obtain ⟨events, past⟩ := traced.past
      refine ⟨events, past.symm, length_le_of_known stack.2.1 past.symm fun name hn => ?_⟩
      rcases traced.making name (creating ▸ hn) with busy | known
      · rw [reach.creating] at busy
        exact absurd busy List.not_mem_nil
      · exact known

/-- The state in which the supplier of a component begins, together with the merged definition that
    it belongs to; if the request for the component gets so far. -/
def opening (b : Behaviour κ ι ω) (name : String) (s : State κ ι ω) :
    Option (MergedDefinition κ × State κ ι ω) :=
  match s.container.components.find? name, outcome (mergedDefinition name) s with
  | none, some (.ok m, s₁) =>
    if m.definition.template = false ∧ m.definition.kind = .component ∧
        name ∉ s₁.container.creating then
      match outcome (showTo b name m (aware b (beginning s₁ name))) (beginning s₁ name) with
      | some (.ok (), s₂) => some (m, supplied s₂ name m.definition)
      | _ => none
    else none
  | _, _ => none

theorem enters_of_opening {name : String} {m : MergedDefinition κ} {view : View}
    (h : opening b name s = some (m, t)) :
    Enters b view (.component name) s [name] .full (b.supply m.definition.supplier) t := by
  unfold opening at h
  split at h
  · rename_i m' s₁ new merged
    split at h
    · rename_i fit
      obtain ⟨template, kind, idle⟩ := fit
      split at h
      · rename_i s₂ shown
        cases h
        exact .component ⟨new, merged, template, kind, idle⟩ shown
      · cases h
    · cases h
  · cases h

/-- A run of a new container reaches a state that passes the test. -/
theorem exists_reached (b : Behaviour κ ι ω) (depth : Nat) (view : View) (p : FactoryProgram κ ι ω α)
    (world : ω) (test : State κ ι ω → Bool)
    (h : (run b depth view p { world }).any (fun r => test r.2) = true) :
    ∃ s, Reachable b s ∧ test s = true := by
  obtain ⟨⟨a, s⟩, hrun, passes⟩ := (Option.any_eq_true _ _).mp h
  exact ⟨s, .run (.new true none world) hrun, passes⟩

/-- A request for the order service of the shop. -/
def serviceRequest : FactoryProgram Demo.Code Demo.Product Unit (Except Failure Demo.Product) :=
  Program.request (I := factoryInterface _ _ _) (.component "orderService")

/-- A shop that opens: while the order service is made, the data source is. -/
theorem shop_creating_is_call_stack :
    ∃ s s' r c s'' t, Reachable (Demo.behaviour "db") s ∧
      run (Demo.behaviour "db") 2 .full serviceRequest s = some (r, s') ∧
      s'.container.creating = s.container.creating ∧
      Context.refresh ⟨Demo.behaviour "db", 16, 16⟩ ⟨"", ""⟩ { id := "shop" } s = some (c, s'') ∧
      s''.container.creating = s.container.creating ∧
      Moment (Demo.behaviour "db") 2 .full serviceRequest s ["dataSource", "orderService"] t ∧
      t.container.creating = ["dataSource", "orderService"] ∧
      ∃ events, t.history = events ++ s.history ∧
        2 ≤ (s.container.definitions.keys ++ registeredNames events).dedup.length := by
  obtain ⟨s, reach, passes⟩ := exists_reached (Demo.behaviour "db") 0 .full
    (Demo.definitions.forM Plan.register).run ()
    (fun s => (run (Demo.behaviour "db") 2 .full serviceRequest s).isSome &&
      (Context.refresh ⟨Demo.behaviour "db", 16, 16⟩ ⟨"", ""⟩ { id := "shop" } s).isSome &&
      (opening (Demo.behaviour "db") "orderService" s).any fun r =>
        r.1.definition.supplier == .orderService &&
          (opening (Demo.behaviour "db") "dataSource" r.2).isSome) (by decide +kernel)
  simp only [Bool.and_eq_true] at passes
  obtain ⟨⟨runs, refreshes⟩, opens⟩ := passes
  obtain ⟨⟨r, s'⟩, run⟩ := Option.isSome_iff_exists.mp runs
  obtain ⟨⟨c, s''⟩, refresh⟩ := Option.isSome_iff_exists.mp refreshes
  obtain ⟨⟨m, s₁⟩, outer, hm⟩ := (Option.any_eq_true _ _).mp opens
  obtain ⟨supplier, inner⟩ := Bool.and_eq_true_iff.mp hm
  obtain ⟨⟨m', t⟩, inner⟩ := Option.isSome_iff_exists.mp inner
  have started := @enters_of_opening _ _ _ (Demo.behaviour "db") s s₁ "orderService" m .full outer
  rw [beq_iff_eq.mp supplier] at started
  have moment : Moment (Demo.behaviour "db") 2 .full serviceRequest s
      ["dataSource", "orderService"] t :=
    .within started (.within (enters_of_opening inner) (.now _ _))
  obtain ⟨before, refreshed, -, during⟩ := creating_is_call_stack (Demo.behaviour "db") s
  obtain ⟨creating, -, bound⟩ := (during _ _ _ _ _ moment).2 reach
  exact ⟨s, s', r, c, s'', t, reach, run, before _ _ _ _ _ run, refresh,
    refreshed _ _ _ _ _ _ refresh, moment, creating, bound⟩

end Container

end ComponentContainer
