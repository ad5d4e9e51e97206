/-
  File:      ComponentContainer/Proofs/RegistrationOrder.lean
  Subject:   Making components ahead, whatever the order their definitions were registered in.

  * `Alike` -- two tables with the same definitions, perhaps in another order; what depends on the
    definitions only is the same for both.
  * `enrol` -- registers definitions one after another; `run_enrol` -- afterwards those are registered
    that may be, if each name has one definition.
  * `Plan.result_bind` -- a sequence of plans is opened by this; `result_eagerNames` -- the names that
    are made ahead.
  * `Instantiates` -- how the making of some components, one after the other, ends;
    `result_preinstantiate` -- **what is remembered after making components ahead**: what the eager
    ones reach, and under each name the component that belongs to it.
  * `preinstantiation_ignores_order` -- **so the order of registration makes no difference.**
-/
import ComponentContainer.Plan
import ComponentContainer.Proofs.OrderedRegistry
import ComponentContainer.Proofs.Values

namespace ComponentContainer

variable {κ ι ω α β : Type}

namespace Container

open Act Attempt Relation

variable {b : Behaviour κ ι ω} {s s' s₁ : State κ ι ω} {name n : String}
  {t t' : Table (Definition κ)} {needs : κ → List String} {make : κ → List ι → ι}
  {pass : String → MergedDefinition κ → ι → ι} {chain : List (Extension κ)}
  {early late : κ → Creation κ → ι → ι}

/-! ## 1. The same definitions -/

/-- The tables have the same definitions, perhaps in another order. -/
def Alike (t t' : Table (Definition κ)) : Prop := ∀ name, t'.find? name = t.find? name

namespace Alike

theorem symm (h : Alike t t') : Alike t' t := fun name => (h name).symm

theorem edges (h : Alike t t') (asks : κ → List String) : Needs t' asks = Needs t asks := by
  funext n m
  simp only [Needs, h n]

theorem line (h : Alike t t') {first : Option String} {line : List (String × Definition κ)}
    (walk : Line t first line) : Line t' first line :=
  walk.congr fun name _ => h name

theorem freshMerge (h : Alike t t') {m : MergedDefinition κ}
    (merged : Container.freshMerge t name = .ok m) : Container.freshMerge t' name = .ok m := by
  obtain ⟨d, rest, walk, is⟩ := freshMerge_eq_ok_iff.mp merged
  exact freshMerge_eq_ok_iff.mpr ⟨d, rest, h.line walk, is⟩

theorem creatable (h : Alike t t') (creatable : Creatable t n) : Creatable t' n := by
  obtain ⟨d, found, kind, template, line, walk⟩ := creatable
  exact ⟨d, (h n).trans found, kind, template, line, h.line walk⟩

theorem grounded (h : Alike t t') {asks : κ → List String} (grounded : Grounded t asks n) :
    Grounded t' asks n := by
  induction grounded with
  | @intro n creatable below ih =>
      refine .intro (h.creatable creatable) fun m edge => ?_
      rw [h.edges asks] at edge
      exact ih m edge

theorem valued (h : Alike t t') {asks : κ → List String} {value : ι}
    (valued : Valued t asks make pass name value) : Valued t' asks make pass name value := by
  induction valued with
  | @intro name d m values found merged length below ih =>
      exact .intro ((h name).trans found) (h.freshMerge merged) length ih

end Alike

/-! ## 2. Registration -/

/-- Registers definitions one after another, be they refused or not. -/
def enrol : List (Definition κ) → FactoryProgram κ ι ω Unit
  | [] => .done ()
  | d :: ds => .ask (.registry (.register d)) fun _ => enrol ds

/-- Nothing has been made or merged from these definitions, and the chain is this one. -/
structure Fresh (chain : List (Extension κ)) (t : Table (Definition κ)) (s : State κ ι ω) : Prop where
  definitions : s.container.definitions = t
  merged : s.container.merged = .empty
  components : s.container.components = .empty
  creating : s.container.creating = []
  chain : s.container.chain = chain

/-- Exactly those of the definitions are registered that may be, under their names. -/
def Enrolled (ds : List (Definition κ)) (t : Table (Definition κ)) : Prop :=
  ∀ name d, t.find? name = some d ↔ d ∈ ds ∧ d.Fit ∧ d.name = name

/-- A definition that is refused must not be registered, or there is one of its name. -/
theorem register_refused {c : Container κ ι} {d : Definition κ} {failure : Failure}
    (h : c.register d = .error failure) : ¬d.Fit ∨ c.definitions.contains d.name = true := by
  unfold register at h
  split at h
  · rename_i blank
    exact .inl fun fit => by simp [fit.1] at blank
  · split at h
    · rename_i own
      exact .inl fun fit => fit.2 own
    · split at h
      · rename_i known
        exact .inr known
      · cases h

/-- The request to register a definition always has an answer. -/
theorem serve_register {depth : Nat} {view : View} (d : Definition κ) (s : State κ ι ω) :
    ∃ answer s', serve b depth view (.registry (.register d)) s = some (answer, s') ∧
      ((s'.container = s.container ∧ ∃ failure, s.container.register d = .error failure) ∨
        s.container.register d = .ok s'.container) := by
  rw [serve_registry]
  cases registered : s.container.register d with
  | error failure =>
      refine ⟨.error failure, s, ?_, .inl ⟨rfl, failure, rfl⟩⟩
      simp only [answerRegistry, run_bind, run_container, registered, run_pure]
  | ok c =>
      by_cases known : s.container.definitions.contains d.name = true
      · let told := .announced (.registering d.name d.kind) :: .announced (.overriding d.name) ::
          s.history
        refine ⟨.ok (), { s with container := c, history := .registered d :: told }, ?_, .inr rfl⟩
        simp only [answerRegistry, run_bind, run_container, registered, if_pos known, run_announce,
          run_record, run_changeContainer, run_pure, told]
      · let told := .announced (.registering d.name d.kind) :: s.history
        refine ⟨.ok (), { s with container := c, history := .registered d :: told }, ?_, .inr rfl⟩
        simp only [answerRegistry, run_bind, run_container, registered, if_neg known, run_announce,
          run_record, run_changeContainer, run_pure, told]

/-- **One definition is registered** after others, none of which is another of its name. -/
theorem enrol_one {depth : Nat} {view : View} {before : List (Definition κ)} {d : Definition κ}
    (single : ∀ d' ∈ before, d'.name = d.name → d' = d) (fresh : Fresh chain t s)
    (enrolled : Enrolled before t) :
    ∃ answer s' t', serve b depth view (.registry (.register d)) s = some (answer, s') ∧
      Fresh chain t' s' ∧ Enrolled (before ++ [d]) t' := by
  obtain ⟨answer, s', served, ⟨same, failure, refused⟩ | registered⟩ := serve_register d s
  · refine ⟨answer, s', t, served, ⟨?_, ?_, ?_, ?_, ?_⟩, fun name d' => ?_⟩
    · rw [same, fresh.definitions]
    · rw [same, fresh.merged]
    · rw [same, fresh.components]
    · rw [same, fresh.creating]
    · rw [same, fresh.chain]
    · rw [enrolled name d', List.mem_append, List.mem_singleton]
      refine ⟨fun h => ⟨.inl h.1, h.2⟩, ?_⟩
      rintro ⟨mem | rfl, fit, named⟩
      · exact ⟨mem, fit, named⟩
      · rcases register_refused refused with unfit | known
        · exact absurd fit unfit
        · -- there is one of its name, and that is itself
          rw [fresh.definitions, Table.contains] at known
          obtain ⟨d, found⟩ := Option.isSome_iff_exists.mp known
          obtain ⟨mem, -, own⟩ := (enrolled d'.name d).mp found
          exact ⟨single d mem own ▸ mem, fit, named⟩
  · obtain ⟨fit, -⟩ := fit_of_register registered
    have definitions : s'.container.definitions = t.set d.name d := by
      rw [definitions_register registered, fresh.definitions]
    refine ⟨answer, s', t.set d.name d, served, ⟨definitions, ?_, ?_, ?_, ?_⟩, fun name d' => ?_⟩
    · rcases register_cases registered with ⟨-, is⟩ | is <;> rw [is]
      · exact fresh.merged
      · exact (congrArg (Table.erase · d.name) fresh.merged).trans rfl
    · rcases register_cases registered with ⟨-, is⟩ | is <;> rw [is]
      · exact fresh.components
      · exact (congrArg (Table.erase · d.name) fresh.components).trans rfl
    · rw [creating_register registered, fresh.creating]
    · rcases register_cases registered with ⟨-, is⟩ | is <;> rw [is] <;> exact fresh.chain
    · rw [Table.find?_set, List.mem_append, List.mem_singleton]
      by_cases own : name = d.name
      · rw [if_pos own]
        constructor
        · intro is
          cases is
          exact ⟨.inr rfl, fit, own.symm⟩
        · rintro ⟨mem | rfl, -, named⟩
          · rw [single d' mem (named.trans own)]
          · rfl
      · rw [if_neg own, enrolled name d']
        refine ⟨fun h => ⟨.inl h.1, h.2⟩, ?_⟩
        rintro ⟨mem | rfl, fit', named⟩
        · exact ⟨mem, fit', named⟩
        · exact absurd named.symm own

/-- **Definitions are registered one after another.** -/
theorem run_enrol {depth : Nat} {view : View} {before ds : List (Definition κ)}
    (single : ∀ d ∈ before ++ ds, ∀ d' ∈ before ++ ds, d.name = d'.name → d = d')
    (fresh : Fresh chain t s) (enrolled : Enrolled before t) :
    ∃ s' t', (enrol ds).run (serve b depth view) s = some ((), s') ∧ Fresh chain t' s' ∧
      Enrolled (before ++ ds) t' := by
  induction ds generalizing before s t with
  | nil => exact ⟨s, t, rfl, fresh, (List.append_nil before).symm ▸ enrolled⟩
  | cons d ds ih =>
      have alone : ∀ d' ∈ before, d'.name = d.name → d' = d := fun d' mem named =>
        single d' (List.mem_append_left _ mem) d (List.mem_append_right _ List.mem_cons_self) named
      obtain ⟨answer, s₁, t₁, served, fresh₁, enrolled₁⟩ := enrol_one alone fresh enrolled
      have again : before ++ [d] ++ ds = before ++ d :: ds := by simp
      obtain ⟨s', t', run, fresh', enrolled'⟩ := ih (again.symm ▸ single) fresh₁ enrolled₁
      refine ⟨s', t', ?_, fresh', again ▸ enrolled'⟩
      rw [enrol, Program.run, served]
      exact run

theorem enrolled_nil : Enrolled [] (.empty : Table (Definition κ)) := by
  intro name d
  simp

/-- The same definitions are registered, whatever the order. -/
theorem Enrolled.alike {ds ds' : List (Definition κ)} (h : Enrolled ds t) (h' : Enrolled ds' t')
    (same : ∀ d, d ∈ ds' ↔ d ∈ ds) : Alike t t' := by
  intro name
  refine Option.ext fun d => ?_
  rw [h name d, h' name d, same d]

/-- There are no more than there were. -/
theorem Enrolled.size_le {ds : List (Definition κ)} (h : Enrolled ds t) : t.size ≤ ds.length := by
  have names : t.keys ⊆ ds.map Definition.name := by
    intro name mem
    obtain ⟨d, found⟩ := Option.isSome_iff_exists.mp ((t.contains_iff_mem_keys name).mpr mem)
    obtain ⟨listed, -, named⟩ := (h name d).mp found
    exact List.mem_map.mpr ⟨d, listed, named⟩
  have le := (t.nodup_keys.subperm names).length_le
  rwa [Table.keys, List.length_map, List.length_map] at le

end Container

/-! ## 3. Running plans -/

namespace Plan

variable {σ : Type} {handler : Program.Handler (factoryInterface κ ι ω) σ}

/-- How a plan ends, if it ends. -/
def result (handler : Program.Handler (factoryInterface κ ι ω) σ) (x : Plan κ ι ω α) (s : σ) :
    Option (Except Failure α × σ) := x.run.run handler s

/-- A sequence of plans: a failure of its first part ends it. -/
theorem result_bind (x : Plan κ ι ω α) (f : α → Plan κ ι ω β) (s : σ) :
    result handler (x >>= f) s =
      match result handler x s with
      | none => none
      | some (.ok a, s') => result handler (f a) s'
      | some (.error failure, s') => some (.error failure, s') := by
  show Program.run handler (x.run >>= ExceptT.bindCont f) s = _
  rw [Program.run_bind]
  show _ = match Program.run handler x.run s with
    | none => none
    | some (.ok a, s') => result handler (f a) s'
    | some (.error failure, s') => some (.error failure, s')
  rcases Program.run handler x.run s with _ | ⟨failure | a, s'⟩ <;> rfl

theorem result_bind_of_ok {x : Plan κ ι ω α} {s s' : σ} {a : α}
    (h : result handler x s = some (.ok a, s')) (f : α → Plan κ ι ω β) :
    result handler (x >>= f) s = result handler (f a) s' := by
  rw [result_bind, h]

theorem result_pure (a : α) (s : σ) :
    result handler (pure a : Plan κ ι ω α) s = some (.ok a, s) := rfl

theorem result_ask {r : Request κ ι ω} {s s' : σ} {answer : r.Answer}
    (h : handler r s = some (answer, s')) :
    result handler (ask r) s = some (.ok answer, s') := by
  show Program.run handler (Program.request (I := factoryInterface κ ι ω) r >>= fun a =>
    pure (Except.ok a)) s = _
  rw [Program.run_bind, Program.run_request, h]
  rfl

theorem result_component (name : String) (s : σ) :
    result handler (component name) s = handler (.component name) s :=
  Program.run_request handler (.component name) s

/-- A filter that only looks at the state. -/
theorem result_filterM {p : String → Plan κ ι ω Bool} {test : String → Bool} {s : σ}
    (looks : ∀ name, result handler (p name) s = some (.ok (test name), s)) (names : List String) :
    result handler (names.filterM p) s = some (.ok (names.filter test), s) := by
  have gathers (found : List String) : result handler (names.filterAuxM p found) s =
      some (.ok ((names.filter test).reverse ++ found), s) := by
    induction names generalizing found with
    | nil => rfl
    | cons name names ih =>
        rw [List.filterAuxM, result_bind_of_ok (looks name), ih]
        cases chosen : test name <;> simp [chosen]
  rw [List.filterM, result_bind_of_ok (gathers []), result_pure]
  simp

end Plan

namespace Container

open Act Attempt Relation

variable {b : Behaviour κ ι ω} {s s' s₁ : State κ ι ω} {name n : String}
  {t t' : Table (Definition κ)} {needs : κ → List String} {make : κ → List ι → ι}
  {chain : List (Extension κ)} {early late : κ → Creation κ → ι → ι} {depth : Nat} {view : View}

/-! ## 4. Components made ahead -/

/-- The names of the components to be made ahead, in the order of the table. -/
def eagerIn (t : Table (Definition κ)) : List String :=
  t.keys.filter fun name => (t.find? name).any Definition.isEager

theorem nodup_eagerIn (t : Table (Definition κ)) : (eagerIn t).Nodup :=
  t.nodup_keys.sublist List.filter_sublist

theorem mem_eagerIn : n ∈ eagerIn t ↔ ∃ d, t.find? n = some d ∧ d.isEager = true := by
  rw [eagerIn, List.mem_filter, Option.any_eq_true]
  refine and_iff_right_of_imp ?_
  rintro ⟨d, found, -⟩
  exact mem_keys_of_find? found

theorem Alike.mem_eagerIn (h : Alike t t') : n ∈ eagerIn t' ↔ n ∈ eagerIn t := by
  rw [Container.mem_eagerIn, Container.mem_eagerIn, h n]

theorem result_eagerNames (s : State κ ι ω) :
    Plan.result (serve b depth view) eagerNames s =
      some (.ok (eagerIn s.container.definitions), s) := by
  have names : serve b depth view (.registry .names) s = some (s.container.definitions.keys, s) := by
    rw [serve_registry]
    rfl
  rw [eagerNames, Plan.result_bind_of_ok (Plan.result_ask names)]
  refine Plan.result_filterM (fun name => ?_) _
  rw [Plan.result_bind_of_ok (Plan.result_ask (serve_find b depth view s name))]
  cases s.container.definitions.find? name <;> rfl

/-- How the making of some components, one after the other, ends: it succeeds exactly if all of them
    are grounded, and then what they reach is remembered and was not made for anything else. -/
structure Instantiates (t : Table (Definition κ)) (needs : κ → List String) (names : List String)
    (s : State κ ι ω) (r : Except Failure PUnit) (s' : State κ ι ω) : Prop where
  granted : r = .ok () ↔ ∀ n ∈ names, Grounded t needs n
  reached : r = .ok () → ∀ m, Remembered s' m ↔
    Remembered s m ∨ ∃ n ∈ names, ReflTransGen (Needs t needs) n m

/-- What has been remembered when a request has been granted. -/
theorem Resolves.remembered {value : ι}
    (h : Resolves t needs chain [n] s (.ok value : Except Failure ι) s') (m : String) :
    Remembered s' m ↔ Remembered s m ∨ ReflTransGen (Needs t needs) n m := by
  obtain ⟨there, made, fills, from_n⟩ := h.done value rfl
  have self : Remembered s' n := there n (List.mem_singleton.mpr rfl)
  rw [fills.remembered m]
  constructor
  · rintro (mem | old)
    · obtain ⟨k, mem', path⟩ := from_n m mem
      exact .inr (List.mem_singleton.mp mem' ▸ path)
    · exact .inl old
  · rintro (old | path)
    · exact .inr old
    · exact (fills.remembered m).mp (h.ready.reached self path)

/-- **Components are made one after the other.** The induction is on the names; between two of them
    nothing is being made, what is remembered is grounded, and it belongs to its name. -/
theorem result_instantiate (net : Net b t needs make chain)
    (steady : ∀ e ∈ chain, Steady b early late e) (enough : t.size ≤ depth) (names : List String)
    (ready : Ready t needs chain s)
    (truthful : Truthful t needs make (passed early late chain) chain s)
    (idle : s.container.creating = []) :
    ∃ r s', Plan.result (serve b depth view)
        (names.forM fun name => do let _ ← Plan.component name) s = some (r, s') ∧
      Truthful t needs make (passed early late chain) chain s' ∧
      Instantiates t needs names s r s' := by
  induction names generalizing s with
  | nil =>
      refine ⟨.ok (), s, rfl, truthful, ⟨by simp, fun _ m => ?_⟩⟩
      simp
  | cons n names ih =>
      have above : Above t needs depth n s.container.creating := by
        rw [idle]
        exact ⟨List.nodup_nil, List.nil_subset _, fun x hx => absurd hx List.not_mem_nil,
          Nat.le_add_left_of_le enough⟩
      obtain ⟨r, s₁, run, resolves⟩ := component_resolves net view ready above
      obtain ⟨truthful₁, -⟩ := component_valued net steady truthful run
      have first : Plan.result (serve b depth view) (do let _ ← Plan.component n) s =
          some (r.map fun _ => (), s₁) := by
        rw [Plan.result_bind, Plan.result_component, run]
        cases r <;> rfl
      show ∃ r s', Plan.result (serve b depth view) (_ >>= fun _ => names.forM _) s = some (r, s') ∧
        _
      rw [Plan.result_bind, first]
      cases r with
      | error failure =>
          obtain ⟨k, mem, refused⟩ := resolves.failed failure rfl
          rw [List.mem_singleton.mp mem] at refused
          refine ⟨.error failure, s₁, rfl, truthful₁, ⟨⟨fun is => ?_, fun all => ?_⟩, fun is => ?_⟩⟩
          · cases is
          · exact absurd (all n List.mem_cons_self) refused
          · cases is
      | ok value =>
          have idle₁ : s₁.container.creating = [] :=
            (serve_course _ _ _ _ run).creating.trans idle
          obtain ⟨r', s', rest, truthful', instantiates⟩ := ih resolves.ready truthful₁ idle₁
          have self : Grounded t needs n :=
            resolves.ready.grounded n ((resolves.remembered n).mpr (.inr .refl))
          refine ⟨r', s', rest, truthful', ⟨?_, fun is m => ?_⟩⟩
          · rw [instantiates.granted, List.forall_mem_cons]
            exact (and_iff_right self).symm
          · rw [instantiates.reached is m, resolves.remembered m, or_assoc]
            simp only [List.mem_cons, exists_eq_or_imp]

/-- **What is remembered after making components ahead.** It has an end, and succeeds exactly if all
    eager components are grounded. Then what these reach is remembered and nothing else, and under
    each name the component that belongs to it. -/
theorem result_preinstantiate (net : Net b t needs make chain)
    (steady : ∀ e ∈ chain, Steady b early late e) (enough : t.size ≤ depth)
    (fresh : Fresh chain t s) :
    ∃ r s', Plan.result (serve b depth view) preinstantiate s = some (r, s') ∧
      ((∃ count, r = .ok count) ↔ ∀ n ∈ eagerIn t, Grounded t needs n) ∧
      ∀ count, r = .ok count → count = (eagerIn t).length ∧
        ∀ name value, s'.container.components.find? name = some value ↔
          (∃ n ∈ eagerIn t, ReflTransGen (Needs t needs) n name) ∧
            Valued t needs make (passed early late chain) name value := by
  have nothing (name : String) : s.container.components.find? name = none := by
    rw [fresh.components, Table.find?_empty]
  have unmerged (name : String) : s.container.merged.find? name = none := by
    rw [fresh.merged, Table.find?_empty]
  have none_yet (m : String) : ¬Remembered s m := not_remembered (nothing m)
  have ready : Ready t needs chain s := by
    refine ⟨fresh.definitions, fresh.chain, fun name m found => ?_,
      fun m mem => absurd mem (none_yet m), fun m k mem => absurd mem (none_yet m)⟩
    rw [unmerged name] at found
    cases found
  have truthful : Truthful t needs make (passed early late chain) chain s := by
    refine ⟨fresh.definitions, fresh.chain, fun name m found => ?_, fun name value found => ?_⟩
    · rw [unmerged name] at found
      cases found
    · rw [nothing name] at found
      cases found
  obtain ⟨r, s₁, run, truthful₁, instantiates⟩ := result_instantiate net steady enough (eagerIn t)
    ready truthful fresh.creating
  have names : Plan.result (serve b depth view) eagerNames s = some (.ok (eagerIn t), s) := by
    rw [result_eagerNames, fresh.definitions]
  rw [preinstantiate, Plan.result_bind_of_ok names, Plan.result_bind, run]
  cases r with
  | error failure =>
      refine ⟨.error failure, s₁, rfl, ⟨fun ⟨count, is⟩ => (nomatch is), fun all => ?_⟩,
        fun count is => nomatch is⟩
      cases instantiates.granted.mpr all
  | ok u =>
      let told := .announced (.preinstantiated (eagerIn t).length) :: s₁.history
      refine ⟨.ok (eagerIn t).length, { s₁ with history := told }, ?_,
        ⟨fun _ => instantiates.granted.mp rfl, fun _ => ⟨_, rfl⟩⟩, fun count is => ?_⟩
      · show Plan.result (serve b depth view) (Plan.ask _ >>= _) s₁ = _
        rw [Plan.result_bind_of_ok (Plan.result_ask (serve_announce b depth view s₁ _))]
        rfl
      · cases is
        refine ⟨rfl, fun name value => ?_⟩
        have remembered := instantiates.reached rfl name
        rw [or_iff_right (none_yet name)] at remembered
        show s₁.container.components.find? name = some value ↔ _
        rw [← remembered]
        constructor
        · intro found
          exact ⟨⟨value, found⟩, truthful₁.valued name value found⟩
        · rintro ⟨⟨value', found⟩, belongs⟩
          rw [found, (truthful₁.valued name value' found).unique belongs]

/-! ## 5. The order of registration -/

/-- Registers definitions and makes components ahead. -/
def start (ds : List (Definition κ)) : FactoryProgram κ ι ω (Except Failure Nat) :=
  enrol ds >>= fun _ => preinstantiate.run

/-- **The order of registration makes no difference.** The suppliers of components ask for components
    only, a fixed list each, and make something of what they get; the hooks of the chain succeed and
    are functions. The same definitions, one for each name, are registered in two orders with two new
    containers that have that chain. Then components are made ahead in both, or this fails in both;
    and if they are, the same number was asked for, and under each name both remember the same
    component, or none. -/
theorem preinstantiation_ignores_order {ds ds' : List (Definition κ)}
    (same : ∀ d, d ∈ ds' ↔ d ∈ ds)
    (single : ∀ d ∈ ds, ∀ d' ∈ ds, d.name = d'.name → d = d')
    (supply : ∀ d ∈ ds, d.kind = .component → d.template = false →
      b.supply d.supplier = requestAll (needs d.supplier) (make d.supplier))
    (steady : ∀ e ∈ chain, Steady b early late e) (new : Fresh chain .empty s)
    (new' : Fresh chain .empty s') {depth' : Nat} {view' : View} (enough : ds.length ≤ depth)
    (enough' : ds'.length ≤ depth') :
    ∃ r r' u u', run b depth view (start ds) s = some (r, u) ∧
      run b depth' view' (start ds') s' = some (r', u') ∧
      ((∃ count, r = .ok count) ↔ ∃ count, r' = .ok count) ∧
      ∀ count, r = .ok count → r' = .ok count ∧
        ∀ name, u'.container.components.find? name = u.container.components.find? name := by
  have single' : ∀ d ∈ ds', ∀ d' ∈ ds', d.name = d'.name → d = d' := fun d mem d' mem' =>
    single d ((same d).mp mem) d' ((same d').mp mem')
  obtain ⟨s₁, t, enrols, fresh, enrolled⟩ :=
    @run_enrol _ _ _ b s .empty chain depth view [] ds single new enrolled_nil
  obtain ⟨s₁', t', enrols', fresh', enrolled'⟩ :=
    @run_enrol _ _ _ b s' .empty chain depth' view' [] ds' single' new' enrolled_nil
  have alike : Alike t t' := enrolled.alike enrolled' same
  have obliging : ∀ e ∈ chain, Obliging b e := fun e mem => (steady e mem).obliging
  have net : Net b t needs make chain :=
    ⟨fun name d found => supply d ((enrolled name d).mp found).1, obliging⟩
  have net' : Net b t' needs make chain :=
    ⟨fun name d found => supply d ((same d).mp ((enrolled' name d).mp found).1), obliging⟩
  obtain ⟨r, u, ends, granted, holds⟩ := @result_preinstantiate _ _ _ b s₁ t needs make chain early
    late depth view net steady (Nat.le_trans enrolled.size_le enough) fresh
  obtain ⟨r', u', ends', granted', holds'⟩ := @result_preinstantiate _ _ _ b s₁' t' needs make chain
    early late depth' view' net' steady (Nat.le_trans enrolled'.size_le enough') fresh'
  have grounded (n : String) : Grounded t needs n ↔ Grounded t' needs n :=
    ⟨alike.grounded, alike.symm.grounded⟩
  have both : (∃ count, r = .ok count) ↔ ∃ count, r' = .ok count := by
    rw [granted, granted']
    simp only [alike.mem_eagerIn, grounded]
  refine ⟨r, r', u, u', ?_, ?_, both, fun count is => ?_⟩
  · rw [Container.run, start, Program.run_bind, enrols]
    exact ends
  · rw [Container.run, start, Program.run_bind, enrols']
    exact ends'
  · obtain ⟨count', is'⟩ := both.mp ⟨count, is⟩
    obtain ⟨length, found⟩ := holds count is
    obtain ⟨length', found'⟩ := holds' count' is'
    have eager : (eagerIn t').Perm (eagerIn t) :=
      (List.perm_ext_iff_of_nodup (nodup_eagerIn t') (nodup_eagerIn t)).mpr fun n =>
        alike.mem_eagerIn
    refine ⟨by rw [is', length', length, eager.length_eq], fun name => Option.ext fun value => ?_⟩
    rw [found, found', alike.edges needs]
    simp only [alike.mem_eagerIn]
    exact and_congr_right fun _ => ⟨alike.symm.valued, alike.valued⟩

/-- The behaviour that counts, where a hook adds the length of the component's name. -/
def tallying : Behaviour (List String) Nat Unit :=
  { counting with after := fun _ value creation world =>
      (.ok (value + creation.name.length), world) }

theorem tallying_steady (e : Extension (List String)) :
    Steady tallying (fun _ _ value => value) (fun _ creation value => value + creation.name.length) e :=
  ⟨fun _ _ _ _ _ => rfl, fun _ _ _ _ _ => rfl, fun _ _ _ _ _ => rfl⟩

/-- Two ways lead from "a" to "d", one of them over a component that is not made ahead. -/
def tallied : List (Definition (List String)) :=
  [countOf "a" ["b", "c"], countOf "b" ["d"], { countOf "c" ["d"] with lazy := true }, countOf "d" []]

/-- A new container with a hook and a watcher. -/
def hookedOnly : State (List String) Nat Unit where
  container := { chain := [⟨0, .custom []⟩, ⟨1, .listeners⟩] }
  world := ()

/-- Registered from "a" on or from "d" on, three components are asked for, and "c" is made for "a". -/
theorem tallied_ignores_order :
    ∃ u u', run tallying 4 .full (start tallied) hookedOnly = some (.ok 3, u) ∧
      run tallying 4 .full (start tallied.reverse) hookedOnly = some (.ok 3, u') ∧
      u.container.components.find? "c" = some 4 ∧ u'.container.components.find? "c" = some 4 := by
  have single : ∀ d ∈ tallied, ∀ d' ∈ tallied, d.name = d'.name → d = d' := by decide
  obtain ⟨r, r', u, u', ends, ends', -, alike⟩ :=
    @preinstantiation_ignores_order _ _ _ tallying hookedOnly hookedOnly id
      (fun _ values => values.foldl (· + ·) 1) hookedOnly.container.chain _ _ 4 .full tallied
      tallied.reverse (fun _ => List.mem_reverse) single (fun _ _ _ _ => rfl)
      (fun e _ => tallying_steady e) ⟨rfl, rfl, rfl, rfl, rfl⟩ ⟨rfl, rfl, rfl, rfl, rfl⟩ 4 .full
      (by decide) (by decide)
  have counts : (run tallying 4 .full (start tallied) hookedOnly).map (fun r =>
      (r.1, r.2.container.components.find? "c")) = some (.ok 3, some 4) := by decide +kernel
  rw [ends] at counts
  obtain ⟨rfl, found⟩ := Prod.mk.inj (Option.some.inj counts)
  obtain ⟨rfl, same⟩ := alike 3 rfl
  exact ⟨u, u', ends, ends', found, (same "c").trans found⟩

end Container

end ComponentContainer
