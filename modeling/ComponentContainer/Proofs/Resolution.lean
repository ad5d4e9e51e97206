/-
  File:      ComponentContainer/Proofs/Resolution.lean
  Subject:   The request for a component whose supplier asks for other components.

  * `requestAll` -- asks for components in order, up to the first failure.
  * `Obliging` -- an extension whose hooks let every component pass; `Net` -- all suppliers ask for
    components only, and the chain is obliging.
  * `Ready` -- the invariant between two requests: what is remembered is grounded, and all that it
    needs is remembered, too.
  * `Fills` -- the ledger of a request that succeeds: each component is made once, and after all
    that it needs.
  * `component_resolves` -- the request for a component, by induction on the depth.
  * `resolution_is_depth_first` -- **a component is made exactly if all that is reached from it can
    be made and is on no circle**; what is made then, and what is left of a request that fails.
-/
import ComponentContainer.Proofs.Dependencies
import ComponentContainer.Proofs.Nesting

namespace ComponentContainer

variable {κ ι ω α : Type}

/-- Asks for components in order and makes something of them. The first failure is the outcome. -/
def requestAll : List String → (List ι → ι) → FactoryProgram κ ι ω (Except Failure ι)
  | [], make => .done (.ok (make []))
  | name :: rest, make => .ask (.component name) fun (answer : Except Failure ι) =>
    match answer with
    | .error failure => .done (.error failure)
    | .ok value => requestAll rest fun values => make (value :: values)

section RequestAll

variable {σ : Type} {handler : Program.Handler (factoryInterface κ ι ω) σ} {s s₁ : σ}
  {name : String} {rest : List String} {make : List ι → ι}

theorem run_requestAll_refused {failure : Failure}
    (first : handler (.component name) s = some (.error failure, s₁)) :
    (requestAll (name :: rest) make).run handler s = some (.error failure, s₁) := by
  rw [requestAll, Program.run, first]
  rfl

theorem run_requestAll_cons {value : ι}
    (first : handler (.component name) s = some (.ok value, s₁)) :
    (requestAll (name :: rest) make).run handler s =
      (requestAll rest fun values => make (value :: values)).run handler s₁ := by
  rw [requestAll, Program.run, first]

end RequestAll

namespace Container

open Act Attempt Relation

variable {b : Behaviour κ ι ω} {s s' s₁ s₂ s₃ : State κ ι ω} {name n : String}

/-! ## 1. A chain that lets everything pass -/

/-- The hooks of the extension let every component pass, perhaps changed. -/
structure Obliging (b : Behaviour κ ι ω) (e : Extension κ) : Prop where
  merged : ∀ code, e.body = .custom code → ∀ m name world,
    (b.onMerged code m name world).1 = .ok ()
  before : ∀ code, e.body = .custom code → ∀ value creation world, ∃ value',
    (b.before code value creation world).1 = .ok value'
  after : ∀ code, e.body = .custom code → ∀ value creation world, ∃ value',
    (b.after code value creation world).1 = .ok value'

/-- In every state the attempt succeeds. -/
def Succeeds (x : Attempt κ ι ω α) : Prop := ∀ s, ∃ a s', outcome x s = some (.ok a, s')

namespace Succeeds

theorem pure (a : α) : Succeeds (Pure.pure a : Attempt κ ι ω α) := fun s => ⟨a, s, rfl⟩

theorem perform {x : Act κ ι ω α} (h : ∀ s, ∃ a s', x s = some (a, s')) :
    Succeeds (Attempt.perform x) := by
  intro s
  obtain ⟨a, s', run⟩ := h s
  exact ⟨a, s', outcome_perform_of_run run⟩

theorem bind {β : Type} {x : Attempt κ ι ω α} {f : α → Attempt κ ι ω β} (hx : Succeeds x)
    (hf : ∀ a, Succeeds (f a)) : Succeeds (x >>= f) := by
  intro s
  obtain ⟨a, s₁, run⟩ := hx s
  obtain ⟨c, s₂, run'⟩ := hf a s₁
  exact ⟨c, s₂, by rw [outcome_bind_of_ok run, run']⟩

theorem outside {f : ω → Except Failure α × ω} (h : ∀ world, ∃ a, (f world).1 = .ok a) :
    Succeeds (ofOutcome (Act.outside f) : Attempt κ ι ω α) := by
  intro s
  obtain ⟨a, ha⟩ := h s.world
  refine ⟨a, { s with world := (f s.world).2 }, ?_⟩
  rw [outcome_ofOutcome, run_outside, ha]

theorem forM {β : Type} {f : β → Attempt κ ι ω PUnit} {l : List β}
    (hf : ∀ x ∈ l, Succeeds (f x)) : Succeeds (l.forM f) := by
  induction l with
  | nil => exact pure _
  | cons x l ih =>
      exact bind (hf x List.mem_cons_self) fun _ => ih fun y hy => hf y (List.mem_cons_of_mem x hy)

theorem foldlM {β : Type} {f : α → β → Attempt κ ι ω α} {l : List β}
    (hf : ∀ x ∈ l, ∀ a, Succeeds (f a x)) (a : α) : Succeeds (l.foldlM f a) := by
  induction l generalizing a with
  | nil => exact pure _
  | cons x l ih =>
      rw [List.foldlM_cons]
      exact bind (hf x List.mem_cons_self a) fun a =>
        ih (fun y hy => hf y (List.mem_cons_of_mem x hy)) a

end Succeeds

namespace Obliging

variable {e : Extension κ}

theorem seeMerged (h : Obliging b e) (m : MergedDefinition κ) (name : String) :
    Succeeds (Extension.seeMerged b m name e) := by
  refine .bind (.perform fun s => ⟨_, _, run_record _ s⟩) fun _ => ?_
  cases body : e.body with
  | custom code => exact .outside fun world => ⟨(), h.merged code body m name world⟩
  | completeness target => exact .pure _
  | listeners => exact .pure _

theorem seeBefore (h : Obliging b e) (creation : Creation κ) (value : ι) :
    Succeeds (Extension.seeBefore b creation value e) := by
  refine .bind (.perform fun s => ⟨_, _, run_record _ s⟩) fun _ => ?_
  cases body : e.body with
  | custom code => exact .outside (h.before code body value creation)
  | completeness target => exact .pure _
  | listeners => exact .pure _

theorem seeAfter (h : Obliging b e) (creation : Creation κ) (value : ι) :
    Succeeds (Extension.seeAfter b creation value e) := by
  have told : ∀ (n : Notice) name, Succeeds (do
      Attempt.perform (announce n)
      Attempt.perform (note e.id name)
      Pure.pure value : Attempt κ ι ω ι) := by
    intro n name
    refine .bind (.perform fun s => ⟨_, _, run_announce n s⟩) fun _ => ?_
    exact .bind (.perform fun s => ⟨_, _, run_note e.id name s⟩) fun _ => .pure _
  refine .bind (.perform fun s => ⟨_, _, run_record _ s⟩) fun _ => ?_
  cases body : e.body with
  | custom code => exact .outside (h.after code body value creation)
  | completeness target =>
      show Succeeds (if _ then _ else _)
      split
      · exact told _ _
      · exact .pure _
  | listeners =>
      refine .bind (.perform fun s => ⟨s, s, rfl⟩) fun s => ?_
      show Succeeds (if _ then _ else _)
      split
      · exact told _ _
      · exact .pure _

end Obliging

/-- Where the chain is obliging, the hooks that see a merged definition run through. -/
theorem showTo_runs (es : List (Extension κ)) (h : ∀ e ∈ es, Obliging b e) (name : String)
    (m : MergedDefinition κ) (s : State κ ι ω) :
    ∃ s', outcome (showTo b name m es) s = some (.ok (), s') ∧ Watched s s' := by
  obtain ⟨_, s', run⟩ := Succeeds.forM (fun e he => (h e he).seeMerged m name) s
  exact ⟨s', run, showTo_watches es run⟩

/-- Where the chain is obliging, a component passes through it. -/
theorem passThrough_runs (h : ∀ e ∈ s.container.chain, Obliging b e) (name : String)
    (m : MergedDefinition κ) (value : ι) :
    ∃ value' s', outcome (passThrough b s name m value) s = some (.ok value', s') ∧
      Watched s s' := by
  have passes : Succeeds (passThrough b s name m value) :=
    .bind (.foldlM (fun e he value => (h e he).seeBefore _ value) value) fun value =>
      .foldlM (fun e he value => (h e he).seeAfter _ value) value
  obtain ⟨value', s', run⟩ := passes s
  exact ⟨value', s', run, passThrough_watches _ _ run⟩

/-! ## 2. The invariant between two requests -/

variable {t : Table (Definition κ)} {needs : κ → List String} {make : κ → List ι → ι}
  {chain : List (Extension κ)}

/-- The suppliers ask for components only, a fixed list each, and give up at the first one that is
    refused; the chain lets everything pass. -/
structure Net (b : Behaviour κ ι ω) (t : Table (Definition κ)) (needs : κ → List String)
    (make : κ → List ι → ι) (chain : List (Extension κ)) : Prop where
  supply : ∀ name d, t.find? name = some d → d.kind = .component → d.template = false →
    b.supply d.supplier = requestAll (needs d.supplier) (make d.supplier)
  obliging : ∀ e ∈ chain, Obliging b e

/-- Merging changes the attributes only, so the supplier of a merged definition is the one that is
    registered. -/
theorem Net.asks (net : Net b t needs make chain) {d : Definition κ} {m : MergedDefinition κ}
    (found : t.find? n = some d) (is : m.definition = { d with attributes := m.definition.attributes })
    (kind : m.definition.kind = .component) (template : m.definition.template = false) :
    b.supply m.definition.supplier = requestAll (needs d.supplier) (make d.supplier) := by
  rw [is] at kind template ⊢
  exact net.supply n d found kind template

/-- The component of that name has been made and is remembered. -/
def Remembered (s : State κ ι ω) (name : String) : Prop :=
  ∃ value, s.container.components.find? name = some value

theorem not_remembered (new : s.container.components.find? name = none) : ¬ Remembered s name := by
  rintro ⟨value, found⟩
  rw [new] at found
  cases found

theorem remembered_madeComponent {value : ι} {m : String} :
    Remembered (madeComponent s name value) m ↔ m = name ∨ Remembered s m := by
  unfold Remembered
  show (∃ other, (s.container.components.set name value).find? m = some other) ↔ _
  rw [Table.find?_set]
  split
  · rename_i same
    exact ⟨fun _ => .inl same, fun _ => ⟨value, rfl⟩⟩
  · rename_i other
    exact ⟨.inr, fun h => h.resolve_left other⟩

/-- **The invariant between two requests.** -/
structure Ready (t : Table (Definition κ)) (needs : κ → List String) (chain : List (Extension κ))
    (s : State κ ι ω) : Prop where
  definitions : s.container.definitions = t
  chain : s.container.chain = chain
  merged : ∀ name m, s.container.merged.find? name = some m → freshMerge t name = .ok m
  grounded : ∀ name, Remembered s name → Grounded t needs name
  closed : ∀ name m, Remembered s name → Needs t needs name m → Remembered s m

namespace Ready

/-- The invariant looks at these parts of the container only. -/
theorem of_same (h : Ready t needs chain s)
    (definitions : s'.container.definitions = s.container.definitions)
    (sameChain : s'.container.chain = s.container.chain)
    (merged : s'.container.merged = s.container.merged)
    (components : s'.container.components = s.container.components) :
    Ready t needs chain s' := by
  have remembered : ∀ name, Remembered s' name ↔ Remembered s name := by
    intro name
    unfold Remembered
    rw [components]
  refine ⟨definitions.trans h.definitions, sameChain.trans h.chain, ?_, ?_, ?_⟩
  · rw [merged]
    exact h.merged
  · intro name hname
    exact h.grounded name ((remembered name).mp hname)
  · intro name m hname edge
    exact (remembered m).mpr (h.closed name m ((remembered name).mp hname) edge)

theorem watched (h : Ready t needs chain s) (hw : Watched s s') : Ready t needs chain s' := by
  refine h.of_same ?_ ?_ ?_ ?_ <;> rw [hw.container]

theorem beginning (h : Ready t needs chain s) (name : String) :
    Ready t needs chain (beginning s name) := h.of_same rfl rfl rfl rfl

theorem supplied (h : Ready t needs chain s) (name : String) (d : Definition κ) :
    Ready t needs chain (supplied s name d) := h.of_same rfl rfl rfl rfl

theorem ending (h : Ready t needs chain s) (name : String) :
    Ready t needs chain (ending s name) := h.of_same rfl rfl rfl rfl

/-- A component is made after all that it needs. -/
theorem madeComponent (h : Ready t needs chain s) (creatable : Creatable t name)
    (below : ∀ m, Needs t needs name m → Remembered s m) (value : ι) :
    Ready t needs chain (madeComponent s name value) where
  definitions := h.definitions
  chain := h.chain
  merged := h.merged
  grounded := by
    intro other hother
    rcases remembered_madeComponent.mp hother with rfl | hother
    · exact .intro creatable fun m edge => h.grounded m (below m edge)
    · exact h.grounded other hother
  closed := by
    intro other m hother edge
    refine remembered_madeComponent.mpr (.inr ?_)
    rcases remembered_madeComponent.mp hother with rfl | hother
    · exact below m edge
    · exact h.closed other m hother edge

/-- What a remembered component reaches is remembered. -/
theorem reached (h : Ready t needs chain s) (hn : Remembered s n) {m : String}
    (path : ReflTransGen (Needs t needs) n m) : Remembered s m := by
  induction path with
  | refl => exact hn
  | tail _ edge ih => exact h.closed _ _ ih edge

end Ready

/-! ## 3. The ledger of a request that succeeds -/

/-- The name whose supplier begins. -/
def suppliedName? : Event κ ι → Option String
  | .supplied name _ => some name
  | _ => none

/-- The names whose suppliers have begun, latest first. -/
def suppliedNames (events : List (Event κ ι)) : List String := events.filterMap suppliedName?

theorem suppliedNames_append (events earlier : List (Event κ ι)) :
    suppliedNames (events ++ earlier) = suppliedNames events ++ suppliedNames earlier :=
  List.filterMap_append

/-- The names, latest first, are distinct and new, and each comes after all that it needs. -/
inductive Orderly (edge : String → String → Prop) (old : String → Prop) : List String → Prop
  | nil : Orderly edge old []
  | cons {name : String} {earlier : List String} (once : name ∉ earlier) (new : ¬ old name)
      (below : ∀ m, edge name m → m ∈ earlier ∨ old m) (rest : Orderly edge old earlier) :
      Orderly edge old (name :: earlier)

namespace Orderly

variable {edge : String → String → Prop} {old : String → Prop} {names earlier : List String}

theorem append (h : Orderly edge (fun m => m ∈ earlier ∨ old m) names)
    (first : Orderly edge old earlier) : Orderly edge old (names ++ earlier) := by
  induction h with
  | nil => exact first
  | @cons name names once new below rest ih =>
      refine .cons ?_ (fun h => new (.inr h)) ?_ ih
      · exact fun h => (List.mem_append.mp h).elim once fun h => new (.inl h)
      · intro m hm
        rcases below m hm with h | h | h
        · exact .inl (List.mem_append_left _ h)
        · exact .inl (List.mem_append_right _ h)
        · exact .inr h

theorem nodup (h : Orderly edge old names) : names.Nodup := by
  induction h with
  | nil => exact List.nodup_nil
  | cons once _ _ _ ih => exact List.nodup_cons.mpr ⟨once, ih⟩

theorem from_suffix {later : List String} (h : Orderly edge old (later ++ names)) :
    Orderly edge old names := by
  induction later with
  | nil => exact h
  | cons name later ih =>
      cases h with
      | cons once new below rest => exact ih rest

end Orderly

/-- **The ledger**: what has been made from the one state to the other, latest first. -/
structure Fills (t : Table (Definition κ)) (needs : κ → List String) (s s' : State κ ι ω)
    (made : List String) : Prop where
  history : ∃ events, s'.history = events ++ s.history ∧ madeNames events = made ∧
    (suppliedNames events).Perm made
  orderly : Orderly (Needs t needs) (Remembered s) made
  remembered : ∀ m, Remembered s' m ↔ m ∈ made ∨ Remembered s m

namespace Fills

/-- A stretch in which nothing is made. -/
theorem quiet (events : List (Event κ ι)) (past : s'.history = events ++ s.history)
    (made : madeNames events = []) (supplied : suppliedNames events = [])
    (components : s'.container.components = s.container.components) :
    Fills t needs s s' [] where
  history := ⟨events, past, made, by rw [supplied]⟩
  orderly := .nil
  remembered := by
    intro m
    unfold Remembered
    rw [components]
    exact ⟨.inr, fun h => h.resolve_left List.not_mem_nil⟩

theorem refl (s : State κ ι ω) : Fills t needs s s [] := quiet [] rfl rfl rfl rfl

theorem trans {made later : List String} (h₁ : Fills t needs s₁ s₂ made)
    (h₂ : Fills t needs s₂ s₃ later) : Fills t needs s₁ s₃ (later ++ made) := by
  obtain ⟨events₁, past₁, made₁, supplied₁⟩ := h₁.history
  obtain ⟨events₂, past₂, made₂, supplied₂⟩ := h₂.history
  refine ⟨⟨events₂ ++ events₁, ?_, ?_, ?_⟩, ?_, ?_⟩
  · rw [past₂, past₁, List.append_assoc]
  · rw [madeNames_append, made₁, made₂]
  · rw [suppliedNames_append]
    exact supplied₂.append supplied₁
  · have old : Remembered s₂ = fun m => m ∈ made ∨ Remembered s₁ m :=
      funext fun m => propext (h₁.remembered m)
    exact (old ▸ h₂.orderly).append h₁.orderly
  · intro m
    rw [h₂.remembered, h₁.remembered, List.mem_append, or_assoc]

theorem watched (h : Watched s s') : Fills t needs s s' [] := by
  obtain ⟨events, past, watch⟩ := h.history
  refine quiet events past ?_ ?_ (by rw [h.container])
  · refine List.filterMap_eq_nil_iff.mpr fun e he => ?_
    cases e <;> first | rfl | cases watch _ he
  · refine List.filterMap_eq_nil_iff.mpr fun e he => ?_
    cases e <;> first | rfl | cases watch _ he

theorem beginning (s : State κ ι ω) (name : String) : Fills t needs s (beginning s name) [] :=
  quiet [_] rfl rfl rfl rfl

/-- After a quiet stretch nothing more is remembered. -/
theorem same (h : Fills t needs s s' []) : Remembered s' = Remembered s := by
  refine funext fun m => propext ((h.remembered m).trans ?_)
  exact ⟨fun hm => hm.resolve_left List.not_mem_nil, .inr⟩

/-- What was made while a supplier ran, and then the component itself. -/
theorem madeComponent {d : Definition κ} {value : ι} {made : List String}
    (begun : Fills t needs s s₁ []) (inside : Fills t needs (supplied s₁ name d) s₂ made)
    (once : name ∉ made) (new : ¬ Remembered s name)
    (below : ∀ m, Needs t needs name m → Remembered s₂ m) :
    Fills t needs s (madeComponent s₂ name value) (name :: made) := by
  have old : Remembered (supplied s₁ name d) = Remembered s := begun.same
  obtain ⟨events₁, past₁, made₁, supplied₁⟩ := begun.history
  obtain ⟨events₂, past₂, made₂, supplied₂⟩ := inside.history
  have remembered : ∀ m, Remembered s₂ m ↔ m ∈ made ∨ Remembered s m := by
    intro m
    rw [inside.remembered, old]
  refine ⟨⟨[.madeComponent name value, .ended name] ++ (events₂ ++ (.supplied name d :: events₁)),
    ?_, ?_, ?_⟩, ?_, ?_⟩
  · show _ :: _ :: s₂.history = _
    rw [past₂]
    show _ :: _ :: (events₂ ++ .supplied name d :: s₁.history) = _
    rw [past₁, List.append_assoc, List.append_assoc]
    rfl
  · rw [madeNames_append, madeNames_append, made₂]
    show [name] ++ (made ++ madeNames events₁) = _
    rw [made₁, List.append_nil]
    rfl
  · rw [suppliedNames_append, suppliedNames_append]
    show (suppliedNames events₂ ++ name :: suppliedNames events₁).Perm _
    rw [supplied₁.eq_nil]
    exact List.perm_append_singleton _ _ |>.trans (supplied₂.cons name)
  · exact .cons once new (fun m edge => (remembered m).mp (below m edge)) (old ▸ inside.orderly)
  · intro m
    rw [remembered_madeComponent, remembered, List.mem_cons, or_assoc]

end Fills

/-! ## 4. One component -/

theorem Ready.merging (h : Ready t needs chain s) {m : MergedDefinition κ}
    (run : outcome (mergedDefinition name) s = some (.ok m, s₁)) :
    Ready t needs chain s₁ ∧ Fills t needs s s₁ [] ∧ freshMerge t name = .ok m := by
  rcases mergedDefinition_cases run with
    ⟨m, known, ⟨⟩, rfl⟩ | ⟨failure, fresh, ⟨⟩, -⟩ | ⟨m, new, fresh, ⟨⟩, rfl⟩
  · exact ⟨h, .refl _, h.merged name _ known⟩
  · rw [h.definitions] at fresh
    refine ⟨⟨h.definitions, h.chain, ?_, h.grounded, h.closed⟩, .quiet [_] rfl rfl rfl rfl, fresh⟩
    intro other m' hm'
    replace hm' : (s.container.merged.set name _).find? other = some m' := hm'
    rw [Table.find?_set] at hm'
    split at hm'
    · rename_i same
      cases hm'
      rw [same]
      exact fresh
    · exact h.merged other m' hm'

/-- Where a definition cannot be merged, no component is made from it. -/
theorem Ready.unmerged (h : Ready t needs chain s) {failure : Failure}
    (run : outcome (mergedDefinition name) s = some (.error failure, s₁)) :
    s₁ = s ∧ ¬ Creatable t name := by
  rcases mergedDefinition_cases run with ⟨m, -, ⟨⟩, -⟩ | ⟨failure, fresh, -, rfl⟩ | ⟨m, -, -, ⟨⟩, -⟩
  rw [h.definitions] at fresh
  refine ⟨rfl, ?_⟩
  rintro ⟨d, -, -, -, resolvable⟩
  obtain ⟨m, hm⟩ := exists_freshMerge_iff.mpr resolvable
  rw [fresh] at hm
  cases hm

/-- A name has a definition to make a component from exactly if its merged definition is one. -/
theorem creatable_iff_of_freshMerge {m : MergedDefinition κ} (h : freshMerge t name = .ok m) :
    Creatable t name ↔ m.definition.kind = .component ∧ m.definition.template = false := by
  obtain ⟨d, found, same⟩ := freshMerge_ok h
  rw [same]
  constructor
  · rintro ⟨d', found', kind, template, -⟩
    rw [found] at found'
    cases found'
    exact ⟨kind, template⟩
  · rintro ⟨kind, template⟩
    exact ⟨d, found, kind, template, exists_freshMerge_iff.mp ⟨m, h⟩⟩

/-- How the request for some components ends: all of them are there, and nothing was made but what
    they reach; or one of them cannot be made. -/
structure Resolves (t : Table (Definition κ)) (needs : κ → List String)
    (chain : List (Extension κ)) (names : List String) (s : State κ ι ω) (r : Except Failure ι)
    (s' : State κ ι ω) : Prop where
  ready : Ready t needs chain s'
  done : ∀ value, r = .ok value → (∀ n ∈ names, Remembered s' n) ∧
    ∃ made, Fills t needs s s' made ∧ ∀ m ∈ made, ∃ n ∈ names, ReflTransGen (Needs t needs) n m
  failed : ∀ failure, r = .error failure → ∃ n ∈ names, ¬ Grounded t needs n

namespace Resolves

variable {names : List String}

theorem refused {failure : Failure} (ready : Ready t needs chain s')
    (h : ∃ n ∈ names, ¬ Grounded t needs n) :
    Resolves t needs chain names s (.error failure : Except Failure ι) s' where
  ready := ready
  done := by
    intro value hvalue
    cases hvalue
  failed := fun _ _ => h

theorem nil (ready : Ready t needs chain s) (value : ι) :
    Resolves t needs chain [] s (.ok value : Except Failure ι) s where
  ready := ready
  done := fun _ _ => ⟨fun n hn => absurd hn List.not_mem_nil, [], .refl s,
    fun m hm => absurd hm List.not_mem_nil⟩
  failed := by
    intro failure hfailure
    cases hfailure

/-- One component after the other. -/
theorem cons {value : ι} {r : Except Failure ι}
    (first : Resolves t needs chain [n] s (.ok value : Except Failure ι) s₁)
    (others : Resolves t needs chain names s₁ r s₂) :
    Resolves t needs chain (n :: names) s r s₂ := by
  obtain ⟨there, made₁, fills₁, from₁⟩ := first.done value rfl
  refine ⟨others.ready, ?_, ?_⟩
  · intro value' hvalue
    obtain ⟨there', made₂, fills₂, from₂⟩ := others.done value' hvalue
    refine ⟨?_, made₂ ++ made₁, fills₁.trans fills₂, ?_⟩
    · refine List.forall_mem_cons.mpr ⟨?_, there'⟩
      exact (fills₂.remembered n).mpr (.inr (there n (List.mem_singleton.mpr rfl)))
    · intro m hm
      rcases List.mem_append.mp hm with hm | hm
      · obtain ⟨k, hk, path⟩ := from₂ m hm
        exact ⟨k, List.mem_cons_of_mem n hk, path⟩
      · obtain ⟨k, hk, path⟩ := from₁ m hm
        exact ⟨n, List.mem_cons_self, List.mem_singleton.mp hk ▸ path⟩
  · intro failure hfailure
    obtain ⟨k, hk, h⟩ := others.failed failure hfailure
    exact ⟨k, List.mem_cons_of_mem n hk, h⟩

end Resolves

/-- **A list of requests ends as each of them does**, one component after the other up to the first
    that is refused. -/
theorem requestAll_resolves {depth : Nat} {names creating : List String} (make : List ι → ι)
    (each : ∀ n ∈ names, ∀ s, Ready t needs chain s → s.container.creating = creating →
      ∃ r s', serve b depth .full (.component n) s = some (r, s') ∧
        Resolves t needs chain [n] s r s')
    (ready : Ready t needs chain s) (same : s.container.creating = creating) :
    ∃ r s', (requestAll names make).run (serve b depth .full) s = some (r, s') ∧
      Resolves t needs chain names s r s' := by
  induction names generalizing s make with
  | nil => exact ⟨_, s, rfl, .nil ready _⟩
  | cons n names ih =>
      obtain ⟨r, s₁, run, first⟩ := each n List.mem_cons_self s ready same
      cases r with
      | error failure =>
          obtain ⟨k, hk, h⟩ := first.failed failure rfl
          refine ⟨_, s₁, run_requestAll_refused run, .refused first.ready ⟨k, ?_, h⟩⟩
          exact List.mem_cons.mpr (.inl (List.mem_singleton.mp hk))
      | ok value =>
          have same₁ : s₁.container.creating = creating :=
            (serve_course _ _ _ _ run).creating.trans same
          obtain ⟨r, s₂, rest, others⟩ := ih (fun values => make (value :: values))
            (fun k hk => each k (List.mem_cons_of_mem n hk)) first.ready same₁
          exact ⟨r, s₂, (run_requestAll_cons run).trans rest, first.cons others⟩

/-- Above a request for a component, names are being made that reach it; and there is room for all
    that are not. -/
structure Above (t : Table (Definition κ)) (needs : κ → List String) (room : Nat) (n : String)
    (creating : List String) : Prop where
  distinct : creating.Nodup
  registered : creating ⊆ t.keys
  paths : ∀ x ∈ creating, TransGen (Needs t needs) x n
  enough : t.size ≤ creating.length + room

namespace Above

variable {room : Nat} {creating : List String}

/-- A registered name that is not being made finds room, and there is room below it. -/
theorem step (h : Above t needs room n creating) (idle : n ∉ creating) (creatable : Creatable t n) :
    ∃ room', room = room' + 1 ∧
      ∀ m, Needs t needs n m → Above t needs room' m (n :: creating) := by
  have distinct : (n :: creating).Nodup := List.nodup_cons.mpr ⟨idle, h.distinct⟩
  have registered : n :: creating ⊆ t.keys :=
    List.cons_subset.mpr ⟨creatable.mem_keys, h.registered⟩
  have fits := (distinct.subperm registered).length_le
  rw [Table.keys, List.length_map, List.length_cons] at fits
  have enough := h.enough
  rw [Table.size] at enough
  cases room with
  | zero => omega
  | succ room =>
      refine ⟨room, rfl, fun m edge => ⟨distinct, registered, ?_, ?_⟩⟩
      · intro x hx
        rcases List.mem_cons.mp hx with rfl | hx
        · exact .single edge
        · exact (h.paths x hx).tail edge
      · rw [List.length_cons, Table.size]
        omega

end Above

section Made

variable {s₄ : State κ ι ω} {exec : Exec κ ι ω} {m : MergedDefinition κ}

/-- The request for a component whose supplier fails. -/
theorem outcome_component_failed {failure : Failure} (makes : Makes s n m s₁)
    (shown : outcome (showTo b n m (aware b (beginning s₁ n))) (beginning s₁ n) = some (.ok (), s₂))
    (supply : exec (b.supply m.definition.supplier) (supplied s₂ n m.definition) =
      some (.error failure, s₃)) :
    outcome (Container.component b exec n) s = some (.error failure, ending s₃ n) := by
  rw [outcome_component_made makes, outcome_create, shown]
  simp only [supply]

/-- The request for a component that passes through the chain. -/
theorem outcome_component_passed {value value' : ι} (makes : Makes s n m s₁)
    (shown : outcome (showTo b n m (aware b (beginning s₁ n))) (beginning s₁ n) = some (.ok (), s₂))
    (supply : exec (b.supply m.definition.supplier) (supplied s₂ n m.definition) =
      some (.ok value, s₃))
    (passed : outcome (passThrough b s₃ n m value) s₃ = some (.ok value', s₄)) :
    outcome (Container.component b exec n) s = some (.ok value', madeComponent s₄ n value') := by
  rw [outcome_component_made makes, outcome_create, shown]
  simp only [supply, passed]

/-- A component that is made of all that it needs is made after that, and not in the midst of it: it
    is on no circle. -/
theorem Resolves.made {d d' : Definition κ} {value value' : ι} (begun : Fills t needs s s₂ [])
    (new : ¬ Remembered s n) (found : t.find? n = some d) (creatable : Creatable t n)
    (supply : Resolves t needs chain (needs d.supplier) (supplied s₂ n d') (.ok value) s₃)
    (passed : Watched s₃ s₄) :
    Resolves t needs chain [n] s (.ok value' : Except Failure ι) (madeComponent s₄ n value') := by
  obtain ⟨there, names, inside, reached⟩ := supply.done value rfl
  have quiet : Fills t needs s₃ s₄ [] := .watched passed
  have below : ∀ k, Needs t needs n k → Remembered s₄ k := by
    intro k edge
    rw [quiet.same]
    exact there k ((needs_iff found).mp edge)
  have ready := supply.ready.watched passed
  have grounded : Grounded t needs n :=
    .intro creatable fun k edge => ready.grounded k (below k edge)
  -- Had it been made while its supplier ran, it would have been reached from what it needs.
  have once : n ∉ names := by
    intro hn
    obtain ⟨k, hk, path⟩ := reached n hn
    exact grounded.acyclic (.head' ((needs_iff found).mpr hk) path)
  refine ⟨ready.madeComponent creatable below value', ?_, ?_⟩
  · intro _ _
    refine ⟨?_, n :: names, begun.madeComponent (inside.trans quiet) once new below, ?_⟩
    · intro k hk
      exact remembered_madeComponent.mpr (.inl (List.mem_singleton.mp hk))
    · intro k hk
      refine ⟨n, List.mem_singleton.mpr rfl, ?_⟩
      rcases List.mem_cons.mp hk with rfl | hk
      · exact .refl
      · obtain ⟨j, hj, path⟩ := reached k hk
        exact .head ((needs_iff found).mpr hj) path
  · intro failure hfailure
    cases hfailure

/-- **A component is made of what its supplier asks for**, given how that ends. -/
theorem Makes.resolves (makes : Makes s n m s₁) (net : Net b t needs make chain) {depth : Nat}
    (ready : Ready t needs chain s)
    (supply : ∀ d s, t.find? n = some d → Ready t needs chain s →
      s.container.creating = n :: s₁.container.creating →
      ∃ r s', nested b depth .full (requestAll (needs d.supplier) (make d.supplier)) s =
        some (r, s') ∧ Resolves t needs chain (needs d.supplier) s r s') :
    ∃ r s', outcome (Container.component b (nested b depth .full) n) s = some (r, s') ∧
      Resolves t needs chain [n] s r s' := by
  obtain ⟨ready₁, merged, fresh⟩ := ready.merging makes.merged
  obtain ⟨d, found, is⟩ := freshMerge_ok fresh
  have asks := net.asks found is makes.kind makes.template
  have obliging : ∀ {s : State κ ι ω}, Ready t needs chain s →
      ∀ e ∈ s.container.chain, Obliging b e := by
    intro s h e he
    exact net.obliging e (h.chain ▸ he)
  have ready₁ := ready₁.beginning n
  obtain ⟨s₂, shown, watched⟩ := showTo_runs (aware b (beginning s₁ n))
    (fun e he => obliging ready₁ e (List.mem_of_mem_filter he)) n m (beginning s₁ n)
  have creating : (supplied s₂ n m.definition).container.creating = n :: s₁.container.creating :=
    congrArg Container.creating watched.container
  obtain ⟨r, s₃, run, resolves⟩ :=
    supply d _ found ((ready₁.watched watched).supplied n m.definition) creating
  rw [← asks] at run
  cases r with
  | error failure =>
      refine ⟨_, _, outcome_component_failed makes shown run,
        .refused (resolves.ready.ending n) ⟨n, List.mem_singleton.mpr rfl, fun grounded => ?_⟩⟩
      obtain ⟨k, hk, h⟩ := resolves.failed failure rfl
      exact h (grounded.needed ((needs_iff found).mpr hk))
  | ok value =>
      obtain ⟨value', s₄, passed, watched'⟩ := passThrough_runs (obliging resolves.ready) n m value
      refine ⟨_, _, outcome_component_passed makes shown run passed, ?_⟩
      have begun : Fills t needs s s₂ [] :=
        (merged.trans (.beginning s₁ n)).trans (.watched watched)
      have creatable : Creatable t n :=
        (creatable_iff_of_freshMerge fresh).mpr ⟨makes.kind, makes.template⟩
      exact .made begun (not_remembered makes.new) found creatable resolves watched'

end Made

/-! ## 5. All components -/

theorem Resolves.known (ready : Ready t needs chain s) {value : ι}
    (known : s.container.components.find? n = some value) :
    Resolves t needs chain [n] s (.ok value : Except Failure ι) s := by
  refine ⟨ready, ?_, ?_⟩
  · intro _ _
    refine ⟨?_, [], .refl s, fun m hm => absurd hm List.not_mem_nil⟩
    intro k hk
    rw [List.mem_singleton.mp hk]
    exact ⟨value, known⟩
  · intro failure hfailure
    cases hfailure

/-- The request for a component, given the requests below it. A name that is asked for while it is
    being made is on a circle. -/
theorem component_resolves_of_below (net : Net b t needs make chain) {depth : Nat} {view : View}
    (ready : Ready t needs chain s) (above : Above t needs depth n s.container.creating)
    (below : ∀ depth', depth = depth' + 1 → ∀ {m : String} {s : State κ ι ω},
      Ready t needs chain s → Above t needs depth' m s.container.creating →
      ∃ r s', serve b depth' .full (.component m) s = some (r, s') ∧
        Resolves t needs chain [m] s r s') :
    ∃ r s', serve b depth view (.component n) s = some (r, s') ∧
      Resolves t needs chain [n] s r s' := by
  simp only [serve_component]
  have self : n ∈ [n] := List.mem_singleton.mpr rfl
  cases new : s.container.components.find? n with
  | some value => exact ⟨_, _, outcome_component_known new, .known ready new⟩
  | none =>
      rcases merged : outcome (mergedDefinition n) s with _ | ⟨failure | m, s₁⟩
      · exact absurd merged outcome_mergedDefinition_ne_none
      · obtain ⟨rfl, h⟩ := ready.unmerged merged
        exact ⟨_, _, outcome_component_unmerged new merged,
          .refused ready ⟨n, self, fun grounded => h grounded.creatable⟩⟩
      · obtain ⟨ready₁, -, fresh⟩ := ready.merging merged
        have creatable := creatable_iff_of_freshMerge fresh
        have same : s₁.container.creating = s.container.creating := by
          rw [(mergedDefinition_ok merged).2]
        cases template : m.definition.template with
        | true =>
            refine ⟨_, _, outcome_component_template new merged template,
              .refused ready₁ ⟨n, self, fun grounded => ?_⟩⟩
            rw [(creatable.mp grounded.creatable).2] at template
            cases template
        | false =>
            cases kind : m.definition.kind with
            | postProcessor family =>
                refine ⟨_, _, outcome_component_unfit new merged template kind,
                  .refused ready₁ ⟨n, self, fun grounded => ?_⟩⟩
                rw [(creatable.mp grounded.creatable).1] at kind
                cases kind
            | component =>
                -- Asked for below itself, it needs itself; else there is room for one more.
                by_cases busy : n ∈ s₁.container.creating
                · exact ⟨_, _, outcome_component_busy new merged template kind busy,
                    .refused ready₁ ⟨n, self, fun grounded =>
                      grounded.acyclic (above.paths n (same ▸ busy))⟩⟩
                · have makes : Makes s n m s₁ := ⟨new, merged, template, kind, busy⟩
                  obtain ⟨depth', rfl, room⟩ :=
                    above.step (same ▸ busy) (creatable.mpr ⟨kind, template⟩)
                  refine makes.resolves net ready fun d s₂ found ready₂ creating₂ => ?_
                  refine requestAll_resolves _ ?_ ready₂ creating₂
                  intro k hk s₃ ready₃ creating₃
                  refine below depth' rfl ready₃ ?_
                  rw [creating₃, same]
                  exact room k ((needs_iff found).mpr hk)

/-- **The request for a component**, by induction on the depth. With each component that is being
    made there is less room. -/
theorem component_resolves (net : Net b t needs make chain) {depth : Nat} (view : View)
    (ready : Ready t needs chain s) (above : Above t needs depth n s.container.creating) :
    ∃ r s', serve b depth view (.component n) s = some (r, s') ∧
      Resolves t needs chain [n] s r s' := by
  induction depth generalizing n s view with
  | zero => exact component_resolves_of_below net ready above fun depth' h => nomatch h
  | succ depth ih =>
      refine component_resolves_of_below net ready above fun depth' h => ?_
      cases h
      exact ih .full

/-! ## 6. Resolution is a depth-first search -/

/-- The request is granted exactly if all that is reached can be made and is on no circle. -/
theorem Resolves.ok_iff {r : Except Failure ι} (h : Resolves t needs chain [n] s r s') :
    (∃ value, r = .ok value) ↔ Satisfiable t needs n := by
  rw [← grounded_iff_satisfiable]
  constructor
  · rintro ⟨value, rfl⟩
    exact h.ready.grounded n ((h.done value rfl).1 n (List.mem_singleton.mpr rfl))
  · intro grounded
    cases r with
    | ok value => exact ⟨value, rfl⟩
    | error failure =>
        obtain ⟨k, hk, refused⟩ := h.failed failure rfl
        rw [List.mem_singleton.mp hk] at refused
        exact absurd grounded refused

/-- What is remembered when a request has been granted, and how it came about. -/
theorem Resolves.ledger {value : ι} (none : ∀ m, ¬ Remembered s m)
    (h : Resolves t needs chain [n] s (.ok value : Except Failure ι) s') :
    (∀ m, Remembered s' m ↔ ReflTransGen (Needs t needs) n m) ∧
      ∃ events, s'.history = events ++ s.history ∧
        (suppliedNames events).Nodup ∧
        (∀ m, m ∈ suppliedNames events ↔ ReflTransGen (Needs t needs) n m) ∧
        (madeNames events).Nodup ∧
        (∀ m, m ∈ madeNames events ↔ ReflTransGen (Needs t needs) n m) ∧
        ∀ later m earlier, madeNames events = later ++ m :: earlier →
          ∀ k, Needs t needs m k → k ∈ earlier := by
  obtain ⟨there, made, fills, reached⟩ := h.done value rfl
  have remembered : ∀ m, Remembered s' m ↔ m ∈ made := by
    intro m
    rw [fills.remembered]
    exact or_iff_left (none m)
  have mem : ∀ m, m ∈ made ↔ ReflTransGen (Needs t needs) n m := by
    intro m
    constructor
    · intro hm
      obtain ⟨k, hk, path⟩ := reached m hm
      rwa [List.mem_singleton.mp hk] at path
    · intro path
      exact (remembered m).mp (h.ready.reached (there n (List.mem_singleton.mpr rfl)) path)
  obtain ⟨events, past, rfl, supplied⟩ := fills.history
  refine ⟨fun m => (remembered m).trans (mem m), events, past, ?_, ?_, ?_, mem, ?_⟩
  · exact supplied.nodup_iff.mpr fills.orderly.nodup
  · exact fun m => supplied.mem_iff.trans (mem m)
  · exact fills.orderly.nodup
  · intro later m earlier cut k edge
    have orderly := fills.orderly
    rw [cut] at orderly
    cases orderly.from_suffix with
    | cons once new below rest => exact (below k edge).resolve_right (none k)

/-- **The resolution of components is a correct depth-first search**, where the suppliers ask for
    other components only and the chain lets everything pass. It has an end, and succeeds exactly
    if all that is reached can be made and is on no circle. Then what is reached is remembered and
    nothing else; for each such name the supplier has run once, and its component was made after
    all that it needs. Be it a success or not, no component is remembered that reaches a circle or
    what cannot be made, none without all that it needs, and nothing is left being made. -/
theorem resolution_is_depth_first (net : Net b t needs make s.container.chain)
    (definitions : s.container.definitions = t) (components : s.container.components = .empty)
    (merged : s.container.merged = .empty) (creating : s.container.creating = [])
    {depth : Nat} (enough : t.size ≤ depth) (view : View) (n : String) :
    ∃ r s', serve b depth view (.component n) s = some (r, s') ∧
      ((∃ value, r = .ok value) ↔ Satisfiable t needs n) ∧
      ((∃ value, r = .ok value) →
        (∀ m, Remembered s' m ↔ ReflTransGen (Needs t needs) n m) ∧
        ∃ events, s'.history = events ++ s.history ∧
          (suppliedNames events).Nodup ∧
          (∀ m, m ∈ suppliedNames events ↔ ReflTransGen (Needs t needs) n m) ∧
          (madeNames events).Nodup ∧
          (∀ m, m ∈ madeNames events ↔ ReflTransGen (Needs t needs) n m) ∧
          ∀ later m earlier, madeNames events = later ++ m :: earlier →
            ∀ k, Needs t needs m k → k ∈ earlier) ∧
      (∀ m, Remembered s' m →
        Satisfiable t needs m ∧ ∀ k, Needs t needs m k → Remembered s' k) ∧
      s'.container.creating = [] := by
  have none : ∀ m, ¬ Remembered s m := by
    intro m
    refine not_remembered ?_
    rw [components, Table.find?_empty]
  have ready : Ready t needs s.container.chain s := by
    refine ⟨definitions, rfl, ?_, fun m hm => absurd hm (none m), fun m k hm => absurd hm (none m)⟩
    intro m merge found
    rw [merged, Table.find?_empty] at found
    cases found
  have above : Above t needs depth n s.container.creating := by
    rw [creating]
    exact ⟨List.nodup_nil, List.nil_subset _, fun x hx => absurd hx List.not_mem_nil,
      Nat.le_add_left_of_le enough⟩
  obtain ⟨r, s', run, resolves⟩ := component_resolves net view ready above
  refine ⟨r, s', run, resolves.ok_iff, ?_, ?_, ?_⟩
  · rintro ⟨value, rfl⟩
    exact resolves.ledger none
  · intro m hm
    exact ⟨grounded_iff_satisfiable.mp (resolves.ready.grounded m hm),
      fun k edge => resolves.ready.closed m k hm edge⟩
  · exact (serve_course _ _ _ _ run).creating.trans creating

/-- The behaviour where a supplier asks for the names that are its code, and counts what it gets
    together with itself. -/
def counting : Behaviour (List String) Nat Unit where
  name _ := ""
  supply names := requestAll names fun values => values.foldl (· + ·) 1
  build code := .done (.ok code)
  onRegistry _ := .done (.ok ())
  onFactory _ := .done (.ok ())
  mergedAware _ := true
  onMerged _ _ _ world := (.ok (), world)
  before _ value _ world := (.ok value, world)
  after _ value _ world := (.ok value, world)

theorem counting_net (t : Table (Definition (List String)))
    (chain : List (Extension (List String))) :
    Net counting t id (fun _ values => values.foldl (· + ·) 1) chain where
  supply _ _ _ _ _ := rfl
  obliging _ _ := ⟨fun _ _ _ _ _ => rfl, fun _ _ value _ _ => ⟨value, rfl⟩,
    fun _ _ value _ _ => ⟨value, rfl⟩⟩

/-- The definition of a component that counts the components of those names. -/
def countOf (name : String) (names : List String) : Definition (List String) :=
  { name := name, typeName := "Count", kind := .component, supplier := names }

/-- Two ways lead from "a" to "d"; and "e" asks for "d" and then for itself. -/
def diamond : State (List String) Nat Unit where
  container :=
    { definitions := [countOf "a" ["b", "c"], countOf "b" ["d"], countOf "c" ["d"], countOf "d" [],
        countOf "e" ["d", "e"]].foldl (fun t d => t.set d.name d) .empty
      chain := [⟨0, .custom []⟩, ⟨1, .listeners⟩] }
  world := ()

/-- The component "d" is made once for both that need it. Where "e" fails, "d" is left. -/
theorem diamond_resolved_depth_first :
    (∃ s', serve counting 5 .full (.component "a") diamond = some (.ok 5, s') ∧
      Satisfiable diamond.container.definitions id "a" ∧ (suppliedNames s'.history).Nodup ∧
      "d" ∈ suppliedNames s'.history ∧ s'.container.creating = []) ∧
    ∃ s', serve counting 5 .full (.component "e") diamond =
        some (.error (.circularReference "e"), s') ∧
      ¬ Satisfiable diamond.container.definitions id "e" ∧ Remembered s' "d" ∧
      Satisfiable diamond.container.definitions id "d" ∧ s'.container.creating = [] := by
  have net := counting_net diamond.container.definitions diamond.container.chain
  have resolution := resolution_is_depth_first net rfl rfl rfl rfl (Nat.le_refl 5) .full
  constructor
  · obtain ⟨r, s', run, ok, done, -, creating⟩ := resolution "a"
    have answer : (serve counting 5 .full (.component "a") diamond).map Prod.fst =
        some (.ok 5) := by
      decide +kernel
    rw [run] at answer
    cases answer
    obtain ⟨-, events, past, once, supplied, -⟩ := done ⟨5, rfl⟩
    have first : Needs diamond.container.definitions id "a" "b" := ⟨_, rfl, by decide⟩
    have second : Needs diamond.container.definitions id "b" "d" := ⟨_, rfl, by decide⟩
    have path := (ReflTransGen.single first).tail second
    rw [show events = s'.history from (past.trans (List.append_nil events)).symm] at once supplied
    exact ⟨s', run, ok.mp ⟨5, rfl⟩, once, (supplied "d").mpr path, creating⟩
  · obtain ⟨r, s', run, ok, -, left, creating⟩ := resolution "e"
    have answer : (serve counting 5 .full (.component "e") diamond).map (fun r =>
        (r.1, r.2.container.components.find? "d")) =
          some (.error (.circularReference "e"), some 1) := by
      decide +kernel
    rw [run] at answer
    obtain ⟨rfl, found⟩ := Prod.mk.inj (Option.some.inj answer)
    have remembered : Remembered s' "d" := ⟨1, found⟩
    refine ⟨s', run, fun satisfiable => ?_, remembered, (left "d" remembered).1, creating⟩
    obtain ⟨value, hvalue⟩ := ok.mpr satisfiable
    cases hvalue

end Container

end ComponentContainer
