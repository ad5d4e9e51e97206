/-
  File:      ComponentContainer/Proofs/Values.lean
  Subject:   The component that belongs to a name, where suppliers ask for components only.

  * `Steady` -- an extension whose hooks succeed and do not look at the world; `Extension.turned`,
    `passed` -- what it makes of a component, and what a chain of such extensions does.
  * `Gives` -- an attempt that yields this if anything, in whatever state it is made.
  * `Valued` -- **the component that belongs to a name**, computed from the definitions alone;
    `Valued.unique` -- there is one at most.
  * `Truthful` -- the invariant between two requests: what is remembered under a name belongs to it;
    `component_valued` -- **and so does what is made**, by induction on the depth.
-/
import ComponentContainer.Proofs.Resolution
import Mathlib.Data.List.Forall2

namespace ComponentContainer

variable {κ ι ω α β : Type}

/-! ## 1. Hooks that are functions -/

/-- What the code of an extension makes of a component; the watchers let it pass as it is. -/
def Extension.turned (hook : κ → Creation κ → ι → ι) (creation : Creation κ) (value : ι)
    (e : Extension κ) : ι :=
  match e.body with
  | .custom code => hook code creation value
  | _ => value

namespace Attempt

/-- In whatever state the attempt is made, it yields this if it has an end. -/
def Gives (x : Attempt κ ι ω α) (a : α) : Prop :=
  ∀ ⦃s y s'⦄, outcome x s = some (y, s') → y = .ok a

namespace Gives

theorem pure (a : α) : Gives (Pure.pure a : Attempt κ ι ω α) a := by
  intro s y s' h
  cases h
  rfl

theorem bind {x : Attempt κ ι ω α} {f : α → Attempt κ ι ω β} {a : α} {c : β} (hx : Gives x a)
    (hf : Gives (f a) c) : Gives (x >>= f) c := by
  intro s y s' h
  rw [outcome_bind] at h
  rcases first : outcome x s with _ | ⟨r, s₁⟩
  · rw [first] at h
    cases h
  · rw [first, hx first] at h
    exact hf h

/-- What an act yields does not matter if it is all the same afterwards. -/
theorem perform_bind {x : Act κ ι ω α} {f : α → Attempt κ ι ω β} {c : β}
    (hf : ∀ a, Gives (f a) c) : Gives (perform x >>= f) c := by
  intro s y s' h
  rcases first : x s with _ | ⟨a, s₁⟩
  · rw [outcome_bind, outcome_perform, first] at h
    cases h
  · rw [outcome_perform_bind first] at h
    exact hf a h

theorem outside {f : ω → Except Failure α × ω} {a : α} (h : ∀ world, (f world).1 = .ok a) :
    Gives (ofOutcome (Act.outside f) : Attempt κ ι ω α) a := by
  intro s y s' run
  rw [outcome_ofOutcome, Act.run_outside] at run
  cases run
  exact h s.world

theorem foldlM {f : α → β → Attempt κ ι ω α} {g : α → β → α} {l : List β}
    (hf : ∀ x ∈ l, ∀ a, Gives (f a x) (g a x)) (a : α) : Gives (l.foldlM f a) (l.foldl g a) := by
  induction l generalizing a with
  | nil => exact pure a
  | cons x l ih =>
      obtain ⟨first, rest⟩ := List.forall_mem_cons.mp hf
      rw [List.foldlM_cons, List.foldl_cons]
      exact bind (first a) (ih rest (g a x))

end Gives

end Attempt

namespace Container

open Act Attempt

/-- The hooks of the extension succeed; what they make of a component is a function of it and of what
    is told about its creation. -/
structure Steady (b : Behaviour κ ι ω) (early late : κ → Creation κ → ι → ι) (e : Extension κ) :
    Prop where
  merged : ∀ code, e.body = .custom code → ∀ m name world,
    (b.onMerged code m name world).1 = .ok ()
  before : ∀ code, e.body = .custom code → ∀ value creation world,
    (b.before code value creation world).1 = .ok (early code creation value)
  after : ∀ code, e.body = .custom code → ∀ value creation world,
    (b.after code value creation world).1 = .ok (late code creation value)

/-- What a chain makes of a component that has come from its supplier. -/
def passed (early late : κ → Creation κ → ι → ι) (chain : List (Extension κ)) (name : String)
    (m : MergedDefinition κ) (value : ι) : ι :=
  chain.foldl (Extension.turned late ⟨name, some m, chain.length⟩)
    (chain.foldl (Extension.turned early ⟨name, some m, chain.length⟩) value)

variable {b : Behaviour κ ι ω} {s s' s₁ s₂ : State κ ι ω} {name n : String}
  {early late : κ → Creation κ → ι → ι}

namespace Steady

variable {e : Extension κ}

theorem obliging (h : Steady b early late e) : Obliging b e where
  merged := h.merged
  before code body value creation world := ⟨_, h.before code body value creation world⟩
  after code body value creation world := ⟨_, h.after code body value creation world⟩

theorem seeBefore (h : Steady b early late e) (creation : Creation κ) (value : ι) :
    Gives (Extension.seeBefore b creation value e) (e.turned early creation value) := by
  refine .perform_bind fun _ => ?_
  unfold Extension.turned
  cases body : e.body with
  | custom code => exact .outside (h.before code body value creation)
  | completeness target => exact .pure value
  | listeners => exact .pure value

theorem seeAfter (h : Steady b early late e) (creation : Creation κ) (value : ι) :
    Gives (Extension.seeAfter b creation value e) (e.turned late creation value) := by
  -- what the watchers announce and note does not matter
  have told (n : Notice) (name : String) : Gives (do
      Attempt.perform (announce n)
      Attempt.perform (note e.id name)
      Pure.pure value : Attempt κ ι ω ι) value :=
    .perform_bind fun _ => .perform_bind fun _ => .pure value
  refine .perform_bind fun _ => ?_
  unfold Extension.turned
  cases body : e.body with
  | custom code => exact .outside (h.after code body value creation)
  | completeness target =>
      show Gives (if _ then _ else _) value
      split
      · exact told _ _
      · exact .pure value
  | listeners =>
      refine .perform_bind fun s => ?_
      show Gives (if _ then _ else _) value
      split
      · exact told _ _
      · exact .pure value

end Steady

/-- Where the chain is steady, what it makes of a component depends on nothing else. -/
theorem passThrough_gives (h : ∀ e ∈ s.container.chain, Steady b early late e) (name : String)
    (m : MergedDefinition κ) (value : ι) :
    Gives (passThrough b s name m value) (passed early late s.container.chain name m value) :=
  .bind (.foldlM (fun e mem value => (h e mem).seeBefore _ value) value)
    (.foldlM (fun e mem value => (h e mem).seeAfter _ value) _)

/-! ## 2. The component that belongs to a name -/

section

variable {t : Table (Definition κ)} {needs : κ → List String} {make : κ → List ι → ι}
  {pass : String → MergedDefinition κ → ι → ι}

/-- **The component that belongs to a name**: what its supplier makes of the components that belong to
    the names it asks for, and what the chain makes of that. -/
inductive Valued (t : Table (Definition κ)) (needs : κ → List String) (make : κ → List ι → ι)
    (pass : String → MergedDefinition κ → ι → ι) : String → ι → Prop
  | intro {name : String} {d : Definition κ} {m : MergedDefinition κ} {values : List ι}
      (found : t.find? name = some d) (merged : freshMerge t name = .ok m)
      (length : (needs d.supplier).length = values.length)
      (below : ∀ p ∈ (needs d.supplier).zip values, Valued t needs make pass p.1 p.2) :
      Valued t needs make pass name (pass name m (make d.supplier values))

/-- Two lists of values for the same names are the same, if each name has one value. -/
theorem eq_of_zip {P : String → ι → Prop} {names : List String} {values values' : List ι}
    (length : names.length = values.length) (length' : names.length = values'.length)
    (unique : ∀ p ∈ names.zip values, ∀ value', P p.1 value' → p.2 = value')
    (holds : ∀ p ∈ names.zip values', P p.1 p.2) : values = values' := by
  induction names generalizing values values' with
  | nil =>
      rw [List.eq_nil_of_length_eq_zero length.symm, List.eq_nil_of_length_eq_zero length'.symm]
  | cons name names ih =>
      cases values with
      | nil => simp at length
      | cons value values =>
          cases values' with
          | nil => simp at length'
          | cons value' values' =>
              simp only [List.zip_cons_cons, List.forall_mem_cons] at unique holds
              have first : value = value' := unique.1 value' holds.1
              have rest : values = values' := ih (by simpa using length) (by simpa using length')
                unique.2 holds.2
              rw [first, rest]

/-- **At most one component belongs to a name.** The induction is on how the first one is computed. -/
theorem Valued.unique {value value' : ι} (h : Valued t needs make pass name value)
    (h' : Valued t needs make pass name value') : value = value' := by
  induction h generalizing value' with
  | @intro name d m values found merged length below ih =>
      cases h' with
      | @intro _ d' m' values' found' merged' length' below' =>
          rw [found] at found'
          cases found'
          rw [merged] at merged'
          cases merged'
          have same : values = values' :=
            eq_of_zip length length' (fun p mem value' h' => ih p mem h') below'
          rw [same]

end

/-! ## 3. What is made belongs to its name -/

variable {t : Table (Definition κ)} {needs : κ → List String} {make : κ → List ι → ι}
  {chain : List (Extension κ)} {pass : String → MergedDefinition κ → ι → ι}

/-- **The invariant between two requests**: what is remembered under a name belongs to it. -/
structure Truthful (t : Table (Definition κ)) (needs : κ → List String) (make : κ → List ι → ι)
    (pass : String → MergedDefinition κ → ι → ι) (chain : List (Extension κ)) (s : State κ ι ω) :
    Prop where
  definitions : s.container.definitions = t
  chain : s.container.chain = chain
  merged : ∀ name m, s.container.merged.find? name = some m → freshMerge t name = .ok m
  valued : ∀ name value, s.container.components.find? name = some value →
    Valued t needs make pass name value

namespace Truthful

theorem of_same (h : Truthful t needs make pass chain s)
    (definitions : s'.container.definitions = s.container.definitions)
    (sameChain : s'.container.chain = s.container.chain)
    (merged : s'.container.merged = s.container.merged)
    (components : s'.container.components = s.container.components) :
    Truthful t needs make pass chain s' where
  definitions := definitions.trans h.definitions
  chain := sameChain.trans h.chain
  merged := merged ▸ h.merged
  valued := components ▸ h.valued

theorem watched (h : Truthful t needs make pass chain s) (hw : Watched s s') :
    Truthful t needs make pass chain s' := by
  refine h.of_same ?_ ?_ ?_ ?_ <;> rw [hw.container]

theorem merging (h : Truthful t needs make pass chain s)
    {r : Except Failure (MergedDefinition κ)}
    (run : outcome (mergedDefinition name) s = some (r, s₁)) :
    Truthful t needs make pass chain s₁ ∧ ∀ m, r = .ok m → freshMerge t name = .ok m := by
  rcases mergedDefinition_cases run with
    ⟨m, known, rfl, rfl⟩ | ⟨failure, fresh, rfl, rfl⟩ | ⟨m, new, fresh, rfl, rfl⟩
  · exact ⟨h, fun m' is => by cases is; exact h.merged name m known⟩
  · exact ⟨h, fun m is => nomatch is⟩
  · rw [h.definitions] at fresh
    refine ⟨⟨h.definitions, h.chain, fun other m' found => ?_, h.valued⟩,
      fun m' is => by cases is; exact fresh⟩
    replace found : (s.container.merged.set name m).find? other = some m' := found
    rw [Table.find?_set] at found
    by_cases same : other = name
    · rw [if_pos same] at found
      cases found
      rw [same]
      exact fresh
    · rw [if_neg same] at found
      exact h.merged other m' found

theorem madeComponent (h : Truthful t needs make pass chain s) {value : ι}
    (belongs : Valued t needs make pass name value) :
    Truthful t needs make pass chain (madeComponent s name value) where
  definitions := h.definitions
  chain := h.chain
  merged := h.merged
  valued := by
    intro other value' found
    replace found : (s.container.components.set name value).find? other = some value' := found
    rw [Table.find?_set] at found
    by_cases same : other = name
    · rw [if_pos same] at found
      cases found
      rw [same]
      exact belongs
    · rw [if_neg same] at found
      exact h.valued other value' found

end Truthful

/-- **A list of requests yields what belongs to the names**, if each request does. -/
theorem requestAll_valued {I : State κ ι ω → Prop} {R : String → ι → Prop}
    {handler : Program.Handler (factoryInterface κ ι ω) (State κ ι ω)} {names : List String}
    (make : List ι → ι)
    (each : ∀ n ∈ names, ∀ s (r : Except Failure ι) s', I s →
      handler (.component n) s = some (r, s') → I s' ∧ ∀ value, r = .ok value → R n value)
    {r : Except Failure ι} (start : I s)
    (run : (requestAll names make).run handler s = some (r, s')) :
    I s' ∧ ∀ value, r = .ok value → ∃ values, List.Forall₂ R names values ∧ value = make values := by
  induction names generalizing s make with
  | nil =>
      cases run
      exact ⟨start, fun value is => by cases is; exact ⟨[], .nil, rfl⟩⟩
  | cons n names ih =>
      obtain ⟨first, others⟩ := List.forall_mem_cons.mp each
      rcases asked : handler (.component n) s with _ | ⟨failure | value, s₁⟩
      · rw [requestAll, Program.run, asked] at run
        cases run
      · rw [run_requestAll_refused asked] at run
        cases run
        exact ⟨(first s _ _ start asked).1, fun value is => by cases is⟩
      · rw [run_requestAll_cons asked] at run
        obtain ⟨kept, belongs⟩ := first s _ _ start asked
        obtain ⟨ended, rest⟩ := ih (fun values => make (value :: values)) others kept run
        refine ⟨ended, fun value' is => ?_⟩
        obtain ⟨values, pairs, made⟩ := rest value' is
        exact ⟨value :: values, .cons (belongs value rfl) pairs, made⟩

/-- The request for a component, given what the requests below it yield. -/
theorem component_valued_of_below (net : Net b t needs make chain)
    (steady : ∀ e ∈ chain, Steady b early late e) {depth : Nat} {view : View}
    (below : ∀ (d : Definition κ) (s : State κ ι ω) r s',
      Truthful t needs make (passed early late chain) chain s →
      nested b depth .full (requestAll (needs d.supplier) (make d.supplier)) s = some (r, s') →
      Truthful t needs make (passed early late chain) chain s' ∧ ∀ value, r = .ok value →
        ∃ values, List.Forall₂ (Valued t needs make (passed early late chain)) (needs d.supplier)
          values ∧ value = make d.supplier values)
    (truthful : Truthful t needs make (passed early late chain) chain s) {r : Except Failure ι}
    (run : serve b depth view (.component n) s = some (r, s')) :
    Truthful t needs make (passed early late chain) chain s' ∧
      ∀ value, r = .ok value → Valued t needs make (passed early late chain) n value := by
  rw [serve_component] at run
  cases new : s.container.components.find? n with
  | some value =>
      rw [outcome_component_known new] at run
      cases run
      exact ⟨truthful, fun value' is => by cases is; exact truthful.valued n value new⟩
  | none =>
      obtain ⟨failure, merged, refused, merging⟩ | ⟨m, s₁, makes⟩ := component_new_cases new run
      · rw [refused]
        exact ⟨(truthful.merging merging).1, fun value is => nomatch is⟩
      · obtain ⟨truthful₁, fresh⟩ := truthful.merging makes.merged
        obtain ⟨d, found, is⟩ := freshMerge_ok (fresh m rfl)
        have asks := net.asks found is makes.kind makes.template
        have begun : Truthful t needs make (passed early late chain) chain (beginning s₁ n) :=
          truthful₁.of_same rfl rfl rfl rfl
        rw [outcome_component_made makes, outcome_create] at run
        rcases shown : outcome (showTo b n m (aware b (beginning s₁ n))) (beginning s₁ n) with
          _ | ⟨failure | u, s₂⟩
        · rw [shown] at run
          cases run
        · rw [shown] at run
          cases run
          have seen := begun.watched (showTo_watches _ shown)
          exact ⟨seen.of_same rfl rfl rfl rfl, fun value is => nomatch is⟩
        · have seen := begun.watched (showTo_watches _ shown)
          have supplied : Truthful t needs make (passed early late chain) chain
              (supplied s₂ n m.definition) := seen.of_same rfl rfl rfl rfl
          rw [shown] at run
          simp only [asks] at run
          rcases supply : nested b depth .full (requestAll (needs d.supplier) (make d.supplier))
            (Container.supplied s₂ n m.definition) with _ | ⟨failure | value, s₃⟩
          · rw [supply] at run
            cases run
          · rw [supply] at run
            cases run
            obtain ⟨ended, -⟩ := below d _ _ _ supplied supply
            exact ⟨ended.of_same rfl rfl rfl rfl, fun value is => nomatch is⟩
          · rw [supply] at run
            obtain ⟨ended, yields⟩ := below d _ _ _ supplied supply
            obtain ⟨values, pairs, rfl⟩ := yields value rfl
            obtain ⟨length, zipped⟩ := List.forall₂_iff_zip.mp pairs
            have belongs : Valued t needs make (passed early late chain) n
                (passed early late chain n m (make d.supplier values)) :=
              .intro found (fresh m rfl) length fun p mem => zipped mem
            have hooks : ∀ e ∈ s₃.container.chain, Steady b early late e := by
              rw [ended.chain]
              exact steady
            rcases through : outcome (passThrough b s₃ n m (make d.supplier values)) s₃ with
              _ | ⟨y, s₄⟩
            · simp only [through] at run
              cases run
            · have gives := passThrough_gives hooks n m (make d.supplier values) through
              rw [ended.chain] at gives
              simp only [through, gives] at run
              cases run
              have closing := ended.watched (passThrough_watches _ _ through)
              exact ⟨closing.madeComponent belongs, fun value is => by cases is; exact belongs⟩

/-- **The request for a component yields the one that belongs to the name**, if it yields any. The
    induction is on the depth. -/
theorem component_valued (net : Net b t needs make chain)
    (steady : ∀ e ∈ chain, Steady b early late e) {depth : Nat} {view : View}
    (truthful : Truthful t needs make (passed early late chain) chain s) {r : Except Failure ι}
    (run : serve b depth view (.component n) s = some (r, s')) :
    Truthful t needs make (passed early late chain) chain s' ∧
      ∀ value, r = .ok value → Valued t needs make (passed early late chain) n value := by
  induction depth generalizing n s s' r view with
  | zero =>
      refine component_valued_of_below net steady (fun d s r s' _ ended => ?_) truthful run
      cases ended
  | succ depth ih =>
      refine component_valued_of_below net steady (fun d s r s' start ended => ?_) truthful run
      exact requestAll_valued _ (fun k _ s r s' kept asked => ih kept asked) start ended

end Container

end ComponentContainer
