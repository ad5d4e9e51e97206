/-
  File:      ComponentContainer/Proofs/Making.lean
  Subject:   What is called for a component while it is made.

  * `InTurn` -- hooks are called one after another, each with what the one before it has returned,
    until one fails; `inTurn_iff` -- such calls are what a fold over the hooks does.
  * `Creates` -- **the making of a component, call by call**: those that want to see the merged
    definition, the supplier, and the hooks of the chain as the supplier has left it.
  * `callsFor` -- the calls for a component, read off the history; `serve_leavesAlone` -- **while a
    component is made, no request makes a call for it**, be it the request for the component itself.
  * `made_in_order` -- the request for a component makes these calls, and no others for it.
-/
import Mathlib
import ComponentContainer.Proofs.Stability

namespace ComponentContainer

variable {κ ι ω α β : Type}

/-! ## 1. Hooks in turn -/

namespace Attempt

/-- **Hooks are called in turn**, each with what the one before it has returned, until one fails: from
    a value and a state, with the hooks that are called and what each is given, to the outcome. -/
inductive InTurn (hook : α → β → Attempt κ ι ω α) : List β → α → State κ ι ω → List (β × α) →
    Except Failure α → State κ ι ω → Prop
  | done {value : α} {s : State κ ι ω} : InTurn hook [] value s [] (.ok value) s
  | failing {e : β} {es : List β} {value : α} {failure : Failure} {s t : State κ ι ω}
      (called : outcome (hook value e) s = some (.error failure, t)) :
      InTurn hook (e :: es) value s [(e, value)] (.error failure) t
  | passing {e : β} {es : List β} {value passed : α} {s s₁ t : State κ ι ω}
      {calls : List (β × α)} {r : Except Failure α}
      (called : outcome (hook value e) s = some (.ok passed, s₁))
      (rest : InTurn hook es passed s₁ calls r t) :
      InTurn hook (e :: es) value s ((e, value) :: calls) r t

variable {hook : α → β → Attempt κ ι ω α} {es : List β} {value : α} {s t : State κ ι ω}
  {calls : List (β × α)} {r : Except Failure α}

/-- **That is what a fold does.** -/
theorem inTurn_iff :
    outcome (es.foldlM hook value) s = some (r, t) ↔ ∃ calls, InTurn hook es value s calls r t := by
  constructor
  · intro h
    induction es generalizing value s with
    | nil =>
        cases h
        exact ⟨[], .done⟩
    | cons e es ih =>
        rw [List.foldlM_cons, outcome_bind] at h
        rcases called : outcome (hook value e) s with _ | ⟨failure | passed, s₁⟩
        · rw [called] at h
          cases h
        · rw [called] at h
          cases h
          exact ⟨_, .failing called⟩
        · rw [called] at h
          obtain ⟨calls, rest⟩ := ih h
          exact ⟨_, .passing called rest⟩
  · rintro ⟨calls, h⟩
    induction h with
    | done => rfl
    | failing called => rw [List.foldlM_cons, outcome_bind, called]
    | passing called rest ih => rw [List.foldlM_cons, outcome_bind_of_ok called, ih]

/-- If none fails, each is called once, in order. -/
theorem InTurn.all (h : InTurn hook es value s calls r t) {passed : α} (ok : r = .ok passed) :
    calls.map Prod.fst = es := by
  induction h with
  | done => rfl
  | failing called => cases ok
  | passing called rest ih => rw [List.map_cons, ih ok]

theorem forM_eq_foldlM (f : β → Attempt κ ι ω PUnit) (es : List β) :
    es.forM f = es.foldlM (fun _ e => f e) ⟨⟩ := by
  induction es with
  | nil => rfl
  | cons e es ih =>
      rw [List.foldlM_cons]
      exact congrArg (f e >>= ·) (funext fun _ => ih)

end Attempt

/-! ## 2. The calls of a making -/

/-- A hook that a new component goes through. -/
inductive Passage (κ : Type) where
  | before (extension : Extension κ)
  | after (extension : Extension κ)
  deriving DecidableEq

namespace Passage

/-- A component goes through the hook. -/
def run (b : Behaviour κ ι ω) (creation : Creation κ) (value : ι) : Passage κ → Attempt κ ι ω ι
  | .before e => e.seeBefore b creation value
  | .after e => e.seeAfter b creation value

/-- The call of the hook. -/
def call (creation : Creation κ) (value : ι) : Passage κ → Event κ ι
  | .before e => .sawBefore e creation value
  | .after e => .sawAfter e creation value

end Passage

/-- **The hooks of a chain**: all those before the initialization, then all those after it. -/
def passages (chain : List (Extension κ)) : List (Passage κ) :=
  chain.map .before ++ chain.map .after

/-- The component that something is called for in the course of its making. -/
def Event.calledFor? : Event κ ι → Option String
  | .supplied name _ => some name
  | .sawMerged _ name => some name
  | .sawBefore _ creation _ => some creation.name
  | .sawAfter _ creation _ => some creation.name
  | _ => none

/-- It is a call for that component. -/
def Event.isFor (name : String) (e : Event κ ι) : Bool := e.calledFor? == some name

/-- The calls for a component among what has happened, in order. -/
def callsFor (name : String) (events : List (Event κ ι)) : List (Event κ ι) :=
  (events.filter (Event.isFor name)).reverse

/-- Between the two states these were the calls for the component. -/
def CallsBetween (name : String) (s t : State κ ι ω) (calls : List (Event κ ι)) : Prop :=
  ∃ events, t.history = events ++ s.history ∧ callsFor name events = calls

namespace CallsBetween

variable {name : String} {s t u : State κ ι ω} {calls calls' : List (Event κ ι)}

theorem refl (s : State κ ι ω) : CallsBetween name s s [] := ⟨[], rfl, rfl⟩

theorem trans (h₁ : CallsBetween name s t calls) (h₂ : CallsBetween name t u calls') :
    CallsBetween name s u (calls ++ calls') := by
  obtain ⟨events, past, rfl⟩ := h₁
  obtain ⟨events', past', rfl⟩ := h₂
  refine ⟨events' ++ events, by rw [past', past, List.append_assoc], ?_⟩
  unfold callsFor
  rw [List.filter_append, List.reverse_append]

/-- One call, with what it announces. -/
theorem one {e : Event κ ι} (more : List (Event κ ι)) (past : t.history = more ++ e :: s.history)
    (silent : callsFor name more = []) : CallsBetween name s t ([e].filter (Event.isFor name)) := by
  refine ⟨more ++ [e], by rw [past, List.append_assoc, List.singleton_append], ?_⟩
  have only : callsFor name [e] = [e].filter (Event.isFor name) := by
    unfold callsFor
    cases h : e.isFor name <;> simp [h]
  rw [← only, callsFor, List.filter_append, List.reverse_append, ← callsFor, ← callsFor, silent,
    List.append_nil]

/-- What happens is no call for the component. -/
theorem quiet (events : List (Event κ ι)) (past : t.history = events ++ s.history)
    (silent : callsFor name events = []) : CallsBetween name s t [] := ⟨events, past, silent⟩

/-- Hooks in turn, each of which is called for some component. -/
theorem inTurn {hook : α → β → Attempt κ ι ω α} (call : β × α → Event κ ι) {es : List β} {value : α}
    {given : List (β × α)} {r : Except Failure α}
    (h : Attempt.InTurn hook es value s given r t)
    (each : ∀ {value e s t r}, Attempt.outcome (hook value e) s = some (r, t) →
      CallsBetween name s t ([call (e, value)].filter (Event.isFor name))) :
    CallsBetween name s t ((given.map call).filter (Event.isFor name)) := by
  induction h with
  | done => exact .refl _
  | failing called => exact each called
  | passing called rest ih =>
      rw [List.map_cons, ← List.singleton_append, List.filter_append]
      exact (each called).trans ih

end CallsBetween

namespace Container

open Act Attempt

variable {b : Behaviour κ ι ω} {exec : Exec κ ι ω} {name other : String} {s s₁ s' t : State κ ι ω}
  {m : MergedDefinition κ} {calls : List (Event κ ι)} {r : Except Failure ι}

/-- **The making of a component, call by call**, from the state in which it begins: with the calls, in
    order, and the outcome. Those in the chain that want to see merged definitions are shown this
    one; the supplier of the definition runs; the component goes through the hooks of the chain as it
    is then, which are told how long it is. The first call that fails is the last. -/
inductive Creates (b : Behaviour κ ι ω) (exec : Exec κ ι ω) (name : String) (m : MergedDefinition κ)
    (s : State κ ι ω) : List (Event κ ι) → Except Failure ι → State κ ι ω → Prop
  | unshown {shown : List (Extension κ × Unit)} {failure : Failure} {t : State κ ι ω}
      (show_ : InTurn (fun _ => Extension.seeMerged b m name) (aware b s) () s shown
        (.error failure) t) :
      Creates b exec name m s (shown.map fun c => .sawMerged c.1 name) (.error failure) t
  | unsupplied {shown : List (Extension κ × Unit)} {failure : Failure} {t u : State κ ι ω}
      (show_ : InTurn (fun _ => Extension.seeMerged b m name) (aware b s) () s shown (.ok ()) t)
      (supply : exec (b.supply m.definition.supplier) (supplied t name m.definition) =
        some (.error failure, u)) :
      Creates b exec name m s
        (shown.map (fun c => .sawMerged c.1 name) ++ [.supplied name m.definition])
        (.error failure) u
  | passed {shown : List (Extension κ × Unit)} {given : List (Passage κ × ι)} {value : ι}
      {t u v : State κ ι ω} {r : Except Failure ι}
      (show_ : InTurn (fun _ => Extension.seeMerged b m name) (aware b s) () s shown (.ok ()) t)
      (supply : exec (b.supply m.definition.supplier) (supplied t name m.definition) =
        some (.ok value, u))
      (pass : InTurn (Passage.run b (creationOf u name m)) (passages u.container.chain) value u given
        r v) :
      Creates b exec name m s
        (shown.map (fun c => .sawMerged c.1 name) ++ .supplied name m.definition ::
          given.map fun c => c.1.call (creationOf u name m) c.2) r v

/-! ## 3. The making is these calls -/

/-- To show a merged definition to some extensions is to call them in turn. -/
theorem showTo_iff {es : List (Extension κ)} {r : Except Failure Unit} :
    outcome (showTo b name m es) s = some (r, t) ↔
      ∃ shown, InTurn (fun _ => Extension.seeMerged b m name) es () s shown r t := by
  rw [showTo, forM_eq_foldlM]
  exact inTurn_iff

/-- To go through the chain is to go through its hooks in turn. -/
theorem passThrough_iff {u : State κ ι ω} {value : ι} :
    outcome (passThrough b u name m value) s = some (r, t) ↔
      ∃ given, InTurn (Passage.run b (creationOf u name m)) (passages u.container.chain) value s
        given r t := by
  have same : passThrough b u name m value =
      (passages u.container.chain).foldlM (Passage.run b (creationOf u name m)) value := by
    rw [passages, List.foldlM_append, List.foldlM_map]
    simp only [List.foldlM_map]
    rfl
  rw [same]
  exact inTurn_iff

/-- **The making of a component makes these calls**, with this outcome, and it makes no others. -/
theorem create_iff :
    outcome (create b exec name m) s = some (r, t) ↔ ∃ calls, Creates b exec name m s calls r t := by
  rw [outcome_create]
  constructor
  · intro h
    rcases shown : outcome (showTo b name m (aware b s)) s with _ | ⟨failure | u, s₁⟩
    · rw [shown] at h
      cases h
    · rw [shown] at h
      cases h
      obtain ⟨_, show_⟩ := showTo_iff.mp shown
      exact ⟨_, .unshown show_⟩
    · simp only [shown] at h
      obtain ⟨_, show_⟩ := showTo_iff.mp shown
      rcases supply : exec (b.supply m.definition.supplier) (supplied s₁ name m.definition) with
        _ | ⟨failure | value, s₂⟩
      · rw [supply] at h
        cases h
      · rw [supply] at h
        cases h
        exact ⟨_, .unsupplied show_ supply⟩
      · simp only [supply] at h
        obtain ⟨_, pass⟩ := passThrough_iff.mp h
        exact ⟨_, .passed show_ supply pass⟩
  · rintro ⟨calls, h⟩
    cases h with
    | unshown show_ => rw [showTo_iff.mpr ⟨_, show_⟩]
    | unsupplied show_ supply => simp only [showTo_iff.mpr ⟨_, show_⟩, supply]
    | passed show_ supply pass =>
        simp only [showTo_iff.mpr ⟨_, show_⟩, supply]
        exact passThrough_iff.mpr ⟨_, pass⟩

/-! ## 4. The calls in the history -/

theorem seeMerged_called {e : Extension κ} {r : Except Failure Unit}
    (h : outcome (Extension.seeMerged b m name e) s = some (r, t)) :
    CallsBetween other s t ([.sawMerged e name].filter (Event.isFor other)) := by
  unfold Extension.seeMerged at h
  rw [outcome_perform_bind (run_record _ s)] at h
  obtain ⟨id, body⟩ := e
  cases body <;> cases h <;> exact .one [] rfl rfl

/-- A hook that a component goes through is called with it, and what else it does is no call. -/
theorem Passage.run_called {creation : Creation κ} {value : ι} {p : Passage κ}
    (h : outcome (p.run b creation value) s = some (r, t)) :
    CallsBetween other s t ([p.call creation value].filter (Event.isFor other)) := by
  cases p with
  | before e =>
      replace h : outcome (Extension.seeBefore b creation value e) s = some (r, t) := h
      unfold Extension.seeBefore at h
      rw [outcome_perform_bind (run_record _ s)] at h
      obtain ⟨id, body⟩ := e
      cases body <;> cases h <;> exact .one [] rfl rfl
  | after e =>
      replace h : outcome (Extension.seeAfter b creation value e) s = some (r, t) := h
      unfold Extension.seeAfter at h
      rw [outcome_perform_bind (run_record _ s)] at h
      obtain ⟨id, body⟩ := e
      cases body with
      | custom code =>
          cases h
          exact .one [] rfl rfl
      | completeness target =>
          replace h :
            outcome (if creation.isPremature target = true then _ else _) _ = some (r, t) := h
          by_cases early : creation.isPremature target = true
          · rw [if_pos early] at h
            cases h
            exact .one [_] rfl rfl
          · rw [if_neg early] at h
            cases h
            exact .one [] rfl rfl
      | listeners =>
          rw [outcome_perform_bind (x := _) rfl] at h
          replace h : outcome (if (creation.isListener && !(s.noted id).contains creation.name) = true
            then _ else _) _ = some (r, t) := h
          by_cases new : (creation.isListener && !(s.noted id).contains creation.name) = true
          · rw [if_pos new] at h
            cases h
            exact .one [_] rfl rfl
          · rw [if_neg new] at h
            cases h
            exact .one [] rfl rfl

/-- All these are calls for the component that is made. -/
theorem Creates.calledFor (h : Creates b exec name m s calls r t) :
    ∀ e ∈ calls, Event.calledFor? e = some name := by
  have merged (shown : List (Extension κ × Unit)) :
      ∀ e ∈ shown.map (fun c => (.sawMerged c.1 name : Event κ ι)), e.calledFor? = some name :=
    List.forall_mem_map.mpr fun _ _ => rfl
  cases h with
  | unshown show_ => exact merged _
  | unsupplied show_ supply =>
      exact List.forall_mem_append.mpr ⟨merged _, List.forall_mem_singleton.mpr rfl⟩
  | passed show_ supply pass =>
      refine List.forall_mem_append.mpr ⟨merged _, List.forall_mem_cons.mpr ⟨rfl, ?_⟩⟩
      refine List.forall_mem_map.mpr fun ⟨p, value⟩ _ => ?_
      cases p <;> rfl

/-- **The calls of a making are in the history, and no others for the component**, if the supplier
    makes none by way of another request. So are those for any other component being made. -/
theorem Creates.called (h : Creates b exec name m s calls r t)
    (spares : ∀ {s t : State κ ι ω} {r : Except Failure ι}, other ∈ s.container.creating →
      exec (b.supply m.definition.supplier) s = some (r, t) → CallsBetween other s t [])
    (busy : other ∈ s.container.creating) :
    CallsBetween other s t (calls.filter (Event.isFor other)) := by
  have shows {shown : List (Extension κ × Unit)} {r : Except Failure Unit} {t : State κ ι ω}
      (show_ : InTurn (fun _ => Extension.seeMerged b m name) (aware b s) () s shown r t) :
      CallsBetween other s t ((shown.map fun c => .sawMerged c.1 name).filter (Event.isFor other)) :=
    CallsBetween.inTurn (fun c => .sawMerged c.1 name) show_ seeMerged_called
  -- the supplier begins with a call of its own, and then makes none
  have supplies {shown : List (Extension κ × Unit)} {r : Except Failure ι} {t u : State κ ι ω}
      (show_ : InTurn (fun _ => Extension.seeMerged b m name) (aware b s) () s shown (.ok ()) t)
      (supply : exec (b.supply m.definition.supplier) (supplied t name m.definition) = some (r, u)) :
      CallsBetween other s u ((shown.map (fun c => .sawMerged c.1 name) ++
        [.supplied name m.definition] : List (Event κ ι)).filter (Event.isFor other)) := by
    have still : other ∈ (supplied t name m.definition).container.creating := by
      show other ∈ t.container.creating
      rw [(showTo_watches _ (showTo_iff.mpr ⟨_, show_⟩)).container]
      exact busy
    have begun : CallsBetween other t (supplied t name m.definition)
        ([.supplied name m.definition].filter (Event.isFor other)) := .one [] rfl rfl
    rw [List.filter_append, ← List.append_nil (_ ++ _)]
    exact ((shows show_).trans begun).trans (spares still supply)
  cases h with
  | unshown show_ => exact shows show_
  | unsupplied show_ supply => exact supplies show_ supply
  | @passed shown given value t₁ u _ _ show_ supply pass =>
      have passes : CallsBetween other u t ((given.map fun c =>
          c.1.call (creationOf u name m) c.2).filter (Event.isFor other)) :=
        .inTurn _ pass Passage.run_called
      rw [List.append_cons, List.filter_append]
      exact (supplies show_ supply).trans passes

/-! ## 5. Other requests -/

/-- Whatever happens between the two states, the same names are being made afterwards, and nothing is
    called for the component of that name if it is among them. -/
structure LeavesAlone (name : String) (s t : State κ ι ω) : Prop where
  creating : t.container.creating = s.container.creating
  called : name ∈ s.container.creating → CallsBetween name s t []

theorem Step.called {s t : State κ ι ω} (h : Step s t) : CallsBetween name s t [] := by
  cases h with
  | world w => exact .refl _
  | numbered => exact .refl _
  | cleared => exact .refl _
  | _ => exact .quiet [_] rfl rfl

theorem closed_leavesAlone (name : String) :
    Closed (LeavesAlone name : State κ ι ω → State κ ι ω → Prop) where
  refl s := ⟨rfl, fun _ => .refl s⟩
  trans h₁ h₂ :=
    ⟨h₂.creating.trans h₁.creating, fun busy => (h₁.called busy).trans
      (h₂.called (h₁.creating ▸ busy))⟩
  step h := ⟨h.creating, fun _ => h.called⟩

/-- The supplier of something else begins. -/
theorem supplying_called {d : Definition κ} (different : name ≠ other) :
    CallsBetween other s (supplying s name d) [] := by
  refine .quiet [_, _] rfl ?_
  simp [callsFor, Event.isFor, Event.calledFor?, different]

/-- The making of something else. -/
theorem Creates.elsewhere (h : Creates b exec name m (beginning s name) calls r t)
    (leaves : ∀ {s t : State κ ι ω} {r : Except Failure ι},
      exec (b.supply m.definition.supplier) s = some (r, t) → LeavesAlone other s t)
    (busy : other ∈ s.container.creating) (different : name ≠ other) :
    CallsBetween other s t [] := by
  have none : calls.filter (Event.isFor other) = [] := by
    refine List.filter_eq_nil_iff.mpr fun e mem => ?_
    simp [Event.isFor, h.calledFor e mem, different]
  have begun : CallsBetween other s (beginning s name) [] := .quiet [_] rfl rfl
  have still : other ∈ (beginning s name).container.creating := List.mem_cons_of_mem name busy
  have during := h.called (fun busy run => (leaves run).called busy) still
  rw [none] at during
  exact begun.trans during

theorem component_leavesAlone {depth : Nat}
    (inner : ∀ {α : Type} (p : FactoryProgram κ ι ω α) s,
      Leads (LeavesAlone other) (nested b depth .full p) s) (name : String) (s : State κ ι ω) :
    Leads (LeavesAlone other) (outcome (Container.component b (nested b depth .full) name)) s := by
  intro r t h
  have closed := closed_leavesAlone (κ := κ) (ι := ι) (ω := ω) other
  refine ⟨(component_follows (nested_course (b := b) depth .full) name s h).creating, fun busy => ?_⟩
  obtain ⟨answer, effect, fixed⟩ | ⟨m, s₁, makes⟩ := component_cases b name s
  · rw [fixed] at h
    cases h
    rcases effect with rfl | ⟨merged, run⟩
    · exact .refl _
    · exact (mergedDefinition_leads closed name s run).called busy
  · have merges := mergedDefinition_leads closed name s makes.merged
    have still : other ∈ s₁.container.creating := merges.creating ▸ busy
    have different : name ≠ other := fun same => makes.idle (same ▸ still)
    have during {r : Except Failure ι} {s₂ : State κ ι ω}
        (run : outcome (create b (nested b depth .full) name m) (beginning s₁ name) =
          some (r, s₂)) : CallsBetween other s s₂ [] := by
      obtain ⟨calls, creates⟩ := create_iff.mp run
      exact (merges.called busy).trans
        (creates.elsewhere (fun run => inner _ _ run) still different)
    rw [outcome_component_made makes] at h
    rcases run : outcome (create b (nested b depth .full) name m) (beginning s₁ name) with
      _ | ⟨failure | value, s₂⟩ <;> rw [run] at h <;> cases h
    · exact (during run).trans (.quiet [_] rfl rfl)
    · exact (during run).trans (.quiet [_, _] rfl rfl)

theorem extension_leavesAlone {depth : Nat}
    (inner : ∀ {α : Type} (p : FactoryProgram κ ι ω α) s,
      Leads (LeavesAlone other) (nested b depth .full p) s) (name : String) (expected : Capability)
    (s : State κ ι ω) : Leads (LeavesAlone other)
      (outcome (Container.extension b (nested b depth .full) name expected)) s := by
  intro r t h
  refine ⟨(extension_follows (nested_course (b := b) depth .full) name expected s h).creating,
    fun busy => ?_⟩
  have during {d : Definition κ} {r : Except Failure κ} {s₁ : State κ ι ω}
      (idle : name ∉ s.container.creating)
      (run : nested b depth .full (b.build d.supplier) (supplying s name d) = some (r, s₁)) :
      CallsBetween other s s₁ [] := by
    have different : name ≠ other := fun same => idle (same ▸ busy)
    exact (supplying_called different).trans
      ((inner _ _ run).called (List.mem_cons_of_mem name busy))
  cases extension_cases h with
  | refused failure => exact .refl _
  | known found declares known => exact .refl _
  | unfit idle => exact .quiet [_, _] rfl rfl
  | failed idle new found kind run => exact (during idle run).trans (.quiet [_] rfl rfl)
  | made idle new found declares kind run =>
      exact (during idle run).trans (.quiet [_, _, _] rfl rfl)

/-- **No request makes a call for a component that is being made.** The induction is on the depth to
    which creations nest: what is being made cannot be made again, and what else is made has calls of
    its own. -/
theorem serve_leavesAlone (b : Behaviour κ ι ω) (other : String) (depth : Nat) (view : View)
    (q : Request κ ι ω) (s : State κ ι ω) :
    Leads (LeavesAlone other) (serve b depth view q) s := by
  have closed := closed_leavesAlone (κ := κ) (ι := ι) (ω := ω) other
  have answered (depth : Nat) (inner : ∀ {α : Type} (view : View) (p : FactoryProgram κ ι ω α) s,
      Leads (LeavesAlone other) (nested b depth view p) s) (view : View) (q : Request κ ι ω)
      (s : State κ ι ω) : Leads (LeavesAlone other) (answer b (nested b depth) view q) s :=
    answer_leads closed (fun name _ => component_leavesAlone (inner .full) name s)
      (fun name expected _ => extension_leavesAlone (inner .full) name expected s)
      fun _ _ _ _ => inner view _ _
  induction depth generalizing view q s with
  | zero => exact answered 0 (fun _ _ _ => .endless) view q s
  | succ depth ih =>
      exact answered (depth + 1) (fun view p s => run_leads closed (ih view) p s) view q s

theorem nested_leavesAlone (b : Behaviour κ ι ω) (other : String) (depth : Nat) (view : View)
    (p : FactoryProgram κ ι ω α) (s : State κ ι ω) :
    Leads (LeavesAlone other) (nested b depth view p) s := by
  cases depth with
  | zero => exact .endless
  | succ depth =>
      exact run_leads (closed_leavesAlone other) (serve_leavesAlone b other depth view) p s

/-! ## 6. The request for a component -/

/-- The state when the making of a component is over: it is remembered, unless something failed. -/
def concluded (t : State κ ι ω) (name : String) : Except Failure ι → State κ ι ω
  | .ok value => madeComponent t name value
  | .error _ => ending t name

theorem concluded_called (t : State κ ι ω) (name other : String) (r : Except Failure ι) :
    CallsBetween other t (concluded t name r) [] := by
  cases r with
  | error failure => exact .quiet [_] rfl rfl
  | ok value => exact .quiet [_, _] rfl rfl

/-- The answer to the request is the outcome of the making. -/
theorem Makes.serve_iff (makes : Makes s name m s₁) (depth : Nat) (view : View) :
    serve b depth view (.component name) s = some (r, s') ↔
      ∃ calls t, Creates b (nested b depth .full) name m (beginning s₁ name) calls r t ∧
        s' = concluded t name r := by
  rw [serve_component, outcome_component_made makes]
  constructor
  · intro h
    rcases run : outcome (create b (nested b depth .full) name m) (beginning s₁ name) with
      _ | ⟨failure | value, t⟩ <;> rw [run] at h <;> cases h
    all_goals
      obtain ⟨calls, creates⟩ := create_iff.mp run
      exact ⟨calls, t, creates, rfl⟩
  · rintro ⟨calls, t, creates, rfl⟩
    rw [create_iff.mpr ⟨calls, creates⟩]
    cases r <;> rfl

theorem Makes.container (makes : Makes s name m s₁) :
    s₁.container = { s.container with merged := s₁.container.merged } :=
  (mergedDefinition_ok makes.merged).2

/-- From the request to its answer nothing is called for the component but what its making calls. -/
theorem Makes.called {depth : Nat} (makes : Makes s name m s₁)
    (creates : Creates b (nested b depth .full) name m (beginning s₁ name) calls r t) :
    CallsBetween name s (concluded t name r) calls := by
  have own : calls.filter (Event.isFor name) = calls := by
    refine List.filter_eq_self.mpr fun e mem => ?_
    simp [Event.isFor, creates.calledFor e mem]
  have merges : CallsBetween name s s₁ [] := by
    rcases mergedDefinition_cases makes.merged with
      ⟨_, -, -, rfl⟩ | ⟨_, -, -, rfl⟩ | ⟨_, -, -, -, rfl⟩
    · exact .refl _
    · exact .refl _
    · exact .quiet [_] rfl rfl
  have begun : CallsBetween name s (beginning s₁ name) [] := merges.trans (.quiet [_] rfl rfl)
  have during := creates.called
    (fun busy run => (nested_leavesAlone b name depth .full _ _ run).called busy)
    (List.mem_cons_self (a := name) (l := s₁.container.creating))
  rw [own] at during
  have whole := (begun.trans during).trans (concluded_called t name name r)
  rwa [List.nil_append, List.append_nil] at whole

/-- The component that has been made is remembered, and none if something has failed. -/
theorem Makes.remembered {depth : Nat} (makes : Makes s name m s₁)
    (creates : Creates b (nested b depth .full) name m (beginning s₁ name) calls r t) :
    (concluded t name r).container.components.find? name = r.toOption := by
  cases r with
  | ok value => exact (Table.find?_set _ _ _ _).trans (if_pos rfl)
  | error failure =>
      have absent : s₁.container.components.find? name = none := by
        rw [makes.container]
        exact makes.new
      have during : t.container.components.find? name = none :=
        create_absent (create_iff.mpr ⟨calls, creates⟩) absent
      exact during

/-- **If no call fails**, all who want to see the merged definition have been called, then the
    supplier, and then all hooks of the chain as the supplier has left it. -/
theorem Creates.complete {value : ι} (h : Creates b exec name m s calls (.ok value) t) :
    ∃ (t₁ u : State κ ι ω) (first : ι) (given : List (Passage κ × ι)),
      outcome (showTo b name m (aware b s)) s = some (.ok (), t₁) ∧
      exec (b.supply m.definition.supplier) (supplied t₁ name m.definition) = some (.ok first, u) ∧
      given.map Prod.fst = passages u.container.chain ∧
      calls = (aware b s).map (.sawMerged · name) ++ .supplied name m.definition ::
        given.map fun c => c.1.call ⟨name, some m, u.container.chain.length⟩ c.2 := by
  cases h with
  | @passed shown given first t₁ u _ _ show_ supply pass =>
      refine ⟨t₁, u, first, given, showTo_iff.mpr ⟨_, show_⟩, supply, pass.all rfl, ?_⟩
      rw [← show_.all rfl, List.map_map]
      rfl

/-- **A component is made call by call.** Let there be none of that name, and let its definition be
    merged, a component's and no template, and none of that name being made. Whatever the supplier
    and the hooks do, also to the container, the request for the component

    - has that answer exactly if the calls of its making have that outcome, a failure among them;
    - makes these calls for the component and no others, also within what the supplier asks for;
    - leaves the component remembered that is the answer, and none if the answer is a failure.

    And if no call fails, then those of the chain that want to see the merged definition are called
    in order, then the supplier, then all hooks before and all hooks after the initialization of the
    chain as the supplier has left it, in order, each once, with the merged definition from before
    and the length of that chain. -/
theorem made_in_order (b : Behaviour κ ι ω) (depth : Nat) (view : View)
    (makes : Makes s name m s₁) :
    (∀ r s', serve b depth view (.component name) s = some (r, s') ↔
      ∃ calls t, Creates b (nested b depth .full) name m (beginning s₁ name) calls r t ∧
        s' = concluded t name r) ∧
    ∀ calls r t, Creates b (nested b depth .full) name m (beginning s₁ name) calls r t →
      CallsBetween name s (concluded t name r) calls ∧
      (concluded t name r).container.components.find? name = r.toOption ∧
      ∀ value, r = .ok value → ∃ (t₁ u : State κ ι ω) (first : ι) (given : List (Passage κ × ι)),
        outcome (showTo b name m (aware b (beginning s₁ name))) (beginning s₁ name) =
          some (.ok (), t₁) ∧
        nested b depth .full (b.supply m.definition.supplier) (supplied t₁ name m.definition) =
          some (.ok first, u) ∧
        given.map Prod.fst = passages u.container.chain ∧
        calls = (s.container.chain.filter (Extension.isMergedAware b)).map (.sawMerged · name) ++
          .supplied name m.definition ::
            given.map fun c => c.1.call ⟨name, some m, u.container.chain.length⟩ c.2 := by
  refine ⟨fun r s' => makes.serve_iff depth view, fun calls r t creates =>
    ⟨makes.called creates, makes.remembered creates, ?_⟩⟩
  rintro value rfl
  have chain : aware b (beginning s₁ name) = s.container.chain.filter (Extension.isMergedAware b) := by
    show s₁.container.chain.filter _ = _
    rw [makes.container]
  obtain ⟨t₁, u, first, given, shown, supply, all, parts⟩ := creates.complete
  exact ⟨t₁, u, first, given, shown, supply, all, chain ▸ parts⟩

/-- The behaviour where the supplier of code 0 puts an extension into the chain, and asks for another
    component and for its own; hooks add the number of their code to a list, and those of code 3
    refuse the other component in the end. -/
def inviting : Behaviour Nat (List Nat) Unit where
  name _ := ""
  supply
    | 0 => .ask (.attach ⟨1, .custom 3⟩) fun _ => .ask (.component "b") fun _ =>
        .ask (.component "a") fun _ => .done (.ok [])
    | _ => .done (.ok [])
  build code := .done (.ok code)
  onRegistry _ := .done (.ok ())
  onFactory _ := .done (.ok ())
  mergedAware code := code == 2
  onMerged _ _ _ world := (.ok (), world)
  before code value _ world := (.ok (value ++ [code]), world)
  after code value creation world :=
    (if creation.name = "b" ∧ code = 3 then .error (.creationFailed "b" "refused")
      else .ok (value ++ [10 + code]), world)

/-- The definition of a component with that code. -/
def coded (name : String) (code : Nat) : Definition Nat :=
  { name, typeName := "Thing", kind := .component, supplier := code }

/-- Two definitions, and one extension in the chain. -/
def uninvited : State Nat (List Nat) Unit where
  container := {
    definitions := (Table.empty.set "a" (coded "a" 0)).set "b" (coded "b" 1)
    chain := [⟨0, .custom 2⟩] }
  world := ()

/-- The state when "a" has been asked for. -/
def invited : State Nat (List Nat) Unit := after (serve inviting 3 .full (.component "a")) uninvited

/-- The state when "b" has been asked for then. -/
def declined : State Nat (List Nat) Unit := after (serve inviting 3 .full (.component "b")) invited

/-- The component "a" goes through both extensions, with a chain of length two, though there was only
    one when its making began. The component "b" is refused by the last hook, and not remembered. -/
theorem uninvited_made_in_order :
    serve inviting 3 .full (.component "a") uninvited = some (.ok [2, 3, 12, 13], invited) ∧
      CallsBetween "a" uninvited invited
        [.sawMerged ⟨0, .custom 2⟩ "a", .supplied "a" (coded "a" 0),
          .sawBefore ⟨0, .custom 2⟩ ⟨"a", some ⟨coded "a" 0⟩, 2⟩ [],
          .sawBefore ⟨1, .custom 3⟩ ⟨"a", some ⟨coded "a" 0⟩, 2⟩ [2],
          .sawAfter ⟨0, .custom 2⟩ ⟨"a", some ⟨coded "a" 0⟩, 2⟩ [2, 3],
          .sawAfter ⟨1, .custom 3⟩ ⟨"a", some ⟨coded "a" 0⟩, 2⟩ [2, 3, 12]] ∧
      serve inviting 3 .full (.component "b") invited =
        some (.error (.creationFailed "b" "refused"), declined) ∧
      declined.container.components.find? "b" = none := by
  have run : serve inviting 3 .full (.component "a") uninvited =
      some (.ok [2, 3, 12, 13], invited) := by cbv
  have refused : serve inviting 3 .full (.component "b") invited =
      some (.error (.creationFailed "b" "refused"), declined) := by cbv
  refine ⟨run, ?_, refused, ?_⟩
  · have makes : Makes uninvited "a" ⟨coded "a" 0⟩
        (after (outcome (mergedDefinition "a")) uninvited) :=
      ⟨by cbv, by cbv, rfl, rfl, by decide +kernel⟩
    obtain ⟨answers, facts⟩ := made_in_order inviting 3 .full makes
    obtain ⟨calls, t, creates, ends⟩ := (answers _ _).mp run
    obtain ⟨⟨events, past, own⟩, -, -⟩ := facts calls _ t creates
    rw [← ends] at past
    have all : events = invited.history := by
      rw [past]
      exact (List.append_nil events).symm
    refine ⟨events, past, ?_⟩
    rw [all]
    cbv
  · have makes : Makes invited "b" ⟨coded "b" 1⟩
        (after (outcome (mergedDefinition "b")) invited) :=
      ⟨by cbv, by cbv, rfl, rfl, by decide +kernel⟩
    obtain ⟨answers, facts⟩ := made_in_order inviting 3 .full makes
    obtain ⟨calls, t, creates, ends⟩ := (answers _ _).mp refused
    obtain ⟨-, absent, -⟩ := facts calls _ t creates
    rw [ends]
    exact absent

end Container

end ComponentContainer
