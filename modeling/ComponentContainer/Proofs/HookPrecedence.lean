/-
  File:      ComponentContainer/Proofs/HookPrecedence.lean
  Subject:   Which factory hooks have their registry hook before them.

  * `Early`, `Late`, `Plain` -- sorts of requests that run no hooks of one kind or the other.
  * `Allowed` -- each request of a phase is allowed by those before it; `Allowed.bind` -- what has
    returned by then counts as before.
  * `LastLook` -- the state in which the registry post-processors were looked up for the last time;
    `registryPhases_look` -- phases 1 to 4 end with a look that finds only names dealt with.
  * `Grounds` -- the three grounds on which a factory hook is run.
  * `factoryHooks_have_grounds` -- **a factory hook is run after the registry hook of the same
    extension, or for an extension handed in without one, or under a name that was no registry
    post-processor when phase 4 ended.** A registry post-processor that comes later runs its factory
    hook alone: `lateComer_skips_registryHook`.
-/
import ComponentContainer.Proofs.Answers
import ComponentContainer.Proofs.Composition
import ComponentContainer.Proofs.ExactlyOnce

namespace ComponentContainer.Bootstrap

open Phase

variable {κ ι ω σ α β : Type} {serve : Program.Handler (factoryInterface κ ι ω) σ}

/-! ## 1. Phases that run no hook -/

/-- The request runs no registry hook and does not look for registry post-processors. -/
def Late (r : Request κ ι ω) : Prop := (∀ e, r ≠ .registryHook e) ∧ r ≠ registryNames

/-- The request runs no factory hook. -/
def Early (r : Request κ ι ω) : Prop := ∀ e, r ≠ .factoryHook e

/-- The request runs no hook and does not look for registry post-processors. -/
def Plain (r : Request κ ι ω) : Prop := Early r ∧ Late r

theorem Only.early {x : Phase κ ι ω α} (hx : Only serve Plain x) : Only serve Early x :=
  hx.mono fun _ h => h.1

theorem Only.late {x : Phase κ ι ω α} (hx : Only serve Plain x) : Only serve Late x :=
  hx.mono fun _ h => h.2

theorem find_plain (name : String) :
    Plain (.registry (.find name) : Request κ ι ω) := ⟨nofun, nofun, nofun⟩

theorem extension_plain (name : String) (expected : Capability) :
    Plain (.extension name expected : Request κ ι ω) := ⟨nofun, nofun, nofun⟩

theorem announce_plain (n : Notice) : Only serve Plain (announce n : Phase κ ι ω Unit) :=
  (announce_madeOf ⟨nofun, nofun, nofun⟩).only

theorem comparator_plain : Only serve Plain (comparator : Phase κ ι ω Comparator) :=
  (comparator_madeOf ⟨nofun, nofun, nofun⟩).only

theorem collectFrom_plain (accept : Precedence → Bool) (names : List String) :
    Only serve Plain (collectFrom accept names) :=
  (collectFrom_madeOf find_plain (extension_plain · _) accept names).only

theorem remaining_plain : Only serve Plain (remaining : Phase κ ι ω (List (String × Tier))) :=
  (remaining_madeOf find_plain ⟨nofun, nofun, nofun⟩).only

theorem makeGroup_plain (names : List String) : Only serve Plain (makeGroup names) :=
  (makeGroup_madeOf find_plain (extension_plain · _) names).only

/-! ## 2. Phases 1 to 4 run no factory hook, and neither does phase 7 -/

theorem RegistryWork.early {r : Request κ ι ω} (h : RegistryWork r) : Early r := by
  rintro e rfl
  cases h

theorem ChainWork.early {r : Request κ ι ω} (h : ChainWork r) : Early r := by
  rintro e rfl
  cases h

theorem announce_early (n : Notice) : Only serve Early (announce n : Phase κ ι ω Unit) :=
  (announce_plain n).early

theorem demand_pure_only {sort : Request κ ι ω → Prop} (outcome : Except Failure α) :
    Only serve sort (demand (pure outcome)) := (MadeOf.outcome outcome).only

theorem registryPhases_early (b : Behaviour κ ι ω) (cmp : Comparator) (patience : Nat)
    (options : Options) (external : List (Handle κ)) :
    Only serve Early (runRegistryPhases b cmp patience options external) :=
  (registryPhases_madeOf b cmp patience options external).only.mono fun _ h => h.early

theorem chainPhase_early (b : Behaviour κ ι ω) (listeners : Extension κ) :
    Only serve Early (runChainPhase b listeners) :=
  (chainPhase_madeOf b listeners).only.mono fun _ h => h.early

/-! ## 3. The last look at the registry post-processors -/

/-- The registry post-processors were looked up in that state, and since then neither looked up again
    nor run. -/
def LastLook (T : Asked κ ι ω σ) (t : σ) : Prop :=
  ∃ T₁ T₂, T = T₁ ++ (registryNames, t) :: T₂ ∧ ∀ q ∈ T₂, Late q.1

theorem LastLook.after {T : Asked κ ι ω σ} {t : σ} (h : LastLook T t) (before : Asked κ ι ω σ) :
    LastLook (before ++ T) t := by
  obtain ⟨T₁, T₂, rfl, late⟩ := h
  exact ⟨before ++ T₁, T₂, (List.append_assoc _ _ _).symm, late⟩

theorem LastLook.still {T T' : Asked κ ι ω σ} {t : σ} (h : LastLook T t)
    (late : ∀ q ∈ T', Late q.1) : LastLook (T ++ T') t := by
  obtain ⟨T₁, T₂, rfl, late'⟩ := h
  refine ⟨T₁, T₂ ++ T', by rw [List.append_assoc, List.cons_append], fun q hq => ?_⟩
  exact (List.mem_append.mp hq).elim (late' q) (late q)

/-- The last look has found only names dealt with. -/
def Looked (serve : Program.Handler (factoryInterface κ ι ω) σ) (T : Asked κ ι ω σ)
    (P : Processed) : Prop :=
  ∃ (t t' : σ) (answer : List String), LastLook T t ∧
    serve registryNames t = some (answer, t') ∧ ∀ name ∈ answer, name ∈ P.names

/-- Where nothing is found, all names have been dealt with, and they have only been looked at. -/
theorem collectFrom_returns_nil {names : List String} {P P' : Processed} {s s' : σ}
    {T : Asked κ ι ω σ} (h : Returns serve (collectFrom (fun _ => true) names) P s T [] P' s') :
    P = P' ∧ (∀ name ∈ names, name ∈ P.names) ∧
      ∀ q ∈ T, ∃ name, q.1 = .registry (.find name) := by
  induction names generalizing P s T with
  | nil =>
      obtain ⟨rfl, -, rfl, -⟩ := h.of_pure
      exact ⟨rfl, fun _ hn => absurd hn List.not_mem_nil, fun _ hq => absurd hq List.not_mem_nil⟩
  | cons name rest ih =>
      obtain ⟨precedence, T₁, T₂, s₁, looked, ⟨dealt, rfl, passed⟩ |
        ⟨-, handle, others, s₂, -, -, -, some⟩⟩ := collectFrom_cons h
      · obtain ⟨rfl, others, finds⟩ := ih passed
        have known : name ∈ P.names := by simpa [Processed.contains] using dealt
        have looks : MadeOf (fun r => ∃ other, r = .registry (.find other))
            (standing name : Phase κ ι ω Precedence) := standing_madeOf (fun other => ⟨other, rfl⟩) name
        refine ⟨rfl, List.forall_mem_cons.mpr ⟨known, others⟩, fun q hq => ?_⟩
        exact (List.mem_append.mp hq).elim (looks.only.returned looked q) (finds q)
      · cases some

/-- A pass that finds nothing has looked up names that have all been dealt with, and has only looked at
    them. -/
theorem pass_returns_none {cmp : Comparator} {limit : Option Nat} {done : Nat} {P P' : Processed}
    {s s' : σ} {T : Asked κ ι ω σ} (h : Returns serve (pass cmp limit done) P s T none P' s') :
    P = P' ∧ ∃ (answer : List String) (t : σ) (T' : Asked κ ι ω σ),
      serve registryNames s = some (answer, t) ∧
      (∀ name ∈ answer, name ∈ P.names) ∧ T = (registryNames, s) :: T' ∧
      ∀ q ∈ T', ∃ name, q.1 = .registry (.find name) := by
  obtain ⟨T₁, T₂, batch, P₁, s₁, h₁, h₂, rfl⟩ := h.of_bind
  split at h₂
  · rename_i none
    obtain ⟨rfl, -, rfl, rfl⟩ := h₂.of_pure
    obtain ⟨T₃, T₄, names, P₂, s₂, h₃, h₄, rfl⟩ := h₁.of_bind
    obtain ⟨rfl, rfl, answered⟩ := h₃.of_ask
    obtain ⟨T₅, T₆, found, P₃, s₃, h₅, h₆, rfl⟩ := h₄.of_bind
    obtain ⟨rfl, rfl, rfl, rfl⟩ := h₆.of_pure
    have nothing : found = [] := by
      have sorted : Candidate.sort cmp found = [] := List.isEmpty_iff.mp none
      have perm : (Candidate.sort cmp found).Perm found := List.mergeSort_perm _ _
      rw [sorted] at perm
      exact perm.symm.eq_nil
    rw [nothing] at h₅
    obtain ⟨rfl, dealt, finds⟩ := collectFrom_returns_nil h₅
    exact ⟨rfl, names, s₂, T₅, answered, dealt, by simp [registryNames], finds⟩
  · obtain ⟨T₃, T₄, u₁, P₂, s₂, -, h₄, rfl⟩ := h₂.of_bind
    obtain ⟨T₅, T₆, u₂, P₃, s₃, -, h₆, rfl⟩ := h₄.of_bind
    obtain ⟨T₇, T₈, u₃, P₄, s₄, -, h₈, rfl⟩ := h₆.of_bind
    obtain ⟨-, some, -⟩ := h₈.of_pure
    cases some

/-- A pass that finds nothing looks for the last time. -/
theorem pass_look {cmp : Comparator} {limit : Option Nat} {done : Nat} {P P' : Processed}
    {s s' : σ} {T : Asked κ ι ω σ} (h : Returns serve (pass cmp limit done) P s T none P' s') :
    Looked serve T P' := by
  obtain ⟨rfl, answer, t, T', answered, dealt, rfl, finds⟩ := pass_returns_none h
  refine ⟨s, t, answer, ⟨[], T', rfl, fun q hq => ?_⟩, answered, dealt⟩
  obtain ⟨name, find⟩ := finds q hq
  rw [find]
  exact ⟨nofun, nofun⟩

theorem Looked.after {T : Asked κ ι ω σ} {P : Processed} (h : Looked serve T P)
    (before : Asked κ ι ω σ) : Looked serve (before ++ T) P := by
  obtain ⟨t, t', answer, look, answered⟩ := h
  exact ⟨t, t', answer, look.after before, answered⟩

/-- **Phase 4 ends with a look that finds only names dealt with**, for else there is another pass. -/
theorem passes_look {cmp : Comparator} {limit : Option Nat} {patience done : Nat}
    {P P' : Processed} {s s' : σ} {T : Asked κ ι ω σ} {found : Nat × List (Candidate κ)}
    (h : Returns serve (passes cmp limit patience done) P s T found P' s') :
    Looked serve T P' := by
  induction patience generalizing done P s T found P' s' with
  | zero =>
      obtain ⟨T₁, T₂, answer, P₁, s₁, h₁, h₂, rfl⟩ := Returns.of_bind h
      exact nomatch answer
  | succ patience ih =>
      rw [passes_succ] at h
      obtain ⟨T₁, T₂, batch, P₁, s₁, h₁, h₂, rfl⟩ := h.of_bind
      cases batch with
      | none =>
          obtain ⟨rfl, -, rfl, -⟩ := h₂.of_pure
          rw [List.append_nil]
          exact pass_look h₁
      | some batch =>
          obtain ⟨T₃, T₄, rest, P₂, s₂, h₃, h₄, rfl⟩ := h₂.of_bind
          obtain ⟨rfl, -, rfl, -⟩ := h₄.of_pure
          rw [List.append_nil]
          exact (ih h₃).after T₁

theorem registryPhases_look {b : Behaviour κ ι ω} {cmp : Comparator} {patience : Nat}
    {options : Options} {external : List (Handle κ)} {P P' : Processed} {s s' : σ}
    {T : Asked κ ι ω σ} {found : Nat × List (Candidate κ)}
    (h : Returns serve (runRegistryPhases b cmp patience options external) P s T found P' s') :
    Looked serve T P' := by
  obtain ⟨T₁, R₁, u, P₁, s₁, -, r₁, rfl⟩ := h.of_bind
  obtain ⟨T₂, R₂, priority, P₂, s₂, -, r₂, rfl⟩ := r₁.of_bind
  obtain ⟨T₃, R₃, ordered, P₃, s₃, -, r₃, rfl⟩ := r₂.of_bind
  obtain ⟨T₄, R₄, others, P₄, s₄, g₄, r₄, rfl⟩ := r₃.of_bind
  obtain ⟨rfl, -, rfl, -⟩ := r₄.of_pure
  rw [List.append_nil]
  exact (((passes_look g₄).after T₃).after T₂).after T₁

/-! ## 4. The registry hooks that have run -/

/-- The registry hook of the extension was asked for. -/
def HookRun (T : Asked κ ι ω σ) (e : Extension κ) : Prop := ∃ t, (.registryHook e, t) ∈ T

/-- The extension whose registry hook is run. -/
def HookCall.registry? : HookCall κ → Option (Extension κ)
  | .supplied e => some e
  | .found _ e => some e
  | _ => none

theorem hookRun_of_mem_calls {T : Asked κ ι ω σ} {c : HookCall κ} {e : Extension κ}
    (hc : c ∈ calls T) (he : HookCall.registry? c = some e) : HookRun T e := by
  suffices ∀ label, c ∈ callsAfter label T → HookRun T e from this none hc
  clear hc
  induction T with
  | nil => exact fun _ hc => absurd hc List.not_mem_nil
  | cons x T ih =>
      intro label hc
      rcases List.mem_append.mp hc with hc | hc
      · obtain ⟨r, t⟩ := x
        rw [Option.mem_toList] at hc
        unfold Request.call? at hc
        split at hc
        · rename_i e' hr
          obtain rfl : e' = e := by
            split at hc <;>
            · cases hc
              exact Option.some.inj he
          exact ⟨t, List.mem_cons.mpr (.inl (by rw [← hr]))⟩
        · split at hc <;>
          · cases hc
            cases he
        · cases hc
      · obtain ⟨t, ht⟩ := ih _ hc
        exact ⟨t, List.mem_cons_of_mem x ht⟩

/-- Phases 1 to 4 have run the registry hooks of all that phase 5 is about. -/
theorem registryPhases_hookRun {b : Behaviour κ ι ω} {cmp : Comparator} {patience : Nat}
    {options : Options} {external : List (Handle κ)} {P P' : Processed} {s s' : σ}
    {T : Asked κ ι ω σ} {total : Nat} {found : List (Candidate κ)}
    (h : Returns serve (runRegistryPhases b cmp patience options external) P s T (total, found)
      P' s') :
    ∀ e ∈ suppliedRegistry external ++ found.map (·.handle.extension), HookRun T e := by
  have hcalls := registryPhases_returns h
  intro e he
  rcases List.mem_append.mp he with he | he
  · refine hookRun_of_mem_calls (c := .supplied e) ?_ rfl
    rw [hcalls]
    exact List.mem_append_left _ (List.mem_map_of_mem he)
  · obtain ⟨c, hc, rfl⟩ := List.mem_map.mp he
    refine hookRun_of_mem_calls (c := foundCall c) ?_ rfl
    rw [hcalls]
    exact List.mem_append_right _ (List.mem_map_of_mem hc)

/-! ## 5. What is allowed by what was asked for before -/

/-- Each request of the phase is allowed by those before it, of which `before` are earlier than the
    phase. -/
def Allowed (serve : Program.Handler (factoryInterface κ ι ω) σ)
    (law : Asked κ ι ω σ → Request κ ι ω × σ → Prop) (before : Asked κ ι ω σ) (x : Phase κ ι ω α)
    (P : Processed) (s : σ) : Prop :=
  ∀ T₁ q T₂, Phase.asked serve x P s = T₁ ++ q :: T₂ → law (before ++ T₁) q

namespace Allowed

variable {law : Asked κ ι ω σ → Request κ ι ω × σ → Prop} {before : Asked κ ι ω σ}
  {P : Processed} {s : σ}

/-- What is always allowed. -/
theorem of_only {sort : Request κ ι ω → Prop} {x : Phase κ ι ω α} (hx : Only serve sort x)
    (h : ∀ T q, sort q.1 → law T q) : Allowed serve law before x P s := by
  intro T₁ q T₂ cut
  exact h _ q (hx P s q (cut ▸ List.mem_append_right _ List.mem_cons_self))

/-- **A sequence is allowed if its second part is after all that the first part has asked for.** -/
theorem bind {x : Phase κ ι ω α} {f : α → Phase κ ι ω β} (hx : Allowed serve law before x P s)
    (hf : ∀ T a P₁ s₁, Returns serve x P s T a P₁ s₁ →
      Allowed serve law (before ++ T) (f a) P₁ s₁) : Allowed serve law before (x >>= f) P s := by
  intro T₁ q T₂ cut
  rcases Returns.asked_bind_cut cut with ⟨rest, first⟩ | ⟨a, P₁, s₁, later, hr, rfl, second⟩
  · exact hx T₁ q rest first
  · rw [← List.append_assoc]
    exact hf _ a P₁ s₁ hr later q T₂ second

/-- The same for a list of phases, along an invariant. -/
theorem forM {I : Asked κ ι ω σ → Prop} {f : β → Phase κ ι ω PUnit} {l : List β}
    (step : ∀ c ∈ l, ∀ before P s, I before → Allowed serve law before (f c) P s)
    (keeps : ∀ c ∈ l, ∀ before P s T u P' s', I before → Returns serve (f c) P s T u P' s' →
      I (before ++ T)) (start : I before) : Allowed serve law before (l.forM f) P s := by
  induction l generalizing before P s with
  | nil => exact fun T₁ q T₂ cut => nomatch (List.append_eq_nil_iff.mp cut.symm).2
  | cons c l ih =>
      refine bind (step c List.mem_cons_self before P s start) fun T u P₁ s₁ hr => ?_
      refine ih (fun c hc => step c (List.mem_cons_of_mem _ hc))
        (fun c hc => keeps c (List.mem_cons_of_mem _ hc)) ?_
      exact keeps c List.mem_cons_self before P s T u P₁ s₁ start hr

end Allowed

/-! ## 6. The grounds of factory hooks -/

/-- The grounds on which the factory hook of an extension is run. -/
inductive Grounds (serve : Program.Handler (factoryInterface κ ι ω) σ)
    (external : List (Handle κ)) (before : Asked κ ι ω σ) (e : Extension κ) : Prop
  /-- Its registry hook has run. -/
  | own (run : HookRun before e)
  /-- It was handed in as a factory post-processor. -/
  | handedIn (mem : e ∈ suppliedFactory external)
  /-- It is run under a name that was not found when the registry post-processors were looked up for
      the last time. -/
  | late {name : String} {precedence : Precedence} {t t' u : σ} {answer : List String}
      {earlier : Asked κ ι ω σ} (look : LastLook before t)
      (saw : serve registryNames t = some (answer, t')) (unseen : name ∉ answer)
      (answered : Answered serve before name .factory e)
      (announced : before = earlier ++ [(.announce (.factoryHook name precedence), u)])

/-- A factory hook is run on one of the grounds only. -/
def HasGrounds (serve : Program.Handler (factoryInterface κ ι ω) σ) (external : List (Handle κ))
    (before : Asked κ ι ω σ) (q : Request κ ι ω × σ) : Prop :=
  ∀ e, q.1 = .factoryHook e → Grounds serve external before e

variable {external : List (Handle κ)} {before : Asked κ ι ω σ} {P : Processed} {s : σ}

theorem allowed_of_early {x : Phase κ ι ω α} (hx : Only serve Early x) :
    Allowed serve (HasGrounds serve external) before x P s :=
  .of_only hx fun _ _ early e he => absurd he (early e)

/-- A single factory hook that has grounds. -/
theorem allowed_factoryHook {e : Extension κ} (h : Grounds serve external before e) :
    Allowed serve (HasGrounds serve external) before (factoryHook e) P s := by
  intro T₁ q T₂ cut
  unfold factoryHook at cut
  rw [asked_demand, Program.asked_request] at cut
  obtain ⟨rfl, hq⟩ | ⟨_, _, hnil⟩ := List.cons_eq_append_iff.mp cut
  · cases hq
    intro e' he'
    cases he'
    rwa [List.append_nil]
  · exact nomatch (List.append_eq_nil_iff.mp hnil.symm).2

/-- The factory hook of an extension that has one, if it has grounds. -/
theorem allowed_runFactoryHook {name : κ → String} {handle : Handle κ}
    (h : handle.family ≠ .component → Grounds serve external before handle.extension) :
    Allowed serve (HasGrounds serve external) before (demand (handle.runFactoryHook name)) P s := by
  by_cases hf : handle.family = .component
  · refine allowed_of_early (.demand fun s q hq => ?_)
    unfold Handle.runFactoryHook Handle.ensureFactoryCapable at hq
    rw [hf] at hq
    exact absurd hq List.not_mem_nil
  · rw [runFactoryHook_eq_request hf]
    exact allowed_factoryHook (h hf)

theorem HookRun.still {T : Asked κ ι ω σ} {e : Extension κ} (h : HookRun T e)
    (T' : Asked κ ι ω σ) : HookRun (T ++ T') e := by
  obtain ⟨t, ht⟩ := h
  exact ⟨t, List.mem_append_left _ ht⟩

theorem HookRun.after {T : Asked κ ι ω σ} {e : Extension κ} (h : HookRun T e)
    (before : Asked κ ι ω σ) : HookRun (before ++ T) e := by
  obtain ⟨t, ht⟩ := h
  exact ⟨t, List.mem_append_right _ ht⟩

/-- **Phase 5 runs the factory hooks of what has run its registry hook**, and of what was handed in
    as a factory post-processor. -/
theorem ownHooks_allowed {b : Behaviour κ ι ω} {found : List (Candidate κ)}
    (run : ∀ e ∈ suppliedRegistry external ++ found.map (·.handle.extension), HookRun before e) :
    Allowed serve (HasGrounds serve external) before (runOwnHooks b external found) P s := by
  refine .bind (.forM (I := fun T => ∀ e ∈ suppliedRegistry external ++
    found.map (·.handle.extension), HookRun T e) ?_ ?_ run) fun T u P₁ s₁ _ => ?_
  · exact fun e he before P s run => allowed_factoryHook (.own (run e he))
  · exact fun _ _ before P s T _ _ _ run _ e he => (run e he).still T
  · refine .bind (.forM (I := fun _ => True) ?_ (fun _ _ _ _ _ _ _ _ _ _ _ => trivial) trivial)
      fun _ _ _ _ _ => allowed_of_early (.pure _)
    intro handle hm before P s _
    refine allowed_runFactoryHook fun hf => .handedIn (List.mem_map_of_mem ?_)
    obtain ⟨hm, hr⟩ := List.mem_filter.mp hm
    refine List.mem_filter.mpr ⟨hm, ?_⟩
    cases hfam : handle.family with
    | registry =>
        rw [hfam] at hr
        cases hr
    | factory => rfl
    | component => exact absurd hfam hf

theorem FactoryWork.late {r : Request κ ι ω} (h : FactoryWork r) : Late r := by
  constructor
  · rintro e rfl
    cases h
  · rintro rfl
    cases h

theorem ownHooks_late (b : Behaviour κ ι ω) (external : List (Handle κ))
    (found : List (Candidate κ)) : Only serve Late (runOwnHooks b external found) :=
  (ownHooks_madeOf b external found).only.mono fun _ h => h.late

theorem runUnderName_late (name : κ → String) (c : Candidate κ) : Only serve Late (do
    announce (.factoryHook c.name c.precedence)
    demand (c.handle.runFactoryHook name)) :=
  (runUnderName_madeOf name c).only.mono fun _ h => h.late

theorem factoryGroup_late (b : Behaviour κ ι ω)
    (sort : List (Candidate κ) → List (Candidate κ)) (names : List String) :
    Only serve Late (factoryGroup b sort names) :=
  (factoryGroup_madeOf b sort names).only.mono fun _ h => h.late

theorem Looked.still {T T' : Asked κ ι ω σ} (h : Looked serve T P)
    (late : ∀ q ∈ T', Late q.1) : Looked serve (T ++ T') P := by
  obtain ⟨t, t', answer, look, answered⟩ := h
  exact ⟨t, t', answer, look.still late, answered⟩

/-- The factory hooks of a group whose names the last look has not found. -/
theorem runFactoryHooks_allowed {b : Behaviour κ ι ω} {group : List (Candidate κ)} {t t' : σ}
    {answer : List String} (look : LastLook before t)
    (saw : serve registryNames t = some (answer, t'))
    (unseen : ∀ c ∈ group, c.name ∉ answer)
    (answered : ∀ c ∈ group, Answered serve before c.name .factory c.handle.extension) :
    Allowed serve (HasGrounds serve external) before (runFactoryHooks b group) P s := by
  refine .bind (.forM (I := fun T => LastLook T t ∧
    ∀ c ∈ group, Answered serve T c.name .factory c.handle.extension) ?_ ?_ ⟨look, answered⟩)
    fun _ _ _ _ _ => allowed_of_early (.pure _)
  · rintro c hc before P s ⟨look, answered⟩
    refine .bind (allowed_of_early (announce_early _)) fun T u P₁ s₁ hr => ?_
    obtain ⟨rfl, -, -⟩ := Returns.of_ask hr
    refine allowed_runFactoryHook fun _ => .late (look.still ?_) saw (unseen c hc)
      ((answered c hc).mono (List.subset_append_left _ _)) rfl
    intro q hq
    rw [List.mem_singleton.mp hq]
    exact ⟨nofun, nofun⟩
  · rintro c hc before P s T u P' s' ⟨look, answered⟩ hr
    exact ⟨look.still ((runUnderName_late b.name c).returned hr),
      fun c hc => (answered c hc).mono (List.subset_append_left _ _)⟩

/-- **A group of phase 6 runs the factory hooks of names that the last look has not found**, if they
    were not dealt with. -/
theorem factoryGroup_allowed {b : Behaviour κ ι ω}
    {sort : List (Candidate κ) → List (Candidate κ)} (hsort : ∀ group, (sort group).Perm group)
    {names : List String} (looked : Looked serve before P)
    (new : ∀ name ∈ names, name ∉ P.names) :
    Allowed serve (HasGrounds serve external) before (factoryGroup b sort names) P s := by
  refine .bind (allowed_of_early (makeGroup_plain names).early) fun T group P₁ s₁ hr => ?_
  obtain ⟨rfl, -, rfl, answered⟩ := makeGroup_returns hr
  obtain ⟨t, t', answer, look, saw, dealt⟩ := looked
  have late := (makeGroup_plain _).late.returned hr
  refine runFactoryHooks_allowed (look.still late) saw (fun c hc seen => ?_) fun c hc => ?_
  · exact new c.name (List.mem_map_of_mem ((hsort group).mem_iff.mp hc)) (dealt c.name seen)
  · exact (answered c ((hsort group).mem_iff.mp hc)).mono (List.subset_append_right _ _)

/-- **Phase 6 runs the factory hooks of names that the last look has not found.** -/
theorem runRemaining_allowed {b : Behaviour κ ι ω} {cmp : Comparator}
    (looked : Looked serve before P) :
    Allowed serve (HasGrounds serve external) before (runRemaining b cmp) P s := by
  refine .bind (allowed_of_early remaining_plain.early) fun T₁ names P₁ s₁ h₁ => ?_
  obtain ⟨rfl, answer, s₀, T₀, -, -, -, hnames⟩ := remaining_returns h₁
  have new : ∀ tier, ∀ name ∈ inTier tier names, name ∉ P.names := by
    intro tier name hn dealt
    obtain ⟨entry, he, rfl⟩ := List.mem_map.mp hn
    have listed : entry.1 ∈ names.map Prod.fst := List.mem_map_of_mem ((List.mem_filter.mp he).1)
    rw [hnames] at listed
    have undealt := (List.mem_filter.mp listed).2
    rw [(P.contains_iff entry.1).mpr dealt] at undealt
    cases undealt
  have perm (group : List (Candidate κ)) : (Candidate.sort cmp group).Perm group :=
    List.mergeSort_perm _ _
  have looked₁ := looked.still (remaining_plain.late.returned h₁)
  refine .bind (factoryGroup_allowed perm looked₁ (new _)) fun T₂ n₂ P₂ s₂ h₂ => ?_
  obtain ⟨rfl, -⟩ := factoryGroup_returns perm h₂
  have looked₂ := looked₁.still ((factoryGroup_late b _ _).returned h₂)
  refine .bind (factoryGroup_allowed perm looked₂ (new _)) fun T₃ n₃ P₃ s₃ h₃ => ?_
  obtain ⟨rfl, -⟩ := factoryGroup_returns perm h₃
  have looked₃ := looked₂.still ((factoryGroup_late b _ _).returned h₃)
  exact .bind (factoryGroup_allowed (fun _ => .refl _) looked₃ (new _)) fun _ _ _ _ _ =>
    allowed_of_early (.pure _)

/-- **All factory hooks of phases 1 to 6 have grounds**, whatever suppliers and hooks do. -/
theorem factoryPhases_allowed (b : Behaviour κ ι ω) (patience : Nat) (options : Options) :
    Allowed serve (HasGrounds serve external) before
      (runFactoryPhases b patience options external) P s := by
  refine .bind (allowed_of_early comparator_plain.early) fun T₁ cmp P₁ s₁ _ => ?_
  refine .bind (allowed_of_early (demand_pure_only _)) fun T₂ u₂ P₂ s₂ _ => ?_
  refine .bind (allowed_of_early (registryPhases_early b cmp patience options external))
    fun T₃ found P₃ s₃ h₃ => ?_
  obtain ⟨total, found⟩ := found
  have looked := (registryPhases_look h₃).after (before ++ T₁ ++ T₂)
  refine .bind (ownHooks_allowed fun e he => (registryPhases_hookRun h₃ e he).after _)
    fun T₄ counts P₄ s₄ h₄ => ?_
  obtain ⟨registry, regular⟩ := counts
  obtain ⟨-, rfl⟩ := ownHooks_returns h₄
  have looked₄ := looked.still ((ownHooks_late b external found).returned h₄)
  refine .bind (runRemaining_allowed looked₄) fun _ _ _ _ _ => ?_
  exact allowed_of_early <| (Only.ask nofun).bind fun _ => (announce_early _).bind fun _ => .pure _

/-- **All factory hooks of a bootstrap have grounds.** -/
theorem phases_allowed (b : Behaviour κ ι ω) (patience : Nat) (options : Options) :
    Allowed serve (HasGrounds serve external) before (phases b patience options external) P s := by
  refine .bind (factoryPhases_allowed b patience options) fun _ _ _ _ _ => ?_
  exact allowed_of_early <| (Only.ask nofun).bind fun listeners =>
    (chainPhase_early b listeners).bind fun _ => Only.get.bind fun _ => .pure _

/-! ## 7. The registry hook before the factory hook -/

/-- **A factory hook has its registry hook before it**, whatever suppliers and hooks do, also in a
    bootstrap that fails or has no end; but for two exceptions. The extension was handed in as a
    factory post-processor; or phase 6 runs the hook under a name that was no registry
    post-processor when they were looked up for the last time, at the end of phase 4. -/
theorem factoryHooks_have_grounds (b : Behaviour κ ι ω) (depth : Nat) (view : Container.View)
    (patience : Nat) (options : Options) (external : List (Handle κ)) (P : Processed)
    (s : State κ ι ω) (before : Asked κ ι ω (State κ ι ω)) (e : Extension κ) (u : State κ ι ω)
    (after : Asked κ ι ω (State κ ι ω))
    (cut : Phase.asked (Container.serve b depth view) (phases b patience options external) P s =
      before ++ (.factoryHook e, u) :: after) :
    HookRun before e ∨ e ∈ suppliedFactory external ∨
      ∃ name precedence t u' earlier, LastLook before t ∧
        name ∉ t.container.namesFor (.postProcessor .registry) ∧
        Answered (Container.serve b depth view) before name .factory e ∧
        before = earlier ++ [(.announce (.factoryHook name precedence), u')] := by
  have allowed : Allowed (Container.serve b depth view)
      (HasGrounds (Container.serve b depth view) external) []
      (phases b patience options external) P s := phases_allowed b patience options
  have grounds := allowed before _ after cut e rfl
  rw [List.nil_append] at grounds
  cases grounds with
  | own run => exact .inl run
  | handedIn mem => exact .inr (.inl mem)
  | late look saw unseen answered announced =>
      unfold registryNames at saw
      rw [Container.serve_namesFor] at saw
      cases saw
      exact .inr (.inr ⟨_, _, _, _, _, look, unseen, answered, announced⟩)

/-- The request runs the factory hook of the extension. -/
def isFactoryHook [DecidableEq κ] (e : Extension κ) : Request κ ι ω → Bool
  | .factoryHook e' => e' == e
  | _ => false

/-- The request runs the registry hook of the extension. -/
def isRegistryHook [DecidableEq κ] (e : Extension κ) : Request κ ι ω → Bool
  | .registryHook e' => e' == e
  | _ => false

theorem exists_factoryHook [DecidableEq κ] (T : Asked κ ι ω σ) (e : Extension κ) (test : σ → Bool)
    (h : T.any (fun q => isFactoryHook e q.1 && test q.2) = true) :
    ∃ before u after, T = before ++ (.factoryHook e, u) :: after ∧ test u = true := by
  obtain ⟨⟨r, u⟩, hm, hq⟩ := List.any_eq_true.mp h
  obtain ⟨hook, passes⟩ := Bool.and_eq_true_iff.mp hq
  cases r with
  | factoryHook e' =>
      obtain rfl : e' = e := beq_iff_eq.mp hook
      obtain ⟨before, after, cut⟩ := List.append_of_mem hm
      exact ⟨before, u, after, cut, passes⟩
  | _ => cases hook

/-- In the shop the audit configuration runs its factory hook on one of the grounds. -/
theorem shop_factoryHook_has_grounds :
    ∃ before u after,
      Phase.asked (Container.serve (Demo.behaviour "db") 1 .full)
        (phases (Demo.behaviour "db") 2 {} []) .empty Demo.shop =
          before ++ (.factoryHook ⟨0, .custom .auditConfiguration⟩, u) :: after ∧
      (HookRun before ⟨0, .custom .auditConfiguration⟩ ∨
        ⟨0, .custom .auditConfiguration⟩ ∈ suppliedFactory ([] : List (Handle Demo.Code)) ∨
        ∃ name precedence t u' earlier, LastLook before t ∧
          name ∉ t.container.namesFor (.postProcessor .registry) ∧
          Answered (Container.serve (Demo.behaviour "db") 1 .full) before name .factory
            ⟨0, .custom .auditConfiguration⟩ ∧
          before = earlier ++ [(.announce (.factoryHook name precedence), u')]) := by
  obtain ⟨before, u, after, cut, -⟩ := exists_factoryHook
    (Phase.asked (Container.serve (Demo.behaviour "db") 1 .full)
      (phases (Demo.behaviour "db") 2 {} []) .empty Demo.shop)
    ⟨0, .custom .auditConfiguration⟩ (fun _ => true) (by decide +kernel)
  exact ⟨before, u, after, cut, factoryHooks_have_grounds (Demo.behaviour "db") 1 .full 2 {} []
    .empty Demo.shop before _ u after cut⟩

/-- The definition of a registry post-processor, with its code. -/
def registryPostProcessor (name : String) (code : Bool) : Definition Bool :=
  { name, typeName := "P", kind := .postProcessor .registry, supplier := code }

/-- The behaviour where the factory hook of `true` registers another registry post-processor. -/
def lateComer : Behaviour Bool Unit Unit where
  name _ := ""
  supply _ := .done (.ok ())
  build code := .done (.ok code)
  onRegistry _ := .done (.ok ())
  onFactory code :=
    if code then
      Program.request (I := factoryInterface Bool Unit Unit)
        (.registry (.register (registryPostProcessor "late" false)))
    else .done (.ok ())
  mergedAware _ := false
  onMerged _ _ _ world := (.ok (), world)
  before _ value _ world := (.ok value, world)
  after _ value _ world := (.ok value, world)

/-- The container before such a bootstrap. -/
def expecting : State Bool Unit Unit where
  container := { definitions := .set .empty "first" (registryPostProcessor "first" true) }
  world := ()

/-- A registry post-processor that a factory hook of phase 5 registers runs its factory hook in phase
    6, and its registry hook never. -/
theorem lateComer_skips_registryHook :
    ∃ before u after,
      Phase.asked (Container.serve lateComer 1 .full) (phases lateComer 2 {} []) .empty expecting =
        before ++ (.factoryHook ⟨1, .custom false⟩, u) :: after ∧
      (u.container.definitions.find? "late").map Definition.kind =
        some (.postProcessor .registry) ∧
      u.container.extensions.find? "late" = some ⟨.registry, ⟨1, .custom false⟩⟩ ∧
      ¬ HookRun (Phase.asked (Container.serve lateComer 1 .full) (phases lateComer 2 {} []) .empty
        expecting) ⟨1, .custom false⟩ := by
  obtain ⟨before, u, after, cut, passes⟩ := exists_factoryHook
    (Phase.asked (Container.serve lateComer 1 .full) (phases lateComer 2 {} []) .empty expecting)
    ⟨1, .custom false⟩ (fun u =>
      (u.container.definitions.find? "late").map Definition.kind ==
        some (.postProcessor .registry) &&
      u.container.extensions.find? "late" == some ⟨.registry, ⟨1, .custom false⟩⟩)
    (by decide +kernel)
  obtain ⟨kind, handle⟩ := Bool.and_eq_true_iff.mp passes
  refine ⟨before, u, after, cut, beq_iff_eq.mp kind, beq_iff_eq.mp handle, ?_⟩
  have never : (Phase.asked (Container.serve lateComer 1 .full) (phases lateComer 2 {} []) .empty
      expecting).all (fun q => !isRegistryHook ⟨1, .custom false⟩ q.1) = true := by decide +kernel
  rintro ⟨t, ht⟩
  have other := List.all_eq_true.mp never _ ht
  simp [isRegistryHook] at other

end ComponentContainer.Bootstrap
