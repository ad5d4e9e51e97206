/-
  File:      ComponentContainer/Proofs/Composition.lean
  Subject:   What sort of requests each phase of a bootstrap is made of.

  * `Only` -- all that a phase asks for is of one sort, whatever the answers are.
  * `MadeOf` -- the phase is put together from requests of one sort, and the answer of a call that
    may fail is never set aside; `MadeOf.only`, `MadeOf.keepsNames` -- what this settles at once.
  * `RegistryWork`, `FactoryWork`, `ChainWork` -- the sorts of phases 1 to 4, of phases 5 and 6, and
    of phase 7.
  * `registryPhases_madeOf`, `ownHooks_madeOf`, `runRemaining_madeOf`, `chainPhase_madeOf` -- **each
    phase is made of its sort**.
-/
import ComponentContainer.Bootstrap
import ComponentContainer.Proofs.PhaseRuns

namespace ComponentContainer

variable {κ ι ω σ α β : Type} {serve : Program.Handler (factoryInterface κ ι ω) σ}

/-- The request is a call: it makes an extension or runs a hook, and it may fail. -/
def Request.isCall : Request κ ι ω → Bool
  | .extension _ _ => true
  | .registryHook _ => true
  | .factoryHook _ => true
  | _ => false

namespace Bootstrap

open Phase

/-! ## 1. Phases that ask for one sort of things -/

/-- All that the phase asks for is of that sort. -/
def Only (serve : Program.Handler (factoryInterface κ ι ω) σ) (sort : Request κ ι ω → Prop)
    (x : Phase κ ι ω α) : Prop :=
  ∀ P s, ∀ q ∈ Phase.asked serve x P s, sort q.1

namespace Only

variable {sort sort' : Request κ ι ω → Prop}

theorem mono {x : Phase κ ι ω α} (hx : Only serve sort x) (h : ∀ r, sort r → sort' r) :
    Only serve sort' x := fun P s q hq => h q.1 (hx P s q hq)

/-- What a phase of that sort has asked for. -/
theorem returned {x : Phase κ ι ω α} {P P' : Processed} {s s' : σ} {T : Asked κ ι ω σ} {a : α}
    (hx : Only serve sort x) (h : Returns serve x P s T a P' s') : ∀ q ∈ T, sort q.1 :=
  h.asked ▸ hx P s

theorem pure (a : α) : Only serve sort (Pure.pure a : Phase κ ι ω α) :=
  fun _ _ _ hq => absurd hq List.not_mem_nil

theorem get : Only serve sort (MonadState.get : Phase κ ι ω Processed) :=
  fun _ _ _ hq => absurd hq List.not_mem_nil

theorem ask {r : Request κ ι ω} (h : sort r) : Only serve sort (Phase.ask r) := by
  intro P s q hq
  rw [asked_ask] at hq
  rw [List.mem_singleton.mp hq]
  exact h

theorem demand {p : FactoryProgram κ ι ω (Except Failure α)}
    (h : ∀ s, ∀ q ∈ p.asked serve s, sort q.1) : Only serve sort (Phase.demand p) := by
  intro P s q hq
  rw [asked_demand] at hq
  exact h s q hq

theorem request {r : Request κ ι ω} (h : sort r) (s : σ) :
    ∀ q ∈ (Program.request (I := factoryInterface κ ι ω) r).asked serve s, sort q.1 := by
  intro q hq
  rw [Program.asked_request] at hq
  rw [List.mem_singleton.mp hq]
  exact h

theorem bind {x : Phase κ ι ω α} {f : α → Phase κ ι ω β} (hx : Only serve sort x)
    (hf : ∀ a, Only serve sort (f a)) : Only serve sort (x >>= f) := by
  intro P s q hq
  rcases Returns.asked_bind_cases serve x f P s with h | ⟨a, P₁, s₁, -, h⟩
  · exact hx P s q (h ▸ hq)
  · rw [h] at hq
    rcases List.mem_append.mp hq with hq | hq
    · exact hx P s q hq
    · exact hf a P₁ s₁ q hq

theorem forM {f : β → Phase κ ι ω PUnit} (hf : ∀ c, Only serve sort (f c)) (l : List β) :
    Only serve sort (l.forM f) := by
  induction l with
  | nil => exact pure _
  | cons c l ih => exact bind (hf c) fun _ => ih

end Only

/-! ## 2. Single calls -/

theorem asked_extension (name : String) (expected : Capability) (P : Processed) (s : σ) :
    Phase.asked serve (extension name expected) P s = [(.extension name expected, s)] := by
  unfold extension
  rw [asked_demand, Program.asked_request]

theorem asked_registryHook (e : Extension κ) (P : Processed) (s : σ) :
    Phase.asked serve (registryHook e) P s = [(.registryHook e, s)] := by
  unfold registryHook
  rw [asked_demand, Program.asked_request]

theorem asked_factoryHook (e : Extension κ) (P : Processed) (s : σ) :
    Phase.asked serve (factoryHook e) P s = [(.factoryHook e, s)] := by
  unfold factoryHook
  rw [asked_demand, Program.asked_request]

/-! ## 3. Phases put together from requests of one sort -/

/-- The phase is put together from requests of that sort. A call that fails is a failure of the
    phase, so no answer of a call is set aside; a name is marked as dealt with by phases that make
    registry post-processors only. -/
inductive MadeOf (sort : Request κ ι ω → Prop) : {α : Type} → Phase κ ι ω α → Prop
  | pure {α : Type} (a : α) : MadeOf sort (Pure.pure a)
  | throw {α : Type} (failure : Failure) : MadeOf sort (throw failure : Phase κ ι ω α)
  | get : MadeOf sort get
  | outcome {α : Type} (ended : Except Failure α) : MadeOf sort (demand (Pure.pure ended))
  | mark (name : String) (h : sort (.extension name (.postProcessor .registry))) :
      MadeOf sort (modify (·.insert name))
  | ask {r : Request κ ι ω} (h : sort r) (quiet : r.isCall = false) : MadeOf sort (Phase.ask r)
  | extension {name : String} {expected : Capability} (h : sort (.extension name expected)) :
      MadeOf sort (Phase.extension name expected)
  | registryHook {e : Extension κ} (h : sort (.registryHook e)) :
      MadeOf sort (Phase.registryHook e)
  | factoryHook {e : Extension κ} (h : sort (.factoryHook e)) : MadeOf sort (Phase.factoryHook e)
  | bind {α β : Type} {x : Phase κ ι ω α} {f : α → Phase κ ι ω β} (hx : MadeOf sort x)
      (hf : ∀ a, MadeOf sort (f a)) : MadeOf sort (x >>= f)

namespace MadeOf

variable {sort sort' : Request κ ι ω → Prop}

theorem mono {x : Phase κ ι ω α} (hx : MadeOf sort x) (h : ∀ r, sort r → sort' r) :
    MadeOf sort' x := by
  induction hx with
  | pure a => exact pure a
  | throw failure => exact throw failure
  | get => exact get
  | outcome ended => exact outcome ended
  | mark name hs => exact mark name (h _ hs)
  | ask hs quiet => exact ask (h _ hs) quiet
  | extension hs => exact extension (h _ hs)
  | registryHook hs => exact registryHook (h _ hs)
  | factoryHook hs => exact factoryHook (h _ hs)
  | bind _ _ hx hf => exact bind hx hf

theorem forM {f : β → Phase κ ι ω PUnit} (hf : ∀ c, MadeOf sort (f c)) (l : List β) :
    MadeOf sort (l.forM f) := by
  induction l with
  | nil => exact pure _
  | cons c l ih => exact bind (hf c) fun _ => ih

theorem mapM {f : β → Phase κ ι ω α} (hf : ∀ c, MadeOf sort (f c)) (l : List β) :
    MadeOf sort (l.mapM f) := by
  induction l with
  | nil =>
      rw [List.mapM_nil]
      exact pure _
  | cons c l ih =>
      rw [List.mapM_cons]
      exact bind (hf c) fun _ => bind ih fun _ => pure _

/-- **What is made of a sort asks for that sort only.** -/
theorem only {x : Phase κ ι ω α} (hx : MadeOf sort x) : Only serve sort x := by
  have single {r : Request κ ι ω} {s : σ} {T : Asked κ ι ω σ} (hs : sort r) (hT : T = [(r, s)]) :
      ∀ q ∈ T, sort q.1 := by
    intro q hq
    rw [hT, List.mem_singleton] at hq
    exact hq ▸ hs
  induction hx with
  | pure a => exact fun _ _ _ hq => absurd hq List.not_mem_nil
  | throw failure => exact fun _ _ _ hq => absurd hq List.not_mem_nil
  | get => exact fun _ _ _ hq => absurd hq List.not_mem_nil
  | outcome ended => exact fun _ _ _ hq => absurd hq List.not_mem_nil
  | mark name hs => exact fun _ _ _ hq => absurd hq List.not_mem_nil
  | ask hs quiet => exact fun P s => single hs (asked_ask _ P s)
  | extension hs => exact fun P s => single hs (asked_extension _ _ P s)
  | registryHook hs => exact fun P s => single hs (asked_registryHook _ P s)
  | factoryHook hs => exact fun P s => single hs (asked_factoryHook _ P s)
  | bind _ _ hx hf => exact hx.bind hf

/-- **Where no registry post-processor is made, the names dealt with stay as they are.** -/
theorem keepsNames {x : Phase κ ι ω α} (hx : MadeOf sort x)
    (none : ∀ name, ¬ sort (.extension name (.postProcessor .registry))) :
    KeepsNames serve x := by
  induction hx with
  | pure a => exact .pure a
  | throw failure => exact .throw failure
  | get => exact .get
  | outcome ended => exact .demand _
  | mark name hs => exact absurd hs (none name)
  | ask hs quiet => exact .ask _
  | extension hs => exact .demand _
  | registryHook hs => exact .demand _
  | factoryHook hs => exact .demand _
  | bind _ _ hx hf => exact hx.bind hf

end MadeOf

/-! ## 4. The parts that phases have in common -/

/-- The look at the registry with which the phases 2, 3 and 4 begin. -/
def registryNames : Request κ ι ω := .registry (.namesFor (.postProcessor .registry))

section Parts

variable {sort : Request κ ι ω → Prop} {family : PostProcessor}

theorem announce_madeOf {n : Notice} (h : sort (.announce n)) :
    MadeOf sort (announce n : Phase κ ι ω Unit) := .ask h rfl

theorem comparator_madeOf (h : sort .comparator) :
    MadeOf sort (comparator : Phase κ ι ω Comparator) :=
  (MadeOf.ask h rfl).bind fun _ => .pure _

theorem runFactoryHook_madeOf (name : κ → String) (handle : Handle κ)
    (h : sort (.factoryHook handle.extension)) :
    MadeOf sort (demand (handle.runFactoryHook name)) := by
  unfold Handle.runFactoryHook
  split
  · exact .outcome _
  · exact .factoryHook h

theorem standing_madeOf (find : ∀ name, sort (.registry (.find name))) (name : String) :
    MadeOf sort (standing name) :=
  (MadeOf.ask (find name) rfl).bind fun d => by
    cases d <;> exact .pure _

theorem extensionOf_madeOf (extension : ∀ name, sort (.extension name (.postProcessor family)))
    (name : String) : MadeOf sort (extensionOf name family) :=
  (MadeOf.extension (extension name)).bind fun handle => by
    split
    · exact .pure _
    · exact .throw _

theorem collectFrom_madeOf (find : ∀ name, sort (.registry (.find name)))
    (extension : ∀ name, sort (.extension name (.postProcessor .registry)))
    (accept : Precedence → Bool) (names : List String) :
    MadeOf sort (collectFrom accept names : Phase κ ι ω (List (Candidate κ))) := by
  induction names with
  | nil => exact .pure _
  | cons name rest ih =>
      refine (standing_madeOf find name).bind fun precedence => MadeOf.get.bind fun _ => ?_
      split
      · exact ih
      · exact (extensionOf_madeOf extension name).bind fun _ =>
          (MadeOf.mark name (extension name)).bind fun _ => ih.bind fun _ => .pure _

theorem collect_madeOf (look : sort registryNames) (find : ∀ name, sort (.registry (.find name)))
    (extension : ∀ name, sort (.extension name (.postProcessor .registry))) (cmp : Comparator)
    (accept : Precedence → Bool) :
    MadeOf sort (collect cmp accept : Phase κ ι ω (List (Candidate κ))) :=
  (MadeOf.ask look rfl).bind fun names =>
    (collectFrom_madeOf find extension accept names).bind fun _ => .pure _

theorem runRegistryHooks_madeOf
    (announce : ∀ name precedence, sort (.announce (.registryHook name precedence)))
    (hook : ∀ e, sort (.registryHook e)) (batch : List (Candidate κ)) :
    MadeOf sort (runRegistryHooks batch : Phase κ ι ω Unit) :=
  .forM (fun c : Candidate κ => (announce_madeOf (announce c.name c.precedence)).bind fun _ =>
    .registryHook (hook c.handle.extension)) batch

theorem registryPhase_madeOf (look : sort registryNames)
    (find : ∀ name, sort (.registry (.find name)))
    (extension : ∀ name, sort (.extension name (.postProcessor .registry)))
    (announce : ∀ name precedence, sort (.announce (.registryHook name precedence)))
    (hook : ∀ e, sort (.registryHook e)) (cmp : Comparator) (accept : Precedence → Bool) :
    MadeOf sort (registryPhase cmp accept : Phase κ ι ω (List (Candidate κ))) :=
  (collect_madeOf look find extension cmp accept).bind fun batch =>
    (runRegistryHooks_madeOf announce hook batch).bind fun _ => .pure _

theorem runSupplied_madeOf (announce : ∀ name, sort (.announce (.suppliedHook name)))
    (hook : ∀ e, sort (.registryHook e)) (b : Behaviour κ ι ω) (external : List (Handle κ)) :
    MadeOf sort (runSupplied b external) :=
  .forM (fun h : Handle κ => (announce_madeOf (announce (h.name b.name))).bind fun _ =>
    .registryHook (hook h.extension)) _

theorem remaining_madeOf (find : ∀ name, sort (.registry (.find name)))
    (look : sort (.registry (.namesFor (.postProcessor .factory)))) :
    MadeOf sort (remaining : Phase κ ι ω (List (String × Tier))) :=
  (MadeOf.ask look rfl).bind fun _ => MadeOf.get.bind fun _ =>
    .mapM (fun name => (standing_madeOf find name).bind fun _ => .pure _) _

theorem makeGroup_madeOf (find : ∀ name, sort (.registry (.find name)))
    (extension : ∀ name, sort (.extension name (.postProcessor .factory))) (names : List String) :
    MadeOf sort (makeGroup names : Phase κ ι ω (List (Candidate κ))) :=
  .mapM (fun name => (MadeOf.extension (extension name)).bind fun _ =>
    (standing_madeOf find name).bind fun _ => .pure _) names

theorem makeMember_madeOf
    (extension : ∀ name, sort (.extension name (.postProcessor .component))) (name : String)
    (precedence : Precedence) :
    MadeOf sort (makeMember name precedence : Phase κ ι ω (Candidate κ)) :=
  (extensionOf_madeOf extension name).bind fun _ => .pure _

theorem split_madeOf (find : ∀ name, sort (.registry (.find name)))
    (extension : ∀ name, sort (.extension name (.postProcessor .component)))
    (names : List String) :
    MadeOf sort (split names : Phase κ ι ω (List (Candidate κ) × List String × List String)) := by
  induction names with
  | nil => exact .pure _
  | cons name rest ih =>
      refine (standing_madeOf find name).bind fun precedence => ?_
      cases precedence.tier with
      | highest =>
          exact (makeMember_madeOf extension name precedence).bind fun _ => ih.bind fun _ => .pure _
      | ordered => exact ih.bind fun _ => .pure _
      | unordered => exact ih.bind fun _ => .pure _

theorem makeMembers_madeOf (find : ∀ name, sort (.registry (.find name)))
    (extension : ∀ name, sort (.extension name (.postProcessor .component)))
    (names : List String) :
    MadeOf sort (makeMembers names : Phase κ ι ω (List (Candidate κ))) :=
  .mapM (fun name => (standing_madeOf find name).bind fun _ => makeMember_madeOf extension name _)
    names

end Parts

/-! ## 5. Phases 1 to 4 -/

/-- What phases 1 to 4 ask for. -/
inductive RegistryWork : Request κ ι ω → Prop
  | comparator : RegistryWork .comparator
  | announce (n : Notice) : RegistryWork (.announce n)
  | look : RegistryWork registryNames
  | find (name : String) : RegistryWork (.registry (.find name))
  | extension (name : String) : RegistryWork (.extension name (.postProcessor .registry))
  | registryHook (e : Extension κ) : RegistryWork (.registryHook e)
  | forever : RegistryWork .forever

theorem passes_madeOf (cmp : Comparator) (limit : Option Nat) (patience done : Nat) :
    MadeOf RegistryWork
      (passes cmp limit patience done : Phase κ ι ω (Nat × List (Candidate κ))) := by
  induction patience generalizing done with
  | zero => exact (MadeOf.ask .forever rfl).bind fun answer => nomatch answer
  | succ patience ih =>
      refine (collect_madeOf .look .find .extension cmp _).bind fun batch => ?_
      split
      · exact .pure _
      · exact (MadeOf.outcome _).bind fun _ => (announce_madeOf (.announce _)).bind fun _ =>
          (runRegistryHooks_madeOf (fun _ _ => .announce _) .registryHook batch).bind fun _ =>
            (ih (done + 1)).bind fun _ => .pure _

/-- **Phases 1 to 4 look for registry post-processors, make them and run their registry hooks.** -/
theorem registryPhases_madeOf (b : Behaviour κ ι ω) (cmp : Comparator) (patience : Nat)
    (options : Options) (external : List (Handle κ)) :
    MadeOf RegistryWork (runRegistryPhases b cmp patience options external) :=
  have found (accept : Precedence → Bool) : MadeOf RegistryWork (registryPhase cmp accept) :=
    registryPhase_madeOf .look .find .extension (fun _ _ => .announce _) .registryHook cmp accept
  (runSupplied_madeOf (fun _ => .announce _) .registryHook b external).bind fun _ =>
    (found _).bind fun _ => (found _).bind fun _ => (passes_madeOf cmp _ _ 0).bind fun _ => .pure _

/-! ## 6. Phases 5 and 6 -/

/-- What phases 5 and 6 ask for, before they have the merged definitions forgotten. -/
inductive FactoryWork : Request κ ι ω → Prop
  | announce (n : Notice) : FactoryWork (.announce n)
  | look : FactoryWork (.registry (.namesFor (.postProcessor .factory)))
  | find (name : String) : FactoryWork (.registry (.find name))
  | extension (name : String) : FactoryWork (.extension name (.postProcessor .factory))
  | factoryHook (e : Extension κ) : FactoryWork (.factoryHook e)

/-- **Phase 5 runs factory hooks.** -/
theorem ownHooks_madeOf (b : Behaviour κ ι ω) (external : List (Handle κ))
    (found : List (Candidate κ)) : MadeOf FactoryWork (runOwnHooks b external found) := by
  refine MadeOf.bind (.forM (fun e => .factoryHook (.factoryHook e)) _) fun _ => ?_
  exact MadeOf.bind (.forM (fun h => runFactoryHook_madeOf b.name h (.factoryHook _)) _)
    fun _ => .pure _

theorem runUnderName_madeOf (name : κ → String) (c : Candidate κ) :
    MadeOf FactoryWork (do
      announce (.factoryHook c.name c.precedence)
      demand (c.handle.runFactoryHook name) : Phase κ ι ω Unit) :=
  (announce_madeOf (.announce _)).bind fun _ =>
    runFactoryHook_madeOf name c.handle (.factoryHook _)

theorem factoryGroup_madeOf (b : Behaviour κ ι ω)
    (sort : List (Candidate κ) → List (Candidate κ)) (names : List String) :
    MadeOf FactoryWork (factoryGroup b sort names) :=
  (makeGroup_madeOf .find .extension names).bind fun _ =>
    (MadeOf.forM (runUnderName_madeOf b.name) _).bind fun _ => .pure _

/-- **Phase 6 looks for factory post-processors, makes them and runs their factory hooks.** -/
theorem runRemaining_madeOf (b : Behaviour κ ι ω) (cmp : Comparator) :
    MadeOf FactoryWork (runRemaining b cmp) :=
  (remaining_madeOf .find .look).bind fun _ => (factoryGroup_madeOf b _ _).bind fun _ =>
    (factoryGroup_madeOf b _ _).bind fun _ => (factoryGroup_madeOf b _ _).bind fun _ => .pure _

/-! ## 7. Phase 7 -/

/-- What phase 7 asks for. -/
inductive ChainWork : Request κ ι ω → Prop
  | comparator : ChainWork .comparator
  | announce (n : Notice) : ChainWork (.announce n)
  | look : ChainWork (.registry (.namesFor (.postProcessor .component)))
  | find (name : String) : ChainWork (.registry (.find name))
  | extension (name : String) : ChainWork (.extension name (.postProcessor .component))
  | chainLength : ChainWork .chainLength
  | create (body : Body κ) : ChainWork (.create body)
  | attach (e : Extension κ) : ChainWork (.attach e)

theorem join_madeOf (group : List (Candidate κ)) :
    MadeOf ChainWork (join group : Phase κ ι ω Unit) :=
  .forM (fun c => (announce_madeOf (.announce _)).bind fun _ =>
    .ask (.attach c.handle.extension) rfl) group

/-- **Phase 7 looks for component post-processors, makes them and lets them join the chain.** -/
theorem chainPhase_madeOf (b : Behaviour κ ι ω) (listeners : Extension κ) :
    MadeOf ChainWork (runChainPhase b listeners) :=
  (comparator_madeOf .comparator).bind fun _ => MadeOf.get.bind fun _ =>
    (MadeOf.ask .look rfl).bind fun _ => (MadeOf.ask .chainLength rfl).bind fun _ =>
    (MadeOf.ask (.create _) rfl).bind fun _ => (MadeOf.ask (.attach _) rfl).bind fun _ =>
    (split_madeOf .find .extension _).bind fun _ => (join_madeOf _).bind fun _ =>
    (makeMembers_madeOf .find .extension _).bind fun _ => (join_madeOf _).bind fun _ =>
    (makeMembers_madeOf .find .extension _).bind fun _ => (join_madeOf _).bind fun _ =>
    (join_madeOf _).bind fun _ =>
    (MadeOf.ask (.attach _) rfl).bind fun _ => (MadeOf.ask .chainLength rfl).bind fun _ =>
    (announce_madeOf (.announce _)).bind fun _ => .pure _

end Bootstrap

end ComponentContainer
