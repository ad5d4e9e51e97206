/-
  File:      ComponentContainer/Proofs/Passes.lean
  Subject:   The passes of phase 4, and the names that they deal with.

  * `dealtNames` -- the names of the registry post-processors that have been made; `Marks` -- **a
    phase puts exactly these behind the names dealt with**, and they were not among them.
  * `announcedPasses`, `Batches` -- the passes that were announced, with the names that each has
    dealt with.
  * `pass_cases` -- what a pass can do: it ends with its search, is refused at the limit, or is run.
  * `pass_batches`, `passes_batches` -- **the passes of phase 4**, also of a run that fails or has no
    end: each has a batch of new names.
-/
import ComponentContainer.Proofs.Composition
import ComponentContainer.Proofs.RegistryHooks

namespace ComponentContainer.Bootstrap

open Phase

variable {κ ι ω σ α β : Type} {serve : Program.Handler (factoryInterface κ ι ω) σ}
  {P P' : Processed} {s s' : σ}

/-! ## 1. Names that are dealt with -/

/-- The answer is a registry post-processor. -/
def isMaker : Option (Except Failure (Handle κ) × σ) → Bool
  | some (.ok handle, _) => handle.family == .registry
  | _ => false

/-- The name of the registry post-processor that the request has made. -/
def dealt? (serve : Program.Handler (factoryInterface κ ι ω) σ) (q : Request κ ι ω × σ) :
    Option String :=
  match q.1 with
  | .extension name (.postProcessor .registry) =>
    if isMaker (serve (.extension name (.postProcessor .registry)) q.2) then some name else none
  | _ => none

/-- The names of the registry post-processors that have been made. -/
def dealtNames (serve : Program.Handler (factoryInterface κ ι ω) σ) (T : Asked κ ι ω σ) :
    List String := T.filterMap (dealt? serve)

theorem dealtNames_append (T T' : Asked κ ι ω σ) :
    dealtNames serve (T ++ T') = dealtNames serve T ++ dealtNames serve T' :=
  List.filterMap_append

/-- Where no registry post-processor is asked for, none is made. -/
theorem dealtNames_eq_nil {T : Asked κ ι ω σ}
    (h : ∀ q ∈ T, ∀ name, q.1 ≠ .extension name (.postProcessor .registry)) :
    dealtNames serve T = [] := by
  refine List.filterMap_eq_nil_iff.mpr fun q mem => ?_
  unfold dealt?
  split
  · rename_i name hq
    exact absurd hq (h q mem name)
  · rfl

theorem dealtNames_extension (name : String) (s : σ) :
    dealtNames serve [((.extension name (.postProcessor .registry) : Request κ ι ω), s)] =
      if isMaker (serve (.extension name (.postProcessor .registry)) s) then [name] else [] := by
  unfold dealtNames
  by_cases made : isMaker (serve (.extension name (.postProcessor .registry)) s) = true
  · rw [if_pos made]
    exact List.filterMap_cons_some (if_pos made)
  · rw [if_neg made]
    exact List.filterMap_cons_none (if_neg made)

/-- The phase, begun with the names `P` in the state `s`, puts the names of the registry
    post-processors it makes behind `P`, and no others; and they are new. -/
structure Marks (serve : Program.Handler (factoryInterface κ ι ω) σ) (x : Phase κ ι ω α)
    (P : Processed) (s : σ) : Prop where
  fresh : (P.names ++ dealtNames serve (Phase.asked serve x P s)).Nodup
  kept ⦃outcome : Except Failure α⦄ ⦃P' : Processed⦄ ⦃s' : σ⦄
    (h : result serve x P s = some ((outcome, P'), s')) :
    P'.names = P.names ++ dealtNames serve (Phase.asked serve x P s)

namespace Marks

theorem of_madeOf {sort : Request κ ι ω → Prop} {x : Phase κ ι ω α} (hx : MadeOf sort x)
    (none : ∀ name, ¬ sort (.extension name (.postProcessor .registry))) : Marks serve x P s := by
  have nothing : dealtNames serve (Phase.asked serve x P s) = [] :=
    dealtNames_eq_nil fun q mem name same => none name (same ▸ hx.only P s q mem)
  constructor
  · rw [nothing, List.append_nil]
    exact P.distinct
  · intro outcome P' s' h
    rw [nothing, List.append_nil, hx.keepsNames none h]

theorem pure (a : α) : Marks serve (Pure.pure a : Phase κ ι ω α) P s := by
  have nothing : MadeOf (fun _ => False) (Pure.pure a : Phase κ ι ω α) := .pure a
  exact of_madeOf nothing fun _ => id

theorem get : Marks serve (MonadState.get : Phase κ ι ω Processed) P s := by
  have nothing : MadeOf (fun _ => False) (MonadState.get : Phase κ ι ω Processed) := .get
  exact of_madeOf nothing fun _ => id

/-- **A sequence puts behind the names what its first part does, then what its second part does.** -/
theorem bind {x : Phase κ ι ω α} {f : α → Phase κ ι ω β} (hx : Marks serve x P s)
    (hf : ∀ a P₁ s₁, Yields serve x P s a P₁ s₁ → Marks serve (f a) P₁ s₁) :
    Marks serve (x >>= f) P s where
  fresh := by
    rcases Returns.asked_bind_cases serve x f P s with h | ⟨a, P₁, s₁, hr, h⟩
    · rw [h]
      exact hx.fresh
    · rw [h, dealtNames_append, ← List.append_assoc, ← hx.kept hr.result]
      exact (hf a P₁ s₁ hr.result).fresh
  kept outcome P' s' h := by
    rw [result_bind] at h
    rw [Phase.asked_bind]
    rcases hr : result serve x P s with _ | ⟨⟨failure | a, P₁⟩, s₁⟩
    · rw [hr] at h
      cases h
    · rw [hr] at h
      cases h
      rw [List.append_nil]
      exact hx.kept hr
    · rw [hr] at h
      rw [dealtNames_append, ← List.append_assoc, ← hx.kept hr]
      exact (hf a P₁ s₁ hr).kept h

end Marks

theorem asked_extensionOf (name : String) (family : PostProcessor) (P : Processed) (s : σ) :
    Phase.asked serve (extensionOf name family) P s =
      [(.extension name (.postProcessor family), s)] := by
  unfold extensionOf
  rw [Phase.asked_bind, asked_extension]
  rcases result serve (extension name _) P s with _ | ⟨⟨failure | handle, P₁⟩, s₁⟩
  · rfl
  · rfl
  · show _ ++ Phase.asked serve (if _ then _ else _) P₁ s₁ = _
    split <;> rfl

theorem result_extensionOf (name : String) (family : PostProcessor) (P : Processed) (s : σ) :
    result serve (extensionOf name family) P s =
      match serve (.extension name (.postProcessor family)) s with
      | none => none
      | some (.error failure, s') => some ((.error failure, P), s')
      | some (.ok handle, s') =>
        if handle.family = family then some ((.ok handle, P), s')
        else some ((.error (.typeMismatch name family.text handle.capability.text), P), s') := by
  unfold extensionOf extension
  rw [result_bind, result_demand, Program.run_request]
  rcases serve (.extension name (.postProcessor family)) s with _ | ⟨failure | handle, s₁⟩
  · rfl
  · rfl
  · show result serve (if _ then _ else _) P s₁ = _
    split
    · rename_i same
      exact (if_pos same).symm
    · rename_i other
      exact (if_neg other).symm

/-- A registry post-processor is made, and its name is marked as dealt with. -/
theorem Marks.found {name : String} (new : name ∉ P.names) :
    Marks serve (do
      let handle ← extensionOf name .registry
      modify (·.insert name)
      return handle) P s := by
  have names : (P.insert name).names = P.names ++ [name] := by
    rw [Processed.names_insert, if_neg new]
  have asks : Phase.asked serve (do
      let handle ← extensionOf name .registry
      modify (·.insert name)
      return handle) P s = [(.extension name (.postProcessor .registry), s)] := by
    rw [Phase.asked_bind, asked_extensionOf]
    rcases result serve (extensionOf name .registry) P s with _ | ⟨⟨failure | handle, P₁⟩, s₁⟩ <;> rfl
  constructor
  · rw [asks, dealtNames_extension]
    split
    · exact names ▸ (P.insert name).distinct
    · exact (List.append_nil P.names).symm ▸ P.distinct
  · intro outcome P' s' h
    rw [asks, dealtNames_extension]
    rw [result_bind, result_extensionOf] at h
    rcases hs : serve (.extension name (.postProcessor .registry)) s with
      _ | ⟨failure | handle, s₁⟩
    · rw [hs] at h
      cases h
    · rw [hs] at h
      cases h
      exact (List.append_nil P.names).symm
    · rw [hs] at h
      by_cases family : handle.family = .registry
      · simp only [if_pos family] at h
        cases h
        have made : isMaker (some ((.ok handle : Except Failure (Handle κ)), s')) = true :=
          beq_iff_eq.mpr family
        rw [if_pos made]
        exact names
      · simp only [if_neg family] at h
        cases h
        have unmade : ¬ isMaker (some ((.ok handle : Except Failure (Handle κ)), s')) = true :=
          fun same => family (beq_iff_eq.mp same)
        rw [if_neg unmade, List.append_nil]

/-- **What is found in the registry is what is marked as dealt with.** -/
theorem collectFrom_marks (accept : Precedence → Bool) (names : List String) :
    Marks serve (collectFrom accept names) P s := by
  induction names generalizing P s with
  | nil => exact .pure _
  | cons name rest ih =>
      have looks : MadeOf (fun r => ∃ other, r = .registry (.find other))
          (standing name : Phase κ ι ω Precedence) :=
        standing_madeOf (fun other => ⟨other, rfl⟩) name
      refine (Marks.of_madeOf looks fun _ ⟨_, other⟩ => nomatch other).bind fun precedence P₁ s₁ _ => ?_
      refine Marks.get.bind fun Q P₂ s₂ hr => ?_
      cases hr
      split
      · exact ih
      · rename_i undealt
        have new : name ∉ P₁.names := by
          intro known
          rw [(P₁.contains_iff name).mpr known] at undealt
          exact undealt rfl
        have found : Marks serve (do
            let handle ← extensionOf name .registry
            modify (·.insert name)
            return handle) P₁ s₁ := .found new
        have rest := found.bind (f := fun handle => do
          return ⟨name, precedence, handle⟩ :: (← collectFrom accept rest)) fun _ _ _ _ =>
            ih.bind fun _ _ _ _ => .pure _
        simpa only [bind_assoc, pure_bind] using rest

theorem collect_marks (cmp : Comparator) (accept : Precedence → Bool) :
    Marks serve (collect cmp accept) P s := by
  have looks : MadeOf (· = registryNames) (namesFor .registry : Phase κ ι ω (List String)) :=
    .ask rfl rfl
  exact (Marks.of_madeOf looks nofun).bind fun names _ _ _ =>
    (collectFrom_marks accept names).bind fun _ _ _ _ => .pure _

/-- A batch has as many candidates as names have been dealt with for it. -/
theorem collect_dealt {cmp : Comparator} {accept : Precedence → Bool} {T : Asked κ ι ω σ}
    {batch : List (Candidate κ)} (h : Returns serve (collect cmp accept) P s T batch P' s') :
    (dealtNames serve T).length = batch.length := by
  have marks : Marks serve (collect cmp accept) P s := collect_marks cmp accept
  have kept := marks.kept h.result
  rw [h.asked] at kept
  obtain ⟨T₁, T₂, names, P₁, s₁, h₁, h₂, rfl⟩ := h.of_bind
  obtain ⟨-, rfl, -⟩ := h₁.of_ask
  obtain ⟨T₃, T₄, found, P₂, s₂, h₃, h₄, rfl⟩ := h₂.of_bind
  obtain ⟨-, rfl, rfl, -⟩ := h₄.of_pure
  rw [(collectFrom_returns h₃).1] at kept
  rw [← List.append_cancel_left kept, List.length_map]
  exact (List.mergeSort_perm found _).length_eq.symm

/-! ## 2. Passes that are announced -/

/-- The pass that the request announces: its number, and how many candidates its batch has. -/
def pass? : Request κ ι ω → Option (Nat × Nat)
  | .announce (.registryPass n found) => some (n, found)
  | _ => none

/-- The passes that were announced. -/
def announcedPasses (T : Asked κ ι ω σ) : List (Nat × Nat) := T.filterMap fun q => pass? q.1

theorem announcedPasses_append (T T' : Asked κ ι ω σ) :
    announcedPasses (T ++ T') = announcedPasses T ++ announcedPasses T' :=
  List.filterMap_append

/-- What phases 1 to 4 ask for within a pass, and before the first one. -/
def PassWork (r : Request κ ι ω) : Prop := RegistryWork r ∧ pass? r = none ∧ r ≠ .forever

theorem announcedPasses_eq_nil {T : Asked κ ι ω σ} (h : ∀ q ∈ T, PassWork q.1) :
    announcedPasses T = [] := List.filterMap_eq_nil_iff.mpr fun q mem => (h q mem).2.1

theorem collect_passWork (cmp : Comparator) (accept : Precedence → Bool) :
    MadeOf PassWork (collect cmp accept : Phase κ ι ω (List (Candidate κ))) :=
  collect_madeOf ⟨.look, rfl, nofun⟩ (fun name => ⟨.find name, rfl, nofun⟩)
    (fun name => ⟨.extension name, rfl, nofun⟩) cmp accept

/-- The hooks of a batch make nothing. -/
def HookWork (r : Request κ ι ω) : Prop :=
  PassWork r ∧ ∀ name, r ≠ .extension name (.postProcessor .registry)

theorem runRegistryHooks_hookWork (batch : List (Candidate κ)) :
    MadeOf HookWork (runRegistryHooks batch : Phase κ ι ω Unit) :=
  runRegistryHooks_madeOf (fun _ _ => ⟨⟨.announce _, rfl, nofun⟩, nofun⟩)
    (fun e => ⟨⟨.registryHook e, rfl, nofun⟩, nofun⟩) batch

/-- **The phases before phase 4** announce no pass, and phase 1 makes nothing. -/
theorem runSupplied_hookWork (b : Behaviour κ ι ω) (external : List (Handle κ)) :
    MadeOf HookWork (runSupplied b external) :=
  runSupplied_madeOf (fun _ => ⟨⟨.announce _, rfl, nofun⟩, nofun⟩)
    (fun e => ⟨⟨.registryHook e, rfl, nofun⟩, nofun⟩) b external

theorem registryPhase_passWork (cmp : Comparator) (accept : Precedence → Bool) :
    MadeOf PassWork (registryPhase cmp accept : Phase κ ι ω (List (Candidate κ))) :=
  (collect_passWork cmp accept).bind fun batch =>
    ((runRegistryHooks_hookWork batch).mono fun _ h => h.1).bind fun _ => .pure _

/-- The announcements of passes with these batches, where `done` passes were made before. -/
def numbered (done : Nat) : List (List String) → List (Nat × Nat)
  | [] => []
  | batch :: batches => (done + 1, batch.length) :: numbered (done + 1) batches

/-- The requests announce passes with these batches, none of them empty; their names are dealt with in
    this order, and after them those of a batch for which no pass was announced. -/
structure Batches (serve : Program.Handler (factoryInterface κ ι ω) σ) (T : Asked κ ι ω σ)
    (done : Nat) (batches : List (List String)) (rest : List String) : Prop where
  nonempty : ∀ batch ∈ batches, batch ≠ []
  announced : announcedPasses T = numbered done batches
  dealt : dealtNames serve T = batches.flatten ++ rest

theorem length_numbered (done : Nat) (batches : List (List String)) :
    (numbered done batches).length = batches.length := by
  induction batches generalizing done with
  | nil => rfl
  | cons batch batches ih => exact congrArg Nat.succ (ih (done + 1))

/-- There are at least as many names as batches. -/
theorem Batches.length_le {T : Asked κ ι ω σ} {done : Nat} {batches : List (List String)}
    {rest : List String} (h : Batches serve T done batches rest) :
    batches.length ≤ batches.flatten.length := by
  have nonempty := h.nonempty
  clear h
  induction batches with
  | nil => exact Nat.le_refl 0
  | cons batch batches ih =>
      obtain ⟨first, others⟩ := List.forall_mem_cons.mp nonempty
      have := List.length_pos_iff.mpr first
      have := ih others
      rw [List.flatten_cons, List.length_cons, List.length_append]
      omega

/-- The requests of a phase that begins with a request. -/
theorem asked_ask_bind (r : Request κ ι ω) (f : r.Answer → Phase κ ι ω β) (P : Processed) (s : σ) :
    Phase.asked serve (ask r >>= f) P s = (r, s) :: match serve r s with
      | none => []
      | some (answer, s') => Phase.asked serve (f answer) P s' := by
  rw [Phase.asked_bind, asked_ask, result_ask]
  rcases serve r s with _ | ⟨answer, s'⟩ <;> rfl

/-- A result that is only passed on asks for nothing more. -/
theorem asked_bind_pure (serve : Program.Handler (factoryInterface κ ι ω) σ) (x : Phase κ ι ω α)
    (g : α → β) (P : Processed) (s : σ) :
    Phase.asked serve (x >>= fun a => pure (g a)) P s = Phase.asked serve x P s := by
  rcases Returns.asked_bind_cases serve x (fun a => pure (g a)) P s with h | ⟨a, P₁, s₁, -, h⟩
  · exact h
  · exact h.trans (List.append_nil _)

/-- A pass once its batch may be run. -/
def runPass (done : Nat) (batch : List (Candidate κ)) :
    Phase κ ι ω (Option (List (Candidate κ))) := do
  announce (.registryPass (done + 1) batch.length)
  runRegistryHooks batch
  return some batch

/-- It is announced, and then runs hooks only. -/
theorem asked_runPass (serve : Program.Handler (factoryInterface κ ι ω) σ) (done : Nat)
    (batch : List (Candidate κ)) (P : Processed) (s : σ) :
    ∃ rest, Phase.asked serve (runPass done batch) P s =
      (.announce (.registryPass (done + 1) batch.length), s) :: rest ∧ ∀ q ∈ rest, HookWork q.1 := by
  refine ⟨_, asked_ask_bind _ _ P s, ?_⟩
  have hooks : MadeOf HookWork (do
      runRegistryHooks batch
      return some batch : Phase κ ι ω (Option (List (Candidate κ)))) :=
    (runRegistryHooks_hookWork batch).bind fun _ => .pure _
  rcases serve (.announce (.registryPass (done + 1) batch.length)) s with _ | ⟨u, s'⟩
  · exact fun _ mem => absurd mem List.not_mem_nil
  · exact hooks.only P s'

theorem runPass_yields {done : Nat} {batch : List (Candidate κ)}
    {found : Option (List (Candidate κ))} (h : Yields serve (runPass done batch) P s found P' s') :
    found = some batch := by
  obtain ⟨T₁, T₂, _, P₁, s₁, -, h₁, -⟩ := Returns.of_bind ⟨h, rfl⟩
  obtain ⟨T₃, T₄, _, P₂, s₂, -, h₂, -⟩ := h₁.of_bind
  exact h₂.of_pure.2.1.symm

/-- A pass after its search. -/
def afterSearch (limit : Option Nat) (done : Nat) (batch : List (Candidate κ)) :
    Phase κ ι ω (Option (List (Candidate κ))) := do
  if batch.isEmpty then return none
  else
    demand (pure (ensureAllowed limit done))
    runPass done batch

theorem afterSearch_refused {n done : Nat} {batch : List (Candidate κ)} (nonempty : batch ≠ [])
    (full : n ≤ done) :
    (afterSearch (some n) done batch : Phase κ ι ω _) =
      demand (pure (.error (.passLimitExceeded n))) := by
  have refused : ensureAllowed (some n) done = .error (.passLimitExceeded n) := if_pos full
  have goesOn : ¬ batch.isEmpty = true := fun empty => nonempty (List.isEmpty_iff.mp empty)
  unfold afterSearch
  rw [if_neg goesOn, refused]
  rfl

theorem afterSearch_allowed {limit : Option Nat} {done : Nat} {batch : List (Candidate κ)}
    (nonempty : batch ≠ []) (room : ∀ n, limit = some n → done < n) :
    (afterSearch limit done batch : Phase κ ι ω _) = runPass done batch := by
  have allowed : ensureAllowed limit done = .ok () := by
    cases limit with
    | none => rfl
    | some n => exact if_neg (Nat.not_le.mpr (room n rfl))
  have goesOn : ¬ batch.isEmpty = true := fun empty => nonempty (List.isEmpty_iff.mp empty)
  unfold afterSearch
  rw [if_neg goesOn, allowed]
  rfl

/-- **What a pass can do**, begun with the names `P` in the state `s`. -/
inductive PassCase (serve : Program.Handler (factoryInterface κ ι ω) σ) (cmp : Comparator)
    (limit : Option Nat) (done : Nat) (P : Processed) (s : σ) : Prop
  /-- The search does not return, or it finds nothing; then it was the last pass. -/
  | searched
      (nothing : ∀ batch P₁ s₁, Yields serve (collect cmp fun _ => true) P s batch P₁ s₁ → batch = [])
      (asks : Phase.asked serve (pass cmp limit done) P s =
        Phase.asked serve (collect cmp fun _ => true) P s)
      (ends : ∀ found P' s', Yields serve (pass cmp limit done) P s found P' s' →
        found = none ∧ Yields serve (collect cmp fun _ => true) P s [] P' s')
  /-- There is a batch, and the limit does not allow another pass. -/
  | refused {batch : List (Candidate κ)} {P₁ : Processed} {s₁ : σ} {n : Nat}
      (found : Yields serve (collect cmp fun _ => true) P s batch P₁ s₁) (nonempty : batch ≠ [])
      (full : limit = some n ∧ n ≤ done)
      (asks : Phase.asked serve (pass cmp limit done) P s =
        Phase.asked serve (collect cmp fun _ => true) P s)
      (fails : result serve (pass cmp limit done) P s =
        some ((.error (.passLimitExceeded n), P₁), s₁))
  /-- There is a batch, and it is run. -/
  | run {batch : List (Candidate κ)} {P₁ : Processed} {s₁ : σ}
      (found : Yields serve (collect cmp fun _ => true) P s batch P₁ s₁) (nonempty : batch ≠ [])
      (room : ∀ n, limit = some n → done < n)
      (asks : Phase.asked serve (pass cmp limit done) P s =
        Phase.asked serve (collect cmp fun _ => true) P s ++
          Phase.asked serve (runPass done batch) P₁ s₁)
      (goesOn : result serve (pass cmp limit done) P s = result serve (runPass done batch) P₁ s₁)

theorem pass_cases (serve : Program.Handler (factoryInterface κ ι ω) σ) (cmp : Comparator)
    (limit : Option Nat) (done : Nat) (P : Processed) (s : σ) :
    PassCase serve cmp limit done P s := by
  have asks : Phase.asked serve (pass cmp limit done) P s = _ :=
    Phase.asked_bind (collect cmp fun _ => true) (afterSearch limit done) P s
  have goesOn : result serve (pass cmp limit done) P s = _ :=
    result_bind (collect cmp fun _ => true) (afterSearch limit done) P s
  rcases found : result serve (collect cmp fun _ => true) P s with
    _ | ⟨⟨failure | batch, P₁⟩, s₁⟩ <;> rw [found] at asks goesOn
  · exact .searched (fun _ _ _ h => nomatch found.symm.trans h) (asks.trans (List.append_nil _))
      fun _ _ _ h => nomatch goesOn.symm.trans h
  · exact .searched (fun _ _ _ h => nomatch found.symm.trans h) (asks.trans (List.append_nil _))
      fun _ _ _ h => nomatch goesOn.symm.trans h
  by_cases empty : batch = []
  · subst empty
    refine .searched (fun _ _ _ h => ?_) (asks.trans (List.append_nil _)) fun _ _ _ h => ?_
    · cases found.symm.trans h
      rfl
    · cases goesOn.symm.trans h
      exact ⟨rfl, found⟩
  by_cases full : ∃ n, limit = some n ∧ n ≤ done
  · obtain ⟨n, rfl, full⟩ := full
    simp only [afterSearch_refused empty full] at asks goesOn
    exact .refused found empty ⟨rfl, full⟩ (asks.trans (List.append_nil _)) goesOn
  · have room : ∀ n, limit = some n → done < n := fun n hn =>
      Nat.not_le.mp fun h => full ⟨n, hn, h⟩
    simp only [afterSearch_allowed empty room] at asks goesOn
    exact .run found empty room asks goesOn

/-- **One pass**: it ends the passes, or it is announced with a batch of new names. -/
theorem pass_batches (serve : Program.Handler (factoryInterface κ ι ω) σ) (cmp : Comparator)
    (limit : Option Nat) (done : Nat) (P : Processed) (s : σ) :
    (∃ rest, Batches serve (Phase.asked serve (pass cmp limit done) P s) done [] rest ∧
      ∀ {found P' s'}, Yields serve (pass cmp limit done) P s found P' s' →
        found = none ∧ rest = []) ∨
    ∃ batch, Batches serve (Phase.asked serve (pass cmp limit done) P s) done [batch] [] ∧
      (∀ n, limit = some n → done < n) ∧
      ∀ {found P' s'}, Yields serve (pass cmp limit done) P s found P' s' → found ≠ none := by
  have quiet : announcedPasses (Phase.asked serve (collect cmp fun _ => true) P s) = [] :=
    announcedPasses_eq_nil ((collect_passWork cmp _).only P s)
  have size {batch : List (Candidate κ)} {P₁ : Processed} {s₁ : σ}
      (found : Yields serve (collect cmp fun _ => true) P s batch P₁ s₁) :
      (dealtNames serve (Phase.asked serve (collect cmp fun _ => true) P s)).length = batch.length :=
    collect_dealt ⟨found, rfl⟩
  -- a pass that ends with its search
  have search : Batches serve (Phase.asked serve (collect cmp fun _ => true) P s) done []
      (dealtNames serve (Phase.asked serve (collect cmp fun _ => true) P s)) :=
    ⟨fun _ mem => absurd mem List.not_mem_nil, quiet, rfl⟩
  cases pass_cases serve cmp limit done P s with
  | searched nothing asks ends =>
      rw [asks]
      refine .inl ⟨_, search, fun h => ⟨(ends _ _ _ h).1, ?_⟩⟩
      exact List.length_eq_zero_iff.mp (size (ends _ _ _ h).2)
  | refused found nonempty full asks fails =>
      rw [asks]
      exact .inl ⟨_, search, fun h => nomatch fails.symm.trans h⟩
  | @run batch P₁ s₁ found nonempty room asks goesOn =>
      obtain ⟨rest, announced, work⟩ := asked_runPass serve done batch P₁ s₁
      refine .inr ⟨dealtNames serve (Phase.asked serve (collect cmp fun _ => true) P s),
        ⟨?_, ?_, ?_⟩, room, fun h none => ?_⟩
      · intro names mem nothing
        rw [List.mem_singleton.mp mem] at nothing
        exact nonempty (List.length_eq_zero_iff.mp ((size found).symm.trans (by rw [nothing]; rfl)))
      · rw [asks, announced, announcedPasses_append, quiet]
        show (done + 1, batch.length) :: announcedPasses rest = _
        rw [announcedPasses_eq_nil fun q mem => (work q mem).1, ← size found]
        rfl
      · have made : dealtNames serve rest = [] := dealtNames_eq_nil fun q mem => (work q mem).2
        rw [asks, announced, dealtNames_append]
        show _ ++ dealtNames serve rest = _
        rw [made]
        simp
      · exact nomatch (runPass_yields (goesOn.symm.trans h)).symm.trans none

theorem pass_madeOf (cmp : Comparator) (limit : Option Nat) (done : Nat) :
    MadeOf (fun r => RegistryWork r ∧ r ≠ .forever)
      (pass cmp limit done : Phase κ ι ω (Option (List (Candidate κ)))) := by
  refine ((collect_passWork cmp _).mono fun _ h => ⟨h.1, h.2.2⟩).bind fun batch => ?_
  split
  · exact .pure _
  · exact (MadeOf.outcome _).bind fun _ => (announce_madeOf ⟨.announce _, nofun⟩).bind fun _ =>
      ((runRegistryHooks_hookWork batch).mono fun _ h => ⟨h.1.1, h.1.2.2⟩).bind fun _ => .pure _

/-- A batch before other batches. -/
theorem Batches.cons {T T' : Asked κ ι ω σ} {done : Nat} {batch : List String}
    {batches : List (List String)} {rest : List String} (h : Batches serve T done [batch] [])
    (h' : Batches serve T' (done + 1) batches rest) :
    Batches serve (T ++ T') done (batch :: batches) rest where
  nonempty := List.forall_mem_cons.mpr ⟨h.nonempty batch (List.mem_singleton_self _), h'.nonempty⟩
  announced := by
    rw [announcedPasses_append, h.announced, h'.announced]
    rfl
  dealt := by
    rw [dealtNames_append, h.dealt, h'.dealt]
    simp

/-- **The passes of phase 4**, also of a run that fails or has no end. With a limit there are no
    more than it allows; and if phase 4 has lost its patience, there were as many as it bears. -/
theorem passes_batches (serve : Program.Handler (factoryInterface κ ι ω) σ) (cmp : Comparator)
    (limit : Option Nat) (patience done : Nat) (P : Processed) (s : σ) :
    ∃ batches rest,
      Batches serve (Phase.asked serve (passes cmp limit patience done) P s) done batches rest ∧
      (∀ n, limit = some n → batches ≠ [] → done + batches.length ≤ n) ∧
      (∀ u, (.forever, u) ∈ Phase.asked serve (passes cmp limit patience done) P s →
        batches.length = patience) ∧
      ∀ {total found P' s'}, Yields serve (passes cmp limit patience done) P s (total, found) P' s' →
        total = done + batches.length ∧ rest = [] := by
  induction patience generalizing done P s with
  | zero =>
      have alone : Phase.asked serve (passes cmp limit 0 done) P s = [(.forever, s)] := by
        refine (asked_ask_bind .forever _ P s).trans ?_
        rcases serve .forever s with _ | ⟨answer, -⟩
        · rfl
        · exact nomatch answer
      rw [alone]
      refine ⟨[], [], ⟨fun _ mem => absurd mem List.not_mem_nil, rfl, rfl⟩,
        fun _ _ none => absurd rfl none, fun _ _ => rfl, fun h => ?_⟩
      obtain ⟨T₁, T₂, answer, P₁, s₁, -, -, -⟩ := Returns.of_bind ⟨h, rfl⟩
      exact nomatch answer
  | succ patience ih =>
      have answered (u : σ) : (.forever, u) ∉ Phase.asked serve (pass cmp limit done) P s :=
        fun mem => ((pass_madeOf cmp limit done).only P s _ mem).2 rfl
      rw [passes_succ]
      simp only [Yields]
      rcases Returns.bind_cases serve (pass cmp limit done) _ P s with
        ⟨asks, fails⟩ | ⟨found, P₁, s₁, hr, asks, goesOn⟩
      · rw [asks]
        obtain ⟨rest, first, -⟩ | ⟨batch, first, room, -⟩ := pass_batches serve cmp limit done P s
        · exact ⟨[], rest, first, fun _ _ none => absurd rfl none,
            fun u mem => absurd mem (answered u), fun h => absurd h fails⟩
        · exact ⟨[batch], [], first, fun n hn _ => room n hn, fun u mem => absurd mem (answered u),
            fun h => absurd h fails⟩
      · rw [asks, goesOn]
        obtain ⟨rest, first, ends⟩ | ⟨batch, first, room, goes⟩ :=
          pass_batches serve cmp limit done P s
        · obtain ⟨rfl, rfl⟩ := ends hr.result
          simp only [asked_pure, result_pure, List.append_nil]
          refine ⟨[], [], first, fun _ _ none => absurd rfl none, fun u mem => absurd mem (answered u),
            fun h => ?_⟩
          simp only [Option.some.injEq, Prod.mk.injEq, Except.ok.injEq] at h
          exact ⟨h.1.1.1.symm, rfl⟩
        · cases found with
          | none => exact absurd rfl (goes hr.result)
          | some candidates =>
              obtain ⟨batches, rest, later, bounded, patient, total⟩ := ih (done + 1) P₁ s₁
              have same : Phase.asked serve (do
                  let others ← passes cmp limit patience (done + 1)
                  return (others.1, candidates ++ others.2)) P₁ s₁ =
                    Phase.asked serve (passes cmp limit patience (done + 1)) P₁ s₁ :=
                asked_bind_pure serve _ _ P₁ s₁
              refine ⟨batch :: batches, rest, ?_, fun n hn _ => ?_, fun u mem => ?_, fun h => ?_⟩
              · rw [same]
                exact first.cons later
              · cases batches with
                | nil => exact room n hn
                | cons next batches =>
                    have := bounded n hn (List.cons_ne_nil _ _)
                    rw [List.length_cons]
                    omega
              · rw [same] at mem
                have patient := patient u ((List.mem_append.mp mem).resolve_left (answered u))
                rw [List.length_cons, patient]
              · obtain ⟨T₁, T₂, ⟨n, others⟩, P₂, s₂, h₁, h₂, -⟩ := Returns.of_bind ⟨h, rfl⟩
                obtain ⟨-, same, -, -⟩ := h₂.of_pure
                obtain ⟨rfl, rfl⟩ := total h₁.result
                simp only [Prod.mk.injEq] at same
                rw [← same.1, List.length_cons]
                exact ⟨by omega, rfl⟩

/-! ## 3. The names that phase 4 deals with -/

theorem pass_marks (cmp : Comparator) (limit : Option Nat) (done : Nat) :
    Marks serve (pass cmp limit done) P s := by
  refine (collect_marks cmp _).bind fun batch P₁ s₁ _ => ?_
  have runs : MadeOf (fun r => ∀ name, r ≠ .extension name (.postProcessor .registry)) (do
      demand (Pure.pure (ensureAllowed limit done))
      announce (.registryPass (done + 1) batch.length)
      runRegistryHooks batch
      return some batch : Phase κ ι ω (Option (List (Candidate κ)))) :=
    (MadeOf.outcome _).bind fun _ => (announce_madeOf nofun).bind fun _ =>
      ((runRegistryHooks_hookWork batch).mono fun _ h => h.2).bind fun _ => .pure _
  split
  · exact .pure _
  · exact .of_madeOf runs fun name h => h name rfl

/-- **Phase 4 puts the names it deals with behind those dealt with before.** -/
theorem passes_marks (cmp : Comparator) (limit : Option Nat) (patience done : Nat) :
    Marks serve (passes cmp limit patience done) P s := by
  induction patience generalizing done P s with
  | zero =>
      have waits : MadeOf (fun r => ∀ name, r ≠ .extension name (.postProcessor .registry))
          (forever : Phase κ ι ω (Nat × List (Candidate κ))) :=
        MadeOf.bind (.ask (r := .forever) nofun rfl) fun answer => nomatch answer
      exact .of_madeOf waits fun name h => h name rfl
  | succ patience ih =>
      rw [passes_succ]
      refine (pass_marks cmp limit done).bind fun found P₁ s₁ _ => ?_
      cases found with
      | none => exact .pure _
      | some batch => exact (ih (done + 1)).bind fun _ _ _ _ => .pure _

end ComponentContainer.Bootstrap
