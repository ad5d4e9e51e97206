/-
  File:      ComponentContainer/Proofs/Settling.lean
  Subject:   Phase 4 of a bootstrap comes to rest.

  * `CallsWithin` -- the calls return, and what is registered meanwhile has names of one finite set;
    `batches_le_card` -- then there are no more passes than names, and `passes_end` -- **phase 4
    ends**.
  * `passes_settled` -- **when phase 4 has ended, all registry post-processors have been dealt
    with**.
  * `Settles`, `Tallies` -- what is said of the passes, and of a whole bootstrap;
    `phase4_settles` -- all of this together.
-/
import ComponentContainer.Proofs.OrderedRegistry
import ComponentContainer.Proofs.Passes
import ComponentContainer.Proofs.TierBarrier
import Mathlib.Data.Finset.Card

namespace ComponentContainer.Bootstrap

open Phase

variable {κ ι ω σ α β : Type} {serve : Program.Handler (factoryInterface κ ι ω) σ}
  {P P' : Processed} {s s' : σ}

/-! ## 1. Calls that keep to a finite set of names -/

section Within

variable {b : Behaviour κ ι ω} {depth : Nat} {view : Container.View} {N : Finset String}
  {s s' : State κ ι ω}

/-- All names that are registered are among `N`. -/
def Within (N : Finset String) (s : State κ ι ω) : Prop :=
  ∀ name ∈ s.container.definitions.keys, name ∈ N

/-- The calls among the requests return, and what is registered meanwhile has names of `N` only. -/
def CallsWithin (b : Behaviour κ ι ω) (depth : Nat) (view : Container.View) (N : Finset String)
    (T : Asked κ ι ω (State κ ι ω)) : Prop :=
  ∀ q ∈ T, q.1.isCall = true → ∃ answer t events,
    Container.serve b depth view q.1 q.2 = some (answer, t) ∧ t.history = events ++ q.2.history ∧
      ∀ name ∈ registeredNames events, name ∈ N

/-- The same, computed: what a call has registered is in front of the events before it. -/
def keepsWithin (b : Behaviour κ ι ω) (depth : Nat) (view : Container.View) (N : Finset String)
    (T : Asked κ ι ω (State κ ι ω)) : Bool :=
  T.all fun q => !q.1.isCall || match Container.serve b depth view q.1 q.2 with
    | none => false
    | some (_, t) =>
      (registeredNames (t.history.take (t.history.length - q.2.history.length))).all (· ∈ N)

theorem callsWithin_of_keepsWithin {T : Asked κ ι ω (State κ ι ω)}
    (h : keepsWithin b depth view N T = true) : CallsWithin b depth view N T := by
  intro q mem call
  have kept := List.all_eq_true.mp h q mem
  rw [call] at kept
  rcases served : Container.serve b depth view q.1 q.2 with _ | ⟨answer, t⟩
  · rw [served] at kept
    cases kept
  · rw [served] at kept
    obtain ⟨events, past, -⟩ := (Container.serve_course _ _ _ _ served).relisted.changes
    refine ⟨answer, t, events, rfl, past, fun name registered => ?_⟩
    have front : t.history.take (t.history.length - q.2.history.length) = events := by
      rw [past, List.length_append, Nat.add_sub_cancel, List.take_left]
    replace kept : (registeredNames (t.history.take (t.history.length - q.2.history.length))).all
        (· ∈ N) = true := kept
    rw [front] at kept
    exact of_decide_eq_true (List.all_eq_true.mp kept name registered)

theorem within_of_course {events : List (Event κ ι)} (course : Container.Course b s s')
    (past : s'.history = events ++ s.history) (only : ∀ name ∈ registeredNames events, name ∈ N)
    (within : Within N s) : Within N s' := by
  obtain ⟨events', past', listed, -⟩ := course.relisted.changes
  obtain rfl := List.append_cancel_right (past'.symm.trans past)
  intro name mem
  rcases listed.names mem with old | ⟨d, put, rfl⟩
  · exact within name old
  · obtain ⟨e, mem, change⟩ := List.mem_filterMap.mp put
    cases e with
    | registered d' =>
        cases change
        exact only d.name (List.mem_filterMap.mpr ⟨_, mem, rfl⟩)
    | _ => cases change

/-- What phases 1 to 4 ask for is answered, and the names stay among `N`, if the calls keep to it. -/
theorem answered_within {T : Asked κ ι ω (State κ ι ω)} (calls : CallsWithin b depth view N T)
    {r : Request κ ι ω} (mem : (r, s) ∈ T) (work : RegistryWork r) (ends : r ≠ .forever)
    (within : Within N s) :
    ∃ answer t, Container.serve b depth view r s = some (answer, t) ∧ Within N t := by
  have called (call : r.isCall = true) :
      ∃ answer t, Container.serve b depth view r s = some (answer, t) ∧ Within N t := by
    obtain ⟨answer, t, events, served, past, only⟩ := calls _ mem call
    exact ⟨answer, t, served,
      within_of_course (Container.serve_course _ _ _ _ served) past only within⟩
  cases work with
  | comparator => exact ⟨_, _, Container.serve_comparator b depth view s, within⟩
  | announce n => exact ⟨_, _, Container.serve_announce b depth view s n, within⟩
  | look => exact ⟨_, _, Container.serve_namesFor b depth view s _, within⟩
  | find name => exact ⟨_, _, Container.serve_find b depth view s name, within⟩
  | extension name => exact called rfl
  | registryHook e => exact called rfl
  | forever => exact absurd rfl ends

variable {x : Phase κ ι ω α}

/-- While phases 1 to 4 ask for things, the names stay among `N`. -/
theorem stays_within (work : Only (Container.serve b depth view) RegistryWork x)
    (calls : CallsWithin b depth view N (Phase.asked (Container.serve b depth view) x P s))
    (within : Within N s) :
    (∀ q ∈ Phase.asked (Container.serve b depth view) x P s, Within N q.2) ∧
      ∀ {ended s'}, result (Container.serve b depth view) x P s = some (ended, s') →
        Within N s' := by
  show (∀ q ∈ (perform x P).asked _ s, Within N q.2) ∧
    ∀ {ended s'}, (perform x P).run _ s = some (ended, s') → Within N s'
  refine Program.invariant_of_asked (fun q mem within answer t served => ?_) within
  have ends : q.1 ≠ .forever := by
    rintro same
    obtain ⟨r, u⟩ := q
    obtain rfl : r = .forever := same
    exact nomatch answer
  obtain ⟨answer', t', served', stays⟩ :=
    answered_within calls mem (work P s q mem) ends within
  rw [served] at served'
  cases served'
  exact stays

/-- Where a phase does not lose its patience, it ends. -/
theorem ends_within (work : Only (Container.serve b depth view) RegistryWork x)
    (calls : CallsWithin b depth view N (Phase.asked (Container.serve b depth view) x P s))
    (within : Within N s)
    (patient : ∀ u, (.forever, u) ∉ Phase.asked (Container.serve b depth view) x P s) :
    ∃ ended, result (Container.serve b depth view) x P s = some ended := by
  refine Program.ends_of_answered fun q mem => ?_
  obtain ⟨answer, t, served, -⟩ := answered_within calls mem (work P s q mem)
    (fun same => patient q.2 (same ▸ mem)) ((stays_within work calls within).1 q mem)
  exact ⟨_, served⟩

/-- What is made was registered, so its name is among `N`. -/
theorem dealt_within {T : Asked κ ι ω (State κ ι ω)} (within : ∀ q ∈ T, Within N q.2) :
    ∀ name ∈ dealtNames (Container.serve b depth view) T, name ∈ N := by
  intro name mem
  obtain ⟨⟨r, u⟩, asked, made⟩ := List.mem_filterMap.mp mem
  unfold dealt? at made
  split at made
  · rename_i name' hr
    split at made
    · rename_i maker
      cases made
      rcases served : Container.serve b depth view (.extension name (.postProcessor .registry)) u with
        _ | ⟨failure | handle, t⟩
      · rw [served] at maker
        cases maker
      · rw [served] at maker
        cases maker
      · rw [Container.serve_extension] at served
        obtain ⟨d, found, -⟩ := Container.extension_ok served
        exact within _ asked name (mem_keys_of_find? found)
    · cases made
  · cases made

/-- Batches of new names out of `N` are no more than `N` has names. -/
theorem batches_le_card {T : Asked κ ι ω σ} {serve : Program.Handler (factoryInterface κ ι ω) σ}
    {done : Nat} {batches : List (List String)} {rest : List String}
    (h : Batches serve T done batches rest) (distinct : (dealtNames serve T).Nodup)
    (within : ∀ name ∈ dealtNames serve T, name ∈ N) : batches.length ≤ N.card := by
  have some_each := h.length_le
  have most : (dealtNames serve T).length ≤ N.card := by
    rw [← List.toFinset_card_of_nodup distinct]
    exact Finset.card_le_card fun name mem => within name (List.mem_toFinset.mp mem)
  rw [h.dealt, List.length_append] at most
  omega

/-- The phase ends, and announces no more passes than `N` has names, if the calls keep to `N`. -/
def EndsWithin (b : Behaviour κ ι ω) (depth : Nat) (view : Container.View) (N : Finset String)
    (x : Phase κ ι ω α) : Prop :=
  ∀ P s, Within N s →
    CallsWithin b depth view N (Phase.asked (Container.serve b depth view) x P s) →
    (∃ ended, result (Container.serve b depth view) x P s = some ended) ∧
      (announcedPasses (Phase.asked (Container.serve b depth view) x P s)).length ≤ N.card

/-- **Phase 4 ends**, after no more passes than `N` has names. -/
theorem passes_end (cmp : Comparator) {limit : Option Nat} {patience : Nat}
    (room : limit = none → N.card < patience) :
    EndsWithin b depth view N (passes cmp limit (passesToFollow limit patience) 0 :
      Phase κ ι ω (Nat × List (Candidate κ))) := by
  intro P s within calls
  have work : Only (Container.serve b depth view) RegistryWork
      (passes cmp limit (passesToFollow limit patience) 0 :
        Phase κ ι ω (Nat × List (Candidate κ))) := (passes_madeOf cmp limit _ 0).only
  obtain ⟨batches, rest, h, bounded, patient, -⟩ := passes_batches (Container.serve b depth view) cmp
    limit (passesToFollow limit patience) 0 P s
  have marks : Marks (Container.serve b depth view)
      (passes cmp limit (passesToFollow limit patience) 0) P s := passes_marks cmp limit _ 0
  have few : batches.length ≤ N.card := batches_le_card h (List.nodup_append.mp marks.fresh).2.1
    (dealt_within (stays_within work calls within).1)
  refine ⟨ends_within work calls within fun u waits => ?_, ?_⟩
  · have all := patient u waits
    cases limit with
    | none =>
        have := room rfl
        rw [passesToFollow] at all
        omega
    | some n =>
        rw [passesToFollow] at all
        have some_batch : batches ≠ [] := fun none => by
          rw [none] at all
          exact nomatch all
        have := bounded n rfl some_batch
        omega
  · rw [h.announced, length_numbered]
    exact few

/-- What comes before phase 4 ends, and announces no pass. -/
theorem EndsWithin.after {x : Phase κ ι ω α} {f : α → Phase κ ι ω β} (hx : MadeOf PassWork x)
    (hf : ∀ a, EndsWithin b depth view N (f a)) : EndsWithin b depth view N (x >>= f) := by
  intro P s within calls
  have work : Only (Container.serve b depth view) RegistryWork x :=
    (hx.mono fun _ h => h.1).only
  have quiet : announcedPasses (Phase.asked (Container.serve b depth view) x P s) = [] :=
    announcedPasses_eq_nil (hx.only P s)
  rw [result_bind]
  rw [Phase.asked_bind] at calls ⊢
  have before : CallsWithin b depth view N (Phase.asked (Container.serve b depth view) x P s) :=
    fun q mem => calls q (List.mem_append_left _ mem)
  obtain ⟨⟨⟨ended, P₁⟩, s₁⟩, hr⟩ := ends_within work before within fun u mem =>
    (hx.only P s _ mem).2.2 rfl
  rw [hr] at calls ⊢
  rw [announcedPasses_append, quiet, List.nil_append]
  cases ended with
  | error failure => exact ⟨⟨_, rfl⟩, Nat.zero_le _⟩
  | ok a =>
      refine hf a P₁ s₁ ((stays_within work before within).2 hr) fun q mem => ?_
      exact calls q (List.mem_append_right _ mem)

/-- A result that is only passed on. -/
theorem EndsWithin.bind_pure {x : Phase κ ι ω α} (hx : EndsWithin b depth view N x) (g : α → β) :
    EndsWithin b depth view N (x >>= fun a => pure (g a)) := by
  intro P s within calls
  have same := asked_bind_pure (Container.serve b depth view) x g P s
  rw [same] at calls ⊢
  obtain ⟨⟨⟨⟨ended, P₁⟩, s₁⟩, hr⟩, few⟩ := hx P s within calls
  rw [result_bind, hr]
  cases ended <;> exact ⟨⟨_, rfl⟩, few⟩

/-- **Phases 1 to 4 end.** -/
theorem registryPhases_end (cmp : Comparator) {patience : Nat} {options : Options}
    {external : List (Handle κ)} (room : options.maxPasses = none → N.card < patience) :
    EndsWithin b depth view N (runRegistryPhases b cmp patience options external) := by
  have supplied : MadeOf PassWork (runSupplied b external) :=
    (runSupplied_hookWork b external).mono fun _ h => h.1
  exact .after supplied fun _ => .after (registryPhase_passWork cmp _) fun priority =>
    .after (registryPhase_passWork cmp _) fun ordered =>
      (passes_end cmp room).bind_pure fun others => (others.1, priority ++ ordered ++ others.2)

end Within

/-! ## 2. Rest -/

/-- A pass that finds nothing leaves the container as it is. -/
theorem pass_still {b : Behaviour κ ι ω} {depth : Nat} {view : Container.View} {cmp : Comparator}
    {limit : Option Nat} {done : Nat} {s s' : State κ ι ω}
    (h : Yields (Container.serve b depth view) (pass cmp limit done) P s none P' s') :
    s' = s ∧ ∀ name ∈ s.container.namesFor (.postProcessor .registry), name ∈ P.names := by
  obtain ⟨-, answer, t, T, answered, dealt, asks, finds⟩ := pass_returns_none ⟨h, rfl⟩
  have looked : Container.serve b depth view registryNames s =
      some (s.container.namesFor (.postProcessor .registry), s) :=
    Container.serve_namesFor b depth view s _
  constructor
  · refine Program.run_of_asked (R := fun s s' => s' = s) (fun _ => rfl)
      (fun h₁ h₂ => h₂.trans h₁) (fun q mem answer' t' served => ?_) h
    have asked : q ∈ (registryNames, s) :: T := asks ▸ mem
    obtain rfl | mem := List.mem_cons.mp asked
    · rw [looked] at served
      cases served
      rfl
    · obtain ⟨r, u⟩ := q
      obtain ⟨name, rfl⟩ := finds _ mem
      rw [Container.serve_find] at served
      cases served
      rfl
  · rw [looked] at answered
    cases answered
    exact dealt

/-- **When phase 4 has ended, all registry post-processors have been dealt with**, for a last pass has
    found nothing and has changed nothing. -/
theorem passes_settled {b : Behaviour κ ι ω} {depth : Nat} {view : Container.View}
    {cmp : Comparator} {limit : Option Nat} {patience done : Nat} {s s' : State κ ι ω}
    {found : Nat × List (Candidate κ)}
    (h : Yields (Container.serve b depth view) (passes cmp limit patience done) P s found P' s') :
    ∀ name ∈ s'.container.namesFor (.postProcessor .registry), name ∈ P'.names := by
  induction patience generalizing done P s found with
  | zero =>
      obtain ⟨T₁, T₂, answer, -⟩ := Returns.of_bind ⟨h, rfl⟩
      exact nomatch answer
  | succ patience ih =>
      rw [passes_succ] at h
      obtain ⟨T₁, T₂, batch, P₁, s₁, h₁, h₂, -⟩ := Returns.of_bind ⟨h, rfl⟩
      cases batch with
      | none =>
          obtain ⟨-, -, rfl, rfl⟩ := h₂.of_pure
          obtain ⟨rfl, -⟩ := pass_returns_none h₁
          obtain ⟨rfl, dealt⟩ := pass_still h₁.result
          exact dealt
      | some batch =>
          obtain ⟨T₃, T₄, others, P₂, s₂, h₃, h₄, -⟩ := h₂.of_bind
          obtain ⟨-, -, rfl, rfl⟩ := h₄.of_pure
          exact ih h₃.result

theorem registryPhases_settled {b : Behaviour κ ι ω} {depth : Nat} {view : Container.View}
    {cmp : Comparator} {patience : Nat} {options : Options} {external : List (Handle κ)}
    {s s' : State κ ι ω} {found : Nat × List (Candidate κ)}
    (h : Yields (Container.serve b depth view)
      (runRegistryPhases b cmp patience options external) P s found P' s') :
    ∀ name ∈ s'.container.namesFor (.postProcessor .registry), name ∈ P'.names := by
  obtain ⟨T₁, R₁, u, P₁, s₁, -, r₁, -⟩ := Returns.of_bind ⟨h, rfl⟩
  obtain ⟨T₂, R₂, priority, P₂, s₂, -, r₂, -⟩ := r₁.of_bind
  obtain ⟨T₃, R₃, ordered, P₃, s₃, -, r₃, -⟩ := r₂.of_bind
  obtain ⟨T₄, R₄, others, P₄, s₄, g₄, r₄, -⟩ := r₃.of_bind
  obtain ⟨-, -, rfl, rfl⟩ := r₄.of_pure
  exact passes_settled g₄.result

/-! ## 3. Whole bootstraps -/

theorem registryPhase_marks (cmp : Comparator) (accept : Precedence → Bool) :
    Marks serve (registryPhase cmp accept) P s :=
  (collect_marks cmp accept).bind fun batch _ _ _ =>
    .of_madeOf ((runRegistryHooks_hookWork batch).bind fun _ => .pure _)
      fun name h => h.2 name rfl

theorem registryPhases_marks (b : Behaviour κ ι ω) (cmp : Comparator) (patience : Nat)
    (options : Options) (external : List (Handle κ)) :
    Marks serve (runRegistryPhases b cmp patience options external) P s := by
  refine (Marks.of_madeOf (runSupplied_hookWork b external) fun name h => h.2 name rfl).bind
    fun _ _ _ _ => ?_
  refine (registryPhase_marks cmp _).bind fun _ _ _ _ => ?_
  refine (registryPhase_marks cmp _).bind fun _ _ _ _ => ?_
  exact (passes_marks cmp _ _ 0).bind fun _ _ _ _ => .pure _

theorem factoryPhases_marks (b : Behaviour κ ι ω) (patience : Nat) (options : Options)
    (external : List (Handle κ)) : Marks serve (runFactoryPhases b patience options external) P s := by
  have opening : MadeOf (· = .comparator) (comparator : Phase κ ι ω Comparator) :=
    comparator_madeOf rfl
  have capable : MadeOf (fun _ => False) (demand (pure (ensureCapable b external)) :
      Phase κ ι ω Unit) := .outcome _
  have closing : MadeOf (fun r => ∀ name, r ≠ .extension name (.postProcessor .registry))
      (ask .clearMerged : Phase κ ι ω Unit) := .ask nofun rfl
  refine (Marks.of_madeOf opening nofun).bind fun cmp _ _ _ => ?_
  refine (Marks.of_madeOf capable fun _ => id).bind fun _ _ _ _ => ?_
  refine (registryPhases_marks b cmp patience options external).bind fun found _ _ _ => ?_
  refine (Marks.of_madeOf (ownHooks_madeOf b external found.2) nofun).bind fun _ _ _ _ => ?_
  refine (Marks.of_madeOf (runRemaining_madeOf b cmp) nofun).bind fun _ _ _ _ => ?_
  refine (Marks.of_madeOf closing fun name h => h name rfl).bind fun _ _ _ _ => ?_
  exact (Marks.of_madeOf (announce_madeOf (FactoryWork.announce _)) nofun).bind fun _ _ _ _ => .pure _

/-- **A bootstrap puts behind the names it begins with those it deals with, and no others.** -/
theorem phases_marks (b : Behaviour κ ι ω) (patience : Nat) (options : Options)
    (external : List (Handle κ)) : Marks serve (phases b patience options external) P s := by
  have creating : MadeOf ChainWork (ask (.create .listeners) : Phase κ ι ω (Extension κ)) :=
    .ask (.create _) rfl
  refine (factoryPhases_marks b patience options external).bind fun _ _ _ _ => ?_
  refine (Marks.of_madeOf creating nofun).bind fun listeners _ _ _ => ?_
  exact (Marks.of_madeOf (chainPhase_madeOf b listeners) nofun).bind fun _ _ _ _ =>
    Marks.get.bind fun _ _ _ _ => .pure _

/-- A phase takes no name back. -/
theorem Marks.size_le {x : Phase κ ι ω α} (hx : Marks serve x P s) {a : α}
    (h : Yields serve x P s a P' s') : P.size ≤ P'.size := by
  unfold Processed.size
  rw [hx.kept h, List.length_append]
  exact Nat.le_add_right _ _

/-- Each pass of phase 4 deals with a name. -/
theorem passes_tally {cmp : Comparator} {limit : Option Nat} {patience : Nat}
    {found : Nat × List (Candidate κ)}
    (h : Yields serve (passes cmp limit patience 0) P s found P' s') :
    P.size + found.1 ≤ P'.size := by
  have marks : Marks serve (passes cmp limit patience 0) P s := passes_marks cmp limit patience 0
  obtain ⟨batches, rest, made, -, -, total⟩ := passes_batches serve cmp limit patience 0 P s
  obtain ⟨all, -⟩ := total h
  have := made.length_le
  unfold Processed.size
  rw [marks.kept h, made.dealt, List.length_append, List.length_append, all]
  omega

theorem registryPhases_tally {b : Behaviour κ ι ω} {cmp : Comparator} {patience : Nat}
    {options : Options} {external : List (Handle κ)} {found : Nat × List (Candidate κ)}
    (h : Yields serve (runRegistryPhases b cmp patience options external) P s found P' s') :
    P.size + found.1 ≤ P'.size := by
  obtain ⟨T₁, R₁, u, P₁, s₁, h₁, r₁, -⟩ := Returns.of_bind ⟨h, rfl⟩
  obtain rfl : P = P₁ := (KeepsNames.forM (fun _ => (KeepsNames.ask _).bind fun _ => .demand _) _)
    h₁.result
  obtain ⟨T₂, R₂, priority, P₂, s₂, h₂, r₂, -⟩ := r₁.of_bind
  obtain ⟨T₃, R₃, ordered, P₃, s₃, h₃, r₃, -⟩ := r₂.of_bind
  obtain ⟨T₄, R₄, others, P₄, s₄, h₄, r₄, -⟩ := r₃.of_bind
  obtain ⟨-, rfl, rfl, rfl⟩ := r₄.of_pure
  have first := (registryPhase_marks cmp _).size_le h₂.result
  have second := (registryPhase_marks cmp _).size_le h₃.result
  have each : P₃.size + others.1 ≤ P₄.size := passes_tally h₄.result
  show P.size + others.1 ≤ P₄.size
  omega

theorem factoryPhases_tally {b : Behaviour κ ι ω} {patience : Nat} {options : Options}
    {external : List (Handle κ)} {stats : Stats}
    (h : Yields serve (runFactoryPhases b patience options external) P s stats P' s') :
    P.size + stats.registryPasses ≤ P'.size := by
  obtain ⟨T₁, R₁, cmp, P₁, s₁, h₁, r₁, -⟩ := Returns.of_bind ⟨h, rfl⟩
  obtain rfl : P = P₁ := ((KeepsNames.ask _).bind fun _ => .pure _) h₁.result
  obtain ⟨T₂, R₂, u, P₂, s₂, h₂, r₂, -⟩ := r₁.of_bind
  obtain rfl : P = P₂ := KeepsNames.demand _ h₂.result
  obtain ⟨T₃, R₃, found, P₃, s₃, h₃, r₃, -⟩ := r₂.of_bind
  have counted := registryPhases_tally h₃.result
  obtain ⟨T₄, R₄, own, P₄, s₄, h₄, r₄, -⟩ := r₃.of_bind
  obtain rfl : P₃ = P₄ := (ownHooks_madeOf b external found.2).keepsNames nofun h₄.result
  obtain ⟨T₅, R₅, rest, P₅, s₅, h₅, r₅, -⟩ := r₄.of_bind
  obtain rfl : P₃ = P₅ := (runRemaining_madeOf b cmp).keepsNames nofun h₅.result
  obtain ⟨T₆, R₆, u₆, P₆, s₆, h₆, r₆, -⟩ := r₅.of_bind
  obtain rfl : P₃ = P₆ := KeepsNames.ask _ h₆.result
  obtain ⟨T₇, R₇, u₇, P₇, s₇, h₇, r₇, -⟩ := r₆.of_bind
  obtain rfl : P₃ = P₇ := KeepsNames.ask _ h₇.result
  obtain ⟨-, rfl, rfl, -⟩ := r₇.of_pure
  exact counted

theorem phases_tally {b : Behaviour κ ι ω} {patience : Nat} {options : Options}
    {external : List (Handle κ)} {outcome : Outcome κ}
    (h : Yields serve (phases b patience options external) P s outcome P' s') :
    outcome.processed = P' ∧ P.size + outcome.stats.registryPasses ≤ P'.size := by
  obtain ⟨T₁, R₁, stats, P₁, s₁, h₁, r₁, -⟩ := Returns.of_bind ⟨h, rfl⟩
  have counted := factoryPhases_tally h₁.result
  obtain ⟨T₂, R₂, listeners, P₂, s₂, h₂, r₂, -⟩ := r₁.of_bind
  obtain rfl : P₁ = P₂ := KeepsNames.ask _ h₂.result
  obtain ⟨T₃, R₃, completeness, P₃, s₃, h₃, r₃, -⟩ := r₂.of_bind
  obtain rfl : P₁ = P₃ := (chainPhase_madeOf b listeners).keepsNames nofun h₃.result
  obtain ⟨T₄, R₄, Q, P₄, s₄, h₄, r₄, -⟩ := r₃.of_bind
  obtain ⟨-, rfl, rfl, rfl⟩ := h₄.of_get
  obtain ⟨-, rfl, rfl, -⟩ := r₄.of_pure
  exact ⟨rfl, counted⟩

/-! ## 4. Phase 4 comes to rest -/

section Rest

variable (b : Behaviour κ ι ω) (depth : Nat) (view : Container.View) (cmp : Comparator)
  (limit : Option Nat) (patience : Nat) (P : Processed) (s : State κ ι ω)

/-- What is said of the passes of phase 4, begun with the names `P` in the state `s`. -/
structure Settles : Prop where
  /-- Each pass that is announced has a batch of names not dealt with before; however phase 4 ends,
      these have been dealt with, and those of a batch that was not run. If it returns, it has
      counted the batches. -/
  batches : ∃ batches rest,
    Batches (Container.serve b depth view)
      (Phase.asked (Container.serve b depth view) (passes cmp limit patience 0) P s) 0 batches
      rest ∧
    (P.names ++ (batches.flatten ++ rest)).Nodup ∧
    ∀ ended P' s',
      result (Container.serve b depth view) (passes cmp limit patience 0) P s =
        some ((ended, P'), s') →
      P'.names = P.names ++ (batches.flatten ++ rest) ∧
        ∀ found, ended = .ok found → found.1 = batches.length ∧ rest = []
  /-- If it returns, all registry post-processors have been dealt with. -/
  settled : ∀ found P' s',
    Yields (Container.serve b depth view) (passes cmp limit patience 0) P s found P' s' →
      ∀ name ∈ s'.container.namesFor (.postProcessor .registry), name ∈ P'.names

/-- What is said of the names dealt with, and of the passes counted. -/
structure Tallies (serve : Program.Handler (factoryInterface κ ι ω) σ) (x : Phase κ ι ω α)
    (counted : α → Nat) (P : Processed) (s : σ) : Prop where
  /-- The names of what was made are behind those of the beginning, however it ends. -/
  marks : Marks serve x P s
  /-- There are no more passes than names that were dealt with. -/
  tally : ∀ a P' s', Yields serve x P s a P' s' → P.size + counted a ≤ P'.size

variable {b depth view cmp limit patience P s} in
theorem passes_settle : Settles b depth view cmp limit patience P s where
  batches := by
    have marks : Marks (Container.serve b depth view) (passes cmp limit patience 0) P s :=
      passes_marks cmp limit patience 0
    obtain ⟨batches, rest, made, -, -, total⟩ :=
      passes_batches (Container.serve b depth view) cmp limit patience 0 P s
    refine ⟨batches, rest, made, made.dealt ▸ marks.fresh, fun ended P' s' h => ?_⟩
    refine ⟨made.dealt ▸ marks.kept h, fun found returned => ?_⟩
    subst returned
    obtain ⟨all, none⟩ := total h
    exact ⟨all.trans (Nat.zero_add _), none⟩
  settled _ _ _ h := passes_settled h

/-- **Phase 4 comes to rest.** If the calls return and what is registered meanwhile has names of a
    finite set `N`, like the definitions of the beginning, then phase 4, and so phases 1 to 4, end
    after no more passes than `N` has names, for each pass deals with new ones. When phase 4 has
    ended without a failure, all registry post-processors in the registry have been dealt with. In
    every run, also of the whole bootstrap, no name is lost or dealt with twice, and there are no
    more passes than names that were dealt with. -/
theorem phase4_settles :
    (∀ N : Finset String, (limit = none → N.card < patience) →
      EndsWithin b depth view N (passes cmp limit (passesToFollow limit patience) 0 :
        Phase κ ι ω (Nat × List (Candidate κ))) ∧
      ∀ external, EndsWithin b depth view N (runRegistryPhases b cmp patience ⟨limit⟩ external)) ∧
    Settles b depth view cmp limit patience P s ∧
    ∀ external,
      (∀ found P' s', Yields (Container.serve b depth view)
        (runRegistryPhases b cmp patience ⟨limit⟩ external) P s found P' s' →
          ∀ name ∈ s'.container.namesFor (.postProcessor .registry), name ∈ P'.names) ∧
      Tallies (Container.serve b depth view) (runFactoryPhases b patience ⟨limit⟩ external)
        Stats.registryPasses P s ∧
      Tallies (Container.serve b depth view) (phases b patience ⟨limit⟩ external)
        (·.stats.registryPasses) P s ∧
      ∀ outcome P' s', Yields (Container.serve b depth view) (phases b patience ⟨limit⟩ external)
        P s outcome P' s' → outcome.processed = P' :=
  ⟨fun _ room => ⟨passes_end cmp room, fun _ => registryPhases_end cmp room⟩, passes_settle,
    fun external => ⟨fun _ _ _ h => registryPhases_settled h,
      ⟨factoryPhases_marks b patience ⟨limit⟩ external, fun _ _ _ h => factoryPhases_tally h⟩,
      ⟨phases_marks b patience ⟨limit⟩ external, fun _ _ _ h => (phases_tally h).2⟩,
      fun _ _ _ h => (phases_tally h).1⟩⟩

end Rest

/-- The names that a bootstrap with a newcomer gets to know. -/
def tierNames : Finset String := {"undeclared", "foremost", "newcomer"}

theorem tiered_within : Within tierNames tiered := by
  unfold Within
  decide +kernel

theorem promoting_callsWithin :
    CallsWithin promoting 1 .full tierNames (Phase.asked (Container.serve promoting 1 .full)
      (runRegistryPhases promoting .standard 4 {} []) .empty tiered) :=
  callsWithin_of_keepsWithin (by decide +kernel)

/-- The hook of the priority group registers a newcomer, and phase 4 ends after one pass. -/
theorem tiered_settles :
    announcedPasses (Phase.asked (Container.serve promoting 1 .full)
      (runRegistryPhases promoting .standard 4 {} []) .empty tiered) = [(1, 1)] ∧
    (∃ ended, result (Container.serve promoting 1 .full)
      (runRegistryPhases promoting .standard 4 {} []) .empty tiered = some ended) ∧
    (announcedPasses (Phase.asked (Container.serve promoting 1 .full)
      (runRegistryPhases promoting .standard 4 {} []) .empty tiered)).length ≤ tierNames.card :=
  have ends := (phase4_settles promoting 1 .full .standard none 4 .empty tiered).1 tierNames
    (fun _ => by decide +kernel)
  ⟨by decide +kernel, ends.2 [] .empty tiered tiered_within promoting_callsWithin⟩

end ComponentContainer.Bootstrap
