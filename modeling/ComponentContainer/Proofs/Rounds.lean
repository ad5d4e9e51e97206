/-
  File:      ComponentContainer/Proofs/Rounds.lean
  Subject:   The rounds in which registry post-processors are looked up and their hooks run.

  * `rounds` -- what a bootstrap asks for, cut at each look at the registry post-processors: the
    state it looks in, and the names whose registry hooks run before it looks again.
  * `LeavesRegistry` -- the supplier of a registry post-processor leaves the definitions alone.
  * `accepts`, `batchAt` -- the standings a look accepts, and what it finds, sorted.
  * `collect_reads` -- **a batch is what the look has seen**, for nothing changes while it is made.
  * `InRounds` -- each round runs its batch in order, and all of it if there is a round after it;
    `factoryPhases_inRounds` -- **so do the rounds of all runs of phases 1 to 6.**
-/
import ComponentContainer.Proofs.HookPrecedence
import ComponentContainer.Proofs.PassiveRuns

namespace ComponentContainer

variable {κ ι ω σ : Type}

/-- The request looks for the registry post-processors. -/
def Request.isLook : Request κ ι ω → Bool
  | .registry (.namesFor (.postProcessor .registry)) => true
  | _ => false

namespace Phase

/-! ## 1. Rounds -/

/-- The requests before the next look. -/
def untilLook (T : Asked κ ι ω σ) : Asked κ ι ω σ := T.takeWhile (!·.1.isLook)

/-- The states of the looks, each with the names under which registry hooks are run before the next
    look. -/
def rounds : Asked κ ι ω σ → List (σ × List String)
  | [] => []
  | (r, t) :: T =>
    if r.isLook then (t, foundNames (untilLook T)) :: rounds T else rounds T

/-- None of the requests is a look. -/
def Lookless (T : Asked κ ι ω σ) : Prop := ∀ q ∈ T, q.1.isLook = false

variable {A C T : Asked κ ι ω σ}

theorem untilLook_append (h : Lookless C) : untilLook (C ++ T) = C ++ untilLook T :=
  List.takeWhile_append_of_pos fun q hq => by rw [h q hq]; rfl

theorem untilLook_of_lookless (h : Lookless T) : untilLook T = T := by
  have whole := untilLook_append (T := []) h
  rwa [List.append_nil, show untilLook ([] : Asked κ ι ω σ) = [] from rfl,
    List.append_nil] at whole

theorem rounds_append (h : Lookless A) : rounds (A ++ T) = rounds T := by
  induction A with
  | nil => rfl
  | cons q A ih =>
      obtain ⟨hq, hA⟩ := List.forall_mem_cons.mp h
      rw [List.cons_append, rounds, hq]
      exact ih hA

theorem rounds_of_lookless (h : Lookless A) : rounds A = [] := by
  have none := rounds_append (T := []) h
  rwa [List.append_nil] at none

end Phase

namespace Bootstrap

open Phase Container

variable {α β : Type} {b : Behaviour κ ι ω} {depth : Nat} {view : View} {cmp : Comparator}

/-! ## 2. What a look finds -/

/-- The supplier of a registry post-processor leaves the definitions as they are, however it ends. -/
def LeavesRegistry (b : Behaviour κ ι ω) (depth : Nat) (view : View) :
    Request κ ι ω × State κ ι ω → Prop
  | (.extension name (.postProcessor .registry), s) => ∀ r s',
      serve b depth view (.extension name (.postProcessor .registry)) s = some (r, s') →
        s'.container.definitions = s.container.definitions
  | _ => True

/-- The standings that the looks accept: the first one the priority group, the second one whatever
    is ordered, and each further one all. -/
def accepts : Nat → Precedence → Bool
  | 0, p => p.isPriority
  | 1, p => p.isOrdered
  | _ + 2, _ => true

/-- What a look finds among the definitions, sorted: the `n`-th one, where the names `dealt` have
    been dealt with. -/
def batchAt (cmp : Comparator) (n : Nat) (c : Container κ ι) (dealt : List String) :
    List (String × Definition κ) :=
  sortBy cmp standingOf
    ((makers c .registry).filter fun e => !dealt.contains e.1 && accepts n (standingOf e))

theorem mem_batchAt {n : Nat} {c : Container κ ι} {dealt : List String}
    {e : String × Definition κ} :
    e ∈ batchAt cmp n c dealt ↔
      e ∈ makers c .registry ∧ e.1 ∉ dealt ∧ accepts n (standingOf e) = true := by
  unfold batchAt
  rw [mem_sortBy, List.mem_filter]
  simp

section Reads

variable {P P' : Processed} {s s' : State κ ι ω} {accept : Precedence → Bool}
  {batch : List (Candidate κ)}

/-- **A search finds what is accepted and not dealt with, with the standings of its beginning**, for
    what it makes on its way leaves the definitions alone. By induction over the names. -/
theorem collectFrom_reads {l : List (String × Definition κ)}
    (hl : ∀ e ∈ l, s.container.definitions.find? e.1 = some e.2) (hnd : (l.map Prod.fst).Nodup)
    (asks : Asks (serve b depth view) (LeavesRegistry b depth view)
      (collectFrom accept (l.map Prod.fst)) P s)
    (hr : Yields (serve b depth view) (collectFrom accept (l.map Prod.fst)) P s batch P' s') :
    batch.map (fun c => (c.name, c.precedence)) =
      (l.filter fun e => !P.contains e.1 && accept (standingOf e)).map
        fun e => (e.1, standingOf e) := by
  induction l generalizing P s batch with
  | nil =>
      obtain ⟨-, rfl, -⟩ := Returns.of_pure ⟨hr, rfl⟩
      rfl
  | cons e l ih =>
      obtain ⟨hd, hrest⟩ := List.forall_mem_cons.mp hl
      obtain ⟨hnew, hnd⟩ := List.nodup_cons.mp hnd
      have known : Yields (serve b depth view) (standing e.1) P s (standingOf e) P s :=
        standing_known hd
      have asks₁ := (Asks.right asks known).right (result_get P s)
      have hr₁ := Yields.rest (Yields.rest (x := standing e.1) hr known) (result_get P s)
      have hkeep : (!P.contains e.1 && accept (standingOf e)) =
          !(P.contains e.1 || !accept (standingOf e)) := by rw [Bool.not_or, Bool.not_not]
      by_cases hskip : (P.contains e.1 || !accept (standingOf e)) = true
      · rw [if_pos hskip] at asks₁ hr₁
        rw [List.filter_cons_of_neg (by rw [hkeep, hskip]; decide)]
        exact ih hrest hnd asks₁ hr₁
      · rw [if_neg hskip] at asks₁ hr₁
        obtain ⟨T₁, T₂, handle, P₁, s₁, h₁, h₂, -⟩ := Returns.of_bind ⟨hr₁, rfl⟩
        obtain ⟨-, rfl, -, answered⟩ := extensionOf_returns h₁
        have same : s₁.container.definitions = s.container.definitions :=
          asks_extension asks₁.left.left _ _ answered
        have asks₂ := (asks₁.right h₁.result).right (result_modify (·.insert e.1) P s₁)
        have hr₂ := Yields.rest h₂.result (result_modify (·.insert e.1) P s₁)
        obtain ⟨T₃, T₄, others, P₂, s₂, h₃, h₄, -⟩ := Returns.of_bind ⟨hr₂, rfl⟩
        obtain ⟨-, rfl, rfl, rfl⟩ := h₄.of_pure
        have tail := ih (fun e' he' => same ▸ hrest e' he') hnd asks₂.left h₃.result
        have others_same : l.filter (fun e' => !(P.insert e.1).contains e'.1 &&
            accept (standingOf e')) =
              l.filter fun e' => !P.contains e'.1 && accept (standingOf e') :=
          List.filter_congr fun e' he' => by
            have hne : e'.1 ≠ e.1 := fun heq => hnew (heq ▸ List.mem_map_of_mem he')
            rw [P.contains_insert_of_ne hne]
        rw [List.filter_cons_of_pos (by rw [hkeep, Bool.eq_false_iff.mpr hskip]; rfl),
          ← others_same, List.map_cons, List.map_cons, tail]

theorem namesFor_known (P : Processed) (s : State κ ι ω) :
    Yields (serve b depth view) (namesFor .registry) P s
      ((makers s.container .registry).map Prod.fst) P s := by
  rw [← namesFor_eq_makers _ (by decide)]
  exact Yields.ask (serve_namesFor b depth view s _)

/-- **A batch is what the look has seen.** -/
theorem collect_reads {n : Nat} {dealt : List String}
    (names : ∀ m, P.contains m = dealt.contains m)
    (asks : Asks (serve b depth view) (LeavesRegistry b depth view)
      (collect cmp (accepts n)) P s)
    (hr : Yields (serve b depth view) (collect cmp (accepts n)) P s batch P' s') :
    batch.map Candidate.name = (batchAt cmp n s.container dealt).map Prod.fst := by
  have hr₁ := Yields.rest hr (namesFor_known P s)
  obtain ⟨T₁, T₂, found, P₁, s₁, h₁, h₂, -⟩ := Returns.of_bind ⟨hr₁, rfl⟩
  obtain ⟨-, rfl, -⟩ := h₂.of_pure
  have keys := keys_sort cmp (collectFrom_reads
    (fun e he => (find?_of_mem_makers he).1) (nodup_makers _ _)
    (Asks.right asks (namesFor_known P s)).left h₁.result)
  simp only [names] at keys
  have first := congrArg (List.map Prod.fst) keys
  rwa [List.map_map, List.map_map] at first

end Reads

/-! ## 3. Rounds in order -/

/-- From the `n`-th look on, where the names `dealt` have been dealt with: each round runs its batch
    in order, up to where the run breaks off; a round that another one follows runs all of it, and so
    does each round of a run that is `done`. -/
inductive InRounds (cmp : Comparator) (done : Prop) :
    Nat → List String → List (State κ ι ω × List String) → Prop
  | nil {n : Nat} {dealt : List String} : InRounds cmp done n dealt []
  | cons {n : Nat} {dealt names : List String} {t : State κ ι ω}
      {rest : List (State κ ι ω × List String)}
      (some : names <+: (batchAt cmp n t.container dealt).map Prod.fst)
      (all : done ∨ rest ≠ [] → names = (batchAt cmp n t.container dealt).map Prod.fst)
      (later : InRounds cmp done (n + 1) (dealt ++ names) rest) :
      InRounds cmp done n dealt ((t, names) :: rest)

/-- The rounds among the requests of a run are in order, from the `n`-th look on, and no registry
    hook is run under a name outside of them. -/
structure Ordered (cmp : Comparator) (done : Prop) (n : Nat) (dealt : List String)
    (T : Asked κ ι ω (State κ ι ω)) : Prop where
  opening : foundNames (untilLook T) = []
  names : foundNames T = (rounds T).flatMap Prod.snd
  inRounds : InRounds cmp done n dealt (rounds T)

/-- The phase returns. -/
def Ends (serve : Program.Handler (factoryInterface κ ι ω) σ) (x : Phase κ ι ω α) (P : Processed)
    (s : σ) : Prop := ∃ a P' s', Yields serve x P s a P' s'

/-- The rounds of a phase that begins with the names `P` dealt with are in order, if no supplier of a
    registry post-processor touches the definitions. -/
def GoesInRounds (b : Behaviour κ ι ω) (depth : Nat) (view : View) (cmp : Comparator) (n : Nat)
    (x : Phase κ ι ω α) (P : Processed) (s : State κ ι ω) : Prop :=
  ∀ dealt : List String, (∀ m, P.contains m = dealt.contains m) →
    Asks (serve b depth view) (LeavesRegistry b depth view) x P s →
      Ordered cmp (Ends (serve b depth view) x P s) n dealt
        (Phase.asked (serve b depth view) x P s)

section Unseen

variable {serve : Program.Handler (factoryInterface κ ι ω) σ}

/-- The request is no look. -/
def Unseeing (r : Request κ ι ω) : Prop := r.isLook = false

theorem isLook_iff {r : Request κ ι ω} : r.isLook = true ↔ r = registryNames := by
  constructor
  · intro h
    unfold Request.isLook at h
    split at h
    · rfl
    · cases h
  · rintro rfl
    rfl

theorem unseeing_of_ne {r : Request κ ι ω} (h : r ≠ registryNames) : Unseeing r :=
  Bool.eq_false_iff.mpr fun look => h (isLook_iff.mp look)

theorem Only.unseeing {x : Phase κ ι ω α} (hx : Only serve Plain x) : Only serve Unseeing x :=
  hx.mono fun _ h => unseeing_of_ne h.2.2

theorem Only.lookless {x : Phase κ ι ω α} (hx : Only serve Unseeing x) (P : Processed) (s : σ) :
    Lookless (Phase.asked serve x P s) := hx P s

theorem foundNames_of_late {T : Asked κ ι ω σ} (h : ∀ q ∈ T, Late q.1) : foundNames T = [] := by
  rw [foundNames, List.filterMap_eq_nil_iff]
  intro c hc
  cases c with
  | found name e => exact absurd hc (not_found_of_no_registryHook (fun q hq => (h q hq).1) name e)
  | supplied e => rfl
  | factory e => rfl
  | remaining name e => rfl

/-- A round begins with a look and ends before the next one. -/
theorem rounds_look {C T : Asked κ ι ω σ} {t : σ} (hC : Lookless C)
    (h : (Settled C ∧ foundNames (untilLook T) = []) ∨ T = []) :
    rounds ((registryNames, t) :: (C ++ T)) = (t, foundNames C) :: rounds T ∧
      foundNames ((registryNames, t) :: (C ++ T)) = foundNames C ++ foundNames T := by
  have first : foundNames (untilLook (C ++ T)) = foundNames C := by
    rw [untilLook_append hC]
    rcases h with ⟨settled, opening⟩ | rfl
    · rw [foundNames_append settled, opening, List.append_nil]
    · exact congrArg foundNames (List.append_nil C)
  have names : foundNames (C ++ T) = foundNames C ++ foundNames T := by
    rcases h with ⟨settled, -⟩ | rfl
    · exact foundNames_append settled
    · rw [List.append_nil]
      exact (List.append_nil _).symm
  constructor
  · show (t, foundNames (untilLook (C ++ T))) :: rounds (C ++ T) = _
    rw [first, rounds_append hC]
  · exact names

end Unseen

/-- The requests of a look with its batch being made. -/
theorem collect_asked (accept : Precedence → Bool) (P : Processed) (s : State κ ι ω) :
    ∃ C, Phase.asked (serve b depth view) (collect cmp accept) P s = (registryNames, s) :: C ∧
      ∀ q ∈ C, Plain q.1 := by
  have plain : Only (serve b depth view) Plain (do
      let found ← collectFrom accept ((makers s.container .registry).map Prod.fst)
      return Candidate.sort cmp found) := (collectFrom_plain accept _).bind fun _ => .pure _
  refine ⟨_, ?_, plain P s⟩
  unfold collect
  rw [Phase.asked_bind, namesFor_known]
  unfold Phase.namesFor
  rw [asked_ask]
  rfl

namespace Ordered

variable {done : Prop} {n : Nat} {dealt : List String} {A C T : Asked κ ι ω (State κ ι ω)}
  {t : State κ ι ω}

/-- Requests without looks that run no registry hook under a name. -/
theorem of_unnamed (lookless : Lookless T) (unnamed : foundNames T = []) :
    Ordered cmp done n dealt T where
  opening := by rw [untilLook_of_lookless lookless, unnamed]
  names := by rw [rounds_of_lookless lookless, unnamed]; rfl
  inRounds := by
    rw [rounds_of_lookless lookless]
    exact .nil

/-- Such requests before the others. -/
theorem after (h : Ordered cmp done n dealt T) (lookless : Lookless A) (settled : Settled A)
    (unnamed : foundNames A = []) : Ordered cmp done n dealt (A ++ T) where
  opening := by rw [untilLook_append lookless, foundNames_append settled, unnamed, h.opening]; rfl
  names := by rw [rounds_append lookless, foundNames_append settled, unnamed, h.names]; rfl
  inRounds := by
    rw [rounds_append lookless]
    exact h.inRounds

/-- A round in which the run breaks off. -/
theorem broken (lookless : Lookless C) (undone : ¬ done)
    (some : foundNames C <+: (batchAt cmp n t.container dealt).map Prod.fst) :
    Ordered cmp done n dealt ((registryNames, t) :: C) := by
  obtain ⟨cut, names⟩ := rounds_look (t := t) lookless (.inr rfl)
  rw [List.append_nil] at cut names
  refine ⟨rfl, ?_, ?_⟩
  · rw [cut, names]
    rfl
  · rw [cut]
    exact .cons some (fun h => h.elim (absurd · undone) (absurd rfl ·)) .nil

/-- A whole round before the others. -/
theorem cons (h : Ordered cmp done (n + 1) (dealt ++ foundNames C) T) (lookless : Lookless C)
    (settled : Settled C)
    (all : foundNames C = (batchAt cmp n t.container dealt).map Prod.fst) :
    Ordered cmp done n dealt ((registryNames, t) :: (C ++ T)) := by
  obtain ⟨cut, names⟩ := rounds_look (t := t) lookless (.inl ⟨settled, h.opening⟩)
  refine ⟨rfl, ?_, ?_⟩
  · rw [cut, names, h.names]
    rfl
  · rw [cut]
    exact .cons (all ▸ List.prefix_rfl) (fun _ => all) h.inRounds

end Ordered

namespace GoesInRounds

variable {n : Nat} {P : Processed} {s : State κ ι ω}

/-- A phase without looks and without registry hooks. -/
theorem of_late {x : Phase κ ι ω α} (hx : Only (serve b depth view) Late x) :
    GoesInRounds b depth view cmp n x P s := fun _ _ _ =>
  .of_unnamed (Only.lookless (hx.mono fun _ h => unseeing_of_ne h.2) P s)
    (foundNames_of_late (hx P s))

theorem ends_bind {x : Phase κ ι ω α} {f : α → Phase κ ι ω β} {P₁ : Processed} {s₁ : State κ ι ω}
    {a : α} (hx : Yields (serve b depth view) x P s a P₁ s₁) :
    Ends (serve b depth view) (x >>= f) P s ↔ Ends (serve b depth view) (f a) P₁ s₁ :=
  ⟨fun ⟨c, P', s', hc⟩ => ⟨c, P', s', Yields.rest hc hx⟩,
    fun ⟨c, P', s', hc⟩ => ⟨c, P', s', Yields.bind hx hc⟩⟩

theorem ends_left {x : Phase κ ι ω α} {f : α → Phase κ ι ω β}
    (h : Ends (serve b depth view) (x >>= f) P s) : Ends (serve b depth view) x P s := by
  obtain ⟨c, P', s', hc⟩ := h
  obtain ⟨T₁, T₂, a, P₁, s₁, h₁, -, -⟩ := Returns.of_bind ⟨hc, rfl⟩
  exact ⟨a, P₁, s₁, h₁.result⟩

/-- A part without looks that runs no registry hook under a name goes before the rounds. -/
theorem after {x : Phase κ ι ω α} {f : α → Phase κ ι ω β} (keeps : KeepsNames (serve b depth view) x)
    (unseeing : Only (serve b depth view) Unseeing x)
    (unnamed : foundNames (Phase.asked (serve b depth view) x P s) = [])
    (settled : ∀ {P₁ s₁ T a}, Returns (serve b depth view) x P s T a P₁ s₁ → Settled T)
    (rest : ∀ {a s₁}, Yields (serve b depth view) x P s a P s₁ →
      GoesInRounds b depth view cmp n (f a) P s₁) :
    GoesInRounds b depth view cmp n (x >>= f) P s := by
  intro dealt names asks
  have lookless := unseeing.lookless P s
  rcases Returns.asked_bind_cases (serve b depth view) x f P s with h | ⟨a, P₁, s₁, hr, h⟩
  · rw [h]
    exact .of_unnamed lookless unnamed
  · obtain rfl := keeps hr.result
    rw [h, ends_bind hr.result]
    exact (rest hr.result dealt names (asks.right hr.result)).after lookless (settled hr) unnamed

/-- **A look, the batch it finds, and what comes after.** -/
theorem round {g : List (Candidate κ) → Phase κ ι ω α} {f : α → Phase κ ι ω β}
    (runs : ∀ batch, RunsBatch (serve b depth view) (g batch) batch)
    (unseeing : ∀ batch, Only (serve b depth view) Unseeing (g batch))
    (rest : ∀ a P₁ s₁, GoesInRounds b depth view cmp (n + 1) (f a) P₁ s₁) :
    GoesInRounds b depth view cmp n (collect cmp (accepts n) >>= g >>= f) P s := by
  intro dealt names asks
  obtain ⟨C, look, plain⟩ : ∃ C, Phase.asked (serve b depth view) (collect cmp (accepts n)) P s =
    (registryNames, s) :: C ∧ ∀ q ∈ C, Plain q.1 := collect_asked (accepts n) P s
  have lookless : Lookless C := fun q hq => unseeing_of_ne (plain q hq).2.2
  have unnamed : foundNames C = [] := foundNames_of_late fun q hq => (plain q hq).2
  have silent : Silent C := fun q hq =>
    (collect_unhooked cmp (accepts n)).silent P s q (look ▸ List.mem_cons_of_mem _ hq)
  -- what has been found so far, once the batch is there
  have batched {batch : List (Candidate κ)} {P₁ : Processed} {s₁ : State κ ι ω}
      (hr : Yields (serve b depth view) (collect cmp (accepts n)) P s batch P₁ s₁) :
      batch.map Candidate.name = (batchAt cmp n s.container dealt).map Prod.fst :=
    collect_reads names asks.left.left hr
  by_cases ends : Ends (serve b depth view) (collect cmp (accepts n) >>= g) P s
  · obtain ⟨a, P₂, s₂, hr⟩ := ends
    obtain ⟨T₁, T₂, batch, P₁, s₁, h₁, h₂, whole⟩ := Returns.of_bind ⟨hr, rfl⟩
    obtain rfl := (runs batch).keeps h₂.result
    obtain ⟨all, settled⟩ := (runs batch).all_calls h₂
    have found : foundNames (C ++ T₂) = (batchAt cmp n s.container dealt).map Prod.fst := by
      rw [foundNames_append silent.settled, unnamed, foundNames, all, filterMap_foundCall,
        batched h₁.result]
      rfl
    have dealt' : ∀ m, P₁.contains m = (dealt ++ foundNames (C ++ T₂)).contains m := by
      intro m
      rw [found, ← batched h₁.result, Bool.eq_iff_iff, P₁.contains_iff, (collect_returns h₁).1,
        ← P.contains_iff, names]
      simp
    have later := rest a P₁ s₂ _ dealt' (asks.right hr)
    rw [Phase.asked_bind, hr, whole, h₁.asked.symm.trans look, ends_bind hr, List.cons_append,
      List.cons_append]
    exact later.cons (fun q hq => (List.mem_append.mp hq).elim (lookless q)
      ((unseeing batch).returned h₂ q)) (silent.settled.append settled) found
  · have undone : ¬ Ends (serve b depth view) (collect cmp (accepts n) >>= g >>= f) P s :=
      fun h => ends (ends_left h)
    have first : Phase.asked (serve b depth view) (collect cmp (accepts n) >>= g >>= f) P s =
        Phase.asked (serve b depth view) (collect cmp (accepts n) >>= g) P s := by
      rcases Returns.asked_bind_cases (serve b depth view) (collect cmp (accepts n) >>= g) f P s with
        h | ⟨a, P₁, s₁, hr, -⟩
      · exact h
      · exact absurd ⟨a, P₁, s₁, hr.result⟩ ends
    rw [first]
    rcases Returns.asked_bind_cases (serve b depth view) (collect cmp (accepts n)) g P s with
      h | ⟨batch, P₁, s₁, hr, h⟩
    · rw [h, look]
      exact .broken lookless undone (unnamed ▸ List.nil_prefix)
    · rw [h, look, List.cons_append]
      refine .broken (fun q hq => (List.mem_append.mp hq).elim (lookless q)
        ((unseeing batch).lookless P₁ s₁ q)) undone ?_
      rw [foundNames_append silent.settled, unnamed, ← batched hr.result]
      exact filterMap_foundCall batch ▸ ((runs batch).some_calls P₁ s₁).filterMap _

end GoesInRounds

/-! ## 4. The phases -/

section Phases

variable {n : Nat} {P : Processed} {s : State κ ι ω}

theorem labelled_unseeing {n : Notice} (e : Extension κ) :
    Only (serve b depth view) Unseeing (do
      announce n
      registryHook e) :=
  (announce_plain n).unseeing.bind fun _ => .demand (Only.request rfl)

theorem runRegistryHooks_unseeing (batch : List (Candidate κ)) :
    Only (serve b depth view) Unseeing (runRegistryHooks batch : Phase κ ι ω Unit) :=
  .forM (fun c => labelled_unseeing c.handle.extension) batch

/-- Phase 4 and what comes after it, pass by pass. -/
theorem passes_goesInRounds (limit : Option Nat) (patience done : Nat)
    {f : Nat × List (Candidate κ) → Phase κ ι ω β} (late : ∀ a, Only (serve b depth view) Late (f a)) :
    GoesInRounds b depth view cmp (n + 2) (passes cmp limit patience done >>= f) P s := by
  induction patience generalizing n P s done f with
  | zero =>
      have unanswered : Only (serve b depth view) Late
          (forever : Phase κ ι ω (Nat × List (Candidate κ))) :=
        (Only.ask ⟨nofun, nofun⟩).bind fun answer => nomatch answer
      exact .of_late (unanswered.bind late)
  | succ patience ih =>
      rw [passes_succ, bind_assoc]
      refine .round (pass_runsBatch limit done) (fun batch => ?_) fun found P₁ s₁ => ?_
      · split
        · exact .pure _
        · exact (demand_pure_only _).bind fun _ => (announce_plain _).unseeing.bind fun _ =>
            (runRegistryHooks_unseeing batch).bind fun _ => .pure _
      · cases found with
        | none => exact .of_late (late _)
        | some batch =>
            show GoesInRounds b depth view cmp (n + 1 + 2) (passes cmp limit patience (done + 1) >>=
              (fun others => pure (others.1, batch ++ others.2)) >>= f) P₁ s₁
            rw [bind_assoc]
            exact ih (done + 1) fun others => late _

/-- The registry hook of what was handed in is run under no name. -/
theorem supplied_unnamed (h : Handle κ) (P : Processed) (s : State κ ι ω) :
    foundNames (Phase.asked (serve b depth view) (do
      announce (.suppliedHook (h.name b.name))
      registryHook h.extension) P s) = [] := by
  rw [Phase.asked_bind]
  unfold announce Phase.registryHook
  rw [asked_ask, result_ask, serve_announce]
  show foundNames (_ :: Phase.asked (serve b depth view) (demand _) P _) = _
  rw [asked_demand, Program.asked_request]
  rfl

theorem runSupplied_unnamed (external : List (Handle κ)) (P : Processed) (s : State κ ι ω) :
    foundNames (Phase.asked (serve b depth view) (runSupplied b external) P s) = [] := by
  unfold runSupplied
  generalize external.filter (·.family == .registry) = handles
  induction handles generalizing P s with
  | nil => rfl
  | cons h rest ih =>
      show foundNames (Phase.asked _ (_ >>= fun _ => rest.forM _) P s) = []
      rcases Returns.asked_bind_cases (serve b depth view) (do
          announce (.suppliedHook (h.name b.name))
          registryHook h.extension) (fun _ => rest.forM _) P s with cut | ⟨u, P₁, s₁, hr, cut⟩
      · rw [cut, supplied_unnamed]
      · have settled : Settled (Phase.asked (serve b depth view) (do
            announce (.suppliedHook (h.name b.name))
            registryHook h.extension) P s) :=
          ((Books.ask (r := .announce (.suppliedHook (h.name b.name))) ⟨rfl, fun _ => rfl⟩).bind
            fun _ => registryHook_books h.extension).settled hr
        rw [cut, foundNames_append settled, supplied_unnamed, ih]
        rfl

theorem registryPhase_goesInRounds {f : List (Candidate κ) → Phase κ ι ω β}
    (rest : ∀ a P₁ s₁, GoesInRounds b depth view cmp (n + 1) (f a) P₁ s₁) :
    GoesInRounds b depth view cmp n (registryPhase cmp (accepts n) >>= f) P s :=
  .round registryPhase_runsBatch
    (fun batch => (runRegistryHooks_unseeing batch).bind fun _ => .pure _) rest

/-- Phases 1 to 4 and what comes after them. -/
theorem registryPhases_goesInRounds {patience : Nat} {options : Options}
    {external : List (Handle κ)} {f : Nat × List (Candidate κ) → Phase κ ι ω β}
    (late : ∀ a, Only (serve b depth view) Late (f a)) :
    GoesInRounds b depth view cmp 0
      (runRegistryPhases b cmp patience options external >>= f) P s := by
  unfold runRegistryPhases
  simp only [bind_assoc, pure_bind]
  refine .after ?_ ?_ (runSupplied_unnamed external P s) ((runSupplied_books b external).settled ·) ?_
  · exact .forM (fun _ => (KeepsNames.ask _).bind fun _ => .demand _) _
  · exact .forM (fun h : Handle κ => labelled_unseeing h.extension) _
  · intro _ s₁ _
    refine registryPhase_goesInRounds (n := 0) fun priority P₂ s₂ => ?_
    refine registryPhase_goesInRounds (n := 1) fun ordered P₃ s₃ => ?_
    exact passes_goesInRounds _ _ 0 fun _ => late _

/-- Phase 6 comes after the rounds. -/
theorem runRemaining_late : Only (serve b depth view) Late (runRemaining b cmp) :=
  (runRemaining_madeOf b cmp).only.mono fun _ h => h.late

/-- **The rounds of all runs of phases 1 to 6 are in order**, under the comparator in force at the
    beginning, also of those that fail or have no end. -/
theorem factoryPhases_inRounds (patience : Nat) (options : Options) (external : List (Handle κ))
    (s : State κ ι ω)
    (asks : Asks (serve b depth view) (LeavesRegistry b depth view)
      (runFactoryPhases b patience options external) .empty s) :
    Ordered (Comparator.resolve (view.comparator s.container))
      (Ends (serve b depth view) (runFactoryPhases b patience options external) .empty s) 0 []
      (Phase.asked (serve b depth view) (runFactoryPhases b patience options external)
        .empty s) := by
  have goes : GoesInRounds b depth view (Comparator.resolve (view.comparator s.container)) 0
      (runFactoryPhases b patience options external) .empty s := by
    refine .after ((KeepsNames.ask _).bind fun _ => .pure _) comparator_plain.unseeing
      (foundNames_of_late (comparator_plain.late .empty s)) (comparator_books.settled ·) ?_
    intro cmp s₁ hr
    obtain ⟨T₁, T₂, answer, P₁, s₂, h₁, h₂, -⟩ := Returns.of_bind ⟨hr, rfl⟩
    obtain ⟨-, rfl, rfl, rfl⟩ := h₂.of_pure
    obtain ⟨-, -, answered⟩ := h₁.of_ask
    rw [serve_comparator] at answered
    cases answered
    refine .after (.demand _) (demand_pure_only _) rfl ((demand_pure_books _).settled ·) ?_
    intro _ s₂ _
    exact registryPhases_goesInRounds fun found => (ownHooks_late b external _).bind fun _ =>
      runRemaining_late.bind fun _ => (Only.ask ⟨nofun, nofun⟩).bind fun _ =>
      (announce_plain _).late.bind fun _ => .pure _
  exact goes [] (fun _ => rfl) asks

end Phases

end Bootstrap

end ComponentContainer
