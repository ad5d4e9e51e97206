/-
  File:      ComponentContainer/Proofs/TierOrder.lean
  Subject:   Whether the groups of standings are the order of execution inside a batch.

  * `InTiers`, `Tied` -- the groups never go back; an undeclared standing is before one that is
    ordered by the largest number, which the usual comparator does not tell apart.
  * `inTiers_sortBy_iff` -- **sorting puts the groups in order, unless two are tied.**
  * `Seen` -- the standings that a run has looked at.
  * `HooksInBatches` -- the registry hooks of a run are those of batches, each sorted, up to where
    the run breaks off; `passes_hooksInBatches` -- **so are those of all runs of phase 4.**
  * `Regrouped` -- between two looks at a name its definition has changed groups;
    `Waves.rejoins` -- what joins the chain again in phase 7 is tied only if that has happened.
  * `tiers_in_order_unless_tied` -- **where the groups are in order**;
    `undeclared_runs_before_last` -- where they are not.
-/
import ComponentContainer.Proofs.CanonicalOrder
import ComponentContainer.Proofs.ProcessingOrder
import ComponentContainer.Proofs.Waves

namespace ComponentContainer

open Comparator (standard standard_lawful standard_isLE)

/-! ## 1. Groups and ties -/

section Ties

variable {α : Type} {standing : α → Precedence} {l : List α}

/-- The groups come in the order in which they are to run. -/
def InTiers (standing : α → Precedence) (l : List α) : Prop :=
  l.Pairwise fun a b => (standing a).tier.rank ≤ (standing b).tier.rank

instance : Decidable (InTiers standing l) := by
  unfold InTiers
  infer_instance

/-- Something undeclared is before something ordered by the largest number. -/
def Tied (standing : α → Precedence) (l : List α) : Prop :=
  ∃ a b, List.Sublist [a, b] l ∧ standing a = .unordered ∧ standing b = .ordered Precedence.lowest

/-- No number is behind that of the undeclared. -/
theorem eq_lowest_of_le {n : Int32} (h : Precedence.lowest.toInt ≤ n.toInt) :
    n = Precedence.lowest :=
  Int32.toInt_inj.mp (Int.le_antisymm n.toInt_le h)

/-- **The usual comparator goes against the groups in one case only**, and then by a tie. -/
theorem against_tiers {p q : Precedence} (le : (standard p q).isLE = true)
    (back : q.tier.rank < p.tier.rank) : p = .unordered ∧ q = .ordered Precedence.lowest := by
  rw [standard_isLE] at le
  cases p with
  | priority m => cases q <;> cases back
  | ordered m =>
      cases q with
      | priority n => exact absurd le (by simp [Precedence.isPriority])
      | ordered n => exact absurd back (Nat.lt_irrefl _)
      | unordered => cases back with | step h => cases h
  | unordered =>
      cases q with
      | priority n => exact absurd le (by simp [Precedence.isPriority])
      | ordered n =>
          rcases le with ⟨priority, -⟩ | ⟨-, le⟩
          · cases priority
          · exact ⟨rfl, congrArg Precedence.ordered (eq_lowest_of_le le)⟩
      | unordered => exact absurd back (Nat.lt_irrefl _)

/-- What stands against the groups after sorting is tied, and was found like that. -/
theorem found_of_against_tiers {a b : α}
    (hab : List.Sublist [a, b] (sortBy standard standing l))
    (back : (standing b).tier.rank < (standing a).tier.rank) :
    standing a = .unordered ∧ standing b = .ordered Precedence.lowest ∧ List.Sublist [a, b] l := by
  have sorted := List.pairwise_iff_forall_sublist.mp (pairwise_sortBy standard_lawful l) hab
  obtain ⟨ha, hb⟩ := against_tiers sorted back
  exact ⟨ha, hb, sublist_of_sortBy standard_lawful hab (by rw [ha, hb]; decide)⟩

/-- **Sorting puts the groups in order, unless two are tied**: what is tied stays as it was
    found. -/
theorem inTiers_sortBy_iff : InTiers standing (sortBy standard standing l) ↔ ¬Tied standing l := by
  constructor
  · rintro inTiers ⟨a, b, hab, ha, hb⟩
    have tie : (standard (standing a) (standing b)).isLE = true := by
      rw [ha, hb]
      decide
    have kept := sublist_sortBy standard_lawful tie hab
    have forth := List.pairwise_iff_forall_sublist.mp inTiers kept
    rw [ha, hb] at forth
    exact absurd forth (by decide)
  · intro untied
    refine List.pairwise_iff_forall_sublist.mpr fun {a b} hab => Nat.not_lt.mp fun back => ?_
    obtain ⟨ha, hb, found⟩ := found_of_against_tiers hab back
    exact untied ⟨a, b, found, ha, hb⟩

end Ties

namespace Bootstrap

open Phase Container

variable {κ ι ω α β : Type} {b : Behaviour κ ι ω} {depth : Nat} {view : View} {cmp : Comparator}
  {P P' : Processed} {s s' : State κ ι ω} {T T₁ T₂ : Asked κ ι ω (State κ ι ω)}

/-! ## 2. Standings that are looked at -/

/-- The standing declared under a name. -/
def declared (t : State κ ι ω) (name : String) : Precedence :=
  match t.container.definitions.find? name with
  | some d => d.precedence
  | none => .unordered

/-- The name was looked at in a state that declares that standing for it. -/
def Seen (T : Asked κ ι ω (State κ ι ω)) (name : String) (p : Precedence) : Prop :=
  ∃ t, (.registry (.find name), t) ∈ T ∧ declared t name = p

theorem Seen.mono {name : String} {p : Precedence} (h : Seen T name p) (more : T ⊆ T₁) :
    Seen T₁ name p := by
  obtain ⟨t, looked, same⟩ := h
  exact ⟨t, more looked, same⟩

theorem standing_seen {name : String} {p : Precedence}
    (h : Returns (serve b depth view) (standing name) P s T p P' s') : Seen T name p := by
  obtain ⟨_, _, answer, _, _, asked, ended, rfl⟩ := h.of_bind
  obtain ⟨rfl, -, answered⟩ := asked.of_ask
  rw [serve_find] at answered
  cases answered
  obtain ⟨rfl, rfl, -, -⟩ := ended.of_pure
  refine ⟨s, List.mem_cons_self, ?_⟩
  unfold declared
  cases s.container.definitions.find? name <;> rfl

/-- Whatever is found has a standing that it was seen with. -/
theorem collectFrom_seen {accept : Precedence → Bool} {names : List String}
    {batch : List (Candidate κ)}
    (h : Returns (serve b depth view) (collectFrom accept names) P s T batch P' s') :
    ∀ c ∈ batch, Seen T c.name c.precedence := by
  induction names generalizing P s T batch P' s' with
  | nil =>
      obtain ⟨-, rfl, -⟩ := h.of_pure
      exact nofun
  | cons name rest ih =>
      obtain ⟨precedence, T₁, T₂, s₁, looked, ⟨-, rfl, passed⟩ |
        ⟨-, handle, others, s₂, -, rfl, further, rfl⟩⟩ := collectFrom_cons h
      · exact fun c mem => (ih passed c mem).mono (List.subset_append_right _ _)
      · exact List.forall_mem_cons.mpr
          ⟨(standing_seen looked).mono (List.subset_append_left _ _),
            fun c mem => (ih further c mem).mono fun q asked => by simp [asked]⟩

theorem collect_seen {accept : Precedence → Bool} {sorted : List (Candidate κ)}
    (h : Returns (serve b depth view) (collect cmp accept) P s T sorted P' s') :
    ∀ c ∈ sorted, Seen T c.name c.precedence := by
  obtain ⟨_, _, names, _, _, -, searched, rfl⟩ := h.of_bind
  obtain ⟨_, _, batch, _, _, found, ended, rfl⟩ := searched.of_bind
  obtain ⟨-, rfl, -⟩ := ended.of_pure
  exact fun c mem => (collectFrom_seen found c (mem_sortBy.mp mem)).mono fun q asked => by
    simp [asked]

/-! ## 3. The hooks of phase 4 -/

/-- The registry hooks of a run are those of batches that it has found, each sorted: in that order
    up to where the run breaks off, and all of them if it is `done`. -/
structure HooksInBatches (cmp : Comparator) (done : Prop) (T : Asked κ ι ω (State κ ι ω))
    (batches : List (List (Candidate κ))) : Prop where
  some : calls T <+: (batches.flatMap (Candidate.sort cmp)).map foundCall
  all : done → calls T = (batches.flatMap (Candidate.sort cmp)).map foundCall
  found : ∀ batch ∈ batches, FoundAt T batch ∧ ∀ c ∈ batch, Seen T c.name c.precedence

namespace HooksInBatches

variable {done done' : Prop} {batches batches₁ batches₂ : List (List (Candidate κ))}

theorem mono (h : HooksInBatches cmp done T batches) (less : done' → done) :
    HooksInBatches cmp done' T batches := ⟨h.some, fun holds => h.all (less holds), h.found⟩

theorem of_uncalled (uncalled : calls T = []) :
    HooksInBatches cmp done T ([] : List (List (Candidate κ))) :=
  ⟨uncalled ▸ List.nil_prefix, fun _ => uncalled, fun _ mem => absurd mem List.not_mem_nil⟩

/-- A run that is done before another one. -/
theorem append (h₁ : HooksInBatches cmp True T₁ batches₁) (settled : Settled T₁)
    (h₂ : HooksInBatches cmp done T₂ batches₂) :
    HooksInBatches cmp done (T₁ ++ T₂) (batches₁ ++ batches₂) where
  some := by
    rw [calls_append settled, h₁.all trivial, List.flatMap_append, List.map_append]
    exact (List.prefix_append_right_inj _).mpr h₂.some
  all holds := by
    rw [calls_append settled, h₁.all trivial, h₂.all holds, List.flatMap_append, List.map_append]
  found batch mem := by
    rcases List.mem_append.mp mem with mem | mem
    · exact (h₁.found batch mem).imp (·.mono (List.subset_append_left _ _))
        fun seen c mem => (seen c mem).mono (List.subset_append_left _ _)
    · exact (h₂.found batch mem).imp (·.mono (List.subset_append_right _ _))
        fun seen c mem => (seen c mem).mono (List.subset_append_right _ _)

/-- A search and the hooks of what it has found. -/
theorem of_search {accept : Precedence → Bool} {g : List (Candidate κ) → Phase κ ι ω α}
    (hg : ∀ batch, RunsBatch (serve b depth view) (g batch) batch) (P : Processed)
    (s : State κ ι ω) :
    ∃ batches, HooksInBatches cmp (Ends (serve b depth view) (collect cmp accept >>= g) P s)
      (Phase.asked (serve b depth view) (collect cmp accept >>= g) P s) batches := by
  have silent : Silent (Phase.asked (serve b depth view) (collect cmp accept) P s) :=
    (collect_unhooked cmp accept).silent P s
  rcases Returns.bind_cases (serve b depth view) (collect cmp accept) g P s with
    ⟨cut, -⟩ | ⟨sorted, P₁, s₁, searched, whole, same⟩
  · exact ⟨[], of_uncalled (cut ▸ silent.calls)⟩
  · have seen := collect_seen searched
    obtain ⟨batch, rfl, found, -⟩ := collect_found searched
    have only : calls (Phase.asked (serve b depth view) (collect cmp accept >>= g) P s) =
        calls (Phase.asked (serve b depth view) (g (Candidate.sort cmp batch)) P₁ s₁) := by
      rw [whole, calls_append silent.settled, silent.calls, List.nil_append]
    refine ⟨[batch], ?_, ?_, List.forall_mem_singleton.mpr ⟨?_, fun c mem => ?_⟩⟩
    · rw [only, List.flatMap_singleton]
      exact (hg _).some_calls P₁ s₁
    · rintro ⟨a, P', s', ended⟩
      rw [only, List.flatMap_singleton]
      exact ((hg _).all_calls ⟨same.symm.trans ended, rfl⟩).1
    · exact whole ▸ found.mono (List.subset_append_left _ _)
    · exact whole ▸ (seen c (mem_sortBy.mpr mem)).mono (List.subset_append_left _ _)

end HooksInBatches

/-- **The hooks of all runs of phase 4 are those of sorted batches**, also of those that fail or
    have no end. By induction on the passes followed. -/
theorem passes_hooksInBatches (b : Behaviour κ ι ω) (depth : Nat) (view : View)
    (cmp : Comparator) (limit : Option Nat) (patience done : Nat) (P : Processed)
    (s : State κ ι ω) :
    ∃ batches, HooksInBatches cmp (Ends (serve b depth view) (passes cmp limit patience done) P s)
      (Phase.asked (serve b depth view) (passes cmp limit patience done) P s) batches := by
  induction patience generalizing done P s with
  | zero =>
      refine ⟨[], .of_uncalled ?_⟩
      have unanswered : Only (serve b depth view) Request.Silent
          (forever : Phase κ ι ω (Nat × List (Candidate κ))) :=
        (Only.ask ⟨rfl, fun _ => rfl⟩).bind fun answer => nomatch answer
      exact Silent.calls (unanswered P s)
  | succ patience ih =>
      rw [passes_succ]
      obtain ⟨batches, first⟩ : ∃ batches, HooksInBatches cmp
          (Ends (serve b depth view) (pass cmp limit done) P s)
          (Phase.asked (serve b depth view) (pass cmp limit done) P s) batches :=
        HooksInBatches.of_search (pass_runsBatch limit done) P s
      rcases Returns.bind_cases (serve b depth view) (pass cmp limit done) _ P s with
        ⟨cut, broken⟩ | ⟨found, P₁, s₁, passed, whole, same⟩
      · exact ⟨batches, cut ▸ first.mono fun ⟨_, _, _, ended⟩ => absurd ended broken⟩
      have first := first.mono fun _ : True => ⟨found, P₁, s₁, passed.result⟩
      have settled := (pass_books cmp limit done).settled passed
      rw [whole]
      cases found with
      | none =>
          rw [asked_pure, List.append_nil]
          exact ⟨batches, first.mono fun _ => trivial⟩
      | some batch =>
          obtain ⟨others, later⟩ := ih (done + 1) P₁ s₁
          refine ⟨batches ++ others, first.append settled ?_⟩
          rcases Returns.bind_cases (serve b depth view) (passes cmp limit patience (done + 1))
            (fun others => pure (others.1, batch ++ others.2)) P₁ s₁ with
            ⟨cut, broken⟩ | ⟨result, P₂, s₂, ended, whole', -⟩
          · rw [cut]
            exact later.mono fun ⟨_, _, _, ended⟩ => absurd (same.symm.trans ended) broken
          · rw [whole', asked_pure, List.append_nil]
            exact later.mono fun _ => ⟨result, P₂, s₂, ended.result⟩

/-! ## 4. The group that joins again -/

theorem makeMember_precedence {name : String} {precedence : Precedence} {c : Candidate κ}
    (h : Returns (serve b depth view) (makeMember name precedence) P s T c P' s') :
    c.precedence = precedence := by
  obtain ⟨_, _, handle, _, _, -, ended, -⟩ := h.of_bind
  obtain ⟨-, rfl, -, -⟩ := ended.of_pure
  rfl

/-- The name was looked at while its definition was in that group. -/
def SeenIn (T : Asked κ ι ω (State κ ι ω)) (tier : Tier) (name : String) : Prop :=
  ∃ p : Precedence, Seen T name p ∧ p.tier = tier

theorem SeenIn.mono {tier : Tier} {name : String} (h : SeenIn T tier name) (more : T ⊆ T₁) :
    SeenIn T₁ tier name := by
  obtain ⟨p, seen, same⟩ := h
  exact ⟨p, seen.mono more, same⟩

/-- Between two looks at the name, its definition has changed groups. -/
def Regrouped (T : Asked κ ι ω (State κ ι ω)) (name : String) : Prop :=
  ∃ tier tier', tier ≠ tier' ∧ SeenIn T tier name ∧ SeenIn T tier' name

/-- **Each name is put into the group in which it was seen.** -/
theorem split_seen {names : List String} {groups : List (Candidate κ) × List String × List String}
    (h : Returns (serve b depth view) (split names) P s T groups P' s') :
    (∀ c ∈ groups.1, Seen T c.name c.precedence ∧ c.precedence.tier = .highest) ∧
      (∀ name ∈ groups.2.1, SeenIn T .ordered name) ∧
      ∀ name ∈ groups.2.2, SeenIn T .unordered name := by
  induction names generalizing P s T groups with
  | nil =>
      obtain ⟨-, rfl, -, -⟩ := h.of_pure
      exact ⟨nofun, nofun, nofun⟩
  | cons name rest ih =>
      obtain ⟨precedence, others, _, T₂, _, _, _, _, looked, here, walked, more, chosen⟩ :=
        split_cons h
      have seen := (standing_seen looked).mono here
      obtain ⟨first, second, third⟩ := ih walked
      have first := fun c mem => (first c mem).imp_left (·.mono more)
      have second := fun n mem => (second n mem).mono more
      have third := fun n mem => (third n mem).mono more
      cases tier : precedence.tier with
      | highest =>
          rw [tier] at chosen
          obtain ⟨member, _, made, -, rfl⟩ := chosen
          obtain rfl := makeMember_precedence made
          obtain rfl := (makeMember_made made).1
          exact ⟨List.forall_mem_cons.mpr ⟨⟨seen, tier⟩, first⟩, second, third⟩
      | ordered =>
          rw [tier] at chosen
          subst chosen
          exact ⟨first, List.forall_mem_cons.mpr ⟨⟨_, seen, tier⟩, second⟩, third⟩
      | unordered =>
          rw [tier] at chosen
          subst chosen
          exact ⟨first, second, List.forall_mem_cons.mpr ⟨⟨_, seen, tier⟩, third⟩⟩

/-- Whatever was put off is made with the standing that it is seen with then. -/
theorem makeMembers_seen {names : List String} {out : List (Candidate κ)}
    (h : Returns (serve b depth view) (makeMembers names) P s T out P' s') :
    ∀ c ∈ out, Seen T c.name c.precedence := by
  unfold makeMembers at h
  induction names generalizing P s T out with
  | nil =>
      obtain ⟨-, rfl, -, -⟩ := h.of_mapM_nil
      exact nofun
  | cons name rest ih =>
      obtain ⟨T₁, T₂, member, _, _, others, one, left, rfl, rfl⟩ := h.of_mapM_cons
      obtain ⟨T₃, T₄, precedence, _, _, looked, made, rfl⟩ := one.of_bind
      have seen := standing_seen looked
      rw [← makeMember_precedence made, ← (makeMember_made made).1] at seen
      exact List.forall_mem_cons.mpr ⟨seen.mono fun q asked => by simp [asked],
        fun c mem => (ih left c mem).mono (List.subset_append_right _ _)⟩

/-- What was found is made, and what of it wants to see merged definitions joins the chain again,
    sorted, before the watcher for listeners. -/
structure Rejoins (b : Behaviour κ ι ω) (depth : Nat) (view : View) (cmp : Comparator)
    (names : List String) (listeners : Extension κ) (T : Asked κ ι ω (State κ ι ω))
    (chain : List (Extension κ)) (found : List (Candidate κ)) : Prop where
  names : (found.map Candidate.name).Perm names
  made : ∀ c ∈ found, Made (serve b depth view) T c ∧ Seen T c.name c.precedence
  chain : ∃ before, chain = joined before
    ((Candidate.sort cmp (found.filter (wantsMerged b))).map (·.handle.extension) ++ [listeners])
  tied : Tied Candidate.precedence (found.filter (wantsMerged b)) →
    ∃ c ∈ found, wantsMerged b c = true ∧ Regrouped T c.name

/-- **What joins again is tied only if a definition has changed groups meanwhile**: the ordered come
    before the undeclared otherwise. -/
theorem Waves.rejoins {names : List String} {listeners : Extension κ}
    (waves : Waves (serve b depth view) b cmp names listeners T s s') :
    ∃ found, Rejoins b depth view cmp names listeners T s'.container.chain found := by
  obtain @⟨priority, ordered, others, orderedNames, otherNames, T₁, T₂, T₃, J₁, J₂, J₃, J₄, P, P₁, P₂,
    P₃, P₄, P₅, P₆, P₇, s₁, s₂, s₃, s₄, s₅, s₆, s₇, first, -, second, -, third, -, again, last,
    asked⟩ := waves
  have in_first : T₁ ⊆ T := fun q mem =>
    asked (List.mem_append_left _ (List.mem_append_left _ mem))
  have in_second : T₂ ⊆ T := fun q mem =>
    asked (List.mem_append_left _ (List.mem_append_right _ mem))
  have in_third : T₃ ⊆ T := fun q mem => asked (List.mem_append_right _ mem)
  obtain ⟨all, made⟩ := split_made first
  obtain ⟨highest, was_ordered, was_unordered⟩ := split_seen first
  obtain ⟨rfl, ordered_made⟩ := makeMembers_made second
  obtain ⟨rfl, others_made⟩ := makeMembers_made third
  have now_ordered := makeMembers_seen second
  have now_unordered := makeMembers_seen third
  refine ⟨priority ++ ordered ++ others, ?_, ?_, ⟨s₆.container.chain, ?_⟩, ?_⟩
  · rwa [List.map_append, List.map_append, List.append_assoc]
  · intro c mem
    rcases List.mem_append.mp mem with mem | mem
    · rcases List.mem_append.mp mem with mem | mem
      · exact ⟨(made c mem).mono in_first, (highest c mem).1.mono in_first⟩
      · exact ⟨(ordered_made c mem).mono in_second, (now_ordered c mem).mono in_second⟩
    · exact ⟨(others_made c mem).mono in_third, (now_unordered c mem).mono in_third⟩
  · rw [joined_append, ← (join_joins again).1, last]
    rfl
  · rintro ⟨x, y, hxy, hx, hy⟩
    have in_found := hxy.trans List.filter_sublist
    have wants {c : Candidate κ} (mem : c ∈ [x, y]) : wantsMerged b c = true :=
      (List.mem_filter.mp (hxy.subset mem)).2
    -- whoever was seen in one group and is in another one now
    have changed {c : Candidate κ} (mem : c ∈ [x, y]) {tier : Tier}
        (was : SeenIn T₁ tier c.name) (now : Seen T c.name c.precedence)
        (differs : tier ≠ c.precedence.tier) :
        ∃ c ∈ priority ++ ordered ++ others, wantsMerged b c = true ∧ Regrouped T c.name :=
      ⟨c, in_found.subset mem, wants mem, tier, _, differs, was.mono in_first, _, now, rfl⟩
    have ordered_changed (mem : x ∈ ordered) :
        ∃ c ∈ priority ++ ordered ++ others, wantsMerged b c = true ∧ Regrouped T c.name :=
      changed List.mem_cons_self (was_ordered _ (List.mem_map_of_mem mem))
        ((now_ordered x mem).mono in_second) (by rw [hx]; decide)
    have not_priority : x ∉ priority := fun mem => by
      have tier := (highest x mem).2
      rw [hx] at tier
      cases tier
    obtain ⟨l₁, l₂, pair, early, late⟩ := List.sublist_append_iff.mp in_found
    cases l₁ with
    | nil =>
        obtain rfl : [x, y] = l₂ := pair
        have mem : y ∈ others := late.subset (by simp)
        exact changed (by simp) (was_unordered _ (List.mem_map_of_mem mem))
          ((now_unordered y mem).mono in_third) (by rw [hy]; decide)
    | cons c l₁ =>
        obtain rfl : x = c := (List.cons.inj pair).1
        rcases List.mem_append.mp (early.subset List.mem_cons_self) with mem | mem
        · exact absurd mem not_priority
        · exact ordered_changed mem

theorem Rejoins.mono {names : List String} {listeners : Extension κ} {chain : List (Extension κ)}
    {found : List (Candidate κ)} (h : Rejoins b depth view cmp names listeners T chain found)
    (more : T ⊆ T₁) : Rejoins b depth view cmp names listeners T₁ chain found where
  names := h.names
  made c mem := (h.made c mem).imp (·.mono more) (·.mono more)
  chain := h.chain
  tied ties := by
    obtain ⟨c, mem, wants, tier, tier', differ, seen, seen'⟩ := h.tied ties
    exact ⟨c, mem, wants, tier, tier', differ, seen.mono more, seen'.mono more⟩

/-! ## 5. Where the groups are the order of execution -/

/-- **The groups are the order of execution unless two are tied.** Sorting by the usual comparator
    puts the groups in order exactly if nothing undeclared was found before something ordered by the
    largest number; just what was found like that stays like that. So it is with the batches whose
    hooks phase 4 runs, in each run of it; and with the group that joins the chain again in phase 7,
    where a tie takes a definition that changes groups meanwhile. -/
theorem tiers_in_order_unless_tied (b : Behaviour κ ι ω) (depth : Nat) (view : View) :
    (∀ (α : Type) (standing : α → Precedence) (l : List α),
      (InTiers standing (sortBy standard standing l) ↔ ¬Tied standing l) ∧
      ∀ a c, List.Sublist [a, c] (sortBy standard standing l) →
        (standing c).tier.rank < (standing a).tier.rank →
        standing a = .unordered ∧ standing c = .ordered Precedence.lowest ∧
          List.Sublist [a, c] l) ∧
    (∀ (limit : Option Nat) (patience done : Nat) (P : Processed) (s : State κ ι ω),
      ∃ batches, HooksInBatches standard
          (Ends (serve b depth view) (passes standard limit patience done) P s)
          (Phase.asked (serve b depth view) (passes standard limit patience done) P s) batches ∧
        ∀ batch ∈ batches, InTiers Candidate.precedence (Candidate.sort standard batch) ↔
          ¬Tied Candidate.precedence batch) ∧
    ∀ (listeners checker : Extension κ) (P P' : Processed) (s s' : State κ ι ω)
      (T : Asked κ ι ω (State κ ι ω)),
      Comparator.resolve (view.comparator s.container) = standard →
      Returns (serve b depth view) (runChainPhase b listeners) P s T checker P' s' →
      ∃ found, Rejoins b depth view standard ((undealt s.container P).map Prod.fst) listeners T
          s'.container.chain found ∧
        (InTiers Candidate.precedence (Candidate.sort standard (found.filter (wantsMerged b))) ↔
          ¬Tied Candidate.precedence (found.filter (wantsMerged b))) := by
  refine ⟨fun α standing l => ⟨inTiers_sortBy_iff, fun a c => found_of_against_tiers⟩, ?_, ?_⟩
  · intro limit patience done P s
    obtain ⟨batches, hooks⟩ := passes_hooksInBatches b depth view standard limit patience done P s
    exact ⟨batches, hooks, fun _ _ => inTiers_sortBy_iff⟩
  · intro listeners checker P P' s s' T usual h
    obtain ⟨T', among, -, begun⟩ := runChainPhase_begins h
    rw [usual] at begun
    obtain ⟨-, waves⟩ := afterWatcher_waves begun
    obtain ⟨found, rejoins⟩ := waves.rejoins
    exact ⟨found, rejoins.mono among, inTiers_sortBy_iff⟩

/-- Extensions that all want to see merged definitions. -/
def curious : Behaviour (List String) Unit Unit := { asking with mergedAware := fun _ => true }

/-- An undeclared component post-processor before one that is ordered by the largest number. -/
def trailing : State (List String) Unit Unit :=
  holding [processor "undeclared" .component .unordered [],
    processor "last" .component (.ordered Precedence.lowest) []]

/-- They are put into their groups before they are sorted, so the tie does no harm in phase 7. -/
theorem trailing_in_tiers :
    InTiers id (sortBy standard id [.unordered, .ordered 7, .priority 2147483647]) ∧
    ∃ checker P' s' found,
      Returns (serve curious 2 .full) (runChainPhase curious ⟨9, .listeners⟩) .empty trailing
        (Phase.asked (serve curious 2 .full) (runChainPhase curious ⟨9, .listeners⟩) .empty trailing)
        checker P' s' ∧
      Rejoins curious 2 .full standard ["undeclared", "last"] ⟨9, .listeners⟩
        (Phase.asked (serve curious 2 .full) (runChainPhase curious ⟨9, .listeners⟩) .empty trailing)
        s'.container.chain found ∧
      s'.container.chain.map Extension.id = [0, 1, 2, 9] ∧
      (s'.container.extensions.find? "last").map (·.extension.id) = some 1 := by
  obtain ⟨sorted, -, joins⟩ := tiers_in_order_unless_tied curious 2 .full
  refine ⟨(sorted _ id _).1.mpr fun ⟨_, last, sub, _, tied⟩ => ?_, ?_⟩
  · have mem := sub.subset (List.mem_cons_of_mem _ List.mem_cons_self)
    rw [show last = .ordered Precedence.lowest from tied] at mem
    exact absurd mem (by decide)
  · have comes : Phase.returns (serve curious 2 .full) (runChainPhase curious ⟨9, .listeners⟩) .empty
        trailing = true := by
      cbv
    have ends : (Phase.result (serve curious 2 .full) (runChainPhase curious ⟨9, .listeners⟩) .empty
        trailing).all (fun r => r.2.container.chain.map Extension.id == [0, 1, 2, 9] &&
          (r.2.container.extensions.find? "last").map (·.extension.id) == some 1) = true := by
      cbv
    have names : (undealt trailing.container .empty).map Prod.fst = ["undeclared", "last"] := by
      decide +kernel
    obtain ⟨checker, P', s', returns⟩ := exists_returns comes
    rw [returns.result] at ends
    obtain ⟨chain, first⟩ := Bool.and_eq_true_iff.mp ends
    obtain ⟨found, rejoins, -⟩ := joins _ checker .empty P' trailing s' _ rfl returns
    exact ⟨checker, P', s', found, returns, names ▸ rejoins, beq_iff_eq.mp chain,
      beq_iff_eq.mp first⟩

/-- The same with registry post-processors. -/
def pairing : State (List String) Unit Unit :=
  holding [processor "undeclared" .registry .unordered [],
    processor "last" .registry (.ordered Precedence.lowest) []]

/-- **The groups are not the order of execution**: what is undeclared stays before what is ordered
    by the largest number, and a pass of phase 4 runs the hooks of both in that order. -/
theorem undeclared_runs_before_last :
    sortBy standard id [.unordered, .ordered 2147483647] = [.unordered, .ordered 2147483647] ∧
    ¬InTiers id (sortBy standard id [.unordered, .ordered 2147483647]) ∧
    foundNames (Phase.asked (serve asking 2 .full) (passes standard none 2 0) .empty pairing) =
      ["undeclared", "last"] := by
  refine ⟨?_, ?_, ?_⟩
  · cbv
  · cbv
    decide
  · cbv

end Bootstrap

end ComponentContainer
