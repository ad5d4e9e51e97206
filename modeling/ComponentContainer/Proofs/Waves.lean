/-
  File:      ComponentContainer/Proofs/Waves.lean
  Subject:   Phase 7, wave after wave.

  * `afterWatcher` -- what phase 7 does once the watcher for completeness has joined;
    `runChainPhase_begins` -- it has not done anything else before.
  * `Waves` -- three times, extensions are made and then join; some join again, and the watcher for
    listeners joins last.
  * `Gains` -- some have joined the chain, and if suppliers add none, none else has.
  * `runChainPhase_gathers` -- **phase 7 as a whole**: who joins, and that what is made meanwhile is
    made before all have joined.
-/
import ComponentContainer.Proofs.ChainShape
import ComponentContainer.Proofs.HookPrecedence
import ComponentContainer.Proofs.Watching

namespace ComponentContainer

variable {κ ι ω : Type}

/-! ## 1. Joining -/

section Joining

/-- The identities in the chain after extensions have joined. -/
theorem mem_ids_joined (chain l : List (Extension κ)) (n : Nat) :
    n ∈ (joined chain l).map Extension.id ↔
      n ∈ chain.map Extension.id ∨ n ∈ l.map Extension.id := by
  induction l generalizing chain with
  | nil => simp [joined]
  | cons e l ih =>
      show n ∈ (joined (chain.filter (fun other => other.id ≠ e.id) ++ [e]) l).map _ ↔ _
      rw [ih, Container.mem_ids_join, List.map_cons, List.mem_cons, or_assoc]

theorem distinct_joined {chain : List (Extension κ)} (distinct : (chain.map Extension.id).Nodup)
    (l : List (Extension κ)) : ((joined chain l).map Extension.id).Nodup := by
  induction l generalizing chain with
  | nil => exact distinct
  | cons e l ih => exact ih (Container.distinct_join distinct e)

end Joining

namespace Bootstrap

open Phase Container

variable {b : Behaviour κ ι ω} {depth : Nat} {view : View} {P P' : Processed}
  {s s' : State κ ι ω} {T : Asked κ ι ω (State κ ι ω)} {listeners checker : Extension κ}

/-! ## 2. How phase 7 begins -/

/-- The state when a new extension has joined the chain. -/
def joinedBy (s : State κ ι ω) (e : Extension κ) : State κ ι ω :=
  { s with
    container := s.container.attach e
    nextId := s.nextId + 1
    history := .attached e :: s.history }

/-- Phase 7 once the watcher for completeness has joined. -/
def afterWatcher (b : Behaviour κ ι ω) (cmp : Comparator) (names : List String)
    (listeners checker : Extension κ) : Phase κ ι ω (Extension κ) := do
  let (priority, orderedNames, otherNames) ← split names
  join (Candidate.sort cmp priority)
  let ordered ← makeMembers orderedNames
  join (Candidate.sort cmp ordered)
  let others ← makeMembers otherNames
  join others
  join (Candidate.sort cmp ((priority ++ ordered ++ others).filter (wantsMerged b)))
  ask (.attach listeners)
  announce (.chainDone (← ask .chainLength))
  return checker

/-- **Wave after wave**: extensions are made, and then they join. -/
inductive Waves (serve : Program.Handler (factoryInterface κ ι ω) (State κ ι ω))
    (b : Behaviour κ ι ω) (cmp : Comparator) (names : List String) (listeners : Extension κ)
    (T : Asked κ ι ω (State κ ι ω)) (s s' : State κ ι ω) : Prop
  | intro {priority ordered others : List (Candidate κ)} {orderedNames otherNames : List String}
      {T₁ T₂ T₃ J₁ J₂ J₃ J₄ : Asked κ ι ω (State κ ι ω)}
      {P P₁ P₂ P₃ P₄ P₅ P₆ P₇ : Processed} {s₁ s₂ s₃ s₄ s₅ s₆ s₇ : State κ ι ω}
      (first : Returns serve (split names) P s T₁ (priority, orderedNames, otherNames) P₁ s₁)
      (firstJoin : Returns serve (join (Candidate.sort cmp priority)) P₁ s₁ J₁ ⟨⟩ P₂ s₂)
      (second : Returns serve (makeMembers orderedNames) P₂ s₂ T₂ ordered P₃ s₃)
      (secondJoin : Returns serve (join (Candidate.sort cmp ordered)) P₃ s₃ J₂ ⟨⟩ P₄ s₄)
      (third : Returns serve (makeMembers otherNames) P₄ s₄ T₃ others P₅ s₅)
      (thirdJoin : Returns serve (join others) P₅ s₅ J₃ ⟨⟩ P₆ s₆)
      (again : Returns serve (join (Candidate.sort cmp ((priority ++ ordered ++ others).filter
        (wantsMerged b)))) P₆ s₆ J₄ ⟨⟩ P₇ s₇)
      (last : s' = { s₇ with
        container := s₇.container.attach listeners
        history := .announced (.chainDone (s₇.container.attach listeners).chain.length) ::
          .attached listeners :: s₇.history })
      (asked : T₁ ++ T₂ ++ T₃ ⊆ T)

theorem afterWatcher_waves {cmp : Comparator} {names : List String} {e : Extension κ}
    (h : Returns (serve b depth view) (afterWatcher b cmp names listeners checker) P s T e P' s') :
    e = checker ∧ Waves (serve b depth view) b cmp names listeners T s s' := by
  unfold afterWatcher at h
  obtain ⟨T₁, _, ⟨priority, orderedNames, otherNames⟩, P₁, s₁, first, h₁, rfl⟩ := h.of_bind
  obtain ⟨J₁, _, _, P₂, s₂, firstJoin, h₂, rfl⟩ := Returns.of_bind h₁
  obtain ⟨T₂, _, ordered, P₃, s₃, second, h₃, rfl⟩ := Returns.of_bind h₂
  obtain ⟨J₂, _, _, P₄, s₄, secondJoin, h₄, rfl⟩ := Returns.of_bind h₃
  obtain ⟨T₃, _, others, P₅, s₅, third, h₅, rfl⟩ := Returns.of_bind h₄
  obtain ⟨J₃, _, _, P₆, s₆, thirdJoin, h₆, rfl⟩ := Returns.of_bind h₅
  obtain ⟨J₄, _, _, P₇, s₇, again, h₇, rfl⟩ := Returns.of_bind h₆
  obtain ⟨A₁, _, h₈⟩ := h₇.rest (Yields.ask (serve_attach b depth view _ listeners))
  obtain ⟨A₂, _, h₉⟩ := h₈.rest (Yields.ask (serve_chainLength b depth view _))
  obtain ⟨A₃, _, h₁₀⟩ := h₉.rest (Yields.ask (serve_announce b depth view _ _))
  obtain ⟨-, rfl, -, rfl⟩ := h₁₀.of_pure
  refine ⟨rfl, .intro first firstJoin second secondJoin third thirdJoin again rfl ?_⟩
  intro q hq
  simp only [List.mem_append] at hq ⊢
  tauto

/-- **Phase 7 begins with the watcher for completeness**, which counts on the chain there is, itself,
    and all that was found; then it sorts by the comparator in force. -/
theorem runChainPhase_begins
    (h : Returns (serve b depth view) (runChainPhase b listeners) P s T checker P' s') :
    ∃ T', T' ⊆ T ∧
      checker = watcher s.nextId (s.container.chain.length + 1 + (undealt s.container P).length) ∧
      Returns (serve b depth view) (afterWatcher b (.resolve (view.comparator s.container))
        ((undealt s.container P).map Prod.fst) listeners checker) P (joinedBy s checker) T' checker
        P' s' := by
  have found : (s.container.namesFor (.postProcessor .component)).filter (!P.contains ·) =
      (undealt s.container P).map Prod.fst := undealt_names s.container P
  have compares : Yields (serve b depth view) comparator P s
      (Comparator.resolve (view.comparator s.container)) P s :=
    Yields.bind (Yields.ask (serve_comparator b depth view s)) rfl
  unfold runChainPhase at h
  obtain ⟨T₁, sub₁, h⟩ := h.rest compares
  obtain ⟨T₂, sub₂, h⟩ := h.rest (result_get P s)
  obtain ⟨T₃, sub₃, h⟩ := h.rest (Yields.ask (serve_namesFor b depth view s _))
  obtain ⟨T₄, sub₄, h⟩ := h.rest (Yields.ask (serve_chainLength b depth view s))
  obtain ⟨T₅, sub₅, h⟩ := h.rest (Yields.ask (serve_create b depth view s _))
  obtain ⟨T₆, sub₆, h⟩ := h.rest (Yields.ask (serve_attach b depth view _ _))
  rw [found, List.length_map] at h
  obtain ⟨rfl, -⟩ := afterWatcher_waves h
  exact ⟨T₆, fun q hq => sub₁ (sub₂ (sub₃ (sub₄ (sub₅ (sub₆ hq))))), rfl, h⟩

/-! ## 3. Who has joined -/

/-- The extensions have joined the chain; **if `spare` holds, none else has.** -/
structure Gains (spare : Prop) (l : List (Extension κ)) (s s' : State κ ι ω) : Prop where
  distinct : (ids s.container).Nodup → (ids s'.container).Nodup
  kept : (ids s.container).Nodup →
    ∀ n, n ∈ ids s.container ∨ n ∈ l.map Extension.id → n ∈ ids s'.container
  only : spare → (ids s.container).Nodup →
    ∀ n ∈ ids s'.container, n ∈ ids s.container ∨ n ∈ l.map Extension.id

namespace Gains

variable {spare : Prop} {l l' : List (Extension κ)} {s'' : State κ ι ω}

theorem trans (h₁ : Gains spare l s s') (h₂ : Gains spare l' s' s'') :
    Gains spare (l ++ l') s s'' where
  distinct distinct := h₂.distinct (h₁.distinct distinct)
  kept distinct n mem := by
    have then_kept := h₂.kept (h₁.distinct distinct) n
    rw [List.map_append, List.mem_append] at mem
    rcases mem with old | first | second
    · exact then_kept (.inl (h₁.kept distinct n (.inl old)))
    · exact then_kept (.inl (h₁.kept distinct n (.inr first)))
    · exact then_kept (.inr second)
  only spare distinct n mem := by
    rw [List.map_append, List.mem_append]
    rcases h₂.only spare (h₁.distinct distinct) n mem with before | second
    · rcases h₁.only spare distinct n before with old | first
      · exact .inl old
      · exact .inr (.inl first)
    · exact .inr (.inr second)

theorem congr (h : Gains spare l s s')
    (same : ∀ n, n ∈ l.map Extension.id ↔ n ∈ l'.map Extension.id) : Gains spare l' s s' where
  distinct := h.distinct
  kept distinct n mem := h.kept distinct n (mem.imp_right (same n).mpr)
  only spare distinct n mem := (h.only spare distinct n mem).imp_right (same n).mp

/-- The chain gets longer by those who join, at most. -/
theorem length_le (h : Gains spare l s s') (holds : spare) (distinct : (ids s.container).Nodup) :
    s'.container.chain.length ≤ s.container.chain.length + l.length := by
  have among : ids s'.container ⊆ ids s.container ++ l.map Extension.id := fun n mem =>
    List.mem_append.mpr (h.only holds distinct n mem)
  have length := ((h.distinct distinct).subperm among).length_le
  rwa [List.length_append, List.length_map, List.length_map, List.length_map] at length

theorem of_joined (chain : s'.container.chain = joined s.container.chain l) :
    Gains spare l s s' where
  distinct distinct := by
    unfold ids
    rw [chain]
    exact distinct_joined distinct l
  kept _ n mem := by
    unfold ids
    rw [chain]
    exact (mem_ids_joined _ l n).mpr mem
  only _ _ n mem := by
    unfold ids at mem
    rw [chain] at mem
    exact (mem_ids_joined _ l n).mp mem

end Gains

/-! ## 4. What is seen meanwhile -/

/-- What hooks after the initialization have seen meanwhile was made while the chain was shorter than
    that. -/
def Below (length : Nat) (s s' : State κ ι ω) : Prop :=
  ∃ events, s'.history = events ++ s.history ∧ ∀ x ∈ sights events, x.2.chainLength < length

theorem Below.trans {length : Nat} {s'' : State κ ι ω} (h₁ : Below length s s')
    (h₂ : Below length s' s'') : Below length s s'' := by
  obtain ⟨events₁, past₁, below₁⟩ := h₁
  obtain ⟨events₂, past₂, below₂⟩ := h₂
  refine ⟨events₂ ++ events₁, by rw [past₂, past₁, List.append_assoc], fun x mem => ?_⟩
  rw [sights_append] at mem
  exact (List.mem_append.mp mem).elim (below₁ x) (below₂ x)

/-- A group has joined; no hook around a component has run. -/
theorem join_joins {batch : List (Candidate κ)} {u : PUnit}
    (h : Returns (serve b depth view) (join batch) P s T u P' s') :
    s'.container.chain = joined s.container.chain (batch.map (·.handle.extension)) ∧
      ∃ events, s'.history = events ++ s.history ∧ sights events = [] := by
  unfold join at h
  induction batch generalizing s P T with
  | nil =>
      obtain ⟨-, -, -, rfl⟩ := h.of_pure
      exact ⟨rfl, [], rfl, rfl⟩
  | cons c batch ih =>
      obtain ⟨T₁, T₂, _, P₁, s₁, one, others, rfl⟩ := Returns.of_bind h
      obtain ⟨T₃, -, one⟩ := one.rest (Yields.ask (serve_announce b depth view s _))
      obtain ⟨-, rfl, attached⟩ := one.of_ask
      rw [serve_attach] at attached
      cases attached
      obtain ⟨chain, events, past, unseen⟩ := ih others
      refine ⟨chain, events ++ [.attached c.handle.extension, .announced (.joining c.name)], ?_, ?_⟩
      · rw [past, List.append_assoc]
        rfl
      · rw [sights_append, unseen]
        rfl

/-- The request does not make the chain longer. -/
def Spares (b : Behaviour κ ι ω) (depth : Nat) (view : View)
    (q : Request κ ι ω × State κ ι ω) : Prop :=
  ∀ answer t, serve b depth view q.1 q.2 = some (answer, t) →
    t.container.chain.length ≤ q.2.container.chain.length

/-- The requests by which extensions are made. -/
inductive Making : Request κ ι ω → Prop
  | find (name : String) : Making (.registry (.find name))
  | extension (name : String) (expected : Capability) : Making (.extension name expected)

theorem split_making {serve : Program.Handler (factoryInterface κ ι ω) (State κ ι ω)}
    (names : List String) : Only serve Making (split names) :=
  (split_madeOf .find (.extension · _) names).only

theorem makeMembers_making {serve : Program.Handler (factoryInterface κ ι ω) (State κ ι ω)}
    (names : List String) : Only serve Making (makeMembers names) :=
  (makeMembers_madeOf .find (.extension · _) names).only

/-- **While extensions are made**, none joins if suppliers add none; and then what hooks see is made
    with the chain as long as it was at first. -/
theorem making_gathers {α : Type} {x : Phase κ ι ω α} {a : α} {spare : Prop}
    (h : Returns (serve b depth view) x P s T a P' s') (making : Only (serve b depth view) Making x)
    (spares : spare → ∀ name expected u, (.extension name expected, u) ∈ T →
      Spares b depth view (.extension name expected, u)) :
    Gains spare [] s s' ∧ (spare → (ids s.container).Nodup → ∀ length,
      (T ≠ [] → s.container.chain.length < length) → Below length s s') := by
  have story := run_story h.result
  have shorter : spare → s'.container.chain.length ≤ s.container.chain.length := by
    intro holds
    refine Program.run_of_asked (R := fun s s' => s'.container.chain.length ≤ s.container.chain.length)
      (fun _ => Nat.le_refl _) (fun h₁ h₂ => Nat.le_trans h₂ h₁) ?_ h.result
    rintro ⟨r, u⟩ mem answer t answered
    have asked : (r, u) ∈ T := h.asked ▸ mem
    cases making P s _ mem with
    | find name =>
        rw [serve_find] at answered
        cases answered
        exact Nat.le_refl _
    | extension name expected => exact spares holds name expected u asked answer t answered
  constructor
  · exact
      { distinct := fun distinct => by
          obtain ⟨events, grown⟩ := story.grown distinct
          exact grown.distinct
        kept := fun distinct n mem => by
          obtain ⟨events, grown⟩ := story.grown distinct
          exact grown.kept (mem.resolve_right List.not_mem_nil)
        only := fun holds distinct n mem => by
          obtain ⟨events, grown⟩ := story.grown distinct
          have lengths : (ids s'.container).length ≤ (ids s.container).length := by
            rw [List.length_map, List.length_map]
            exact shorter holds
          have perm := (distinct.subperm grown.kept).perm_of_length_le lengths
          exact .inl (perm.mem_iff.mpr mem) }
  · intro holds distinct length room
    obtain ⟨events, grown⟩ := story.grown distinct
    refine ⟨events, grown.past, fun sight mem => ?_⟩
    obtain ⟨-, high⟩ := grown.told sight mem
    have still := shorter holds
    by_cases idle : T = []
    · -- nothing is asked for, so nothing is seen
      subst idle
      have same := h.still
      have past := grown.past
      rw [same] at past
      rw [List.self_eq_append_left.mp past] at mem
      cases mem
    · have room := room idle
      omega

section Members

variable {serve : Program.Handler (factoryInterface κ ι ω) (State κ ι ω)}

/-- The candidate is the answer to what was asked for under its name. -/
abbrev Made (serve : Program.Handler (factoryInterface κ ι ω) (State κ ι ω))
    (T : Asked κ ι ω (State κ ι ω)) (c : Candidate κ) : Prop :=
  Answered serve T c.name .component c.handle.extension

theorem makeMember_made {name : String} {precedence : Precedence} {c : Candidate κ}
    (h : Returns serve (makeMember name precedence) P s T c P' s') :
    c.name = name ∧ Made serve T c := by
  obtain ⟨T₁, T₂, handle, P₁, s₁, asked, ended, rfl⟩ := h.of_bind
  obtain ⟨-, -, rfl, answered⟩ := extensionOf_returns asked
  obtain ⟨rfl, rfl, -, -⟩ := ended.of_pure
  exact ⟨rfl, s, s₁, handle, List.mem_cons_self, answered, rfl⟩

/-- **What the walk through the names does with the first of them**: it looks at the standing, makes
    what stands in the priority group, and walks on. -/
theorem split_cons {name : String} {rest : List String}
    {groups : List (Candidate κ) × List String × List String}
    (h : Returns serve (split (name :: rest)) P s T groups P' s') :
    ∃ precedence others T₁ T₂ P₁ P₂ s₁ s₂,
      Returns serve (standing name) P s T₁ precedence P₁ s₁ ∧ T₁ ⊆ T ∧
      Returns serve (split rest) P₂ s₂ T₂ others P' s' ∧ T₂ ⊆ T ∧
      match precedence.tier with
      | .highest => ∃ member T₃, Returns serve (makeMember name precedence) P₁ s₁ T₃ member P₂ s₂ ∧
          T₃ ⊆ T ∧ groups = (member :: others.1, others.2)
      | .ordered => groups = (others.1, name :: others.2.1, others.2.2)
      | .unordered => groups = (others.1, others.2.1, name :: others.2.2) := by
  unfold split at h
  obtain ⟨T₁, _, precedence, P₁, s₁, looked, chosen, rfl⟩ := h.of_bind
  cases tier : precedence.tier with
  | highest =>
      rw [tier] at chosen
      obtain ⟨T₃, _, member, P₂, s₂, made, left, rfl⟩ := Returns.of_bind chosen
      obtain ⟨T₂, _, others, _, _, walked, ended, rfl⟩ := Returns.of_bind left
      obtain ⟨rfl, rfl, rfl, rfl⟩ := ended.of_pure
      refine ⟨precedence, others, T₁, T₂, P₁, P₂, s₁, s₂, looked, ?_, walked, ?_, ?_⟩
      · exact fun q asked => by simp [asked]
      · exact fun q asked => by simp [asked]
      · rw [tier]
        exact ⟨member, T₃, made, fun q asked => by simp [asked], rfl⟩
  | ordered =>
      rw [tier] at chosen
      obtain ⟨T₂, _, others, _, _, walked, ended, rfl⟩ := Returns.of_bind chosen
      obtain ⟨rfl, rfl, rfl, rfl⟩ := ended.of_pure
      refine ⟨precedence, others, T₁, T₂, P₁, P₁, s₁, s₁, looked, ?_, walked, ?_, ?_⟩
      · exact fun q asked => by simp [asked]
      · exact fun q asked => by simp [asked]
      · rw [tier]
  | unordered =>
      rw [tier] at chosen
      obtain ⟨T₂, _, others, _, _, walked, ended, rfl⟩ := Returns.of_bind chosen
      obtain ⟨rfl, rfl, rfl, rfl⟩ := ended.of_pure
      refine ⟨precedence, others, T₁, T₂, P₁, P₁, s₁, s₁, looked, ?_, walked, ?_, ?_⟩
      · exact fun q asked => by simp [asked]
      · exact fun q asked => by simp [asked]
      · rw [tier]

/-- **Each name found is in one of the three groups**, and those in the first are made. -/
theorem split_made {names : List String} {groups : List (Candidate κ) × List String × List String}
    (h : Returns serve (split names) P s T groups P' s') :
    (groups.1.map Candidate.name ++ (groups.2.1 ++ groups.2.2)).Perm names ∧
      ∀ c ∈ groups.1, Made serve T c := by
  induction names generalizing P s T groups with
  | nil =>
      obtain ⟨-, rfl, -, -⟩ := h.of_pure
      exact ⟨.refl _, fun _ mem => absurd mem List.not_mem_nil⟩
  | cons name rest ih =>
      obtain ⟨precedence, others, _, T₂, _, _, _, _, -, -, walked, more, chosen⟩ := split_cons h
      obtain ⟨perm, all⟩ := ih walked
      have all : ∀ c ∈ others.1, Made serve T c := fun c mem => (all c mem).mono more
      cases tier : precedence.tier with
      | highest =>
          rw [tier] at chosen
          obtain ⟨member, T₃, made, within, rfl⟩ := chosen
          obtain ⟨rfl, answered⟩ := makeMember_made made
          exact ⟨perm.cons _, List.forall_mem_cons.mpr ⟨answered.mono within, all⟩⟩
      | ordered =>
          rw [tier] at chosen
          subst chosen
          exact ⟨List.perm_middle.trans (perm.cons name), all⟩
      | unordered =>
          rw [tier] at chosen
          subst chosen
          rw [← List.append_assoc] at perm ⊢
          exact ⟨List.perm_middle.trans (perm.cons name), all⟩

theorem makeMembers_made {names : List String} {out : List (Candidate κ)}
    (h : Returns serve (makeMembers names) P s T out P' s') :
    out.map Candidate.name = names ∧ ∀ c ∈ out, Made serve T c := by
  unfold makeMembers at h
  induction names generalizing P s T out with
  | nil =>
      obtain ⟨-, rfl, -, -⟩ := h.of_mapM_nil
      exact ⟨rfl, fun _ mem => absurd mem List.not_mem_nil⟩
  | cons name rest ih =>
      obtain ⟨T₁, T₂, member, _, _, others, one, left, rfl, rfl⟩ := h.of_mapM_cons
      obtain ⟨T₃, T₄, precedence, _, _, -, made, rfl⟩ := one.of_bind
      obtain ⟨rfl, answered⟩ := makeMember_made made
      obtain ⟨rfl, all⟩ := ih left
      refine ⟨rfl, fun c mem => ?_⟩
      rcases List.mem_cons.mp mem with rfl | mem
      · exact answered.mono fun q asked => by simp [asked]
      · exact (all c mem).mono fun q asked => by simp [asked]

end Members

/-- Where something is asked for, there is a name left. -/
theorem split_busy {serve : Program.Handler (factoryInterface κ ι ω) (State κ ι ω)}
    {names : List String} {groups : List (Candidate κ) × List String × List String}
    (h : Returns serve (split names) P s T groups P' s') (busy : T ≠ []) : 0 < names.length := by
  cases names with
  | nil => exact absurd h.of_pure.1 busy
  | cons name rest => exact Nat.succ_pos _

theorem makeMembers_busy {serve : Program.Handler (factoryInterface κ ι ω) (State κ ι ω)}
    {names : List String} {out : List (Candidate κ)}
    (h : Returns serve (makeMembers names) P s T out P' s') (busy : T ≠ []) : 0 < names.length := by
  cases names with
  | nil => exact absurd (Returns.of_mapM_nil h).1 busy
  | cons name rest => exact Nat.succ_pos _

theorem below_of_unseen {length : Nat}
    (h : ∃ events, s'.history = events ++ s.history ∧ sights events = []) : Below length s s' := by
  obtain ⟨events, past, unseen⟩ := h
  refine ⟨events, past, fun x mem => ?_⟩
  rw [unseen] at mem
  cases mem

/-- What a group has for identities, sorted or not. -/
theorem mem_ids_sort (cmp : Comparator) (group : List (Candidate κ)) (n : Nat) :
    n ∈ ((Candidate.sort cmp group).map (·.handle.extension)).map Extension.id ↔
      n ∈ (group.map (·.handle.extension)).map Extension.id :=
  (((sortBy_perm cmp Candidate.precedence group).map _).map _).mem_iff

/-- **What was made of all that were found joins**, and the watcher for listeners. If suppliers add
    none, then what hooks see meanwhile is made before all have joined: for what is made while a group
    is made comes before that group joins. -/
theorem Waves.gathers {cmp : Comparator} {names : List String} {spare : Prop}
    (waves : Waves (serve b depth view) b cmp names listeners T s s')
    (spares : spare → ∀ name expected u, (.extension name expected, u) ∈ T →
      Spares b depth view (.extension name expected, u)) :
    ∃ group : List (Candidate κ), (group.map Candidate.name).Perm names ∧
      (∀ c ∈ group, Made (serve b depth view) T c) ∧
      Gains spare (group.map (·.handle.extension) ++ [listeners]) s s' ∧
      (spare → (ids s.container).Nodup →
        Below (s.container.chain.length + names.length) s s') := by
  obtain @⟨priority, ordered, others, orderedNames, otherNames, T₁, T₂, T₃, J₁, J₂, J₃, J₄, P, P₁, P₂,
    P₃, P₄, P₅, P₆, P₇, s₁, s₂, s₃, s₄, s₅, s₆, s₇, first, firstJoin, second, secondJoin, third,
    thirdJoin, again, last, asked⟩ := waves
  have in_first {q : Request κ ι ω × State κ ι ω} (mem : q ∈ T₁) : q ∈ T :=
    asked (List.mem_append_left _ (List.mem_append_left _ mem))
  have in_second {q : Request κ ι ω × State κ ι ω} (mem : q ∈ T₂) : q ∈ T :=
    asked (List.mem_append_left _ (List.mem_append_right _ mem))
  have in_third {q : Request κ ι ω × State κ ι ω} (mem : q ∈ T₃) : q ∈ T :=
    asked (List.mem_append_right _ mem)
  obtain ⟨g₁, b₁⟩ := making_gathers first (split_making names)
    fun holds name expected u mem => spares holds name expected u (in_first mem)
  obtain ⟨c₂, e₂⟩ := join_joins firstJoin
  obtain ⟨g₃, b₃⟩ := making_gathers second (makeMembers_making orderedNames)
    fun holds name expected u mem => spares holds name expected u (in_second mem)
  obtain ⟨c₄, e₄⟩ := join_joins secondJoin
  obtain ⟨g₅, b₅⟩ := making_gathers third (makeMembers_making otherNames)
    fun holds name expected u mem => spares holds name expected u (in_third mem)
  obtain ⟨c₆, e₆⟩ := join_joins thirdJoin
  obtain ⟨c₇, e₇⟩ := join_joins again
  have c₈ : s'.container.chain = joined s₇.container.chain [listeners] := by
    rw [last]
    rfl
  have e₈ : ∃ events, s'.history = events ++ s₇.history ∧ sights events = [] :=
    ⟨[.announced _, .attached listeners], by rw [last]; rfl, rfl⟩
  have t₂ := g₁.trans (.of_joined c₂)
  have t₄ := t₂.trans (g₃.trans (.of_joined c₄))
  have t₆ := t₄.trans (g₅.trans (.of_joined c₆))
  have t₈ := t₆.trans ((Gains.of_joined c₇).trans (.of_joined c₈))
  obtain ⟨all, made⟩ := split_made first
  obtain ⟨rfl, ordered_made⟩ := makeMembers_made second
  obtain ⟨rfl, others_made⟩ := makeMembers_made third
  refine ⟨priority ++ ordered ++ others, ?_, fun c mem => ?_, t₈.congr fun n => ?_, ?_⟩
  · rwa [List.append_assoc, List.map_append, List.map_append]
  · simp only [List.mem_append] at mem
    rcases mem with (mem | mem) | mem
    · exact (made c mem).mono fun q => in_first
    · exact (ordered_made c mem).mono fun q => in_second
    · exact (others_made c mem).mono fun q => in_third
  · have more (mem : n ∈ ((((priority ++ ordered ++ others).filter (wantsMerged b))).map
        (·.handle.extension)).map Extension.id) :
        n ∈ ((priority ++ ordered ++ others).map (·.handle.extension)).map Extension.id :=
      ((List.filter_sublist.map _).map _).subset mem
    simp only [List.map_append, List.mem_append, List.nil_append, mem_ids_sort] at more ⊢
    rw [← or_assoc, or_iff_left_of_imp more]
  · intro holds distinct
    have l₂ := t₂.length_le holds distinct
    have l₄ := t₄.length_le holds distinct
    have sorted (group : List (Candidate κ)) : (Candidate.sort cmp group).length = group.length :=
      (sortBy_perm cmp Candidate.precedence group).length_eq
    have counts := all.length_eq
    simp only [List.length_append, List.length_nil, List.length_map, sorted] at l₂ l₄ counts
    have below₁ := b₁ holds distinct (s.container.chain.length + names.length) fun busy => by
      have some := split_busy first busy
      omega
    have below₃ := b₃ holds (t₂.distinct distinct) (s.container.chain.length + names.length)
      fun busy => by
        have some := makeMembers_busy second busy
        rw [List.length_map] at some
        omega
    have below₅ := b₅ holds (t₄.distinct distinct) (s.container.chain.length + names.length)
      fun busy => by
        have some := makeMembers_busy third busy
        rw [List.length_map] at some
        omega
    have below₂ := below₁.trans (below_of_unseen e₂)
    have below₄ := below₂.trans (below₃.trans (below_of_unseen e₄))
    have below₆ := below₄.trans (below₅.trans (below_of_unseen e₆))
    exact below₆.trans ((below_of_unseen e₇).trans (below_of_unseen e₈))

/-- No supplier that the phase has run makes the chain longer. -/
def NoneAdded (b : Behaviour κ ι ω) (depth : Nat) (view : View)
    (T : Asked κ ι ω (State κ ι ω)) : Prop :=
  ∀ name expected u, (.extension name expected, u) ∈ T →
    Spares b depth view (.extension name expected, u)

/-- **Phase 7 as a whole**: the watcher joins first, then the extensions of those that were found,
    then the watcher for listeners. What happens since the watcher has joined is a story; and if
    suppliers add none, all that hooks see meanwhile is made while the chain is shorter than the watcher
    waits for. -/
theorem runChainPhase_gathers
    (h : Returns (serve b depth view) (runChainPhase b listeners) P s T checker P' s') :
    ∃ group : List (Candidate κ),
      (group.map Candidate.name).Perm ((undealt s.container P).map Prod.fst) ∧
      (∀ c ∈ group, Made (serve b depth view) T c) ∧
      checker = watcher s.nextId (s.container.chain.length + 1 + (undealt s.container P).length) ∧
      Story b (∃ q ∈ T, HookFails b depth view q) (joinedBy s checker) s' ∧
      Gains (NoneAdded b depth view T) (group.map (·.handle.extension) ++ [listeners])
        (joinedBy s checker) s' ∧
      (NoneAdded b depth view T → (ids s.container).Nodup →
        Below (s.container.chain.length + 1 + (undealt s.container P).length)
          (joinedBy s checker) s') := by
  obtain ⟨T', among, checks, rest⟩ := runChainPhase_begins h
  obtain ⟨-, waves⟩ := afterWatcher_waves rest
  have spares : NoneAdded b depth view T → ∀ name expected u, (.extension name expected, u) ∈ T' →
      Spares b depth view (.extension name expected, u) :=
    fun none name expected u mem => none name expected u (among mem)
  obtain ⟨group, names, made, gains, below⟩ := waves.gathers spares
  have story : Story b (∃ q ∈ T, HookFails b depth view q) (joinedBy s checker) s' := by
    refine Story.mono ?_ (run_story rest.result)
    rintro ⟨q, asked, fails⟩
    exact ⟨q, among (rest.asked ▸ asked), fails⟩
  refine ⟨group, names, fun c mem => (made c mem).mono among, checks, story, gains,
    fun none distinct => ?_⟩
  obtain ⟨events, past, shorter⟩ := below none (distinct_join distinct checker)
  refine ⟨events, past, fun x mem => ?_⟩
  have short := shorter x mem
  have joins : (joinedBy s checker).container.chain.length ≤ s.container.chain.length + 1 := by
    have others := List.length_filter_le (fun other => other.id ≠ checker.id) s.container.chain
    unfold joinedBy attach
    rw [List.length_append, List.length_singleton]
    omega
  rw [List.length_map] at short
  omega

end Bootstrap

end ComponentContainer
