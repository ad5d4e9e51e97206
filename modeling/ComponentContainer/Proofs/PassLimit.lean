/-
  File:      ComponentContainer/Proofs/PassLimit.lean
  Subject:   A limit to the passes of phase 4 cuts a bootstrap short and changes nothing else.

  * `Same` -- two phases ask for the same and end the same way.
  * `Cut` -- a phase fails at its limit where the other one announces the next pass.
  * `passes_same`, `passes_cut` -- **phase 4 with a limit, beside phase 4 without one.**
  * `limit_only_cuts` -- **the same of phases 1 to 6 and of whole bootstraps.**
-/
import ComponentContainer.Proofs.Passes
import ComponentContainer.Proofs.TierBarrier

namespace ComponentContainer.Bootstrap

open Phase

variable {κ ι ω σ α β : Type} {serve : Program.Handler (factoryInterface κ ι ω) σ}
  {P P₁ P' : Processed} {s s₁ s' : σ} {T : Asked κ ι ω σ}

/-! ## 1. Runs that are the same -/

/-- Both phases ask for the same things in the same states, and end the same way: with the same
    outcome, names and state, or not at all. -/
structure Same (serve : Program.Handler (factoryInterface κ ι ω) σ) (x y : Phase κ ι ω α)
    (P : Processed) (s : σ) : Prop where
  result : result serve x P s = result serve y P s
  asked : asked serve x P s = asked serve y P s

namespace Same

variable {x y : Phase κ ι ω α} {f g : α → Phase κ ι ω β} {a : α}

theorem of_returns (hx : Returns serve x P s T a P' s') (hy : Returns serve y P s T a P' s') :
    Same serve x y P s := ⟨hx.result.trans hy.result.symm, hx.asked.trans hy.asked.symm⟩

/-- What comes after both. -/
theorem bind (h : Same serve x y P s) (f : α → Phase κ ι ω β) :
    Same serve (x >>= f) (y >>= f) P s := by
  constructor
  · rw [result_bind, result_bind, h.result]
  · rw [Phase.asked_bind, Phase.asked_bind, h.result, h.asked]

/-- What comes before both. -/
theorem after (hx : Yields serve x P s a P₁ s₁) (h : Same serve (f a) (g a) P₁ s₁) :
    Same serve (x >>= f) (x >>= g) P s := by
  constructor
  · rw [result_bind, result_bind, hx]
    exact h.result
  · rw [Phase.asked_bind, Phase.asked_bind, hx]
    exact congrArg _ h.asked

end Same

/-! ## 2. Runs that are cut -/

/-- The phase `x` fails at its limit `n`, with phases 1 to 4 for all its work, in the state in which
    `y`, having asked for the same so far, announces the pass beyond the limit; `done` passes were
    made before, and the other ones that the limit allows have been announced. -/
structure Cut (serve : Program.Handler (factoryInterface κ ι ω) σ) (n done : Nat)
    (x y : Phase κ ι ω α) (P : Processed) (s : σ) : Prop where
  cut : ∃ found P' s',
    result serve x P s = some ((.error (.passLimitExceeded n), P'), s') ∧
    asked serve x P s ++ [(.announce (.registryPass (n + 1) found), s')] <+: asked serve y P s
  announced : (announcedPasses (asked serve x P s)).map Prod.fst = List.range' (done + 1) (n - done)
  work : ∀ q ∈ asked serve x P s, RegistryWork q.1

namespace Cut

variable {n done : Nat} {x y : Phase κ ι ω α} {f g : α → Phase κ ι ω β} {a : α}

/-- What comes after both does not matter. -/
theorem bind (h : Cut serve n done x y P s) (f g : α → Phase κ ι ω β) :
    Cut serve n done (x >>= f) (y >>= g) P s := by
  obtain ⟨found, P', s', fails, goesOn⟩ := h.cut
  have same : asked serve (x >>= f) P s = asked serve x P s := by
    rw [Phase.asked_bind, fails]
    exact List.append_nil _
  refine ⟨⟨found, P', s', ?_, ?_⟩, ?_, ?_⟩
  · rw [result_bind, fails]
  · rw [same, Phase.asked_bind]
    exact goesOn.trans (List.prefix_append _ _)
  · rw [same]
    exact h.announced
  · rw [same]
    exact h.work

/-- What comes before both announces the passes before `done`. -/
theorem after {before : Nat} (hx : Yields serve x P s a P₁ s₁) (work : Only serve RegistryWork x)
    (announced : (announcedPasses (asked serve x P s)).map Prod.fst =
      List.range' (before + 1) (done - before))
    (ordered : before ≤ done ∧ done ≤ n) (h : Cut serve n done (f a) (g a) P₁ s₁) :
    Cut serve n before (x >>= f) (x >>= g) P s := by
  obtain ⟨found, P', s', fails, goesOn⟩ := h.cut
  have cutShort : asked serve (x >>= f) P s = asked serve x P s ++ asked serve (f a) P₁ s₁ := by
    rw [Phase.asked_bind, hx]
  refine ⟨⟨found, P', s', ?_, ?_⟩, ?_, ?_⟩
  · rw [result_bind, hx]
    exact fails
  · rw [cutShort, Phase.asked_bind, hx, List.append_assoc]
    exact (List.prefix_append_right_inj _).mpr goesOn
  · have start : before + 1 + (done - before) = done + 1 := by omega
    have length : n - before = done - before + (n - done) := by omega
    rw [cutShort, announcedPasses_append, List.map_append, announced, h.announced, length,
      ← List.range'_append_1, start]
  · rw [cutShort]
    exact fun q mem => (List.mem_append.mp mem).elim (work P s q) (h.work q)

/-- What comes before both announces no pass. -/
theorem after_quiet (hx : Yields serve x P s a P₁ s₁) (work : MadeOf PassWork x)
    (within : done ≤ n) (h : Cut serve n done (f a) (g a) P₁ s₁) :
    Cut serve n done (x >>= f) (x >>= g) P s := by
  refine h.after hx (work.mono fun _ h => h.1).only ?_ ⟨Nat.le_refl done, within⟩
  rw [announcedPasses_eq_nil (work.only P s), Nat.sub_self]
  rfl

end Cut

/-! ## 3. Phase 4 -/

variable {cmp : Comparator}

/-- A pass that the limit allows is one without a limit. -/
theorem pass_of_lt {n done : Nat} (h : done < n) :
    (pass cmp (some n) done : Phase κ ι ω (Option (List (Candidate κ)))) = pass cmp none done := by
  have allowed : ensureAllowed (some n) done = ensureAllowed none done := if_neg (by omega)
  unfold pass
  rw [allowed]

/-- A pass that finds nothing does not come to its limit. -/
theorem pass_none {limit limit' : Option Nat} {done : Nat}
    (h : Returns serve (pass cmp limit done) P s T none P' s') :
    Returns serve (pass cmp limit' done) P s T none P' s' := by
  obtain ⟨T₁, T₂, batch, P₁, s₁, h₁, h₂, rfl⟩ := h.of_bind
  refine h₁.bind ?_
  split at h₂
  · rename_i empty
    rw [if_pos empty]
    exact h₂
  · obtain ⟨T₃, T₄, u₁, P₂, s₂, -, h₄, rfl⟩ := h₂.of_bind
    cases runPass_yields h₄.result

/-- **A pass at the limit** finds its batch and fails, where without a limit it is announced. -/
theorem pass_cut {n : Nat} {batch : List (Candidate κ)}
    (h : Returns serve (pass cmp none n) P s T (some batch) P' s') :
    Cut serve n n (pass cmp (some n) n) (pass cmp none n) P s := by
  have work : ∀ q ∈ asked serve (collect cmp fun _ => true) P s, PassWork q.1 :=
    (collect_passWork cmp fun _ => true).only P s
  cases pass_cases serve cmp none n P s with
  | searched nothing asks ends => exact nomatch (ends _ _ _ h.result).1
  | refused found nonempty full asks fails => exact nomatch full.1
  | @run found P₁ s₁ search nonempty room asks goesOn =>
    cases pass_cases serve cmp (some n) n P s with
    | searched nothing => exact absurd (nothing _ _ _ search) nonempty
    | run search nonempty room => exact absurd (room n rfl) (Nat.lt_irrefl n)
    | refused search' nonempty full searched fails =>
        cases search.symm.trans search'
        cases full.1
        obtain ⟨rest, announced, -⟩ := asked_runPass serve n found P₁ s₁
        refine ⟨⟨found.length, P₁, s₁, fails, ?_⟩, ?_, ?_⟩
        · rw [searched, asks, announced]
          exact (List.prefix_append_right_inj _).mpr (List.prefix_cons_inj _ |>.mpr List.nil_prefix)
        · rw [searched, announcedPasses_eq_nil work, Nat.sub_self]
          rfl
        · rw [searched]
          exact fun q mem => (work q mem).1

/-- There are no fewer passes in the end than there were before. -/
theorem done_le_total {limit : Option Nat} {patience done : Nat} {found : Nat × List (Candidate κ)}
    (h : Yields serve (passes cmp limit patience done) P s found P' s') : done ≤ found.1 := by
  obtain ⟨batches, rest, -, -, -, total⟩ := passes_batches serve cmp limit patience done P s
  rw [(total h).1]
  exact Nat.le_add_right _ _

/-- **A limit that is not exceeded does not matter.** By induction on the passes of the run without a
    limit. -/
theorem passes_same {n patience patience' done : Nat} {found : Nat × List (Candidate κ)}
    (h : Returns serve (passes cmp none patience done) P s T found P' s') (few : found.1 ≤ n)
    (enough : found.1 < done + patience') :
    Returns serve (passes cmp (some n) patience' done) P s T found P' s' := by
  induction patience generalizing patience' done P s T found with
  | zero =>
      obtain ⟨T₁, T₂, answer, -⟩ := Returns.of_bind h
      exact nomatch answer
  | succ patience ih =>
      have started := done_le_total h.result
      rw [passes_succ] at h
      obtain ⟨T₁, T₂, batch, P₁, s₁, h₁, h₂, rfl⟩ := h.of_bind
      cases patience' with
      | zero => omega
      | succ patience' =>
        rw [passes_succ]
        cases batch with
        | none => exact (pass_none h₁).bind h₂
        | some batch =>
            obtain ⟨T₃, T₄, others, P₂, s₂, h₃, h₄, rfl⟩ := h₂.of_bind
            obtain ⟨rfl, rfl, rfl, rfl⟩ := h₄.of_pure
            have next := done_le_total h₃.result
            have first : Returns serve (pass cmp (some n) done) P s T₁ (some batch) P₁ s₁ := by
              rw [pass_of_lt (by simp only at few; omega)]
              exact h₁
            exact first.bind ((ih h₃ few (by simp only at enough; omega)).bind (.pure _ _ _))

/-- **A limit that is exceeded cuts phase 4**, after as many passes as it allows. By induction on the
    passes of the run without a limit. -/
theorem passes_cut {n patience patience' done : Nat} {found : Nat × List (Candidate κ)}
    (h : Returns serve (passes cmp none patience done) P s T found P' s') (many : n < found.1)
    (started : done ≤ n) (enough : n < done + patience') :
    Cut serve n done (passes cmp (some n) patience' done) (passes cmp none patience done) P s := by
  induction patience generalizing patience' done P s T found with
  | zero =>
      obtain ⟨T₁, T₂, answer, -⟩ := Returns.of_bind h
      exact nomatch answer
  | succ patience ih =>
      rw [passes_succ] at h
      obtain ⟨T₁, T₂, batch, P₁, s₁, h₁, h₂, rfl⟩ := h.of_bind
      cases patience' with
      | zero => omega
      | succ patience' =>
        rw [passes_succ, passes_succ]
        cases batch with
        | none =>
            obtain ⟨-, rfl, -⟩ := h₂.of_pure
            simp only at many
            omega
        | some batch =>
            obtain rfl | room := Nat.eq_or_lt_of_le started
            · exact (pass_cut h₁).bind _ _
            · obtain ⟨T₃, T₄, others, P₂, s₂, h₃, h₄, rfl⟩ := h₂.of_bind
              obtain ⟨-, rfl, rfl, rfl⟩ := h₄.of_pure
              have later : Cut serve n (done + 1) (passes cmp (some n) patience' (done + 1))
                  (passes cmp none patience (done + 1)) P₁ s₁ := ih h₃ many room (by omega)
              have announced : (announcedPasses (asked serve (pass cmp none done) P s)).map Prod.fst =
                  [done + 1] := by
                obtain ⟨rest, -, nothing⟩ | ⟨names, first, -⟩ := pass_batches serve cmp none done P s
                · exact nomatch (nothing h₁.result).1
                · rw [first.announced]
                  rfl
              rw [pass_of_lt room]
              refine Cut.after h₁.result ((pass_madeOf cmp none done).mono fun _ h => h.1).only ?_
                ⟨Nat.le_succ done, room⟩ (later.bind _ _)
              rw [announced, show done.succ - done = 1 by omega]
              rfl

/-! ## 4. Whole bootstraps -/

section Bootstraps

variable (b : Behaviour κ ι ω) (patience : Nat) (external : List (Handle κ))

/-- Phases 1 to 4, with what comes before them: the comparator, the passes, and all that was found. -/
def throughPhase4 (options : Options) :
    Phase κ ι ω (Comparator × Nat × List (Candidate κ)) := do
  let cmp ← comparator
  demand (pure (ensureCapable b external))
  let found ← runRegistryPhases b cmp patience options external
  return (cmp, found)

/-- Phases 5 and 6. -/
def fromPhase5 (made : Comparator × Nat × List (Candidate κ)) : Phase κ ι ω Stats := do
  let (registry, regular) ← runOwnHooks b external made.2.2
  let rest ← runRemaining b made.1
  ask .clearMerged
  announce (.factoryPhasesDone registry (registry + regular + rest))
  return ⟨made.2.1, registry + regular + rest⟩

/-- **Only phases 1 to 4 know of the limit.** -/
theorem factoryPhases_eq (options : Options) : runFactoryPhases b patience options external =
    throughPhase4 b patience external options >>= fromPhase5 b external := by
  unfold runFactoryPhases throughPhase4 fromPhase5
  simp only [bind_assoc, pure_bind]

/-- Without a limit, phase 4 takes `k` passes and ends without a failure. -/
def GetsThrough (serve : Program.Handler (factoryInterface κ ι ω) σ) (P : Processed) (s : σ)
    (k : Nat) : Prop :=
  ∃ cmp found P' s', Yields serve (throughPhase4 b patience external {}) P s (cmp, k, found) P' s'

/-- The passes of phase 4 without a limit, computed. -/
def passesTaken (serve : Program.Handler (factoryInterface κ ι ω) σ) (P : Processed) (s : σ) :
    Option Nat :=
  match result serve (throughPhase4 b patience external {}) P s with
  | some ((.ok made, _), _) => some made.2.1
  | _ => none

variable {b patience external}

theorem getsThrough_of_computed {k : Nat} (h : passesTaken b patience external serve P s = some k) :
    GetsThrough b patience external serve P s k := by
  unfold passesTaken at h
  split at h
  · rename_i made P' s' hr
    cases h
    exact ⟨made.1, made.2.2, P', s', hr⟩
  · cases h

/-- What phases 1 to 4 have done before the passes, with any limit. -/
theorem throughPhase4_cases {k : Nat} (through : GetsThrough b patience external serve P s k)
    (n : Nat) :
    (k ≤ n → Same serve (throughPhase4 b patience external ⟨some n⟩)
      (throughPhase4 b patience external {}) P s) ∧
    (n < k → Cut serve n 0 (throughPhase4 b patience external ⟨some n⟩)
      (throughPhase4 b patience external {}) P s) := by
  obtain ⟨cmp, found, P', s', h⟩ := through
  obtain ⟨T₁, R₁, cmp, P₁, s₁, h₁, r₁, -⟩ := Returns.of_bind ⟨h, rfl⟩
  obtain ⟨T₂, R₂, u, P₂, s₂, h₂, r₂, -⟩ := r₁.of_bind
  obtain ⟨T₃, R₃, made, P₃, s₃, h₃, r₃, -⟩ := r₂.of_bind
  obtain ⟨-, same, -, -⟩ := r₃.of_pure
  obtain ⟨T₄, R₄, u₄, P₄, s₄, h₄, r₄, -⟩ := h₃.of_bind
  obtain ⟨T₅, R₅, priority, P₅, s₅, h₅, r₅, -⟩ := r₄.of_bind
  obtain ⟨T₆, R₆, ordered, P₆, s₆, h₆, r₆, -⟩ := r₅.of_bind
  obtain ⟨T₇, R₇, others, P₇, s₇, h₇, r₇, -⟩ := r₆.of_bind
  obtain ⟨-, rfl, -, -⟩ := r₇.of_pure
  obtain rfl : others.1 = k := congrArg (·.2.1) same
  constructor
  · intro few
    have passes : Same serve (passes cmp (some n) (n + 1) 0) (passes cmp none patience 0) P₆ s₆ :=
      .of_returns (passes_same h₇ few (by omega)) h₇
    refine .after h₁.result (.after h₂.result (.bind ?_ _))
    exact .after h₄.result (.after h₅.result (.after h₆.result (passes.bind _)))
  · intro many
    have passes : Cut serve n 0 (passes cmp (some n) (n + 1) 0) (passes cmp none patience 0) P₆ s₆ :=
      passes_cut h₇ many (Nat.zero_le n) (by omega)
    have supplied : MadeOf PassWork (runSupplied b external) :=
      (runSupplied_hookWork b external).mono fun _ h => h.1
    refine .after_quiet h₁.result (comparator_madeOf ⟨.comparator, rfl, nofun⟩) (Nat.zero_le n) ?_
    refine .after_quiet h₂.result (.outcome _) (Nat.zero_le n) (.bind ?_ _ _)
    refine .after_quiet h₄.result supplied (Nat.zero_le n) ?_
    refine .after_quiet h₅.result (registryPhase_passWork cmp _) (Nat.zero_le n) ?_
    exact .after_quiet h₆.result (registryPhase_passWork cmp _) (Nat.zero_le n) (passes.bind _ _)

/-- **The limit only cuts.** Let phase 4 take `k` passes without a limit. With a limit of at least
    that, phases 1 to 6 and the whole bootstrap ask for the same things in the same states and end
    the same way: with the same outcome and counts, names and state. With a lower limit they fail for
    it, after as many passes as it allows, where the run without a limit announces the next pass; up
    to there they have asked for the same things, so for the same registry hooks, and for nothing
    that is not the work of phases 1 to 4. -/
theorem limit_only_cuts {k : Nat} (through : GetsThrough b patience external serve P s k)
    (n : Nat) :
    (k ≤ n →
      Same serve (runFactoryPhases b patience ⟨some n⟩ external)
        (runFactoryPhases b patience {} external) P s ∧
      Same serve (phases b patience ⟨some n⟩ external) (phases b patience {} external) P s) ∧
    (n < k →
      Cut serve n 0 (runFactoryPhases b patience ⟨some n⟩ external)
        (runFactoryPhases b patience {} external) P s ∧
      Cut serve n 0 (phases b patience ⟨some n⟩ external) (phases b patience {} external) P s) := by
  obtain ⟨same, cut⟩ := throughPhase4_cases through n
  constructor
  · intro few
    have half : Same serve (runFactoryPhases b patience ⟨some n⟩ external)
        (runFactoryPhases b patience {} external) P s := by
      rw [factoryPhases_eq, factoryPhases_eq]
      exact (same few).bind _
    exact ⟨half, half.bind _⟩
  · intro many
    have half : Cut serve n 0 (runFactoryPhases b patience ⟨some n⟩ external)
        (runFactoryPhases b patience {} external) P s := by
      rw [factoryPhases_eq, factoryPhases_eq]
      exact (cut many).bind _ _
    exact ⟨half, half.bind _ _⟩

end Bootstraps

/-- Where the hook of the first post-processor registers another one, phase 4 takes two passes: a
    limit of two changes nothing, and a limit of one cuts the second pass. -/
theorem expecting_cut :
    GetsThrough promoting 3 [] (Container.serve promoting 1 .full) .empty expecting 2 ∧
    Same (Container.serve promoting 1 .full) (phases promoting 3 ⟨some 2⟩ [])
      (phases promoting 3 {} []) .empty expecting ∧
    Cut (Container.serve promoting 1 .full) 1 0 (phases promoting 3 ⟨some 1⟩ [])
      (phases promoting 3 {} []) .empty expecting :=
  have through : GetsThrough promoting 3 [] (Container.serve promoting 1 .full) .empty expecting 2 :=
    getsThrough_of_computed (by decide +kernel)
  ⟨through, ((limit_only_cuts through 2).1 (Nat.le_refl 2)).2,
    ((limit_only_cuts through 1).2 (Nat.lt_succ_self 1)).2⟩

end ComponentContainer.Bootstrap
