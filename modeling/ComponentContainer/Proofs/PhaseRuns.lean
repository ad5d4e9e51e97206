/-
  File:      ComponentContainer/Proofs/PhaseRuns.lean
  Subject:   How the phases of a bootstrap run, and what they ask for on their way.

  * `Program.asked` -- the requests a run makes, each with the state it is made in; the last one
    may be a request that is never answered.
  * `Phase.result`, `Phase.asked` -- how a phase ends, and what it asks for, from the names dealt
    with so far and a state.
  * `Phase.Returns` -- both at once, for a phase that ends without a failure.
  * `result_bind`, `asked_bind`, `Returns.of_bind` -- **a sequence of phases is opened by these and
    by nothing else**; the other lemmas say what the single requests do.
-/
import ComponentContainer.Bootstrap.Phase

namespace ComponentContainer

/-! ## 1. What a run asks for -/

namespace Program

variable {I : Interface} {α β σ : Type}

/-- The requests a run makes, in order, each with the state it is made in. The last one may be a
    request that is never answered. -/
def asked (serve : Handler I σ) : Program I α → σ → List (I.Request × σ)
  | .done _, _ => []
  | .ask r next, s =>
    (r, s) :: match serve r s with
      | none => []
      | some (answer, s') => (next answer).asked serve s'

theorem asked_bind (serve : Handler I σ) (p : Program I α) (f : α → Program I β) (s : σ) :
    (p >>= f).asked serve s = p.asked serve s ++
      match p.run serve s with
      | none => []
      | some (a, s') => (f a).asked serve s' := by
  induction p generalizing s with
  | done a => rfl
  | ask r next ih =>
      rw [ask_bind, asked, asked, run]
      cases serve r s with
      | none => rfl
      | some answered => exact congrArg _ (ih answered.1 answered.2)

theorem asked_request (serve : Handler I σ) (r : I.Request) (s : σ) :
    (request r).asked serve s = [(r, s)] := by
  unfold request asked
  cases serve r s <;> rfl

theorem run_request (serve : Handler I σ) (r : I.Request) (s : σ) :
    (request r).run serve s = serve r s := by
  unfold request run
  cases serve r s <;> rfl

/-- **A relation that all answers of a run keep holds between its ends.** -/
theorem run_of_asked {R : σ → σ → Prop} (refl : ∀ s, R s s)
    (trans : ∀ {s s' s''}, R s s' → R s' s'' → R s s'') {serve : Handler I σ} {p : Program I α}
    {s s' : σ} {a : α}
    (h : ∀ q ∈ p.asked serve s, ∀ {answer t}, serve q.1 q.2 = some (answer, t) → R q.2 t)
    (hrun : p.run serve s = some (a, s')) : R s s' := by
  induction p generalizing s with
  | done b =>
      cases hrun
      exact refl _
  | ask r next ih =>
      rw [run] at hrun
      rw [asked] at h
      rcases hr : serve r s with _ | ⟨answer, s₁⟩
      · rw [hr] at hrun
        cases hrun
      · rw [hr] at hrun h
        refine trans (h (r, s) List.mem_cons_self hr) (ih answer (fun q hq => ?_) hrun)
        exact h q (List.mem_cons_of_mem _ hq)

/-- **An invariant that all answers of a run keep holds wherever it asks for something, and at its
    end.** -/
theorem invariant_of_asked {inv : σ → Prop} {serve : Handler I σ} {p : Program I α} {s : σ}
    (h : ∀ q ∈ p.asked serve s, inv q.2 → ∀ {answer t}, serve q.1 q.2 = some (answer, t) → inv t)
    (hs : inv s) :
    (∀ q ∈ p.asked serve s, inv q.2) ∧ ∀ {a s'}, p.run serve s = some (a, s') → inv s' := by
  induction p generalizing s with
  | done b =>
      refine ⟨fun q hq => absurd hq List.not_mem_nil, fun hrun => ?_⟩
      cases hrun
      exact hs
  | ask r next ih =>
      rw [asked] at h ⊢
      rw [run]
      have first {answer t} (hr : serve r s = some (answer, t)) : inv t :=
        h (r, s) List.mem_cons_self hs hr
      rcases hr : serve r s with _ | ⟨answer, s₁⟩
      · refine ⟨List.forall_mem_cons.mpr ⟨hs, fun q hq => absurd hq List.not_mem_nil⟩, fun hrun => ?_⟩
        cases hrun
      · rw [hr] at h
        obtain ⟨asks, ends⟩ := ih answer (fun q hq => h q (List.mem_cons_of_mem _ hq)) (first hr)
        exact ⟨List.forall_mem_cons.mpr ⟨hs, asks⟩, ends⟩

/-- A run all of whose requests are answered has an end. -/
theorem ends_of_answered {serve : Handler I σ} {p : Program I α} {s : σ}
    (h : ∀ q ∈ p.asked serve s, ∃ answered, serve q.1 q.2 = some answered) :
    ∃ ended, p.run serve s = some ended := by
  induction p generalizing s with
  | done b => exact ⟨_, rfl⟩
  | ask r next ih =>
      rw [asked] at h
      rw [run]
      obtain ⟨⟨answer, s₁⟩, hr⟩ := h (r, s) List.mem_cons_self
      rw [hr] at h ⊢
      exact ih answer fun q hq => h q (List.mem_cons_of_mem _ hq)

end Program

/-! ## 2. What a phase asks for, and how it ends -/

namespace Phase

variable {κ ι ω σ α β : Type} {serve : Program.Handler (factoryInterface κ ι ω) σ}

/-- The requests of a phase, each with the state it is made in. -/
abbrev Asked (κ ι ω σ : Type) := List (Request κ ι ω × σ)

/-- How a phase ends, if it ends: its outcome, the names dealt with, and the state. -/
def result (serve : Program.Handler (factoryInterface κ ι ω) σ) (x : Phase κ ι ω α)
    (P : Processed) (s : σ) : Option ((Except Failure α × Processed) × σ) :=
  (perform x P).run serve s

/-- What a phase asks for. -/
def asked (serve : Program.Handler (factoryInterface κ ι ω) σ) (x : Phase κ ι ω α)
    (P : Processed) (s : σ) : Asked κ ι ω σ :=
  (perform x P).asked serve s

/-- A sequence, as a program: a failure of its first part ends it. -/
theorem perform_bind (x : Phase κ ι ω α) (f : α → Phase κ ι ω β) (P : Processed) :
    perform (x >>= f) P = perform x P >>= fun ended =>
      match ended with
      | (.ok a, P') => perform (f a) P'
      | (.error failure, P') => .done (.error failure, P') := by
  show (perform x P >>= _) = _
  congr 1
  funext ended
  obtain ⟨outcome, P'⟩ := ended
  cases outcome <;> rfl

theorem result_bind (x : Phase κ ι ω α) (f : α → Phase κ ι ω β) (P : Processed) (s : σ) :
    result serve (x >>= f) P s =
      match result serve x P s with
      | none => none
      | some ((.ok a, P'), s') => result serve (f a) P' s'
      | some ((.error failure, P'), s') => some ((.error failure, P'), s') := by
  unfold result
  rw [perform_bind, Program.run_bind]
  rcases (perform x P).run serve s with _ | ⟨⟨_ | _, _⟩, _⟩ <;> rfl

theorem asked_bind (x : Phase κ ι ω α) (f : α → Phase κ ι ω β) (P : Processed) (s : σ) :
    asked serve (x >>= f) P s = asked serve x P s ++
      match result serve x P s with
      | some ((.ok a, P'), s') => asked serve (f a) P' s'
      | _ => [] := by
  unfold asked result
  rw [perform_bind, Program.asked_bind]
  rcases (perform x P).run serve s with _ | ⟨⟨_ | _, _⟩, _⟩ <;> rfl

@[simp] theorem result_pure (a : α) (P : Processed) (s : σ) :
    result serve (pure a : Phase κ ι ω α) P s = some ((.ok a, P), s) := rfl

@[simp] theorem asked_pure (a : α) (P : Processed) (s : σ) :
    asked serve (pure a : Phase κ ι ω α) P s = [] := rfl

@[simp] theorem result_throw (failure : Failure) (P : Processed) (s : σ) :
    result serve (throw failure : Phase κ ι ω α) P s = some ((.error failure, P), s) := rfl

@[simp] theorem asked_throw (failure : Failure) (P : Processed) (s : σ) :
    asked serve (throw failure : Phase κ ι ω α) P s = [] := rfl

@[simp] theorem result_get (P : Processed) (s : σ) :
    result serve (get : Phase κ ι ω Processed) P s = some ((.ok P, P), s) := rfl

@[simp] theorem asked_get (P : Processed) (s : σ) :
    asked serve (get : Phase κ ι ω Processed) P s = [] := rfl

@[simp] theorem result_modify (f : Processed → Processed) (P : Processed) (s : σ) :
    result serve (modify f : Phase κ ι ω PUnit) P s = some ((.ok ⟨⟩, f P), s) := rfl

@[simp] theorem asked_modify (f : Processed → Processed) (P : Processed) (s : σ) :
    asked serve (modify f : Phase κ ι ω PUnit) P s = [] := rfl

theorem perform_ask (r : Request κ ι ω) (P : Processed) :
    perform (ask r) P = .ask r fun answer => .done (.ok answer, P) := rfl

theorem result_ask (r : Request κ ι ω) (P : Processed) (s : σ) :
    result serve (ask r) P s =
      match serve r s with
      | none => none
      | some (answer, s') => some ((.ok answer, P), s') := by
  unfold result
  rw [perform_ask, Program.run]
  cases serve r s <;> rfl

theorem asked_ask (r : Request κ ι ω) (P : Processed) (s : σ) :
    asked serve (ask r) P s = [(r, s)] := by
  unfold asked
  rw [perform_ask, Program.asked]
  cases serve r s <;> rfl

theorem result_demand (p : FactoryProgram κ ι ω (Except Failure α)) (P : Processed) (s : σ) :
    result serve (demand p) P s =
      match p.run serve s with
      | none => none
      | some (outcome, s') => some ((outcome, P), s') := by
  show (p >>= fun outcome => .done (outcome, P)).run serve s = _
  rw [Program.run_bind]
  cases p.run serve s <;> rfl

theorem asked_demand (p : FactoryProgram κ ι ω (Except Failure α)) (P : Processed) (s : σ) :
    asked serve (demand p) P s = p.asked serve s := by
  show (p >>= fun outcome => .done (outcome, P)).asked serve s = _
  rw [Program.asked_bind]
  cases p.run serve s <;> simp [Program.asked]

/-- The phase keeps the names dealt with, however it ends. -/
def KeepsNames (serve : Program.Handler (factoryInterface κ ι ω) σ) (x : Phase κ ι ω α) : Prop :=
  ∀ ⦃P P' s s' outcome⦄, result serve x P s = some ((outcome, P'), s') → P = P'

namespace KeepsNames

theorem pure (a : α) : KeepsNames serve (Pure.pure a : Phase κ ι ω α) := by
  intro P P' s s' outcome h
  simp only [result_pure, Option.some.injEq, Prod.mk.injEq] at h
  exact h.1.2

theorem throw (failure : Failure) :
    KeepsNames serve (MonadExcept.throw failure : Phase κ ι ω α) := by
  intro P P' s s' outcome h
  simp only [result_throw, Option.some.injEq, Prod.mk.injEq] at h
  exact h.1.2

theorem get : KeepsNames serve (MonadState.get : Phase κ ι ω Processed) := by
  intro P P' s s' outcome h
  simp only [result_get, Option.some.injEq, Prod.mk.injEq] at h
  exact h.1.2

theorem ask (r : Request κ ι ω) : KeepsNames serve (Phase.ask r) := by
  intro P P' s s' outcome h
  rw [result_ask] at h
  rcases hs : serve r s with _ | ⟨answer, s₁⟩
  · rw [hs] at h
    cases h
  · rw [hs] at h
    simp only [Option.some.injEq, Prod.mk.injEq] at h
    exact h.1.2

theorem demand (p : FactoryProgram κ ι ω (Except Failure α)) :
    KeepsNames serve (Phase.demand p) := by
  intro P P' s s' outcome h
  rw [result_demand] at h
  rcases hs : p.run serve s with _ | ⟨ended, s₁⟩
  · rw [hs] at h
    cases h
  · rw [hs] at h
    simp only [Option.some.injEq, Prod.mk.injEq] at h
    exact h.1.2

theorem bind {x : Phase κ ι ω α} {f : α → Phase κ ι ω β} (hx : KeepsNames serve x)
    (hf : ∀ a, KeepsNames serve (f a)) : KeepsNames serve (x >>= f) := by
  intro P P' s s' outcome h
  rw [result_bind] at h
  rcases hr : result serve x P s with _ | ⟨⟨failure | a, P₁⟩, s₁⟩
  · rw [hr] at h
    cases h
  · rw [hr] at h
    simp only [Option.some.injEq, Prod.mk.injEq] at h
    exact (hx hr).trans h.1.2
  · rw [hr] at h
    exact (hx hr).trans (hf a h)

theorem forM {f : β → Phase κ ι ω PUnit} (hf : ∀ b, KeepsNames serve (f b)) (l : List β) :
    KeepsNames serve (l.forM f) := by
  induction l with
  | nil => exact pure _
  | cons b l ih => exact bind (hf b) fun _ => ih

end KeepsNames

/-! ## 3. Phases that end without a failure -/

/-- The phase, begun with the names `P` in the state `s`, asks for `T` and returns `a`; the names
    are then `P'` and the state `s'`. -/
structure Returns (serve : Program.Handler (factoryInterface κ ι ω) σ) (x : Phase κ ι ω α)
    (P : Processed) (s : σ) (T : Asked κ ι ω σ) (a : α) (P' : Processed) (s' : σ) : Prop where
  result : result serve x P s = some ((.ok a, P'), s')
  asked : asked serve x P s = T

namespace Returns

variable {x : Phase κ ι ω α} {f : α → Phase κ ι ω β} {P P' P₁ : Processed} {s s' s₁ : σ}
  {T T₁ T₂ : Asked κ ι ω σ} {a : α} {b : β}

/-- **A sequence that returns consists of two parts that return.** -/
theorem of_bind (h : Returns serve (x >>= f) P s T b P' s') :
    ∃ T₁ T₂ a P₁ s₁, Returns serve x P s T₁ a P₁ s₁ ∧
      Returns serve (f a) P₁ s₁ T₂ b P' s' ∧ T = T₁ ++ T₂ := by
  obtain ⟨hr, ht⟩ := h
  rw [result_bind] at hr
  rw [asked_bind] at ht
  rcases hx : Phase.result serve x P s with _ | ⟨⟨failure | a, P₁⟩, s₁⟩
  · rw [hx] at hr
    cases hr
  · rw [hx] at hr
    cases hr
  · rw [hx] at hr ht
    exact ⟨_, _, a, P₁, s₁, ⟨hx, rfl⟩, ⟨hr, rfl⟩, ht.symm⟩

/-- Two parts that return are a sequence that returns. -/
theorem bind (hx : Returns serve x P s T₁ a P₁ s₁) (hf : Returns serve (f a) P₁ s₁ T₂ b P' s') :
    Returns serve (x >>= f) P s (T₁ ++ T₂) b P' s' := by
  constructor
  · rw [result_bind, hx.result]
    exact hf.result
  · rw [asked_bind, hx.result, hx.asked, ← hf.asked]

/-- A sequence: its first part does not return, and nothing follows; or the second part begins where
    the first has returned. -/
theorem bind_cases (serve : Program.Handler (factoryInterface κ ι ω) σ) (x : Phase κ ι ω α)
    (f : α → Phase κ ι ω β) (P : Processed) (s : σ) :
    (Phase.asked serve (x >>= f) P s = Phase.asked serve x P s ∧
      ∀ {b P' s'}, Phase.result serve (x >>= f) P s ≠ some ((.ok b, P'), s')) ∨
    ∃ a P₁ s₁, Returns serve x P s (Phase.asked serve x P s) a P₁ s₁ ∧
      Phase.asked serve (x >>= f) P s =
        Phase.asked serve x P s ++ Phase.asked serve (f a) P₁ s₁ ∧
      Phase.result serve (x >>= f) P s = Phase.result serve (f a) P₁ s₁ := by
  rw [asked_bind, result_bind]
  rcases hr : Phase.result serve x P s with _ | ⟨⟨_ | a, P₁⟩, s₁⟩
  · exact Or.inl ⟨List.append_nil _, nofun⟩
  · exact Or.inl ⟨List.append_nil _, nofun⟩
  · exact Or.inr ⟨a, P₁, s₁, ⟨hr, rfl⟩, rfl, rfl⟩

/-- What a sequence asks for: only what its first part asks for, or also what the second part asks
    for after the first has returned. -/
theorem asked_bind_cases (serve : Program.Handler (factoryInterface κ ι ω) σ)
    (x : Phase κ ι ω α) (f : α → Phase κ ι ω β) (P : Processed) (s : σ) :
    Phase.asked serve (x >>= f) P s = Phase.asked serve x P s ∨
      ∃ a P₁ s₁, Returns serve x P s (Phase.asked serve x P s) a P₁ s₁ ∧
        Phase.asked serve (x >>= f) P s = Phase.asked serve x P s ++ Phase.asked serve (f a) P₁ s₁ := by
  rcases bind_cases serve x f P s with ⟨h, -⟩ | ⟨a, P₁, s₁, hr, h, -⟩
  · exact Or.inl h
  · exact Or.inr ⟨a, P₁, s₁, hr, h⟩

/-- **A request of a sequence** is one of its first part, with the same requests before it; or its
    first part has returned, and it is one of the second part. -/
theorem asked_bind_cut {before after : Asked κ ι ω σ} {q : Request κ ι ω × σ}
    (h : Phase.asked serve (x >>= f) P s = before ++ q :: after) :
    (∃ rest, Phase.asked serve x P s = before ++ q :: rest) ∨
      ∃ a P₁ s₁ later, Returns serve x P s (Phase.asked serve x P s) a P₁ s₁ ∧
        before = Phase.asked serve x P s ++ later ∧
        Phase.asked serve (f a) P₁ s₁ = later ++ q :: after := by
  rcases asked_bind_cases serve x f P s with same | ⟨a, P₁, s₁, hr, both⟩
  · exact Or.inl ⟨after, same ▸ h⟩
  · rw [both] at h
    rcases List.append_eq_append_iff.mp h with ⟨later, first, second⟩ | ⟨rest, first, second⟩
    · exact Or.inr ⟨a, P₁, s₁, later, hr, first, second⟩
    · cases rest with
      | nil =>
          rw [List.append_nil] at first
          exact Or.inr ⟨a, P₁, s₁, [], hr, by rw [List.append_nil, first], second.symm⟩
      | cons q' rest =>
          cases second
          exact Or.inl ⟨rest, first⟩

theorem pure (a : α) (P : Processed) (s : σ) :
    Returns serve (Pure.pure a) P s [] a P s := ⟨rfl, rfl⟩

theorem of_pure {c : α} (h : Returns serve (Pure.pure c) P s T a P' s') :
    T = [] ∧ c = a ∧ P = P' ∧ s = s' := by
  obtain ⟨hr, ht⟩ := h
  simp only [result_pure, Option.some.injEq, Prod.mk.injEq, Except.ok.injEq] at hr
  exact ⟨ht.symm, hr.1.1, hr.1.2, hr.2⟩

theorem not_throw {failure : Failure} :
    ¬ Returns serve (throw failure : Phase κ ι ω α) P s T a P' s' := by
  rintro ⟨hr, -⟩
  rw [result_throw] at hr
  cases hr

theorem of_get {Q : Processed} (h : Returns serve get P s T Q P' s') :
    T = [] ∧ P = Q ∧ P = P' ∧ s = s' := by
  obtain ⟨hr, ht⟩ := h
  simp only [result_get, Option.some.injEq, Prod.mk.injEq, Except.ok.injEq] at hr
  exact ⟨ht.symm, hr.1.1, hr.1.2, hr.2⟩

theorem of_modify {g : Processed → Processed} {u : PUnit}
    (h : Returns serve (modify g) P s T u P' s') : T = [] ∧ g P = P' ∧ s = s' := by
  obtain ⟨hr, ht⟩ := h
  simp only [result_modify, Option.some.injEq, Prod.mk.injEq] at hr
  exact ⟨ht.symm, hr.1.2, hr.2⟩

theorem of_ask {r : Request κ ι ω} {answer : r.Answer}
    (h : Returns serve (ask r) P s T answer P' s') :
    T = [(r, s)] ∧ P = P' ∧ serve r s = some (answer, s') := by
  obtain ⟨hr, ht⟩ := h
  rw [result_ask] at hr
  rw [asked_ask] at ht
  rcases hs : serve r s with _ | ⟨answered, s₁⟩
  · rw [hs] at hr
    cases hr
  · rw [hs] at hr
    simp only [Option.some.injEq, Prod.mk.injEq, Except.ok.injEq] at hr
    obtain ⟨⟨rfl, rfl⟩, rfl⟩ := hr
    exact ⟨ht.symm, rfl, rfl⟩

theorem ask {r : Request κ ι ω} {answer : r.Answer} (h : serve r s = some (answer, s')) :
    Returns serve (Phase.ask r) P s [(r, s)] answer P s' :=
  ⟨by rw [result_ask, h], asked_ask r P s⟩

theorem of_demand {p : FactoryProgram κ ι ω (Except Failure α)}
    (h : Returns serve (demand p) P s T a P' s') :
    T = p.asked serve s ∧ P = P' ∧ p.run serve s = some (.ok a, s') := by
  obtain ⟨hr, ht⟩ := h
  rw [result_demand] at hr
  rw [asked_demand] at ht
  rcases hs : p.run serve s with _ | ⟨outcome, s₁⟩
  · rw [hs] at hr
    cases hr
  · rw [hs] at hr
    simp only [Option.some.injEq, Prod.mk.injEq] at hr
    obtain ⟨⟨rfl, rfl⟩, rfl⟩ := hr
    exact ⟨ht.symm, rfl, rfl⟩

theorem demand {p : FactoryProgram κ ι ω (Except Failure α)}
    (h : p.run serve s = some (.ok a, s')) :
    Returns serve (Phase.demand p) P s (p.asked serve s) a P s' :=
  ⟨by rw [result_demand, h], asked_demand p P s⟩

/-- What asks for nothing does nothing. -/
theorem still (h : Returns serve x P s [] a P' s') : s' = s := by
  have nothing : (perform x P).asked serve s = [] := h.asked
  refine Program.run_of_asked (R := fun s s' => s' = s) (fun _ => rfl)
    (fun h₁ h₂ => h₂.trans h₁) (fun q asked => ?_) h.result
  rw [nothing] at asked
  cases asked

theorem of_mapM_nil {f : β → Phase κ ι ω α} {out : List α}
    (h : Returns serve ([].mapM f) P s T out P' s') : T = [] ∧ [] = out ∧ P = P' ∧ s = s' := by
  rw [List.mapM_nil] at h
  exact h.of_pure

theorem of_mapM_cons {f : β → Phase κ ι ω α} {c : β} {l : List β} {out : List α}
    (h : Returns serve ((c :: l).mapM f) P s T out P' s') :
    ∃ T₁ T₂ a P₁ s₁ rest, Returns serve (f c) P s T₁ a P₁ s₁ ∧
      Returns serve (l.mapM f) P₁ s₁ T₂ rest P' s' ∧ out = a :: rest ∧ T = T₁ ++ T₂ := by
  rw [List.mapM_cons] at h
  obtain ⟨T₁, T₂, a, P₁, s₁, h₁, h₂, rfl⟩ := of_bind h
  obtain ⟨T₃, T₄, rest, P₂, s₂, h₃, h₄, rfl⟩ := of_bind h₂
  obtain ⟨rfl, rfl, rfl, rfl⟩ := h₄.of_pure
  exact ⟨T₁, T₃, a, P₁, s₁, rest, h₁, h₃, rfl, by rw [List.append_nil]⟩

end Returns

/-! ## 4. Phases all of whose requests have a property -/

/-- The phase, begun with the names `P` in the state `s`, returns `a`; the names are then `P'` and
    the state `s'`. -/
abbrev Yields (serve : Program.Handler (factoryInterface κ ι ω) σ) (x : Phase κ ι ω α)
    (P : Processed) (s : σ) (a : α) (P' : Processed) (s' : σ) : Prop :=
  result serve x P s = some ((.ok a, P'), s')

theorem Yields.bind {x : Phase κ ι ω α} {f : α → Phase κ ι ω β} {P P₁ P' : Processed}
    {s s₁ s' : σ} {a : α} {b : β} (hx : Yields serve x P s a P₁ s₁)
    (hf : Yields serve (f a) P₁ s₁ b P' s') : Yields serve (x >>= f) P s b P' s' := by
  unfold Yields
  rw [result_bind, hx]
  exact hf

/-- What follows a part that returns, in a sequence that returns. -/
theorem Yields.rest {x : Phase κ ι ω α} {f : α → Phase κ ι ω β} {P P₁ P' : Processed}
    {s s₁ s' : σ} {a : α} {b : β} (h : Yields serve (x >>= f) P s b P' s')
    (hx : Yields serve x P s a P₁ s₁) : Yields serve (f a) P₁ s₁ b P' s' := by
  unfold Yields at h
  rw [result_bind, hx] at h
  exact h

/-- The same, with what it asks for. -/
theorem Returns.rest {x : Phase κ ι ω α} {f : α → Phase κ ι ω β} {P P₁ P' : Processed}
    {s s₁ s' : σ} {T : Asked κ ι ω σ} {a : α} {b : β} (h : Returns serve (x >>= f) P s T b P' s')
    (hx : Yields serve x P s a P₁ s₁) :
    ∃ T', T' ⊆ T ∧ Returns serve (f a) P₁ s₁ T' b P' s' := by
  refine ⟨Phase.asked serve (f a) P₁ s₁, fun q hq => ?_, Yields.rest h.result hx, rfl⟩
  rw [← h.asked, asked_bind, hx]
  exact List.mem_append_right _ hq

theorem Yields.ask {r : Request κ ι ω} {P : Processed} {s s' : σ} {answer : r.Answer}
    (h : serve r s = some (answer, s')) : Yields serve (Phase.ask r) P s answer P s' := by
  unfold Yields
  rw [result_ask, h]

theorem Yields.demand {p : FactoryProgram κ ι ω (Except Failure α)} {P : Processed} {s s' : σ}
    {a : α} (h : p.run serve s = some (.ok a, s')) :
    Yields serve (Phase.demand p) P s a P s' := by
  unfold Yields
  rw [result_demand, h]

/-- All that the phase asks for satisfies `Q`. -/
def Asks (serve : Program.Handler (factoryInterface κ ι ω) σ) (Q : Request κ ι ω × σ → Prop)
    (x : Phase κ ι ω α) (P : Processed) (s : σ) : Prop :=
  ∀ q ∈ asked serve x P s, Q q

namespace Asks

variable {Q : Request κ ι ω × σ → Prop} {x : Phase κ ι ω α} {f : α → Phase κ ι ω β}
  {P P₁ : Processed} {s s₁ : σ}

theorem left (h : Asks serve Q (x >>= f) P s) : Asks serve Q x P s := fun q hq => h q <| by
  rw [asked_bind]
  exact List.mem_append_left _ hq

theorem right {a : α} (h : Asks serve Q (x >>= f) P s) (hx : Yields serve x P s a P₁ s₁) :
    Asks serve Q (f a) P₁ s₁ := fun q hq => h q <| by
  rw [asked_bind, hx]
  exact List.mem_append_right _ hq

theorem of_demand {p : FactoryProgram κ ι ω (Except Failure α)}
    (h : Asks serve Q (Phase.demand p) P s) : ∀ q ∈ p.asked serve s, Q q := fun q hq => h q <| by
  rw [asked_demand]
  exact hq

end Asks

/-! ## 5. Returning, computed -/

/-- The phase returns. -/
def returns (serve : Program.Handler (factoryInterface κ ι ω) σ) (x : Phase κ ι ω α)
    (P : Processed) (s : σ) : Bool :=
  match result serve x P s with
  | some ((.ok _, _), _) => true
  | _ => false

theorem exists_returns {x : Phase κ ι ω α} {P : Processed} {s : σ}
    (h : returns serve x P s = true) :
    ∃ a P' s', Returns serve x P s (asked serve x P s) a P' s' := by
  unfold returns at h
  split at h
  · rename_i a P' s' hr
    exact ⟨a, P', s', hr, rfl⟩
  · cases h

end Phase

end ComponentContainer
