/-
  File:      ComponentContainer/Proofs/ChainRuns.lean
  Subject:   Phase 7 where suppliers succeed and change neither the registry nor the chain.

  * `joined` -- the chain after extensions have joined it; `joined_of_nodup` -- they are its end,
    and have left their old places.
  * `Calm` -- nothing in a stretch of the history changes the registry or the chain.
  * `Grows` -- from one state to another some extensions have joined the chain, definitions have
    stayed as they are, and extensions may have been made; `Course.grows` -- **a calm course
    is such a stretch in which none joins.**
  * `Gentle` -- the supplier that a request runs succeeds calmly. It speaks of the requests of one
    run only, each in the state it is made in.
  * `split_gentle`, `makeMembers_gentle`, `join_grows` -- the parts of phase 7.
-/
import ComponentContainer.Bootstrap.ChainPhase
import ComponentContainer.Proofs.Course
import ComponentContainer.Proofs.PassiveRuns

namespace ComponentContainer

variable {κ ι ω α : Type}

/-! ## 1. Joining the chain -/

/-- The chain after extensions have joined it, one after the other. -/
def joined (chain l : List (Extension κ)) : List (Extension κ) :=
  l.foldl (fun chain e => chain.filter (fun other => other.id ≠ e.id) ++ [e]) chain

theorem joined_append (chain l l' : List (Extension κ)) :
    joined chain (l ++ l') = joined (joined chain l) l' := List.foldl_append

/-- **Extensions that are distinct are the end of the chain once they have joined it, in their
    order**; where they were in the chain before, they are no longer. -/
theorem joined_of_nodup {l : List (Extension κ)} (h : (l.map Extension.id).Nodup)
    (chain : List (Extension κ)) :
    joined chain l = chain.filter (fun e => e.id ∉ l.map Extension.id) ++ l := by
  induction l generalizing chain with
  | nil => exact ((List.append_nil _).trans (List.filter_eq_self.mpr fun _ _ => rfl)).symm
  | cons e l ih =>
      obtain ⟨hnew, hl⟩ := List.nodup_cons.mp h
      have hstays : [e].filter (fun other => other.id ∉ l.map Extension.id) = [e] :=
        List.filter_eq_self.mpr fun other ho => by
          rw [List.mem_singleton.mp ho]
          exact decide_eq_true hnew
      calc
        joined chain (e :: l) = joined (chain.filter (fun other => other.id ≠ e.id) ++ [e]) l := rfl
        _ = (chain.filter (fun other => other.id ≠ e.id)).filter
              (fun other => other.id ∉ l.map Extension.id) ++ [e] ++ l := by
            rw [ih hl, List.filter_append, hstays]
        _ = chain.filter (fun other => other.id ∉ (e :: l).map Extension.id) ++ (e :: l) := by
            rw [List.filter_filter, List.append_assoc]
            congr 1
            refine List.filter_congr fun other _ => ?_
            rw [List.map_cons, Bool.and_comm, ← Bool.decide_and, decide_eq_decide, List.mem_cons,
              not_or]

/-! ## 2. Calm stretches -/

/-- The event changes the registry or the chain. -/
def Event.isChange : Event κ ι → Bool
  | .registered _ => true
  | .removed _ => true
  | .edited _ _ => true
  | .attached _ => true
  | _ => false

/-- Nothing has changed the registry or the chain since. -/
def Calm (s s' : State κ ι ω) : Prop :=
  ∃ events, s'.history = events ++ s.history ∧ ∀ e ∈ events, e.isChange = false

theorem Calm.trans {s s' s'' : State κ ι ω} (h₁ : Calm s s') (h₂ : Calm s' s'') : Calm s s'' := by
  obtain ⟨events₁, he₁, hc₁⟩ := h₁
  obtain ⟨events₂, he₂, hc₂⟩ := h₂
  refine ⟨events₂ ++ events₁, ?_, ?_⟩
  · rw [he₂, he₁, List.append_assoc]
  · intro e he
    exact (List.mem_append.mp he).elim (hc₂ e) (hc₁ e)

/-- A part of a calm stretch is calm. -/
theorem Calm.between {s t t' s' : State κ ι ω} (calm : Calm s s') (h₁ : s.history <:+ t.history)
    (h₂ : t.history <:+ t'.history) (h₃ : t'.history <:+ s'.history) : Calm t t' := by
  obtain ⟨events, hevents, hcalm⟩ := calm
  obtain ⟨e₁, h₁⟩ := h₁
  obtain ⟨e₂, h₂⟩ := h₂
  obtain ⟨e₃, h₃⟩ := h₃
  have hsame : events = e₃ ++ (e₂ ++ e₁) := by
    refine (List.append_left_inj s.history).mp ?_
    rw [← hevents, ← h₃, ← h₂, ← h₁]
    simp only [List.append_assoc]
  refine ⟨e₂, h₂.symm, fun e he => hcalm e ?_⟩
  rw [hsame]
  exact List.mem_append_right _ (List.mem_append_left _ he)

/-- The latest event of a calm stretch is no change. -/
theorem Calm.latest {s s' : State κ ι ω} {e : Event κ ι} (calm : Calm s s')
    (h : s'.history = e :: s.history) : e.isChange = false := by
  obtain ⟨events, hevents, hcalm⟩ := calm
  have hsame : events = [e] := List.append_cancel_right (hevents.symm.trans h)
  exact hcalm e (hsame ▸ List.mem_singleton_self e)

namespace Container

open Attempt

variable {s s' s'' : State κ ι ω} {b : Behaviour κ ι ω} {l l' : List (Extension κ)}

/-! ## 3. What stays in a calm stretch -/

/-- The handle is of the family that the definition of the name asks for. -/
def Fits (s : State κ ι ω) (name : String) (h : Handle κ) : Prop :=
  ∃ d, s.container.definitions.find? name = some d ∧ d.kind = .postProcessor h.family

/-- From one state to another, the extensions `l` have joined the chain, and beside that nothing has
    happened but that things were made. -/
structure Grows (l : List (Extension κ)) (s s' : State κ ι ω) : Prop where
  definitions : s'.container.definitions = s.container.definitions
  chain : s'.container.chain = joined s.container.chain l
  creating : s'.container.creating = s.container.creating
  keeps ⦃name : String⦄ ⦃h : Handle κ⦄ (known : s.container.extensions.find? name = some h) :
    s'.container.extensions.find? name = some h
  made ⦃name : String⦄ ⦃h : Handle κ⦄ (known : s'.container.extensions.find? name = some h) :
    s.container.extensions.find? name = some h ∨ Fits s' name h

namespace Grows

theorem of_same (definitions : s'.container.definitions = s.container.definitions)
    (chain : s'.container.chain = joined s.container.chain l)
    (creating : s'.container.creating = s.container.creating)
    (extensions : s'.container.extensions = s.container.extensions) : Grows l s s' where
  definitions := definitions
  chain := chain
  creating := creating
  keeps _ _ known := extensions ▸ known
  made _ _ known := .inl (extensions ▸ known)

theorem refl (s : State κ ι ω) : Grows [] s s := of_same rfl rfl rfl rfl

theorem trans (h₁ : Grows l s s') (h₂ : Grows l' s' s'') : Grows (l ++ l') s s'' where
  definitions := h₂.definitions.trans h₁.definitions
  chain := by rw [h₂.chain, h₁.chain, joined_append]
  creating := h₂.creating.trans h₁.creating
  keeps name h known := h₂.keeps (h₁.keeps known)
  made name h known := by
    rcases h₂.made known with known | ⟨d, hd, hk⟩
    · rcases h₁.made known with known | ⟨d, hd, hk⟩
      · exact .inl known
      · exact .inr ⟨d, h₂.definitions ▸ hd, hk⟩
    · exact .inr ⟨d, hd, hk⟩

theorem ready (h : Grows l s s') (hr : Bootstrap.Ready s) : Bootstrap.Ready s' where
  idle := h.creating.trans hr.idle
  agrees name handle d hh hd := by
    rcases h.made hh with known | ⟨d', hd', hk⟩
    · exact hr.agrees known (h.definitions ▸ hd)
    · rw [hd, Option.some.injEq] at hd'
      exact hd' ▸ hk

/-- The making of something, around what happens in it. -/
theorem around {t t' : State κ ι ω} {name : String} (h : Grows [] t t')
    (begins : t.container = { s.container with creating := name :: s.container.creating })
    (ends : s'.container = { t'.container with
      creating := t'.container.creating.erase name, components := s'.container.components }) :
    Grows [] s s' where
  definitions := by rw [ends, h.definitions, begins]
  chain := by rw [ends, h.chain, begins]
  creating := by
    rw [ends, h.creating, begins]
    show (name :: s.container.creating).erase name = _
    rw [List.erase_cons_head]
  keeps name h' known := by
    rw [ends]
    exact h.keeps (by rw [begins]; exact known)
  made name h' known := by
    rw [ends] at known
    rcases h.made known with known | ⟨d, hd, hk⟩
    · rw [begins] at known
      exact .inl known
    · exact .inr ⟨d, by rw [ends]; exact hd, hk⟩

/-- A new extension under a name that had none. -/
theorem set {t : State κ ι ω} {name : String} {handle : Handle κ} {d : Definition κ}
    (h : Grows [] s t) (new : s.container.extensions.find? name = none)
    (found : s.container.definitions.find? name = some d)
    (kind : d.kind = .postProcessor handle.family)
    (ends : s'.container = { t.container with
      extensions := t.container.extensions.set name handle }) : Grows [] s s' where
  definitions := by rw [ends, h.definitions]
  chain := by rw [ends, h.chain]
  creating := by rw [ends, h.creating]
  keeps other h' known := by
    have hne : other ≠ name := by
      rintro rfl
      rw [new] at known
      cases known
    rw [ends, Table.find?_set, if_neg hne]
    exact h.keeps known
  made other h' known := by
    rw [ends, Table.find?_set] at known
    split at known
    · rename_i hother
      cases known
      subst hother
      exact .inr ⟨d, by rw [ends]; exact h.definitions ▸ found, kind⟩
    · rcases h.made known with known | ⟨d', hd, hk⟩
      · exact .inl known
      · exact .inr ⟨d', by rw [ends]; exact hd, hk⟩

end Grows

theorem Step.grows (h : Step s s') (calm : Calm s s') : Grows [] s s' := by
  cases h with
  | registered h => cases calm.latest rfl
  | removed h => cases calm.latest rfl
  | edited h => cases calm.latest rfl
  | attached e => cases calm.latest rfl
  | numbered => exact .of_same rfl rfl rfl rfl
  | announced n => exact .of_same rfl rfl rfl rfl
  | registryHook e => exact .of_same rfl rfl rfl rfl
  | factoryHook e => exact .of_same rfl rfl rfl rfl
  | world w => exact .of_same rfl rfl rfl rfl
  | merged new h => exact .of_same rfl rfl rfl rfl
  | cleared => exact .of_same rfl rfl rfl rfl

theorem grows_of_watched (h : Watched s s') : Grows [] s s' := by
  refine .of_same ?_ ?_ ?_ ?_ <;> rw [h.container]
  rfl

/-- **In a calm course nothing happens but that things are made.** The induction is on the course;
    the course of a supplier is a part of it, and so it is calm. -/
theorem Course.grows (h : Course b s s') (calm : Calm s s') : Grows [] s s' := by
  induction h with
  | refl s => exact .refl s
  | trans h₁ h₂ ih₁ ih₂ =>
      exact (ih₁ (calm.between (List.suffix_refl _) h₁.past h₂.past)).trans
        (ih₂ (calm.between h₁.past h₂.past (List.suffix_refl _)))
  | step h => exact h.grows calm
  | unmade _ shown => exact (grows_of_watched shown).around rfl rfl
  | @failed s s₁ s₂ s₃ name d idle supplies shown supply passed ih =>
      have before : s.history <:+ (supplied s₁ name d).history :=
        (List.suffix_cons _ _).trans (shown.past.trans (List.suffix_cons _ _))
      have after : s₂.history <:+ (ending s₃ name).history :=
        passed.past.trans (List.suffix_cons _ _)
      have inner := ih (calm.between before supply.past after)
      have begins : (supplied s₁ name d).container =
          { s.container with creating := name :: s.container.creating } := shown.container
      exact (inner.trans (grows_of_watched passed)).around begins rfl
  | @component s s₁ s₂ s₃ name m value idle new merged template kind run shown supply passed ih =>
      have before : s.history <:+ (supplied s₁ name m.definition).history :=
        (List.suffix_cons _ _).trans (shown.past.trans (List.suffix_cons _ _))
      have after : s₂.history <:+ (madeComponent s₃ name value).history :=
        passed.past.trans ⟨[_, _], rfl⟩
      have inner := ih (calm.between before supply.past after)
      have begins : (supplied s₁ name m.definition).container =
          { s.container with creating := name :: s.container.creating } := shown.container
      exact (inner.trans (grows_of_watched passed)).around begins rfl
  | @extension s s₁ name d family code idle new found kind run supply ih =>
      have before : s.history <:+ (supplying s name d).history := ⟨[_, _], rfl⟩
      have after (h : Handle κ) : s₁.history <:+ (made s₁ name h).history := ⟨[_, _, _], rfl⟩
      have inner := ih (calm.between before supply.past (after _))
      have whole : Grows [] s (ending s₁ name) := inner.around rfl rfl
      exact whole.set new found kind rfl

end Container

/-! ## 4. Gentle suppliers -/

namespace Bootstrap

open Phase Container

variable {b : Behaviour κ ι ω} {depth : Nat} {view : View} {s : State κ ι ω} {P : Processed}

/-- The supplier that a request for an extension runs succeeds, and changes neither the registry nor
    the chain. -/
def Gentle (b : Behaviour κ ι ω) (depth : Nat) : Request κ ι ω × State κ ι ω → Prop
  | (.extension name _, s) => ∀ d, s.container.definitions.find? name = some d →
      s.container.extensions.find? name = none →
        ∃ code s', nested b depth .full (b.build d.supplier) (supplying s name d) =
          some (.ok code, s') ∧ Calm (supplying s name d) s'
  | _ => True

/-- **A declared extension is made and stays**; it is of the family its definition names. -/
theorem serve_extension_gentle {name : String} {expected : Capability} {d : Definition κ}
    {family : PostProcessor} (hr : Ready s) (hd : s.container.definitions.find? name = some d)
    (hk : d.kind = .postProcessor family) (declares : d.declares expected = true)
    (gentle : Gentle b depth (.extension name expected, s)) :
    ∃ h s', serve b depth view (.extension name expected) s = some (.ok h, s') ∧
      h.family = family ∧ Grows [] s s' ∧ s'.container.extensions.find? name = some h := by
  cases hc : s.container.extensions.find? name with
  | some h =>
      have hfamily := hr.agrees hc hd
      rw [hk, Kind.postProcessor.injEq] at hfamily
      exact ⟨h, s, serve_extension_known hd declares hc, hfamily.symm, .refl s, hc⟩
  | none =>
      obtain ⟨code, s₁, supplied, calm⟩ := gentle d hd hc
      have idle : name ∉ s.container.creating := by
        rw [hr.idle]
        exact List.not_mem_nil
      have hserve : serve b depth view (.extension name expected) s = _ :=
        serve_extension_made hd hk declares hc idle supplied
      have begins : Calm s (supplying s name d) :=
        ⟨[.supplied name d, .began name], rfl, by simp [Event.isChange]⟩
      have ends (h : Handle κ) : Calm s₁ (made s₁ name h) :=
        ⟨[.madeExtension name h, .announced (.instantiated name h.family), .ended name], rfl,
          by simp [Event.isChange]⟩
      have calm := begins.trans (calm.trans (ends ⟨family, b.yielded code s₁.nextId⟩))
      refine ⟨_, _, hserve, rfl, (serve_course depth view _ s hserve).grows calm, ?_⟩
      show (Table.set _ _ _).find? name = _
      rw [Table.find?_set, if_pos rfl]

/-! ## 5. The parts of phase 7 -/

theorem makeMember_gentle {name : String} {d : Definition κ} (precedence : Precedence)
    (hr : Ready s) (hd : s.container.definitions.find? name = some d)
    (hk : d.kind = .postProcessor .component)
    (asks : Asks (serve b depth view) (Gentle b depth) (makeMember name precedence) P s) :
    ∃ h s', Yields (serve b depth view) (makeMember name precedence) P s ⟨name, precedence, h⟩ P
      s' ∧ Grows [] s s' ∧ s'.container.extensions.find? name = some h := by
  obtain ⟨h, s', hs, hfamily, grows, known⟩ :=
    serve_extension_gentle hr hd hk (declares_of_kind hk) (asks_extension asks.left.left)
  exact ⟨h, s', (extensionOf_yields hs hfamily).bind rfl, grows, known⟩

/-- The definitions of a group. -/
def inGroup (tier : Tier) (l : List (String × Definition κ)) : List (String × Definition κ) :=
  l.filter fun e => (standingOf e).tier == tier

/-- The names belong to component post-processors. -/
def Declared (s : State κ ι ω) (l : List (String × Definition κ)) : Prop :=
  ∀ e ∈ l, s.container.definitions.find? e.1 = some e.2 ∧ e.2.kind = .postProcessor .component

theorem Declared.later {joining : List (Extension κ)} {s' : State κ ι ω}
    {l : List (String × Definition κ)} (h : Declared s l) (g : Grows joining s s') :
    Declared s' l := fun e he => g.definitions ▸ h e he

theorem Declared.inGroup {l : List (String × Definition κ)} (h : Declared s l) (tier : Tier) :
    Declared s (inGroup tier l) := fun e he => h e (List.mem_filter.mp he).1

/-- **The walk through the names makes the priority group** and puts the other names off. -/
theorem split_gentle {l : List (String × Definition κ)} (hr : Ready s) (hl : Declared s l)
    (asks : Asks (serve b depth view) (Gentle b depth) (split (l.map Prod.fst)) P s) :
    ∃ batch s', Yields (serve b depth view) (split (l.map Prod.fst)) P s
      (batch, (inGroup .ordered l).map Prod.fst, (inGroup .unordered l).map Prod.fst) P s' ∧
      Grows [] s s' ∧ Found s' batch (inGroup .highest l) := by
  induction l generalizing s with
  | nil => exact ⟨[], s, rfl, .refl s, .nil⟩
  | cons e l ih =>
      obtain ⟨⟨hd, hk⟩, hrest⟩ := List.forall_mem_cons.mp hl
      have known : Yields (serve b depth view) (standing e.1) P s (standingOf e) P s :=
        standing_known hd
      have asks₁ := Asks.right asks known
      have hgroup (tier : Tier) : inGroup tier (e :: l) =
          if (standingOf e).tier == tier then e :: inGroup tier l else inGroup tier l :=
        List.filter_cons
      cases htier : (standingOf e).tier with
      | highest =>
          simp only [htier] at asks₁
          obtain ⟨h, s₁, y₁, g₁, hh⟩ := makeMember_gentle _ hr hd hk asks₁.left
          obtain ⟨batch, s', y, g, found⟩ := ih (g₁.ready hr)
            (fun e' he' => g₁.definitions ▸ hrest e' he') (asks₁.right y₁).left
          refine ⟨⟨e.1, standingOf e, h⟩ :: batch, s', known.bind ?_, g₁.trans g, ?_⟩
          · simp only [htier, hgroup]
            exact y₁.bind (y.bind rfl)
          · rw [hgroup, htier]
            exact found.cons (g.keeps hh)
      | ordered =>
          simp only [htier] at asks₁
          obtain ⟨batch, s', y, g, found⟩ := ih hr hrest asks₁.left
          refine ⟨batch, s', known.bind ?_, g, ?_⟩
          · simp only [htier, hgroup]
            exact y.bind rfl
          · rw [hgroup, htier]
            exact found
      | unordered =>
          simp only [htier] at asks₁
          obtain ⟨batch, s', y, g, found⟩ := ih hr hrest asks₁.left
          refine ⟨batch, s', known.bind ?_, g, ?_⟩
          · simp only [htier, hgroup]
            exact y.bind rfl
          · rw [hgroup, htier]
            exact found

/-- **A group that was put off is made**, with the standings of the definitions. -/
theorem makeMembers_gentle {l : List (String × Definition κ)} (hr : Ready s) (hl : Declared s l)
    (asks : Asks (serve b depth view) (Gentle b depth) (makeMembers (l.map Prod.fst)) P s) :
    ∃ batch s', Yields (serve b depth view) (makeMembers (l.map Prod.fst)) P s batch P s' ∧
      Grows [] s s' ∧ Found s' batch l := by
  unfold makeMembers at asks ⊢
  induction l generalizing s with
  | nil =>
      rw [List.map_nil, List.mapM_nil]
      exact ⟨[], s, rfl, .refl s, .nil⟩
  | cons e l ih =>
      obtain ⟨⟨hd, hk⟩, hrest⟩ := List.forall_mem_cons.mp hl
      rw [List.map_cons, List.mapM_cons] at asks ⊢
      have known : Yields (serve b depth view) (standing e.1) P s (standingOf e) P s :=
        standing_known hd
      obtain ⟨h, s₁, y₁, g₁, hh⟩ := makeMember_gentle _ hr hd hk (asks.left.right known)
      have y₁' := known.bind y₁
      obtain ⟨batch, s', y, g, found⟩ := ih (g₁.ready hr)
        (fun e' he' => g₁.definitions ▸ hrest e' he') (asks.right y₁').left
      exact ⟨_, s', y₁'.bind (y.bind rfl), g₁.trans g, found.cons (g.keeps hh)⟩

theorem attach_grows (b : Behaviour κ ι ω) (depth : Nat) (view : View) (s : State κ ι ω)
    (P : Processed) (e : Extension κ) :
    ∃ s', Yields (serve b depth view) (ask (.attach e)) P s () P s' ∧ Grows [e] s s' :=
  ⟨_, Yields.ask (serve_attach b depth view s e), .of_same rfl rfl rfl rfl⟩

/-- A group joins the chain in its order. -/
theorem join_grows (b : Behaviour κ ι ω) (depth : Nat) (view : View) (s : State κ ι ω)
    (P : Processed) (batch : List (Candidate κ)) :
    ∃ s', Yields (serve b depth view) (join batch) P s ⟨⟩ P s' ∧
      Grows (batch.map fun c => c.handle.extension) s s' := by
  unfold join
  induction batch generalizing s with
  | nil => exact ⟨s, rfl, .refl s⟩
  | cons c batch ih =>
      have y₁ := Yields.ask (P := P) (serve_announce b depth view s (.joining c.name))
      obtain ⟨s₂, y₂, g₂⟩ := attach_grows b depth view _ P c.handle.extension
      obtain ⟨s₃, y₃, g₃⟩ := ih s₂
      have g₁ : Grows [] s { s with history := .announced (.joining c.name) :: s.history } :=
        .of_same rfl rfl rfl rfl
      exact ⟨s₃, Yields.bind (Yields.bind y₁ y₂) y₃, g₁.trans (g₂.trans g₃)⟩

end Bootstrap

end ComponentContainer
