/-
  File:      ComponentContainer/Proofs/Additions.lean
  Subject:   The chain as a function of all that was ever added to it.

  * `additions` -- the extensions that have joined the chain, in order, read off the history.
  * `lastOfEach` -- a list without what comes again later, by identity; `joined_nil` -- **joining
    one after another leaves the last of each.**
  * `Attaches` -- the chain is what it was, joined by what was added since; `Course.attaches`,
    `Moment.attaches` -- **so it is after all courses, and at all moments of a run.**
  * `Visited` -- the states that a new container gets to, be it in the midst of a run.
  * `chain_is_last_of_each` -- **the chain is the last of each of all additions.**
-/
import Mathlib
import ComponentContainer.Proofs.Nesting
import ComponentContainer.Proofs.PrematureReports

namespace ComponentContainer

variable {κ ι ω α : Type}

/-! ## 1. The last of each -/

/-- The extension that an event adds to the chain. -/
def Event.addition? : Event κ ι → Option (Extension κ)
  | .attached e => some e
  | _ => none

/-- All that was added to the chain, in order. -/
def additions (history : List (Event κ ι)) : List (Extension κ) :=
  (history.filterMap Event.addition?).reverse

theorem additions_append (later earlier : List (Event κ ι)) :
    additions (later ++ earlier) = additions earlier ++ additions later := by
  unfold additions
  rw [List.filterMap_append, List.reverse_append]

/-- The list without what comes again later, by identity. -/
def lastOfEach : List (Extension κ) → List (Extension κ)
  | [] => []
  | e :: rest => if e.id ∈ rest.map Extension.id then lastOfEach rest else e :: lastOfEach rest

/-- **Of each identity, there is one left**: the identities are those that the library's removal of
    duplicates leaves. -/
theorem map_id_lastOfEach (l : List (Extension κ)) :
    (lastOfEach l).map Extension.id = (l.map Extension.id).dedup := by
  induction l with
  | nil => rfl
  | cons e rest ih =>
      rw [lastOfEach, List.map_cons]
      by_cases again : e.id ∈ rest.map Extension.id
      · rw [if_pos again, List.dedup_cons_of_mem again, ih]
      · rw [if_neg again, List.dedup_cons_of_notMem again, List.map_cons, ih]

/-- What comes last stays, and what it comes again for does not. -/
theorem lastOfEach_concat (l : List (Extension κ)) (e : Extension κ) :
    lastOfEach (l ++ [e]) = (lastOfEach l).filter (fun other => other.id ≠ e.id) ++ [e] := by
  induction l with
  | nil => rfl
  | cons a rest ih =>
      have among : a.id ∈ (rest ++ [e]).map Extension.id ↔
          a.id ∈ rest.map Extension.id ∨ a.id = e.id := by
        simp only [List.map_append, List.mem_append, List.map_cons, List.map_nil,
          List.mem_singleton]
      rw [List.cons_append, lastOfEach, lastOfEach, ih]
      by_cases again : a.id ∈ rest.map Extension.id
      · rw [if_pos (among.mpr (.inl again)), if_pos again]
      · rw [if_neg again]
        by_cases same : a.id = e.id
        · rw [if_pos (among.mpr (.inr same)), List.filter_cons_of_neg (by simp [same])]
        · rw [if_neg fun mem => (among.mp mem).elim again same,
            List.filter_cons_of_pos (by simp [same]), List.cons_append]

/-- **Joining one after another leaves the last of each.** -/
theorem joined_nil (l : List (Extension κ)) : joined [] l = lastOfEach l := by
  induction l using List.reverseRecOn with
  | nil => rfl
  | append_singleton l e ih =>
      rw [joined_append, ih, lastOfEach_concat]
      rfl

theorem joined_lastOfEach (l l' : List (Extension κ)) :
    joined (lastOfEach l) l' = lastOfEach (l ++ l') := by
  rw [← joined_nil, ← joined_append, joined_nil]

namespace Container

variable {b : Behaviour κ ι ω} {depth : Nat} {view : View} {s s' s'' t t' : State κ ι ω}
  {events : List (Event κ ι)}

/-! ## 2. What happens to the chain -/

/-- The chain is what it was, joined by what was added since. -/
def Attaches (s s' : State κ ι ω) : Prop :=
  ∃ events, s'.history = events ++ s.history ∧
    s'.container.chain = joined s.container.chain (additions events)

namespace Attaches

theorem of_quiet (events : List (Event κ ι)) (past : s'.history = events ++ s.history)
    (none : additions events = []) (chain : s'.container.chain = s.container.chain) :
    Attaches s s' := ⟨events, past, by rw [chain, none]; rfl⟩

theorem refl (s : State κ ι ω) : Attaches s s := .of_quiet [] rfl rfl rfl

theorem trans (h₁ : Attaches s s') (h₂ : Attaches s' s'') : Attaches s s'' := by
  obtain ⟨events₁, past₁, chain₁⟩ := h₁
  obtain ⟨events₂, past₂, chain₂⟩ := h₂
  refine ⟨events₂ ++ events₁, by rw [past₂, past₁, List.append_assoc], ?_⟩
  rw [chain₂, chain₁, additions_append, joined_append]

end Attaches

theorem attaches_of_watched (h : Watched s s') : Attaches s s' := by
  obtain ⟨events, past, watch⟩ := h.history
  refine .of_quiet events past ?_ (congrArg Container.chain h.container)
  have none : ∀ e ∈ events, e.addition? = Option.none := by
    intro e mem
    have only := watch e mem
    cases e <;> first | rfl | cases only
  rw [additions, List.filterMap_eq_nil_iff.mpr none, List.reverse_nil]

theorem Step.attaches (h : Step s s') : Attaches s s' := by
  cases h with
  | announced n => exact .of_quiet [_] rfl rfl rfl
  | registryHook e => exact .of_quiet [_] rfl rfl rfl
  | factoryHook e => exact .of_quiet [_] rfl rfl rfl
  | registered h =>
      refine .of_quiet [_] rfl rfl ?_
      obtain ⟨-, rfl⟩ | rfl := register_cases h
      · rfl
      · rfl
  | removed h =>
      refine .of_quiet [_] rfl rfl ?_
      rw [remove_eq h]
      rfl
  | edited h => exact .of_quiet [_] rfl rfl rfl
  | world w => exact .of_quiet [] rfl rfl rfl
  | numbered => exact .of_quiet [] rfl rfl rfl
  | merged new h => exact .of_quiet [_] rfl rfl rfl
  | attached e => exact ⟨[.attached e], rfl, rfl⟩
  | cleared => exact .of_quiet [] rfl rfl rfl

theorem attaches_beginning (s : State κ ι ω) (name : String) : Attaches s (beginning s name) :=
  .of_quiet [_] rfl rfl rfl

theorem attaches_supplied (s : State κ ι ω) (name : String) (d : Definition κ) :
    Attaches s (supplied s name d) := .of_quiet [_] rfl rfl rfl

theorem attaches_ending (s : State κ ι ω) (name : String) : Attaches s (ending s name) :=
  .of_quiet [_] rfl rfl rfl

/-- **After all courses the chain is what it was, joined by what was added since.** -/
theorem Course.attaches (h : Course b s s') : Attaches s s' := by
  induction h with
  | refl s => exact .refl s
  | trans _ _ ih₁ ih₂ => exact ih₁.trans ih₂
  | step h => exact h.attaches
  | unmade _ shown =>
      exact (attaches_beginning _ _).trans ((attaches_of_watched shown).trans (attaches_ending _ _))
  | failed _ _ shown _ passed ih =>
      have supplier := (attaches_supplied _ _ _).trans (ih.trans (attaches_of_watched passed))
      exact (attaches_beginning _ _).trans
        ((attaches_of_watched shown).trans (supplier.trans (attaches_ending _ _)))
  | component _ _ _ _ _ _ shown _ passed ih =>
      have supplier := (attaches_supplied _ _ _).trans (ih.trans (attaches_of_watched passed))
      refine (attaches_beginning _ _).trans ((attaches_of_watched shown).trans (supplier.trans ?_))
      exact .of_quiet [_, _] rfl rfl rfl
  | @extension s s₁ name d _ _ _ _ _ _ _ _ ih =>
      have begins : Attaches s (supplying s name d) := .of_quiet [_, _] rfl rfl rfl
      exact begins.trans (ih.trans (.of_quiet [_, _, _] rfl rfl rfl))

/-- **So it is at all moments of a run.** -/
theorem Moment.attaches {p : FactoryProgram κ ι ω α} {names : List String}
    (h : Moment b depth view p s names t) : Attaches s t :=
  h.keeps (I := Attaches s) (fun course before => before.trans course.attaches)
    (fun watched before => before.trans (attaches_of_watched watched))
    (fun before _ => before.trans (attaches_beginning _ _))
    (fun _ _ _ before => before.trans (attaches_supplied _ _ _)) (.refl s)

/-! ## 3. From a new container -/

/-- The chain is the last of each of all that was added. -/
def LastOfEach (t : State κ ι ω) : Prop := t.container.chain = lastOfEach (additions t.history)

theorem Attaches.lastOfEach (h : Attaches s t) (hs : LastOfEach s) : LastOfEach t := by
  obtain ⟨events, past, chain⟩ := h
  unfold LastOfEach
  rw [chain, hs, joined_lastOfEach, past, additions_append]

theorem Reachable.lastOfEach (h : Reachable b s) : LastOfEach s :=
  h.keeps (I := LastOfEach) (fun _ _ _ => rfl) (fun _ _ _ hs => hs)
    fun course hs => course.attaches.lastOfEach hs

/-- The states that a new container gets to, be it in the midst of a run. -/
def Visited (b : Behaviour κ ι ω) (t : State κ ι ω) : Prop :=
  ∃ (s : State κ ι ω) (depth : Nat) (view : View) (α : Type) (p : FactoryProgram κ ι ω α)
    (names : List String), Reachable b s ∧ Moment b depth view p s names t

theorem Reachable.visited (h : Reachable b s) : Visited b s :=
  ⟨s, 0, .full, Unit, .done (), [], h, .now _ s⟩

theorem Visited.lastOfEach (h : Visited b t) : LastOfEach t := by
  obtain ⟨s, depth, view, α, p, names, reach, moment⟩ := h
  exact moment.attaches.lastOfEach reach.lastOfEach

namespace LastOfEach

theorem ids_eq (h : LastOfEach t) :
    ids t.container = ((additions t.history).map Extension.id).dedup := by
  unfold ids
  rw [h, map_id_lastOfEach]

theorem distinct (h : LastOfEach t) : (ids t.container).Nodup := h.ids_eq ▸ List.nodup_dedup _

theorem mem_ids (h : LastOfEach t) (n : Nat) :
    n ∈ ids t.container ↔ n ∈ (additions t.history).map Extension.id := by
  rw [h.ids_eq, List.mem_dedup]

/-- **The chain never shrinks**: whoever was in it stays in it. -/
theorem grows (h : LastOfEach t) (h' : LastOfEach t') (past : t.history <:+ t'.history) :
    ids t.container ⊆ ids t'.container ∧
      t.container.chain.length ≤ t'.container.chain.length := by
  obtain ⟨events, past⟩ := past
  have kept : ids t.container ⊆ ids t'.container := by
    intro n mem
    rw [h'.mem_ids, ← past, additions_append, List.map_append]
    exact List.mem_append_left _ ((h.mem_ids n).mp mem)
  exact ⟨kept, length_le_of_ids h.distinct kept⟩

end LastOfEach

/-- **Whoever joins again moves to the end**, and the others stay in their order. -/
theorem chain_attach_again {c : Container κ ι} {before after : List (Extension κ)}
    {e e' : Extension κ} (distinct : (ids c).Nodup) (place : c.chain = before ++ e' :: after)
    (same : e'.id = e.id) : (c.attach e).chain = before ++ after ++ [e] := by
  unfold ids at distinct
  rw [place, List.map_append, List.map_cons] at distinct
  obtain ⟨-, behind, apart⟩ := List.nodup_append.mp distinct
  have others {l : List (Extension κ)} (differ : ∀ other ∈ l, other.id ≠ e.id) :
      l.filter (fun other => other.id ≠ e.id) = l :=
    List.filter_eq_self.mpr fun other mem => decide_eq_true (differ other mem)
  have not_before : ∀ other ∈ before, other.id ≠ e.id := fun other mem =>
    same ▸ apart _ (List.mem_map_of_mem mem) _ List.mem_cons_self
  have not_after : ∀ other ∈ after, other.id ≠ e.id := fun other mem own =>
    (List.nodup_cons.mp behind).1 (same ▸ own ▸ List.mem_map_of_mem mem)
  show c.chain.filter (fun other => other.id ≠ e.id) ++ [e] = _
  rw [place, List.filter_append, List.filter_cons_of_neg (by simp [same]), others not_before,
    others not_after]

/-- Whoever joins for the first time comes after all others. -/
theorem chain_attach_new {c : Container κ ι} {e : Extension κ} (new : e.id ∉ ids c) :
    (c.attach e).chain = c.chain ++ [e] := by
  have others : c.chain.filter (fun other => other.id ≠ e.id) = c.chain :=
    List.filter_eq_self.mpr fun other mem =>
      decide_eq_true fun same => new (same ▸ List.mem_map_of_mem mem)
  exact congrArg (· ++ [e]) others

/-- A group that joins is added in its order, each once more. -/
theorem additions_join {batch : List (Candidate κ)} {P P' : Processed}
    {T : Phase.Asked κ ι ω (State κ ι ω)} {u : PUnit}
    (h : Phase.Returns (serve b depth view) (Bootstrap.join batch) P s T u P' s') :
    additions s'.history = additions s.history ++ batch.map (·.handle.extension) := by
  unfold Bootstrap.join at h
  induction batch generalizing s P T with
  | nil =>
      obtain ⟨-, -, -, rfl⟩ := h.of_pure
      exact (List.append_nil _).symm
  | cons c batch ih =>
      obtain ⟨T₁, T₂, _, P₁, s₁, one, others, rfl⟩ := Phase.Returns.of_bind h
      obtain ⟨T₃, -, one⟩ := one.rest (Phase.Yields.ask (serve_announce b depth view s _))
      obtain ⟨-, rfl, attached⟩ := one.of_ask
      rw [serve_attach] at attached
      cases attached
      rw [ih others, List.map_cons, List.append_cons]
      exact congrArg (· ++ _) (additions_append [.attached _, .announced _] s.history)

/-! ## 4. All additions -/

/-- Adds extensions to the chain, one after another. -/
def addEach (es : List (Extension κ)) : FactoryProgram κ ι ω PUnit :=
  es.forM fun e => Program.request (I := factoryInterface κ ι ω) (.attach e)

theorem run_addEach (b : Behaviour κ ι ω) (depth : Nat) (view : View) (es : List (Extension κ))
    (t : State κ ι ω) :
    ∃ t', run b depth view (addEach es) t = some (⟨⟩, t') ∧
      additions t'.history = additions t.history ++ es := by
  induction es generalizing t with
  | nil => exact ⟨t, rfl, (List.append_nil _).symm⟩
  | cons e es ih =>
      obtain ⟨t', run, added⟩ := ih
        { t with container := t.container.attach e, history := .attached e :: t.history }
      refine ⟨t', ?_, ?_⟩
      · show Program.run (serve b depth view) (_ >>= fun _ => addEach es) t = _
        rw [Program.run_bind, Program.run_request, serve_attach]
        exact run
      · rw [added, List.append_cons]
        exact congrArg (· ++ es) (additions_append [.attached e] t.history)

theorem serve_chainNames (t : State κ ι ω) :
    serve b depth view .chainNames t = some (t.container.chainNames b.name, t) := by
  rw [serve_eq_answer]
  rfl

/-- **The chain is the last of each of all additions**, by identity, in each state that a new
    container gets to, also in the midst of suppliers and hooks. So no identity is twice in it, each
    that was ever added is in it, and it never shrinks. Each call adds its extension: one that is in
    the chain moves to the end, and all others keep their order; one that is not goes to the end.
    Calls one after another, and a group that joins in phase 7, add theirs in order. The names of
    extensions do not matter: as many are counted, and named, as there are identities. -/
theorem chain_is_last_of_each (b : Behaviour κ ι ω) :
    (∀ t : State κ ι ω, Visited b t →
      t.container.chain = lastOfEach (additions t.history) ∧ (ids t.container).Nodup ∧
      ∀ e ∈ additions t.history, e.id ∈ ids t.container) ∧
    (∀ t t' : State κ ι ω, Visited b t → Visited b t' → t.history <:+ t'.history →
      ids t.container ⊆ ids t'.container ∧
        t.container.chain.length ≤ t'.container.chain.length) ∧
    (∀ (depth : Nat) (view : View) (e : Extension κ) (t : State κ ι ω), Visited b t →
      ∃ t', serve b depth view (.attach e) t = some ((), t') ∧
        additions t'.history = additions t.history ++ [e] ∧
        (∀ before e' after, t.container.chain = before ++ e' :: after → e'.id = e.id →
          t'.container.chain = before ++ after ++ [e]) ∧
        (e.id ∉ ids t.container → t'.container.chain = t.container.chain ++ [e])) ∧
    (∀ (depth : Nat) (view : View) (es : List (Extension κ)) (t : State κ ι ω), Visited b t →
      ∃ t', run b depth view (addEach es) t = some (⟨⟩, t') ∧
        additions t'.history = additions t.history ++ es ∧
        t'.container.chain = lastOfEach (additions t.history ++ es)) ∧
    (∀ (depth : Nat) (view : View) (group : List (Candidate κ)) (P P' : Processed)
        (T : Phase.Asked κ ι ω (State κ ι ω)) (t t' : State κ ι ω) (u : PUnit), Visited b t →
      Phase.Returns (serve b depth view) (Bootstrap.join group) P t T u P' t' →
        additions t'.history = additions t.history ++ group.map (·.handle.extension) ∧
        t'.container.chain =
          lastOfEach (additions t.history ++ group.map (·.handle.extension))) ∧
    ∀ (depth : Nat) (view : View) (t : State κ ι ω), Visited b t →
      serve b depth view .chainLength t =
        some (((additions t.history).map Extension.id).dedup.length, t) ∧
      serve b depth view .chainNames t = some ((lastOfEach (additions t.history)).map
        fun e => Text.shortName (e.body.name b.name), t) := by
  refine ⟨fun t visited => ?_, fun t t' visited visited' past => ?_, ?_, ?_, ?_, ?_⟩
  · have last := visited.lastOfEach
    exact ⟨last, last.distinct, fun e mem => (last.mem_ids _).mpr (List.mem_map_of_mem mem)⟩
  · exact visited.lastOfEach.grows visited'.lastOfEach past
  · intro depth view e t visited
    refine ⟨_, serve_attach b depth view t e, additions_append [.attached e] t.history, ?_, ?_⟩
    · exact fun before e' after place same =>
        chain_attach_again visited.lastOfEach.distinct place same
    · exact chain_attach_new
  · intro depth view es t visited
    obtain ⟨t', run, added⟩ := run_addEach b depth view es t
    have last := (run_course _ _ _ _ run).attaches.lastOfEach visited.lastOfEach
    exact ⟨t', run, added, added ▸ last⟩
  · intro depth view group P P' T t t' u visited h
    refine ⟨additions_join h, ?_⟩
    rw [(Bootstrap.join_joins h).1, visited.lastOfEach, joined_lastOfEach]
  · intro depth view t visited
    have last := visited.lastOfEach
    rw [serve_chainLength, serve_chainNames, ← last.ids_eq, List.length_map, chainNames, last]
    exact ⟨rfl, rfl⟩

/-- Three extensions of the same name join, and the first of them again. -/
theorem namesakes_chain_is_last_of_each :
    ∃ t t' : State (List String) Unit Unit, Visited Bootstrap.asking t ∧
      t.container.chain = [⟨0, .custom []⟩, ⟨1, .custom []⟩, ⟨2, .custom []⟩] ∧
      serve Bootstrap.asking 1 .full (.attach ⟨0, .custom []⟩) t = some ((), t') ∧
      t'.container.chain = [⟨1, .custom []⟩, ⟨2, .custom []⟩, ⟨0, .custom []⟩] ∧
      (additions t'.history).map Extension.id = [0, 1, 2, 0] ∧
      serve Bootstrap.asking 1 .full .chainLength t' = some (3, t') ∧
      serve Bootstrap.asking 1 .full .chainNames t' = some (["", "", ""], t') := by
  obtain ⟨-, -, call, calls, -, read⟩ := chain_is_last_of_each Bootstrap.asking
  have new : Reachable Bootstrap.asking
      ({ container := { overriding := true, comparator := none }, world := () } :
        State (List String) Unit Unit) := .new true none ()
  obtain ⟨t, run, added, chain⟩ := calls 1 .full
    [⟨0, .custom []⟩, ⟨1, .custom []⟩, ⟨2, .custom []⟩] _ new.visited
  have reach : Reachable Bootstrap.asking t := .run new run
  obtain ⟨t', again, added', moves, -⟩ := call 1 .full ⟨0, .custom []⟩ t reach.visited
  have reach' : Reachable Bootstrap.asking t' :=
    .run reach ((Program.run_request _ _ _).trans again)
  have all : additions t'.history = [⟨0, .custom []⟩, ⟨1, .custom []⟩, ⟨2, .custom []⟩,
      ⟨0, .custom []⟩] := by
    rw [added', added]
    rfl
  obtain ⟨count, names⟩ := read 1 .full t' reach'.visited
  rw [all] at count names
  exact ⟨t, t', reach.visited, chain, again, moves [] _ _ chain rfl, by rw [all]; rfl, count, names⟩

end Container

end ComponentContainer
