/-
  File:      ComponentContainer/Proofs/Staleness.lean
  Subject:   How far a merged definition that is remembered may lag behind the definitions.

  * `Event.drops` -- the events at which a container forgets what was merged under a name;
    `Event.disturbs` -- **those that change what a line of parents comes to, and at which it does
    not**: editing a definition of the line, and replacing or removing a parent.
  * `Disturbed` -- such an event, with the line as it was until then; `lasts` -- a line stays as it is
    unless it is disturbed or dropped.
  * `Computed`, `Carried` -- where a merged definition comes from that is remembered;
    `Course.carried` -- **whatever happens, it was remembered before and has not been dropped, or was
    computed meanwhile**; `Dated` -- so every one of them has a date.
  * `merged_answers_afresh` -- where nothing is remembered as merged, the answers are fresh;
    `runFactoryPhases_forgets` -- this is how the factory phases end.
  * `merged_lags_only_if_disturbed` -- **at all moments of all runs.**
-/
import ComponentContainer.Proofs.Lineage
import ComponentContainer.Proofs.Nesting

namespace ComponentContainer

variable {κ ι ω α : Type}

/-! ## 1. What becomes of a line of parents -/

/-- The event makes the container forget what was merged under the name. -/
def Event.drops (name : String) : Event κ ι → Bool
  | .registered d => d.name == name
  | .removed other => other == name
  | _ => false

/-- The event changes what the line comes to, and the container goes on with what was merged from it
    before. The line begins with the name that it is merged under. -/
def Event.disturbs (line : List (String × Definition κ)) : Event κ ι → Prop
  | .edited name _ => name ∈ line.map Prod.fst
  | .registered d => d.name ∈ line.tail.map Prod.fst
  | .removed name => name ∈ line.tail.map Prod.fst
  | _ => False

namespace Container

variable {s s' s'' : State κ ι ω} {b : Behaviour κ ι ω} {name : String} {m : MergedDefinition κ}
  {line : List (String × Definition κ)} {events past : List (Event κ ι)}

/-- A line begins with the name from which it goes on. -/
theorem Line.mem_cases {t : Table (Definition κ)} (h : Line t (some name) line) {other : String}
    (mem : other ∈ line.map Prod.fst) : other = name ∨ other ∈ line.tail.map Prod.fst := by
  cases h with
  | cons found rest => exact List.mem_cons.mp mem

/-- **One event** leaves a line as it is, unless it disturbs or drops it. -/
theorem Line.after {t : Table (Definition κ)} {e : Event κ ι} (h : Line t (some name) line)
    (calm : ¬e.disturbs line) (kept : e.drops name = false) :
    Line (e.replay t) (some name) line := by
  -- the event is about a name, and the other names have the definitions they had
  have elsewhere {changed : String} (own : changed ≠ name)
      (parents : changed ∉ line.tail.map Prod.fst) :
      ∀ other ∈ line.map Prod.fst, other ≠ changed := by
    rintro other mem rfl
    exact (h.mem_cases mem).elim own parents
  cases e with
  | registered d =>
      refine h.congr fun other mem => ?_
      have apart := elsewhere (beq_eq_false_iff_ne.mp kept) calm other mem
      exact (Table.find?_set _ _ _ _).trans (if_neg apart)
  | removed gone =>
      refine h.congr fun other mem => ?_
      have apart := elsewhere (beq_eq_false_iff_ne.mp kept) calm other mem
      exact (Table.find?_erase _ _ _).trans (if_neg apart)
  | edited changed change =>
      refine h.congr fun other mem => ?_
      have apart : other ≠ changed := fun same => calm (same ▸ mem)
      exact (Table.find?_modify _ _ _ _).trans (if_neg apart)
  | _ => exact h

/-- Among the events, latest first, there is one that disturbs the line of the name, and until then
    the line was this one. -/
def Disturbed (name : String) (line : List (String × Definition κ))
    (events past : List (Event κ ι)) : Prop :=
  ∃ later e earlier, events = later ++ e :: earlier ∧
    Line (replay (earlier ++ past)) (some name) line ∧ e.disturbs line

/-- **A line lasts**, or it is disturbed, as long as it is not dropped. -/
theorem lasts (h : Line (replay past) (some name) line)
    (kept : ∀ e ∈ events, e.drops name = false) :
    Line (replay (events ++ past)) (some name) line ∨ Disturbed name line events past := by
  induction events with
  | nil => exact .inl h
  | cons e events ih =>
      obtain ⟨now, before⟩ := List.forall_mem_cons.mp kept
      rcases ih before with same | ⟨later, e', earlier, rfl, until', disturbs⟩
      · by_cases disturbs : e.disturbs line
        · exact .inr ⟨[], e, events, rfl, same, disturbs⟩
        · exact .inl (same.after disturbs now)
      · exact .inr ⟨e :: later, e', earlier, rfl, until', disturbs⟩

/-- What was merged once is what would be merged now, or its line is disturbed. -/
theorem fresh_or_disturbed (fresh : freshMerge (replay past) name = .ok m)
    (kept : ∀ e ∈ events, e.drops name = false) :
    ∃ line, Line (replay past) (some name) line ∧
      (freshMerge (replay (events ++ past)) name = .ok m ∨ Disturbed name line events past) := by
  obtain ⟨d, rest, walk, rfl⟩ := freshMerge_eq_ok_iff.mp fresh
  refine ⟨_, walk, (lasts walk kept).imp_left fun same => ?_⟩
  exact freshMerge_eq_ok_iff.mpr ⟨d, rest, same, rfl⟩

/-! ## 2. Where a merged definition comes from that is remembered -/

/-- It was computed during the events, from the definitions as they were then, and has not been
    dropped since. -/
def Computed (name : String) (m : MergedDefinition κ) (events past : List (Event κ ι)) : Prop :=
  ∃ later earlier, events = later ++ .merged name :: earlier ∧
    freshMerge (replay (earlier ++ past)) name = .ok m ∧ ∀ e ∈ later, e.drops name = false

/-- Each merged definition that is remembered in the end was remembered in the beginning and has not
    been dropped since, or was computed in between. -/
def Carried (s s' : State κ ι ω) : Prop :=
  ∃ events, s'.history = events ++ s.history ∧
    ∀ name m, s'.container.merged.find? name = some m →
      (s.container.merged.find? name = some m ∧ ∀ e ∈ events, e.drops name = false) ∨
      Computed name m events s.history

namespace Carried

/-- Nothing more is remembered, and nothing is that is dropped. -/
theorem of_kept (events : List (Event κ ι)) (past : s'.history = events ++ s.history)
    (kept : ∀ name m, s'.container.merged.find? name = some m →
      s.container.merged.find? name = some m ∧ ∀ e ∈ events, e.drops name = false) :
    Carried s s' :=
  ⟨events, past, fun name m known => .inl (kept name m known)⟩

/-- Events that drop nothing, where the same is remembered. -/
theorem of_quiet (events : List (Event κ ι)) (past : s'.history = events ++ s.history)
    (merged : s'.container.merged = s.container.merged)
    (quiet : ∀ e ∈ events, ∀ name, e.drops name = false) : Carried s s' :=
  of_kept events past fun name _ known => ⟨merged ▸ known, fun e mem => quiet e mem name⟩

theorem of_event {e : Event κ ι} (past : s'.history = e :: s.history)
    (merged : s'.container.merged = s.container.merged)
    (quiet : ∀ name, e.drops name = false) : Carried s s' :=
  of_quiet [e] past merged fun _ mem => List.mem_singleton.mp mem ▸ quiet

theorem refl (s : State κ ι ω) : Carried s s :=
  of_quiet [] rfl rfl fun _ mem => absurd mem List.not_mem_nil

theorem trans (h₁ : Carried s s') (h₂ : Carried s' s'') : Carried s s'' := by
  obtain ⟨events₁, past₁, carried₁⟩ := h₁
  obtain ⟨events₂, past₂, carried₂⟩ := h₂
  refine ⟨events₂ ++ events₁, by rw [past₂, past₁, List.append_assoc], fun name m known => ?_⟩
  rcases carried₂ name m known with ⟨known, kept₂⟩ | ⟨later, earlier, rfl, fresh, kept⟩
  · rcases carried₁ name m known with ⟨known, kept₁⟩ | ⟨later, earlier, rfl, fresh, kept⟩
    · exact .inl ⟨known, List.forall_mem_append.mpr ⟨kept₂, kept₁⟩⟩
    · exact .inr ⟨events₂ ++ later, earlier, (List.append_assoc _ _ _).symm, fresh,
        List.forall_mem_append.mpr ⟨kept₂, kept⟩⟩
  · refine .inr ⟨later, earlier ++ events₁, ?_, ?_, kept⟩
    · rw [List.append_assoc, List.cons_append]
    · rwa [List.append_assoc, ← past₁]

theorem watched (h : Watched s s') : Carried s s' := by
  obtain ⟨events, past, watch⟩ := h.history
  refine of_quiet events past (by rw [h.container]) fun e mem name => ?_
  have := watch e mem
  cases e <;> first | rfl | cases this

end Carried

/-- What is registered or removed under a name is not remembered as merged under it. -/
theorem merged_register {c c' : Container κ ι} {d : Definition κ} (h : c.register d = .ok c')
    (listed : ∀ name m, c.merged.find? name = some m → name ∈ c.definitions.keys)
    (known : c'.merged.find? name = some m) : c.merged.find? name = some m ∧ d.name ≠ name := by
  rcases register_cases h with ⟨new, rfl⟩ | rfl
  · refine ⟨known, fun same => ?_⟩
    have found := (c.definitions.contains_iff_mem_keys _).mpr (listed name m known)
    rw [← same, Table.contains, new] at found
    cases found
  · obtain ⟨other, known⟩ := Table.find?_erase_eq_some.mp known
    exact ⟨known, fun same => other same.symm⟩

theorem merged_remove {c c' : Container κ ι} {gone : String} {d : Definition κ}
    (h : c.remove gone = .ok (d, c')) (known : c'.merged.find? name = some m) :
    c.merged.find? name = some m ∧ gone ≠ name := by
  rw [remove_eq h] at known
  obtain ⟨other, known⟩ := Table.find?_erase_eq_some.mp known
  exact ⟨known, fun same => other same.symm⟩

/-- The container after a definition has been registered. -/
theorem register_of_serve {depth : Nat} {view : View} {d : Definition κ}
    (h : serve b depth view (.registry (.register d)) s = some (.ok (), s')) :
    s.container.register d = .ok s'.container := by
  rw [serve_registry] at h
  unfold answerRegistry at h
  rcases registered : s.container.register d with failure | c
  · simp only [Act.run_bind, Act.run_container, registered, Act.run_pure] at h
    cases h
  · by_cases known : s.container.definitions.contains d.name = true
    · simp only [Act.run_bind, Act.run_container, registered, if_pos known, Act.run_announce,
        Act.run_record, Act.run_changeContainer, Act.run_pure] at h
      cases h
      rfl
    · simp only [Act.run_bind, Act.run_container, registered, if_neg known, Act.run_announce,
        Act.run_record, Act.run_changeContainer, Act.run_pure] at h
      cases h
      rfl

/-- The container after a definition has been removed. -/
theorem remove_of_serve {depth : Nat} {view : View} {d : Definition κ}
    (h : serve b depth view (.registry (.remove name)) s = some (.ok d, s')) :
    s.container.remove name = .ok (d, s'.container) := by
  rw [serve_registry] at h
  unfold answerRegistry at h
  rcases removed : s.container.remove name with failure | ⟨d', c⟩
  · simp only [Act.run_bind, Act.run_container, removed, Act.run_pure] at h
    cases h
  · simp only [Act.run_bind, Act.run_container, removed, Act.run_announce, Act.run_record,
      Act.run_changeContainer, Act.run_pure] at h
    cases h
    rfl

/-- **One step.** -/
theorem Step.carried (h : Step s s') (recorded : Recorded s) (listed : Listed s) : Carried s s' := by
  cases h with
  | announced n => exact .of_event rfl rfl fun _ => rfl
  | registryHook e => exact .of_event rfl rfl fun _ => rfl
  | factoryHook e => exact .of_event rfl rfl fun _ => rfl
  | @registered d c h =>
      refine .of_kept [.registered d] rfl fun name m known => ?_
      obtain ⟨known, other⟩ := merged_register h listed known
      exact ⟨known, List.forall_mem_singleton.mpr (beq_eq_false_iff_ne.mpr other)⟩
  | @removed gone d c h =>
      refine .of_kept [.removed gone] rfl fun name m known => ?_
      obtain ⟨known, other⟩ := merged_remove h known
      exact ⟨known, List.forall_mem_singleton.mpr (beq_eq_false_iff_ne.mpr other)⟩
  | edited h => exact .of_event rfl rfl fun _ => rfl
  | world w => exact .of_quiet [] rfl rfl fun _ mem => absurd mem List.not_mem_nil
  | numbered => exact .of_quiet [] rfl rfl fun _ mem => absurd mem List.not_mem_nil
  | @merged name m new fresh =>
      refine ⟨[.merged name], rfl, fun other m' known => ?_⟩
      replace known : (s.container.merged.set name m).find? other = some m' := known
      rw [Table.find?_set] at known
      split at known
      · rename_i same
        cases known
        subst same
        refine .inr ⟨[], [], rfl, ?_, fun _ mem => absurd mem List.not_mem_nil⟩
        rw [List.nil_append, ← show s.container.definitions = replay s.history from recorded]
        exact fresh
      · exact .inl ⟨known, List.forall_mem_singleton.mpr rfl⟩
  | attached e => exact .of_event rfl rfl fun _ => rfl
  | cleared => exact .of_kept [] rfl fun _ _ known => nomatch known

/-- **Whatever happens while requests are answered.** The induction is on the course; a making
    begins and ends without forgetting anything that was merged. -/
theorem Course.carried (h : Course b s s') (recorded : Recorded s) (listed : Listed s) :
    Carried s s' := by
  have begins (s : State κ ι ω) (name : String) : Carried s (beginning s name) :=
    .of_event rfl rfl fun _ => rfl
  have supplies (s : State κ ι ω) (name : String) (d : Definition κ) :
      Carried s (supplied s name d) := .of_event rfl rfl fun _ => rfl
  have ends (s : State κ ι ω) (name : String) : Carried s (ending s name) :=
    .of_event rfl rfl fun _ => rfl
  induction h with
  | refl s => exact .refl s
  | trans h₁ _ ih₁ ih₂ =>
      exact (ih₁ recorded listed).trans (ih₂ (h₁.recorded recorded) (h₁.listed listed))
  | step h => exact h.carried recorded listed
  | unmade idle shown => exact ((begins _ _).trans (.watched shown)).trans (ends _ _)
  | failed idle from_ shown supply passed ih =>
      have begun := (begins _ _).trans (.watched shown)
      have run := ih (shown.recorded recorded) (shown.listed listed)
      exact ((begun.trans (supplies _ _ _)).trans run).trans
        ((Carried.watched passed).trans (ends _ _))
  | component idle new merged template kind run shown supply passed ih =>
      have begun := (begins _ _).trans (.watched shown)
      have run := ih (shown.recorded recorded) (shown.listed listed)
      exact ((begun.trans (supplies _ _ _)).trans run).trans
        (((Carried.watched passed).trans (ends _ _)).trans (.of_event rfl rfl fun _ => rfl))
  | @extension s s₁ name d family code idle new found kind run supply ih =>
      have begun : Carried s (supplying s name d) := (begins s name).trans (supplies _ name d)
      have finished (h : Handle κ) : Carried s₁ (made s₁ name h) := by
        refine .of_quiet [.madeExtension name h,
          .announced (.instantiated name h.family), .ended name] rfl rfl fun e mem other => ?_
        simp only [List.mem_cons, List.not_mem_nil, or_false] at mem
        rcases mem with rfl | rfl | rfl <;> rfl
      exact (begun.trans (ih recorded listed)).trans (finished _)

/-- Each merged definition that is remembered was computed at some time and not dropped since. -/
structure Dated (s : State κ ι ω) : Prop where
  recorded : Recorded s
  listed : Listed s
  computed : ∀ name m, s.container.merged.find? name = some m → Computed name m s.history []

theorem Dated.carried (dated : Dated s) (carried : Carried s s') (recorded : Recorded s')
    (listed : Listed s') : Dated s' := by
  refine ⟨recorded, listed, fun name m known => ?_⟩
  obtain ⟨events, past, origin⟩ := carried
  rw [past]
  rcases origin name m known with ⟨known, kept⟩ | ⟨later, earlier, rfl, fresh, kept⟩
  · obtain ⟨later, earlier, before, fresh, since⟩ := dated.computed name m known
    exact ⟨events ++ later, earlier, by rw [before, List.append_assoc], fresh,
      List.forall_mem_append.mpr ⟨kept, since⟩⟩
  · refine ⟨later, earlier ++ s.history, by rw [List.append_assoc, List.cons_append], ?_, kept⟩
    rwa [List.append_nil]

theorem Dated.course (dated : Dated s) (course : Course b s s') : Dated s' :=
  dated.carried (course.carried dated.recorded dated.listed) (course.recorded dated.recorded)
    (course.listed dated.listed)

theorem Reachable.dated (h : Reachable b s) : Dated s :=
  h.keeps (I := Dated)
    (fun _ _ _ => ⟨rfl, fun _ _ known => (nomatch known), fun _ _ known => (nomatch known)⟩)
    (fun _ _ _ dated => ⟨dated.recorded, dated.listed, dated.computed⟩)
    fun course dated => dated.course course

theorem Moment.dated {depth : Nat} {view : View} {p : FactoryProgram κ ι ω α} {t : State κ ι ω}
    {names : List String} (moment : Moment b depth view p s names t) (dated : Dated s) : Dated t := by
  refine moment.keeps (I := Dated) (fun course dated => dated.course course) ?_ ?_ ?_ dated
  · intro s s' watched dated
    exact dated.carried (.watched watched) (watched.recorded dated.recorded)
      (watched.listed dated.listed)
  · intro s name d dated _
    exact dated.carried (.of_event rfl rfl fun _ => rfl) dated.recorded dated.listed
  · intro s s₁ name d _ _ _ dated
    exact dated.carried (.of_event rfl rfl fun _ => rfl) dated.recorded dated.listed

/-! ## 3. Where nothing is remembered as merged -/

theorem serve_merged (depth : Nat) (view : View) (name : String) (s : State κ ι ω) :
    serve b depth view (.merged name) s = Attempt.outcome (mergedDefinition name) s := by
  rw [serve_eq_answer]
  rfl

/-- **Where nothing is remembered as merged, the answers are fresh.** -/
theorem merged_answers_afresh (empty : s.container.merged = .empty) (depth : Nat) (view : View)
    (name : String) :
    ∃ s', serve b depth view (.merged name) s =
      some (freshMerge s.container.definitions name, s') := by
  rw [serve_merged, outcome_mergedDefinition, empty, Table.find?_empty]
  cases freshMerge s.container.definitions name with
  | error failure => exact ⟨_, rfl⟩
  | ok m => exact ⟨_, rfl⟩

end Container

namespace Bootstrap

open Phase Container

variable {b : Behaviour κ ι ω} {s s' : State κ ι ω}

/-- **The factory phases end by forgetting what was merged**, whatever the hooks have done. -/
theorem runFactoryPhases_forgets {depth : Nat} {view : View} {patience : Nat} {options : Options}
    {external : List (Handle κ)} {P P' : Processed} {stats : Stats}
    (h : Phase.result (serve b depth view) (runFactoryPhases b patience options external) P s =
      some ((.ok stats, P'), s')) : s'.container.merged = .empty := by
  have returns : Returns (serve b depth view) (runFactoryPhases b patience options external) P s _
      stats P' s' := ⟨h, rfl⟩
  unfold runFactoryPhases at returns
  obtain ⟨_, _, _, _, _, -, returns, -⟩ := returns.of_bind
  obtain ⟨_, _, _, _, _, -, returns, -⟩ := returns.of_bind
  obtain ⟨_, _, _, _, _, -, returns, -⟩ := returns.of_bind
  obtain ⟨_, _, _, _, _, -, returns, -⟩ := returns.of_bind
  obtain ⟨_, _, _, _, s₁, -, returns, -⟩ := returns.of_bind
  obtain ⟨_, _, _, _, s₂, cleared, returns, -⟩ := returns.of_bind
  obtain ⟨_, _, _, _, s₃, announced, returns, -⟩ := returns.of_bind
  obtain ⟨-, -, -, rfl⟩ := returns.of_pure
  obtain ⟨-, -, cleared⟩ := cleared.of_ask
  obtain ⟨-, -, announced⟩ := Returns.of_ask announced
  rw [serve_clearMerged] at cleared
  rw [serve_announce] at announced
  cases announced
  cases cleared
  rfl

end Bootstrap

/-! ## 4. At all moments -/

namespace Container

/-- **A merged definition that is remembered lags behind the definitions only if it was disturbed.**
    At every moment of every run, wherever a new container has got to before:

    - it was computed at some time as a fresh merge, along the line that the name had then; and it is
      what a fresh merge would be now, unless since then a definition of the line was edited, or a
      parent in the line replaced or removed;
    - whatever program is run next, a merged definition that is remembered and not computed anew was
      remembered before, and if it was fresh it still is, unless it was disturbed in this way;
    - a definition that is registered or removed takes along what was merged under its name;
    - when the merged definitions have been forgotten, and when the factory phases have succeeded,
      the answer for each name is the fresh merge, failures included. -/
theorem merged_lags_only_if_disturbed {b : Behaviour κ ι ω} {s t : State κ ι ω}
    {depth : Nat} {view : View} {p : FactoryProgram κ ι ω α} {names : List String}
    (reach : Reachable b s) (moment : Moment b depth view p s names t) :
    (∀ name m, t.container.merged.find? name = some m →
      ∃ later earlier line, t.history = later ++ .merged name :: earlier ∧
        freshMerge (replay earlier) name = .ok m ∧ Line (replay earlier) (some name) line ∧
        (freshMerge t.container.definitions name = .ok m ∨
          Disturbed name line later (.merged name :: earlier))) ∧
    (∀ (depth' : Nat) (view' : View) (β : Type) (q : FactoryProgram κ ι ω β) a t',
      Container.run b depth' view' q t = some (a, t') →
      ∃ events, t'.history = events ++ t.history ∧
        ∀ name m, t'.container.merged.find? name = some m → .merged name ∉ events →
          t.container.merged.find? name = some m ∧
          (freshMerge t.container.definitions name = .ok m →
            freshMerge t'.container.definitions name = .ok m ∨
            ∃ line, Line t.container.definitions (some name) line ∧
              Disturbed name line events t.history)) ∧
    (∀ (depth' : Nat) (view' : View) d t',
      serve b depth' view' (.registry (.register d)) t = some (.ok (), t') →
      t'.container.merged.find? d.name = none) ∧
    (∀ (depth' : Nat) (view' : View) name d t',
      serve b depth' view' (.registry (.remove name)) t = some (.ok d, t') →
      t'.container.merged.find? name = none) ∧
    (∀ (depth' : Nat) (view' : View), ∃ t', serve b depth' view' .clearMerged t = some ((), t') ∧
      t'.container.definitions = t.container.definitions ∧
      ∀ (depth'' : Nat) (view'' : View) name, ∃ u, serve b depth'' view'' (.merged name) t' =
        some (freshMerge t'.container.definitions name, u)) ∧
    ∀ (depth' : Nat) (view' : View) patience options external P P' stats t',
      Phase.result (serve b depth' view') (Bootstrap.runFactoryPhases b patience options external) P t =
        some ((.ok stats, P'), t') →
      ∀ (depth'' : Nat) (view'' : View) name, ∃ u, serve b depth'' view'' (.merged name) t' =
        some (freshMerge t'.container.definitions name, u) := by
  have dated := moment.dated reach.dated
  refine ⟨?_, ?_, ?_, ?_, ?_, ?_⟩
  · intro name m known
    obtain ⟨later, earlier, past, fresh, kept⟩ := dated.computed name m known
    rw [List.append_nil] at fresh
    replace fresh : freshMerge (replay (.merged name :: earlier)) name = .ok m := fresh
    obtain ⟨line, walk, now⟩ := fresh_or_disturbed fresh kept
    refine ⟨later, earlier, line, past, fresh, walk, ?_⟩
    rwa [show t.container.definitions = replay t.history from dated.recorded, past]
  · intro depth' view' β q a t' hrun
    have course := run_course depth' view' q t hrun
    obtain ⟨events, past, origin⟩ := course.carried dated.recorded dated.listed
    refine ⟨events, past, fun name m known old => ?_⟩
    rcases origin name m known with ⟨known, kept⟩ | ⟨later, earlier, rfl, -⟩
    · refine ⟨known, fun fresh => ?_⟩
      rw [show t.container.definitions = replay t.history from dated.recorded] at fresh ⊢
      rw [show t'.container.definitions = replay t'.history from course.recorded dated.recorded, past]
      obtain ⟨line, walk, now⟩ := fresh_or_disturbed fresh kept
      exact now.imp_right fun disturbed => ⟨line, walk, disturbed⟩
    · exact absurd (List.mem_append_right _ List.mem_cons_self) old
  · intro depth' view' d t' served
    refine Option.eq_none_iff_forall_ne_some.mpr fun m known => ?_
    exact (merged_register (register_of_serve served) dated.listed known).2 rfl
  · intro depth' view' name d t' served
    refine Option.eq_none_iff_forall_ne_some.mpr fun m known => ?_
    exact (merged_remove (remove_of_serve served) known).2 rfl
  · intro depth' view'
    rw [serve_clearMerged]
    exact ⟨_, rfl, rfl, fun depth'' view'' name => merged_answers_afresh rfl depth'' view'' name⟩
  · intro depth' view' patience options external P P' stats t' returns depth'' view'' name
    exact merged_answers_afresh (Bootstrap.runFactoryPhases_forgets returns) depth'' view'' name

/-- A definition whose parent is "a". -/
def heir : Definition Bool := { definitionOfA false with name := "heir", parent := some "a" }

/-- Registers a parent and a child, asks for the merged definition of the child, and then edits the
    parent. -/
def disinherit : FactoryProgram Bool Nat Unit Bool :=
  .ask (.registry (.register (definitionOfA false))) fun _ =>
    .ask (.registry (.register heir)) fun _ =>
      .ask (.merged "heir") fun _ =>
        .ask (.registry (.edit "a" (·.setAttribute "zone" "UTC"))) .done

/-- An heir that lags behind, because its parent was edited after the two had been merged. -/
theorem heir_lags :
    ∃ (s : State Bool Nat Unit) (m : MergedDefinition Bool), Reachable fleeting s ∧
      s.container.merged.find? "heir" = some m ∧
      freshMerge s.container.definitions "heir" ≠ .ok m ∧
      ∃ later earlier line, s.history = later ++ .merged "heir" :: earlier ∧
        Line (replay earlier) (some "heir") line ∧
        Disturbed "heir" line later (.merged "heir" :: earlier) := by
  have lags : (Container.run fleeting 0 .full disinherit { world := () }).any (fun r =>
      (r.2.container.merged.find? "heir").any fun m =>
        match freshMerge r.2.container.definitions "heir" with
        | .ok m' => m' != m
        | .error _ => false) = true := by decide +kernel
  obtain ⟨⟨known, s⟩, hrun, lags⟩ := (Option.any_eq_true _ _).mp lags
  obtain ⟨m, cached, lags⟩ := (Option.any_eq_true _ _).mp lags
  have stale : freshMerge s.container.definitions "heir" ≠ .ok m := by
    intro fresh
    rw [fresh] at lags
    simp at lags
  have reach : Reachable fleeting s := .run (.new true none ()) hrun
  have moment : Moment fleeting 0 .full disinherit s [] s := .now disinherit s
  obtain ⟨later, earlier, line, past, -, walk, now⟩ :=
    (merged_lags_only_if_disturbed reach moment).1 _ _ cached
  exact ⟨s, m, reach, cached, stale, later, earlier, line, past, walk, now.resolve_left stale⟩

end Container

end ComponentContainer
