/-
  File:      ComponentContainer/Proofs/Notes.lean
  Subject:   What extensions note, read off the history.

  * `notedOf` -- what is noted under an identity once hooks have seen all that is listed.
  * `Noted` -- **what is noted is what the sights in the history give**; `Story.noted` -- that is so
    of all stories, by induction over ticks.
  * `foldl_noting_watcher`, `foldl_noting_listeners` -- what becomes of it for the two watchers: one
    has noted all that is premature, the other each listener once, at its first coming.
-/
import ComponentContainer.Proofs.Sightings
import Mathlib.Data.List.Induction

namespace ComponentContainer

variable {κ ι ω : Type}

/-! ## 1. One creation after another -/

/-- The watcher for listeners of that identity. -/
abbrev listenersWatcher (id : Nat) : Extension κ := ⟨id, .listeners⟩

namespace Container

open Act Attempt Relation

/-- What is noted under an identity once hooks have seen all that, where `noted` was noted before. -/
def notedOf (id : Nat) (noted : List String) (seen : List (Extension κ × Creation κ)) :
    List String :=
  (seen.filter (·.1.id == id)).foldl (fun noted x => x.1.noting noted x.2) noted

/-- The names of the listeners. -/
def listenersAmong (seen : List (Creation κ)) : List String :=
  (seen.filter (·.isListener)).map Creation.name

section Folds

variable {id : Nat} {noted : List String} {seen : List (Extension κ × Creation κ)}

theorem notedOf_append (id : Nat) (noted : List String) (seen seen' : List (Extension κ × Creation κ)) :
    notedOf id noted (seen ++ seen') = notedOf id (notedOf id noted seen) seen' := by
  unfold notedOf
  rw [List.filter_append, List.foldl_append]

/-- Where one extension alone has seen things under the identity, it has noted what it has seen. -/
theorem notedOf_single {w : Extension κ} (single : ∀ x ∈ seen, x.1.id = w.id → x.1 = w) :
    notedOf w.id noted seen = (seenBy w.id seen).foldl w.noting noted := by
  unfold notedOf seenBy
  rw [List.foldl_map]
  refine List.foldl_ext _ _ _ fun noted x mem => ?_
  obtain ⟨there, own⟩ := List.mem_filter.mp mem
  rw [single x there (beq_iff_eq.mp own)]

/-- The watcher for completeness has noted all that is premature. -/
theorem foldl_noting_watcher (id target : Nat) (seen : List (Creation κ)) (noted : List String) :
    seen.foldl (watcher id target).noting noted = noted ++ premature target seen := by
  induction seen generalizing noted with
  | nil => exact (List.append_nil _).symm
  | cons creation seen ih =>
      rw [List.foldl_cons, ih, noting_watcher, List.append_assoc, ← premature_append,
        List.singleton_append]

theorem eraseDups_concat (l : List String) (name : String) :
    (l ++ [name]).eraseDups = if name ∈ l then l.eraseDups else l.eraseDups ++ [name] := by
  rw [List.eraseDups_append]
  by_cases old : name ∈ l
  · simp [List.removeAll, old]
  · simp [List.removeAll, List.eraseDups_cons, old]

/-- The watcher for listeners has noted each listener once, where it first came. -/
theorem foldl_noting_listeners (id : Nat) (seen : List (Creation κ)) (names : List String) :
    seen.foldl (listenersWatcher id).noting names.eraseDups =
      (names ++ listenersAmong seen).eraseDups := by
  induction seen generalizing names with
  | nil =>
      rw [List.foldl_nil]
      exact congrArg _ (List.append_nil _).symm
  | cons creation seen ih =>
      have one : (listenersWatcher id).noting names.eraseDups creation =
          (names ++ listenersAmong [creation]).eraseDups := by
        unfold Extension.noting listenersAmong
        by_cases hears : creation.isListener = true
        · by_cases old : creation.name ∈ names
          · simp [hears, old, eraseDups_concat]
          · simp [hears, old, eraseDups_concat]
        · simp [hears]
      rw [List.foldl_cons, one, ih, List.append_assoc]
      unfold listenersAmong
      rw [← List.map_append, ← List.filter_append, List.singleton_append]

/-- What has been freed of repetitions has none. -/
theorem nodup_eraseDups (l : List String) : l.eraseDups.Nodup := by
  induction l using List.reverseRecOn with
  | nil => exact List.nodup_nil
  | append_singleton l name ih =>
      rw [eraseDups_concat]
      split
      · exact ih
      next new =>
        refine List.Nodup.append ih (List.nodup_singleton _) fun other mem here => ?_
        obtain rfl := List.mem_singleton.mp here
        exact new (List.mem_eraseDups.mp mem)

end Folds

/-! ## 2. Hooks -/

section Hooks

variable {b : Behaviour κ ι ω} {e : Extension κ} {creation : Creation κ} {m : MergedDefinition κ}
  {name : String} {s s' s'' : State κ ι ω}

/-- **What is noted is what the sights in the history give**, under every identity. -/
def Noted (s s' : State κ ι ω) : Prop :=
  ∃ events, s'.history = events ++ s.history ∧
    ∀ id, s'.noted id = notedOf id (s.noted id) (sights events)

namespace Noted

theorem refl (s : State κ ι ω) : Noted s s := ⟨[], rfl, fun _ => rfl⟩

theorem trans (h₁ : Noted s s') (h₂ : Noted s' s'') : Noted s s'' := by
  obtain ⟨events₁, past₁, noted₁⟩ := h₁
  obtain ⟨events₂, past₂, noted₂⟩ := h₂
  refine ⟨events₂ ++ events₁, by rw [past₂, past₁, List.append_assoc], fun id => ?_⟩
  rw [noted₂, noted₁, sights_append, notedOf_append]

/-- Where nothing is seen, nothing is noted. -/
theorem quiet (events : List (Event κ ι)) (past : s'.history = events ++ s.history)
    (sight : sights events = []) (notes : s'.notes = s.notes) : Noted s s' := by
  refine ⟨events, past, fun id => ?_⟩
  rw [sight]
  unfold State.noted
  rw [notes]
  rfl

end Noted

theorem Unseen.noted (h : Unseen s s') : Noted s s' := by
  obtain ⟨events, sees⟩ := h
  refine ⟨events, sees.past, fun id => ?_⟩
  have same : s'.noted id = s.noted id ++ premature 0 (seenBy id []) :=
    sees.noted fun _ mem => absurd mem List.not_mem_nil
  rw [sees.sight, same]
  exact List.append_nil _

theorem seeAfter_noted (value : ι) (e : Extension κ) :
    Within Noted (Extension.seeAfter b creation value e) := by
  intro s r s' h
  obtain ⟨events, past, sight, -, notes⟩ := seeAfter_notes h
  refine ⟨events, past, fun id => ?_⟩
  rw [sight, notes]
  unfold notedOf
  by_cases own : e.id = id
  · simp [own]
  · simp [own]

/-- What passes through the chain is noted by those who have seen it. -/
theorem passThrough_noted (t : State κ ι ω) (value : ι) :
    Within Noted (passThrough b t name m value) :=
  Within.bind .trans (fun _ _ _ h => (passBefore_unseen _ _ h).noted) fun value =>
    Within.foldlM .refl .trans (fun e _ value => seeAfter_noted value e) value

end Hooks

/-! ## 3. Stories -/

section Stories

variable {b : Behaviour κ ι ω} {hitch : Prop} {s s' : State κ ι ω}

theorem Step.noted (h : Step s s') : Noted s s' := by
  cases h with
  | world w => exact .quiet [] rfl rfl rfl
  | numbered => exact .quiet [] rfl rfl rfl
  | cleared => exact .quiet [] rfl rfl rfl
  | _ => exact .quiet [_] rfl rfl rfl

theorem Tick.noted (tick : Tick b hitch s s') : Noted s s' := by
  cases tick with
  | step h => exact h.noted
  | began name => exact .quiet [_] rfl rfl rfl
  | shown run => exact (showTo_unseen _ run).noted
  | supplied name d => exact .quiet [_] rfl rfl rfl
  | passed arisen run =>
      exact (passThrough_noted _ _ run).trans (.quiet [_, _] rfl rfl rfl)
  | spoilt hook run => exact passThrough_noted _ _ run
  | ended name => exact .quiet [_] rfl rfl rfl
  | built name h => exact .quiet [_, _, _] rfl rfl rfl

/-- **In all stories notes are taken of what is seen, and of nothing else.** -/
theorem Story.noted (story : Story b hitch s s') : Noted s s' := by
  induction story with
  | refl => exact .refl _
  | tail _ tick ih => exact ih.trans tick.noted

end Stories

end Container

end ComponentContainer
