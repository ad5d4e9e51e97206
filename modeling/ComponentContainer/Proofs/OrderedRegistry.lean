/-
  File:      ComponentContainer/Proofs/OrderedRegistry.lean
  Subject:   The registry of a container is a list in the order of registration.

  * `Listing` -- names with their definitions, in order; `Change`, `Rewrites` -- what a change makes
    of the list: a new name goes to the end, a known one keeps its place, a removal takes one entry
    out.
  * `Listing.Answers` -- what a list answers to the requests to a registry, refusals included;
    `Listing.Answers.unique` -- one answer only.
  * `Twofold` -- the registry kept twice, as names in order and as a map, each changed on its own.
  * `serve_registry_answers` -- **a container answers each request as its list does**; what refuses
    leaves the whole state as it was.
  * `Course.relisted` -- whatever happens, list and twofold registry go the same way.
  * `registry_is_ordered_list` -- **both together, at all moments of all runs**, also in the midst of
    suppliers and hooks.
-/
import ComponentContainer.Proofs.Nesting

namespace ComponentContainer

variable {κ ι ω α : Type}

/-! ## 1. Entries of tables -/

namespace Table

variable {t : Table α} {name : String} {value : α} {pre post : List (String × α)}

/-- A name that is found stands at one place, and nowhere else. -/
theorem exists_entries (h : t.find? name = some value) :
    ∃ pre post, t.entries = pre ++ (name, value) :: post := by
  obtain ⟨pre, post, split⟩ := List.append_of_mem ((t.find?_eq_some_iff name value).mp h)
  exact ⟨pre, post, split⟩

theorem not_mem_around (split : t.entries = pre ++ (name, value) :: post) :
    name ∉ pre.map Prod.fst ∧ name ∉ post.map Prod.fst := by
  have distinct := t.distinct
  rw [split, List.map_append, List.map_cons, List.nodup_append, List.nodup_cons] at distinct
  obtain ⟨-, ⟨after, -⟩, apart⟩ := distinct
  exact ⟨fun mem => apart name mem name List.mem_cons_self rfl, after⟩

theorem modifyEntries_of_not_mem {l : List (String × α)} (h : name ∉ l.map Prod.fst)
    (f : α → α) : modifyEntries name f l = l := by
  unfold modifyEntries
  refine (List.map_congr_left fun e mem => ?_).trans (List.map_id l)
  have other : e.1 ≠ name := fun same => h (same ▸ List.mem_map_of_mem mem)
  rw [if_neg other]
  rfl

theorem entries_modify (split : t.entries = pre ++ (name, value) :: post) (f : α → α) :
    (t.modify name f).entries = pre ++ (name, f value) :: post := by
  obtain ⟨before, after⟩ := not_mem_around split
  show modifyEntries name f t.entries = _
  rw [split]
  show List.map _ _ = _
  rw [List.map_append, List.map_cons, if_pos rfl]
  exact congr (congrArg _ (modifyEntries_of_not_mem before f))
    (congrArg _ (modifyEntries_of_not_mem after f))

theorem entries_set_of_mem (split : t.entries = pre ++ (name, value) :: post) (new : α) :
    (t.set name new).entries = pre ++ (name, new) :: post := by
  have known : name ∈ t.keys := by
    rw [keys, split, List.map_append]
    exact List.mem_append_right _ List.mem_cons_self
  rw [set, dif_pos known]
  exact entries_modify split _

theorem entries_set_of_not_mem (fresh : name ∉ t.keys) (new : α) :
    (t.set name new).entries = t.entries ++ [(name, new)] := by
  rw [set, dif_neg fresh]

theorem filter_ne_of_not_mem {l : List (String × α)} (h : name ∉ l.map Prod.fst) :
    l.filter (fun e => decide (e.1 ≠ name)) = l := by
  refine List.filter_eq_self.mpr fun e mem => ?_
  exact decide_eq_true fun same => h (same ▸ List.mem_map_of_mem mem)

theorem entries_erase (split : t.entries = pre ++ (name, value) :: post) :
    (t.erase name).entries = pre ++ post := by
  obtain ⟨before, after⟩ := not_mem_around split
  show t.entries.filter _ = _
  rw [split, List.filter_append, filter_ne_of_not_mem before, List.filter_cons_of_neg (by simp),
    filter_ne_of_not_mem after]

end Table

/-! ## 2. Changes of a list -/

/-- A registry as a list: names with their definitions, in the order of registration. -/
abbrev Listing (κ : Type) := List (String × Definition κ)

/-- The names of the list. -/
def Listing.names (l : Listing κ) : List String := l.map Prod.fst

/-- A change of a registry. -/
inductive Change (κ : Type) where
  | put (definition : Definition κ)
  | take (name : String)
  | edit (name : String) (change : Definition κ → Definition κ)

/-- The change of the registry that an event is. -/
def Event.change? : Event κ ι → Option (Change κ)
  | .registered d => some (.put d)
  | .removed name => some (.take name)
  | .edited name change => some (.edit name change)
  | _ => none

/-- The changes of the registry among some events. -/
def changesOf (events : List (Event κ ι)) : List (Change κ) := events.filterMap Event.change?

/-- What a change makes of a list. -/
inductive Rewrites : Change κ → Listing κ → Listing κ → Prop
  | appended {d : Definition κ} {l : Listing κ} (fresh : d.name ∉ l.names) :
      Rewrites (.put d) l (l ++ [(d.name, d)])
  | replaced {d old : Definition κ} {pre post : Listing κ} :
      Rewrites (.put d) (pre ++ (d.name, old) :: post) (pre ++ (d.name, d) :: post)
  | taken {name : String} {old : Definition κ} {pre post : Listing κ} :
      Rewrites (.take name) (pre ++ (name, old) :: post) (pre ++ post)
  | edited {name : String} {change : Definition κ → Definition κ} {old : Definition κ}
      {pre post : Listing κ} :
      Rewrites (.edit name change) (pre ++ (name, old) :: post) (pre ++ (name, change old) :: post)

/-- What some changes make of a list, the latest first. -/
inductive RewritesAll : List (Change κ) → Listing κ → Listing κ → Prop
  | none {l : Listing κ} : RewritesAll [] l l
  | next {c : Change κ} {changes : List (Change κ)} {l l' l'' : Listing κ}
      (before : RewritesAll changes l l') (h : Rewrites c l' l'') : RewritesAll (c :: changes) l l''

theorem RewritesAll.append {later earlier : List (Change κ)} {l l' l'' : Listing κ}
    (h : RewritesAll later l' l'') (before : RewritesAll earlier l l') :
    RewritesAll (later ++ earlier) l l'' := by
  induction h with
  | none => exact before
  | next _ h ih => exact (ih before).next h

/-- A name in the list was in it before, or has been put there. -/
theorem RewritesAll.names {changes : List (Change κ)} {l l' : Listing κ}
    (h : RewritesAll changes l l') {name : String} (mem : name ∈ l'.names) :
    name ∈ l.names ∨ ∃ d, .put d ∈ changes ∧ d.name = name := by
  induction h with
  | none => exact .inl mem
  | @next c changes l l' l'' _ h ih =>
      have earlier (old : name ∈ l'.names) :
          name ∈ l.names ∨ ∃ d, .put d ∈ c :: changes ∧ d.name = name := by
        rcases ih old with before | ⟨d, put, same⟩
        · exact .inl before
        · exact .inr ⟨d, List.mem_cons_of_mem _ put, same⟩
      simp only [Listing.names] at mem earlier
      cases h with
      | @appended d _ _ =>
          rw [List.map_append, List.mem_append] at mem
          rcases mem with old | new
          · exact earlier old
          · exact .inr ⟨d, List.mem_cons_self, (List.mem_singleton.mp new).symm⟩
      | replaced =>
          rw [List.map_append, List.map_cons] at mem earlier
          exact earlier mem
      | taken =>
          rw [List.map_append] at mem earlier
          exact earlier ((List.mem_append.mp mem).elim (List.mem_append_left _)
            fun later => List.mem_append_right _ (List.mem_cons_of_mem _ later))
      | edited =>
          rw [List.map_append, List.map_cons] at mem earlier
          exact earlier mem

namespace Listing

/-- Where the names of a list are distinct, a name stands at one place only. -/
theorem split_unique {pre pre' post post' : Listing κ} {name : String} {d d' : Definition κ}
    (distinct : (pre ++ (name, d) :: post).names.Nodup)
    (same : pre ++ (name, d) :: post = pre' ++ (name, d') :: post') :
    pre = pre' ∧ d = d' ∧ post = post' := by
  have once {l l' : Listing κ} {e : Definition κ} (h : (l ++ (name, e) :: l').names.Nodup) :
      ∀ x ∈ l, x.1 ≠ name := by
    intro x mem equal
    rw [names, List.map_append, List.map_cons, List.nodup_append] at h
    exact h.2.2 x.1 (List.mem_map_of_mem mem) name List.mem_cons_self equal
  have before := once distinct
  have before' := once (same ▸ distinct)
  induction pre generalizing pre' with
  | nil =>
      cases pre' with
      | nil =>
          obtain ⟨he, hp⟩ := List.cons.inj same
          exact ⟨rfl, (Prod.mk.inj he).2, hp⟩
      | cons x pre' =>
          obtain ⟨rfl, -⟩ := List.cons.inj same
          exact absurd rfl (before' _ List.mem_cons_self)
  | cons x pre ih =>
      cases pre' with
      | nil =>
          obtain ⟨rfl, -⟩ := List.cons.inj same
          exact absurd rfl (before _ List.mem_cons_self)
      | cons x' pre' =>
          obtain ⟨rfl, rest⟩ := List.cons.inj same
          obtain ⟨rfl, rfl, rfl⟩ := ih (List.nodup_cons.mp distinct).2 rest
            (fun y mem => before y (List.mem_cons_of_mem _ mem))
            fun y mem => before' y (List.mem_cons_of_mem _ mem)
          exact ⟨rfl, rfl, rfl⟩

theorem mem_names {pre post : Listing κ} {name : String} {d : Definition κ} :
    name ∈ Listing.names (pre ++ (name, d) :: post) := by
  rw [names, List.map_append]
  exact List.mem_append_right _ List.mem_cons_self

end Listing

/-- **A change makes one list of a list** whose names are distinct. -/
theorem Rewrites.unique {c : Change κ} {l l' l'' : Listing κ} (distinct : l.names.Nodup)
    (h : Rewrites c l l') (h' : Rewrites c l l'') : l'' = l' := by
  cases h with
  | appended fresh =>
      generalize hl : l = m at h' distinct
      cases h' with
      | appended _ => rfl
      | replaced => exact absurd (hl ▸ Listing.mem_names) fresh
  | @replaced d old pre post =>
      generalize hl : pre ++ (d.name, old) :: post = m at h' distinct
      cases h' with
      | appended fresh => exact absurd (hl ▸ Listing.mem_names) fresh
      | replaced =>
          obtain ⟨rfl, -, rfl⟩ := Listing.split_unique (hl ▸ distinct) hl
          rfl
  | @taken name old pre post =>
      generalize hl : pre ++ (name, old) :: post = m at h' distinct
      cases h' with
      | taken =>
          obtain ⟨rfl, -, rfl⟩ := Listing.split_unique (hl ▸ distinct) hl
          rfl
  | @edited name change old pre post =>
      generalize hl : pre ++ (name, old) :: post = m at h' distinct
      cases h' with
      | edited =>
          obtain ⟨rfl, rfl, rfl⟩ := Listing.split_unique (hl ▸ distinct) hl
          rfl

/-! ## 3. What a list answers -/

/-- The definition may be registered as far as it goes: it has a name, and is not its own parent. -/
def Definition.Fit (d : Definition κ) : Prop :=
  Text.isBlank d.name = false ∧ d.parent ≠ some d.name

/-- The request is about the world outside and not about the registry. -/
def RegistryRequest.isWorld : RegistryRequest κ ω → Bool
  | .world _ => true
  | _ => false

namespace Listing

/-- What a list answers to a request to the registry, and the list afterwards. -/
inductive Answers (overriding : Bool) (l : Listing κ) :
    (r : RegistryRequest κ ω) → r.Answer → Listing κ → Prop
  | registered {d : Definition κ} {l' : Listing κ} (fit : d.Fit)
      (room : d.name ∉ l.names ∨ overriding = true) (h : Rewrites (.put d) l l') :
      Answers overriding l (.register d) (.ok ()) l'
  | blank {d : Definition κ} (h : Text.isBlank d.name = true) :
      Answers overriding l (.register d) (.error (.invalidDefinition .blankName)) l
  | ownParent {d : Definition κ} (named : Text.isBlank d.name = false)
      (h : d.parent = some d.name) :
      Answers overriding l (.register d) (.error (.invalidDefinition (.ownParent d.name))) l
  | duplicate {d : Definition κ} (fit : d.Fit) (known : d.name ∈ l.names)
      (h : overriding = false) :
      Answers overriding l (.register d) (.error (.duplicateDefinition d.name)) l
  | removed {name : String} {d : Definition κ} {l' : Listing κ} (known : (name, d) ∈ l)
      (h : Rewrites (.take name) l l') : Answers overriding l (.remove name) (.ok d) l'
  | unremoved {name : String} (unknown : name ∉ l.names) :
      Answers overriding l (.remove name) (.error (.noSuchDefinition name)) l
  | found {name : String} {d : Definition κ} (known : (name, d) ∈ l) :
      Answers overriding l (.find name) (some d) l
  | missing {name : String} (unknown : name ∉ l.names) :
      Answers overriding l (.find name) none l
  | edited {name : String} {change : Definition κ → Definition κ} {l' : Listing κ}
      (known : name ∈ l.names) (h : Rewrites (.edit name change) l l') :
      Answers overriding l (.edit name change) true l'
  | unedited {name : String} {change : Definition κ → Definition κ} (unknown : name ∉ l.names) :
      Answers overriding l (.edit name change) false l
  | names : Answers overriding l .names l.names l
  | namesFor {capability : Capability} :
      Answers overriding l (.namesFor capability)
        ((l.filter fun e => e.2.declares capability).map Prod.fst) l

variable {overriding : Bool} {l l' l'' : Listing κ}

theorem eq_of_mem {name : String} {d d' : Definition κ} (distinct : l.names.Nodup)
    (h : (name, d) ∈ l) (h' : (name, d') ∈ l) : d' = d := by
  have found := (Table.lookup_eq_some_iff distinct name d).mpr h
  have found' := (Table.lookup_eq_some_iff distinct name d').mpr h'
  exact Option.some.inj (found'.symm.trans found)

theorem mem_names_of_mem {name : String} {d : Definition κ} (h : (name, d) ∈ l) :
    name ∈ l.names := List.mem_map_of_mem h

/-- **A list whose names are distinct has one answer to each request.** -/
theorem Answers.unique {r : RegistryRequest κ ω} {answer answer' : r.Answer}
    (distinct : l.names.Nodup) (h : Answers overriding l r answer l')
    (h' : Answers overriding l r answer' l'') : answer' = answer ∧ l'' = l' := by
  cases h with
  | registered fit room h =>
      cases h' with
      | registered _ _ h' => exact ⟨rfl, h.unique distinct h'⟩
      | blank blank => exact nomatch fit.1.symm.trans blank
      | ownParent _ own => exact absurd own fit.2
      | duplicate _ known off =>
          rcases room with new | on
          · exact absurd known new
          · exact nomatch off.symm.trans on
  | blank blank =>
      cases h' with
      | registered fit _ _ => exact nomatch fit.1.symm.trans blank
      | blank _ => exact ⟨rfl, rfl⟩
      | ownParent named _ => exact nomatch named.symm.trans blank
      | duplicate fit _ _ => exact nomatch fit.1.symm.trans blank
  | ownParent named own =>
      cases h' with
      | registered fit _ _ => exact absurd own fit.2
      | blank blank => exact nomatch named.symm.trans blank
      | ownParent _ _ => exact ⟨rfl, rfl⟩
      | duplicate fit _ _ => exact absurd own fit.2
  | duplicate fit known off =>
      cases h' with
      | registered _ room _ =>
          rcases room with new | on
          · exact absurd known new
          · exact nomatch off.symm.trans on
      | blank blank => exact nomatch fit.1.symm.trans blank
      | ownParent _ own => exact absurd own fit.2
      | duplicate _ _ _ => exact ⟨rfl, rfl⟩
  | removed known h =>
      cases h' with
      | removed known' h' =>
          rw [eq_of_mem distinct known known']
          exact ⟨rfl, h.unique distinct h'⟩
      | unremoved unknown => exact absurd (mem_names_of_mem known) unknown
  | unremoved unknown =>
      cases h' with
      | removed known _ => exact absurd (mem_names_of_mem known) unknown
      | unremoved _ => exact ⟨rfl, rfl⟩
  | found known =>
      cases h' with
      | found known' => exact ⟨congrArg some (eq_of_mem distinct known known'), rfl⟩
      | missing unknown => exact absurd (mem_names_of_mem known) unknown
  | missing unknown =>
      cases h' with
      | found known => exact absurd (mem_names_of_mem known) unknown
      | missing _ => exact ⟨rfl, rfl⟩
  | edited known h =>
      cases h' with
      | edited _ h' => exact ⟨rfl, h.unique distinct h'⟩
      | unedited unknown => exact absurd known unknown
  | unedited unknown =>
      cases h' with
      | edited known _ => exact absurd known unknown
      | unedited _ => exact ⟨rfl, rfl⟩
  | names =>
      cases h'
      exact ⟨rfl, rfl⟩
  | namesFor =>
      cases h'
      exact ⟨rfl, rfl⟩

end Listing

/-! ## 4. The registry, kept twice -/

/-- A registry kept twice: the names in order, and a map from names to definitions. -/
structure Twofold (κ : Type) where
  names : List String
  found : String → Option (Definition κ)

/-- What a change makes of a registry that is kept twice: each part is changed on its own. -/
def Change.keep (c : Change κ) (r : Twofold κ) : Twofold κ :=
  match c with
  | .put d =>
    { names := if (r.found d.name).isSome then r.names else r.names ++ [d.name]
      found := fun name => if name = d.name then some d else r.found name }
  | .take name =>
    { names := r.names.filter (· ≠ name)
      found := fun other => if other = name then none else r.found other }
  | .edit name change =>
    { names := r.names
      found := fun other => if other = name then (r.found other).map change else r.found other }

/-- The names of a capability: those whose definition declares it. -/
def Twofold.namesFor (r : Twofold κ) (capability : Capability) : List String :=
  r.names.filter fun name => (r.found name).any (·.declares capability)

namespace Container

/-- The definitions of a container, as a list. -/
def listing (c : Container κ ι) : Listing κ := c.definitions.entries

/-- The definitions of a container, kept twice. -/
def twofold (c : Container κ ι) : Twofold κ := ⟨c.definitions.keys, c.definitions.find?⟩

theorem names_listing (c : Container κ ι) : c.listing.names = c.definitions.keys := rfl

theorem mem_listing {c : Container κ ι} {name : String} {d : Definition κ} :
    (name, d) ∈ c.listing ↔ c.definitions.find? name = some d :=
  (c.definitions.find?_eq_some_iff name d).symm

theorem not_mem_names_listing {c : Container κ ι} {name : String} :
    name ∉ c.listing.names ↔ c.definitions.find? name = none := by
  rw [names_listing, ← Table.contains_iff_mem_keys, Table.contains, Bool.not_eq_true,
    Option.isSome_eq_false_iff, Option.isNone_iff_eq_none]

/-- **The names coincide with those that the map finds.** -/
theorem mem_names_iff_found (c : Container κ ι) (name : String) :
    name ∈ c.twofold.names ↔ (c.twofold.found name).isSome = true :=
  (c.definitions.contains_iff_mem_keys name).symm

/-- The names of a capability are the same in the list and in the registry kept twice. -/
theorem namesFor_twofold (c : Container κ ι) (capability : Capability) :
    c.twofold.namesFor capability = c.namesFor capability := by
  show (c.definitions.entries.map Prod.fst).filter _ = _
  rw [List.filter_map, Container.namesFor]
  refine congrArg _ (List.filter_congr fun e mem => ?_)
  have found : c.definitions.find? e.1 = some e.2 := (c.definitions.find?_eq_some_iff _ _).mpr mem
  show (c.definitions.find? e.1).any _ = _
  rw [found]
  rfl

/-! ## 5. Changes of a container -/

variable {c c' : Container κ ι} {d : Definition κ} {name : String}

theorem rewrites_register (h : c.register d = .ok c') : Rewrites (.put d) c.listing c'.listing := by
  unfold listing
  rw [definitions_register h]
  by_cases known : d.name ∈ c.definitions.keys
  · obtain ⟨old, found⟩ := Option.isSome_iff_exists.mp
      ((c.definitions.contains_iff_mem_keys d.name).mpr known)
    obtain ⟨pre, post, split⟩ := Table.exists_entries found
    rw [Table.entries_set_of_mem split, split]
    exact .replaced
  · rw [Table.entries_set_of_not_mem known]
    exact .appended known

theorem rewrites_remove (h : c.remove name = .ok (d, c')) :
    (name, d) ∈ c.listing ∧ Rewrites (.take name) c.listing c'.listing := by
  have found : c.definitions.find? name = some d := by
    unfold remove at h
    split at h
    · cases h
    · rename_i found
      cases h
      exact found
  refine ⟨mem_listing.mpr found, ?_⟩
  obtain ⟨pre, post, split⟩ := Table.exists_entries found
  rw [remove_eq h]
  show Rewrites _ c.definitions.entries (c.definitions.erase name).entries
  rw [Table.entries_erase split, split]
  exact .taken

theorem rewrites_edit {change : Definition κ → Definition κ}
    (known : c.definitions.contains name = true) :
    Rewrites (.edit name change) c.listing (c.edit name change).listing := by
  obtain ⟨old, found⟩ := Option.isSome_iff_exists.mp known
  obtain ⟨pre, post, split⟩ := Table.exists_entries found
  show Rewrites _ c.definitions.entries (c.definitions.modify name change).entries
  rw [Table.entries_modify split, split]
  exact .edited

theorem twofold_register (h : c.register d = .ok c') :
    c'.twofold = (Change.put d).keep c.twofold := by
  unfold twofold Change.keep
  rw [definitions_register h, Table.keys_set]
  congr 1
  · show _ = if c.definitions.contains d.name = true then _ else _
    simp only [Table.contains_iff_mem_keys]
  · funext other
    exact Table.find?_set _ _ _ _

theorem twofold_remove (h : c.remove name = .ok (d, c')) :
    c'.twofold = (Change.take name).keep c.twofold := by
  unfold twofold Change.keep
  rw [remove_eq h]
  congr 1
  · exact Table.keys_erase _ _
  · funext other
    exact Table.find?_erase _ _ _

theorem twofold_edit (change : Definition κ → Definition κ) :
    (c.edit name change).twofold = (Change.edit name change).keep c.twofold := by
  unfold twofold Change.keep
  congr 1
  · exact Table.keys_modify _ _ _
  · funext other
    exact Table.find?_modify _ _ _ _

theorem overriding_register (h : c.register d = .ok c') : c'.overriding = c.overriding := by
  rcases register_cases h with ⟨-, rfl⟩ | rfl <;> rfl

/-- What may be registered. -/
theorem fit_of_register (h : c.register d = .ok c') :
    d.Fit ∧ (d.name ∉ c.listing.names ∨ c.overriding = true) := by
  unfold register at h
  split at h
  · cases h
  · rename_i named
    split at h
    · cases h
    · rename_i own
      refine ⟨⟨Bool.eq_false_iff.mpr named, own⟩, ?_⟩
      split at h
      · split at h
        · rename_i on
          exact .inr on
        · cases h
      · rename_i new
        exact .inl fun known => new ((c.definitions.contains_iff_mem_keys d.name).mpr known)

/-- **What may not be registered is refused on the ground that the list refuses it on.** -/
theorem answers_refused {failure : Failure} (h : c.register d = .error failure) :
    Listing.Answers c.overriding c.listing (.register d : RegistryRequest κ ω) (.error failure)
      c.listing := by
  unfold register at h
  split at h
  · rename_i blank
    cases h
    exact .blank blank
  · rename_i named
    split at h
    · rename_i own
      cases h
      exact .ownParent (Bool.eq_false_iff.mpr named) own
    · rename_i own
      split at h
      · rename_i known
        split at h
        · cases h
        · rename_i off
          cases h
          exact .duplicate ⟨Bool.eq_false_iff.mpr named, own⟩
            ((c.definitions.contains_iff_mem_keys d.name).mp known) (Bool.eq_false_iff.mpr off)
      · cases h

/-! ## 6. One request -/

end Container

/-- The changes of the registry that a request has made, if that was its answer. -/
def RegistryRequest.changes : (r : RegistryRequest κ ω) → r.Answer → List (Change κ)
  | .register d, .ok () => [.put d]
  | .remove name, .ok _ => [.take name]
  | .edit name change, true => [.edit name change]
  | _, _ => []

/-- The request was refused. -/
def RegistryRequest.refused : (r : RegistryRequest κ ω) → r.Answer → Bool
  | .register _, .error _ => true
  | .remove _, .error _ => true
  | _, _ => false

namespace Container

open Act

/-- **A container answers each request to the registry as its list does**, in every state. Its
    history says what has changed, and after a refusal the whole state is as it was. -/
theorem serve_registry_answers (b : Behaviour κ ι ω) (depth : Nat) (view : View)
    (r : RegistryRequest κ ω) (listed : r.isWorld = false) (s : State κ ι ω) :
    ∃ answer s', serve b depth view (.registry r) s = some (answer, s') ∧
      Listing.Answers s.container.overriding s.container.listing r answer s'.container.listing ∧
      (∃ events, s'.history = events ++ s.history ∧
        changesOf events = r.changes answer) ∧
      (r.refused answer = true → s' = s) := by
  rw [serve_registry]
  cases r with
  | register d =>
      rcases h : s.container.register d with failure | c
      · refine ⟨.error failure, s, ?_, answers_refused h, ⟨[], rfl, rfl⟩, fun _ => rfl⟩
        unfold answerRegistry
        simp only [run_bind, run_container, h, run_pure]
      · obtain ⟨fit, room⟩ := fit_of_register h
        have answers : Listing.Answers s.container.overriding s.container.listing
            (.register d : RegistryRequest κ ω) (.ok ()) c.listing :=
          .registered fit room (rewrites_register h)
        by_cases known : s.container.definitions.contains d.name = true
        · refine ⟨.ok (), { s with container := c, history := _ }, ?_, answers,
            ⟨[.registered d, .announced (.registering d.name d.kind),
              .announced (.overriding d.name)], rfl, rfl⟩, nofun⟩
          unfold answerRegistry
          simp only [run_bind, run_container, h, if_pos known, run_announce, run_record,
            run_changeContainer, run_pure]
          rfl
        · refine ⟨.ok (), { s with container := c, history := _ }, ?_, answers,
            ⟨[.registered d, .announced (.registering d.name d.kind)], rfl, rfl⟩, nofun⟩
          unfold answerRegistry
          simp only [run_bind, run_container, h, if_neg known, run_announce, run_record,
            run_changeContainer, run_pure]
          rfl
  | remove name =>
      rcases h : s.container.remove name with failure | ⟨d, c⟩
      · have unknown : s.container.definitions.find? name = none ∧
            failure = .noSuchDefinition name := by
          unfold Container.remove at h
          split at h
          · rename_i unknown
            cases h
            exact ⟨unknown, rfl⟩
          · cases h
        obtain ⟨unknown, rfl⟩ := unknown
        refine ⟨.error _, s, ?_, .unremoved ?_, ⟨[], rfl, rfl⟩, fun _ => rfl⟩
        · unfold answerRegistry
          simp only [run_bind, run_container, h, run_pure]
        · exact not_mem_names_listing.mpr unknown
      · obtain ⟨known, rewrites⟩ := rewrites_remove h
        refine ⟨.ok d, { s with container := c, history := _ }, ?_, .removed known rewrites,
          ⟨[.removed name, .announced (.removed name)], rfl, rfl⟩, nofun⟩
        unfold answerRegistry
        simp only [run_bind, run_container, h, run_announce, run_record, run_changeContainer,
          run_pure]
        rfl
  | find name =>
      refine ⟨s.container.definitions.find? name, s, rfl, ?_, ⟨[], rfl, rfl⟩, nofun⟩
      rcases h : s.container.definitions.find? name with _ | d
      · exact .missing (not_mem_names_listing.mpr h)
      · exact .found (mem_listing.mpr h)
  | edit name change =>
      rcases known : s.container.definitions.contains name with _ | _
      · refine ⟨false, s, ?_, .unedited fun mem => ?_, ⟨[], rfl, rfl⟩, nofun⟩
        · unfold answerRegistry
          simp only [run_bind, run_container, known]
          rfl
        · exact nomatch known.symm.trans ((Table.contains_iff_mem_keys _ _).mpr mem)
      · refine ⟨true, { s with container := s.container.edit name change, history := _ }, ?_,
          .edited ((Table.contains_iff_mem_keys _ _).mp known) (rewrites_edit known),
          ⟨[.edited name change], rfl, rfl⟩, nofun⟩
        unfold answerRegistry
        simp only [run_bind, run_container, known]
        rfl
  | names => exact ⟨_, s, rfl, .names, ⟨[], rfl, rfl⟩, nofun⟩
  | namesFor capability => exact ⟨_, s, rfl, .namesFor, ⟨[], rfl, rfl⟩, nofun⟩
  | world change => cases listed

/-! ## 7. Whatever happens -/

/-- What has happened in between has changed the registry as it changes a list, and a registry that
    is kept twice. -/
structure Relisted (s s' : State κ ι ω) : Prop where
  overriding : s'.container.overriding = s.container.overriding
  changes : ∃ events, s'.history = events ++ s.history ∧
    RewritesAll (changesOf events) s.container.listing s'.container.listing ∧
    s'.container.twofold = (changesOf events).foldr Change.keep s.container.twofold

namespace Relisted

variable {s s' s'' : State κ ι ω}

theorem refl (s : State κ ι ω) : Relisted s s := ⟨rfl, [], rfl, .none, rfl⟩

theorem trans (h₁ : Relisted s s') (h₂ : Relisted s' s'') : Relisted s s'' := by
  obtain ⟨earlier, past₁, listed₁, kept₁⟩ := h₁.changes
  obtain ⟨later, past₂, listed₂, kept₂⟩ := h₂.changes
  have both : changesOf (later ++ earlier) = changesOf later ++ changesOf earlier :=
    List.filterMap_append
  refine ⟨h₂.overriding.trans h₁.overriding, later ++ earlier, ?_, ?_, ?_⟩
  · rw [past₂, past₁, List.append_assoc]
  · rw [both]
    exact listed₂.append listed₁
  · rw [both, List.foldr_append, ← kept₁]
    exact kept₂

/-- A single change. -/
theorem one {e : Event κ ι} {c : Change κ} {c' : Container κ ι} (change : e.change? = some c)
    (overriding : c'.overriding = s.container.overriding)
    (listed : Rewrites c s.container.listing c'.listing)
    (kept : c'.twofold = c.keep s.container.twofold) :
    Relisted s { s with container := c', history := e :: s.history } := by
  have single : changesOf [e] = [c] := List.filterMap_cons_some change
  refine ⟨overriding, [e], rfl, ?_, ?_⟩
  · rw [single]
    exact .next .none listed
  · rw [single]
    exact kept

/-- Events that are no changes. -/
theorem quiet (events : List (Event κ ι)) (past : s'.history = events ++ s.history)
    (none : changesOf events = [])
    (definitions : s'.container.definitions = s.container.definitions)
    (overriding : s'.container.overriding = s.container.overriding) : Relisted s s' := by
  refine ⟨overriding, events, past, ?_, ?_⟩
  · rw [none, listing, listing, definitions]
    exact .none
  · rw [none, twofold, definitions]
    rfl

theorem watched (h : Watched s s') : Relisted s s' := by
  obtain ⟨events, past, watch⟩ := h.history
  refine quiet events past (List.filterMap_eq_nil_iff.mpr fun e mem => ?_) (by rw [h.container])
    (by rw [h.container])
  have := watch e mem
  cases e <;> first | rfl | cases this

end Relisted

theorem Step.relisted {s s' : State κ ι ω} (h : Step s s') : Relisted s s' := by
  cases h with
  | announced n => exact .quiet [_] rfl rfl rfl rfl
  | registryHook e => exact .quiet [_] rfl rfl rfl rfl
  | factoryHook e => exact .quiet [_] rfl rfl rfl rfl
  | registered h =>
      exact .one rfl (overriding_register h) (rewrites_register h) (twofold_register h)
  | removed h =>
      exact .one rfl (by rw [remove_eq h]; rfl) (rewrites_remove h).2 (twofold_remove h)
  | edited known => exact .one rfl rfl (rewrites_edit known) (twofold_edit _)
  | world w => exact .quiet [] rfl rfl rfl rfl
  | numbered => exact .quiet [] rfl rfl rfl rfl
  | merged new h => exact .quiet [_] rfl rfl rfl rfl
  | attached e => exact .quiet [_] rfl rfl rfl rfl
  | cleared => exact .quiet [] rfl rfl rfl rfl

section Courses

variable {b : Behaviour κ ι ω} {s s' : State κ ι ω}

/-- **Whatever happens, list and twofold registry go the same way.** -/
theorem Course.relisted (h : Course b s s') : Relisted s s' := by
  induction h with
  | refl s => exact .refl s
  | trans _ _ ih₁ ih₂ => exact ih₁.trans ih₂
  | step h => exact h.relisted
  | @unmade s s₁ name _ shown =>
      have begins : Relisted s (beginning s name) := .quiet [_] rfl rfl rfl rfl
      exact (begins.trans (.watched shown)).trans (.quiet [_] rfl rfl rfl rfl)
  | @failed s s₁ s₂ s₃ name d _ _ shown _ passed ih =>
      have begins : Relisted s (beginning s name) := .quiet [_] rfl rfl rfl rfl
      have supplies : Relisted s₁ (supplied s₁ name d) := .quiet [_] rfl rfl rfl rfl
      have ends : Relisted s₃ (ending s₃ name) := .quiet [_] rfl rfl rfl rfl
      exact (((begins.trans (.watched shown)).trans supplies).trans ih).trans
        (.trans (.watched passed) ends)
  | @component s s₁ s₂ s₃ name m value _ _ _ _ _ _ shown _ passed ih =>
      have begins : Relisted s (beginning s name) := .quiet [_] rfl rfl rfl rfl
      have supplies : Relisted s₁ (supplied s₁ name m.definition) := .quiet [_] rfl rfl rfl rfl
      have ends : Relisted s₃ (madeComponent s₃ name value) := .quiet [_, _] rfl rfl rfl rfl
      exact (((begins.trans (.watched shown)).trans supplies).trans ih).trans
        (.trans (.watched passed) ends)
  | @extension s s₁ name d family code _ _ _ _ _ _ ih =>
      have begins : Relisted s (supplying s name d) := .quiet [_, _] rfl rfl rfl rfl
      exact (begins.trans ih).trans (.quiet [_, _, _] rfl rfl rfl rfl)

/-- The same at all moments of a run. -/
theorem Moment.relisted {depth : Nat} {view : View} {p : FactoryProgram κ ι ω α}
    {names : List String} {t : State κ ι ω} (h : Moment b depth view p s names t) :
    Relisted s t := by
  refine h.keeps (I := fun t => Relisted s t) (fun course hs => hs.trans course.relisted)
    (fun watched hs => hs.trans (.watched watched)) ?_ ?_ (.refl s)
  · exact fun hs _ => hs.trans (.quiet [_] rfl rfl rfl rfl)
  · exact fun _ _ _ hs => hs.trans (.quiet [_] rfl rfl rfl rfl)

/-- The end of a run is a moment of it. -/
theorem Moment.of_run {depth : Nat} {view : View} {p : FactoryProgram κ ι ω α} {a : α}
    {t : State κ ι ω} (h : p.run (serve b depth view) s = some (a, t)) :
    Moment b depth view p s [] t := by
  induction p generalizing s with
  | done a' =>
      cases h
      exact .now _ _
  | ask r next ih =>
      rw [Program.run] at h
      rcases served : serve b depth view r s with _ | ⟨answer, s₁⟩
      · rw [served] at h
        cases h
      · rw [served] at h
        exact .later served (ih answer h)

/-! ## 8. At all moments -/

/-- The queries to a container, put to its list and to the registry that is kept twice. -/
structure InStep (c : Container κ ι) : Prop where
  distinct : c.listing.names.Nodup
  names : c.definitions.keys = c.listing.names
  size : c.definitions.size = c.listing.length
  contains (name : String) : c.definitions.contains name = true ↔ name ∈ c.listing.names
  found (name : String) (d : Definition κ) :
    c.definitions.find? name = some d ↔ (name, d) ∈ c.listing
  namesFor (capability : Capability) : c.namesFor capability =
    (c.listing.filter fun e => e.2.declares capability).map Prod.fst
  mapped (name : String) : name ∈ c.twofold.names ↔ (c.twofold.found name).isSome = true
  twofold (capability : Capability) : c.twofold.namesFor capability = c.namesFor capability

theorem inStep (c : Container κ ι) : InStep c where
  distinct := c.definitions.distinct
  names := rfl
  size := rfl
  contains := c.definitions.contains_iff_mem_keys
  found := c.definitions.find?_eq_some_iff
  namesFor _ := rfl
  mapped := mem_names_iff_found c
  twofold := namesFor_twofold c

/-- **The registry is a list in the order of registration**, whatever has been asked for, at top
    level or by suppliers and hooks, and under either policy of overriding. At every moment of
    every run, whatever was run before it, the changes so far have made it of the list at the
    beginning, and of the names and the map apart; all queries agree with it; and the next request
    to the registry gets the one answer that the list gives, is recorded as the change that the list
    goes through, and if it is refused leaves the whole state as it was. -/
theorem registry_is_ordered_list (b : Behaviour κ ι ω) (s s' : State κ ι ω) (before : Runs b s s')
    (depth : Nat) (view : View) (p : FactoryProgram κ ι ω α) (names : List String)
    (t : State κ ι ω) (moment : Moment b depth view p s' names t) :
    Relisted s t ∧ InStep t.container ∧
      ∀ (depth' : Nat) (view' : View) (r : RegistryRequest κ ω), r.isWorld = false →
        ∃ answer t', serve b depth' view' (.registry r) t = some (answer, t') ∧
          (∀ answer' l, Listing.Answers t.container.overriding t.container.listing r answer' l ↔
            answer' = answer ∧ l = t'.container.listing) ∧
          (∃ events, t'.history = events ++ t.history ∧ changesOf events = r.changes answer) ∧
          (r.refused answer = true → t' = t) := by
  refine ⟨before.course.relisted.trans moment.relisted, inStep _, fun depth' view' r listed => ?_⟩
  obtain ⟨answer, t', served, answers, changes, refused⟩ :=
    serve_registry_answers b depth' view' r listed t
  refine ⟨answer, t', served, fun answer' l => ⟨?_, ?_⟩, changes, refused⟩
  · exact answers.unique t.container.definitions.distinct
  · rintro ⟨rfl, rfl⟩
    exact answers

/-- A component definition. -/
def item (name : String) (code : Bool) : Definition Bool :=
  { name, typeName := "C", kind := .component, supplier := code }

/-- The behaviour where the supplier of `true` replaces a definition and removes another one. -/
def rearranging : Behaviour Bool Unit Unit where
  name _ := ""
  supply code :=
    if code then
      .ask (.registry (.register (item "first" true))) fun _ =>
        .ask (.registry (.remove "second")) fun _ => .done (.ok ())
    else .done (.ok ())
  build code := .done (.ok code)
  onRegistry _ := .done (.ok ())
  onFactory _ := .done (.ok ())
  mergedAware _ := false
  onMerged _ _ _ world := (.ok (), world)
  before _ value _ world := (.ok value, world)
  after _ value _ world := (.ok value, world)

/-- A container with such a supplier. -/
def arranged : State Bool Unit Unit where
  container := { definitions :=
    ((Table.empty.set "first" (item "first" false)).set "second"
      (item "second" false)).set "third" (item "third" true) }
  world := ()

/-- A request for the component with such a supplier. -/
def thirdRequest : FactoryProgram Bool Unit Unit (Except Failure Unit) :=
  Program.request (I := factoryInterface _ _ _) (.component "third")

/-- When such a supplier is done, the definition it has replaced is in its place, the one it has
    removed is gone, and to remove that one again is refused and changes nothing. -/
theorem arranged_is_ordered_list :
    ∃ t, Moment rearranging 1 .full thirdRequest arranged ["third"] t ∧
      t.container.listing = [("first", item "first" true), ("third", item "third" true)] ∧
      Relisted arranged t ∧
      serve rearranging 0 .full (.registry (.remove "second")) t =
        some (.error (.noSuchDefinition "second"), t) := by
  have staged : (opening rearranging "third" arranged).any (fun r =>
      r.1.definition.supplier && (run rearranging 0 .full (rearranging.supply true) r.2).any fun r =>
        r.2.container.listing == [("first", item "first" true), ("third", item "third" true)]) =
      true := by
    decide +kernel
  obtain ⟨⟨m, s₁⟩, opens, passes⟩ := (Option.any_eq_true _ _).mp staged
  obtain ⟨supplier, supplied⟩ := Bool.and_eq_true_iff.mp passes
  obtain ⟨⟨a, t⟩, supply, listing⟩ := (Option.any_eq_true _ _).mp supplied
  have started := @enters_of_opening _ _ _ rearranging arranged s₁ "third" m .full opens
  rw [show m.definition.supplier = true from supplier] at started
  have moment : Moment rearranging 1 .full thirdRequest arranged ["third"] t :=
    .within started (.of_run supply)
  have listed : t.container.listing = [("first", item "first" true), ("third", item "third" true)] :=
    beq_iff_eq.mp listing
  obtain ⟨relisted, -, next⟩ := registry_is_ordered_list rearranging arranged arranged .refl 1 .full
    thirdRequest ["third"] t moment
  obtain ⟨answer, t', served, answers, -, refused⟩ := next 0 .full (.remove "second") rfl
  have unknown : "second" ∉ t.container.listing.names := by
    rw [listed]
    decide
  obtain ⟨rfl, -⟩ := (answers _ _).mp (.unremoved unknown)
  obtain rfl := refused rfl
  exact ⟨t', moment, listed, relisted, served⟩

end Courses

end Container

end ComponentContainer
