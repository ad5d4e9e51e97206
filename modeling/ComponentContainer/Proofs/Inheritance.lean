/-
  File:      ComponentContainer/Proofs/Inheritance.lean
  Subject:   What a definition is merged to, whatever its parents are.

  The links to the parents can lead anywhere: in a circle, or to a name that is not there.

  * `Merges` -- the three ends of a walk and what follows from each: a name that is not there, a name
    that was passed already, or a definition without a parent, where the nearest definition decides
    on each attribute.
  * `exists_merges` -- **every walk that passes no name twice comes to an end**, for there are only so
    many definitions.
  * `merges_iff` -- **what is merged is what the walk comes to**, and the bound on the links is never
    met.
  * `merged_as_inherited` -- the request for a merged definition, with what it leaves behind.
-/
import ComponentContainer.Proofs.Staleness
import Mathlib.Data.List.Sort

namespace ComponentContainer

variable {κ ι ω : Type}

/-! ## 1. Attributes by their look-ups -/

/-- The entries are what look-ups find. -/
theorem Attributes.mem_entries_iff (a : Attributes) (key value : String) :
    (key, value) ∈ a.entries ↔ a.get? key = some value := by
  have distinct : (a.entries.map Prod.fst).Nodup := by
    refine List.pairwise_map.mpr (a.ascending.imp fun {e e'} before same => ?_)
    rw [same] at before
    exact String.lt_irrefl _ before
  exact (Table.lookup_eq_some_iff distinct key value).symm

/-- **Attributes with the same look-ups are the same**: the order of the keys is settled. -/
theorem Attributes.eq_of_get? {a a' : Attributes} (same : ∀ key, a.get? key = a'.get? key) :
    a = a' := by
  have irrefl : Std.Irrefl fun e e' : String × String => e.1 < e'.1 := ⟨fun e => String.lt_irrefl _⟩
  have asymm : Std.Asymm fun e e' : String × String => e.1 < e'.1 := ⟨fun e e' => String.lt_asymm⟩
  have entries : a.entries = a'.entries := by
    refine a.ascending.eq_of_mem_iff a'.ascending fun ⟨key, value⟩ => ?_
    rw [a.mem_entries_iff, a'.mem_entries_iff, same]
  cases a
  cases a'
  cases entries
  rfl

namespace Container

variable {t : Table (Definition κ)} {first next : Option String} {name : String}
  {trail : List (String × Definition κ)}

/-! ## 2. What a walk comes to -/

/-- The nearest definition of a line that sets the key gives it this value; or none sets it. -/
def Decides (line : List (Definition κ)) (key : String) : Option String → Prop
  | none => ∀ d ∈ line, d.attributes.get? key = none
  | some value => ∃ nearer d farther, line = nearer ++ d :: farther ∧
      d.attributes.get? key = some value ∧ ∀ other ∈ nearer, other.attributes.get? key = none

/-- What a name is merged to. One walks along the parents, passing no name twice, and comes first

    - to a name that is not there;
    - to a name that was passed already; or
    - to the end: all is the definition's own but for the attributes, on which the nearest
      definition of the line decides. -/
inductive Merges (t : Table (Definition κ)) (name : String) :
    Except Failure (MergedDefinition κ) → Prop
  | dangling {trail : List (String × Definition κ)} {p : String}
      (walk : Trail t (some name) trail (some p)) (once : (trail.map Prod.fst).Nodup)
      (missing : t.find? p = none) : Merges t name (.error (.noSuchDefinition p))
  | circular {trail : List (String × Definition κ)} {p : String}
      (walk : Trail t (some name) trail (some p)) (once : (trail.map Prod.fst).Nodup)
      (passed : p ∈ trail.map Prod.fst) : Merges t name (.error (.circularReference name))
  | whole {d : Definition κ} {rest : List (String × Definition κ)} {attributes : Attributes}
      (walk : Trail t (some name) ((name, d) :: rest) none)
      (once : (((name, d) :: rest).map Prod.fst).Nodup)
      (decides : ∀ key, Decides (d :: rest.map Prod.snd) key (attributes.get? key)) :
      Merges t name (.ok ⟨{ d with attributes }⟩)

/-- The first value along a line decides. -/
theorem decides_iff {line : List (Definition κ)} {key : String} {value : Option String} :
    Decides line key value ↔ value = line.findSome? (·.attributes.get? key) := by
  cases value with
  | none => rw [eq_comm, List.findSome?_eq_none_iff, Decides]
  | some value =>
      rw [eq_comm, List.findSome?_eq_some_iff]
      simp only [Decides]

/-- The attributes of a merged definition are those that its line decides on. -/
theorem ofAncestry_eq_iff {d : Definition κ} {ancestors : List (Definition κ)}
    {attributes : Attributes} : .ofAncestry d ancestors = MergedDefinition.mk { d with attributes } ↔
      ∀ key, Decides (d :: ancestors) key (attributes.get? key) := by
  have line := MergedDefinition.get?_inherited (d :: ancestors)
  constructor
  · intro same key
    rw [decides_iff, ← line]
    rw [MergedDefinition.ofAncestry, MergedDefinition.mk.injEq] at same
    exact (congrArg (·.attributes.get? key) same).symm
  · intro decides
    have same : MergedDefinition.inherited (d :: ancestors) = attributes :=
      Attributes.eq_of_get? fun key => (line key).trans (decides_iff.mp (decides key)).symm
    rw [MergedDefinition.ofAncestry, same]

/-- **A walk that passes no name twice has come to an end or goes on.** -/
theorem Trail.step (walk : Trail t (some name) trail next) (once : (trail.map Prod.fst).Nodup) :
    (∃ result, Merges t name result) ∨ ∃ trail' next', Trail t (some name) trail' next' ∧
      (trail'.map Prod.fst).Nodup ∧ trail'.length = trail.length + 1 := by
  cases next with
  | none =>
      cases walk with
      | cons found walk => exact .inl ⟨_, .whole (.cons found walk) once (ofAncestry_eq_iff.mp rfl)⟩
  | some p =>
      by_cases passed : p ∈ trail.map Prod.fst
      · exact .inl ⟨_, .circular walk once passed⟩
      cases found : t.find? p with
      | none => exact .inl ⟨_, .dangling walk once found⟩
      | some d =>
          refine .inr ⟨trail ++ [(p, d)], d.parent, walk.concat found, ?_, by simp⟩
          rw [List.map_append, List.map_singleton]
          refine List.nodup_append.mpr ⟨once, List.nodup_singleton _, ?_⟩
          rintro other mem _ new rfl
          rw [List.mem_singleton.mp new] at mem
          exact passed mem

/-- **Every walk comes to an end**: there are only so many definitions. -/
theorem exists_merges (t : Table (Definition κ)) (name : String) : ∃ result, Merges t name result := by
  have onward (n : Nat) : (∃ result, Merges t name result) ∨ ∃ trail next,
      Trail t (some name) trail next ∧ (trail.map Prod.fst).Nodup ∧ trail.length = n := by
    induction n with
    | zero => exact .inr ⟨[], some name, .nil, List.nodup_nil, rfl⟩
    | succ n ih =>
        rcases ih with ended | ⟨trail, next, walk, once, rfl⟩
        · exact .inl ended
        · exact walk.step once
  rcases onward (t.size + 1) with ended | ⟨trail, next, walk, once, length⟩
  · exact ended
  · have := walk.length_le once
    omega

/-- **What is merged is what the walk comes to.** -/
theorem merges_iff {result : Except Failure (MergedDefinition κ)} :
    Merges t name result ↔ result = freshMerge t name := by
  have forward {result : Except Failure (MergedDefinition κ)} (merges : Merges t name result) :
      result = freshMerge t name := by
    cases merges with
    | @dangling trail p walk once missing =>
        have unseen : p ∉ trail.map Prod.fst := by
          intro passed
          have known := (t.contains_iff_mem_keys p).mpr (walk.mem_keys passed)
          simp [Table.contains, missing] at known
        cases trail with
        | nil =>
            cases walk
            rw [freshMerge, missing]
        | cons own rest =>
            obtain ⟨more, fresh⟩ := freshMerge_trail walk once
            rw [fresh, ancestorsWithin, if_neg (mt List.mem_reverse.mp unseen), missing]
            rfl
    | @circular trail p walk once passed =>
        cases trail with
        | nil => cases passed
        | cons own rest =>
            obtain ⟨more, fresh⟩ := freshMerge_trail walk once
            rw [fresh, ancestorsWithin, if_pos (List.mem_reverse.mpr passed)]
            rfl
    | @whole d rest attributes walk once decides =>
        obtain ⟨more, fresh⟩ := freshMerge_trail walk once
        rw [fresh, ancestorsWithin_none, ← ofAncestry_eq_iff.mpr decides]
        simp [Except.map]
  refine ⟨forward, ?_⟩
  rintro rfl
  obtain ⟨result, merges⟩ := exists_merges t name
  exact forward merges ▸ merges

/-! ## 3. The request -/

/-- **A definition is merged to what its parents come to.** Where nothing is remembered under a name,
    whatever definitions there are and wherever their parents lead, the request for its merged
    definition comes to an end. Its result is what the walk along the parents comes to, and that is
    one only. If it fails, nothing has changed; otherwise the merged definition is remembered under
    the name, and nothing else has changed. -/
theorem merged_as_inherited (b : Behaviour κ ι ω) (depth : Nat) (view : View) (s : State κ ι ω)
    (name : String) (new : s.container.merged.find? name = none) :
    ∃ result s', serve b depth view (.merged name) s = some (result, s') ∧
      (∀ other, Merges s.container.definitions name other ↔ other = result) ∧
      (∀ failure, result = .error failure → s' = s) ∧
      ∀ m, result = .ok m → s' = { s with
        container := { s.container with merged := s.container.merged.set name m }
        history := .merged name :: s.history } := by
  rw [serve_merged, outcome_mergedDefinition, new]
  refine ⟨freshMerge s.container.definitions name, ?_⟩
  cases fresh : freshMerge s.container.definitions name with
  | error failure => exact ⟨s, rfl, fun other => fresh ▸ merges_iff, fun _ _ => rfl, by rintro m ⟨⟩⟩
  | ok m =>
      refine ⟨_, rfl, fun other => fresh ▸ merges_iff, by rintro failure ⟨⟩, ?_⟩
      rintro m' ⟨⟩
      rfl

/-- A definition with a parent, if any, and attributes. -/
def member (name : String) (parent : Option String) (attributes : List (String × String)) :
    Definition Bool :=
  { definitionOfA false with
    name, parent, attributes := attributes.foldl (fun a e => a.set e.1 e.2) .empty }

/-- A line of three, a definition with a parent that is not there, and one whose parents go in a circle
    without it. -/
def family : List (Definition Bool) :=
  [member "leaf" (some "stem") [("zone", "UTC")],
    member "stem" (some "root") [("zone", "CET"), ("scope", "all")],
    member "root" none [("owner", "ops"), ("scope", "some")],
    member "stray" (some "nowhere") [],
    member "ring" (some "left") [], member "left" (some "right") [],
    member "right" (some "left") []]

/-- A container with the family's definitions. -/
def housing : State Bool Nat Unit where
  container := { definitions := family.foldl (fun t d => t.set d.name d) .empty }
  world := ()

/-- One of each end, and for the line of three which definition decides on each attribute. -/
theorem family_merged_as_inherited : housing.container.merged.find? "leaf" = none ∧
    (∃ s' m, serve fleeting 0 .full (.merged "leaf") housing = some (.ok m, s') ∧
      m.definition.attributes.entries = [("owner", "ops"), ("scope", "all"), ("zone", "UTC")] ∧
      m.definition.parent = some "stem" ∧ s'.container.merged.find? "leaf" = some m) ∧
    serve fleeting 0 .full (.merged "stray") housing =
      some (.error (.noSuchDefinition "nowhere"), housing) ∧
    serve fleeting 0 .full (.merged "ring") housing =
      some (.error (.circularReference "ring"), housing) := by
  refine ⟨rfl, ?_, ?_, ?_⟩
  · obtain ⟨result, s', served, only, -, passed⟩ :=
      merged_as_inherited fleeting 0 .full housing "leaf" rfl
    have ending : Merges housing.container.definitions "leaf" (.ok ⟨{
        member "leaf" (some "stem") [("zone", "UTC")] with
        attributes := ⟨[("owner", "ops"), ("scope", "all"), ("zone", "UTC")], by decide⟩ }⟩) :=
      .whole (.cons rfl (.cons rfl (.cons rfl .nil))) (by decide) (ofAncestry_eq_iff.mp rfl)
    obtain rfl := (only _).mp ending
    obtain rfl := passed _ rfl
    exact ⟨_, _, served, rfl, rfl, by rw [Table.find?_set, if_pos rfl]⟩
  · obtain ⟨result, s', served, only, failed, -⟩ :=
      merged_as_inherited fleeting 0 .full housing "stray" rfl
    have ending : Merges housing.container.definitions "stray" (.error (.noSuchDefinition "nowhere")) :=
      .dangling (.cons rfl .nil) (by decide) rfl
    obtain rfl := (only _).mp ending
    rw [served, failed _ rfl]
  · obtain ⟨result, s', served, only, failed, -⟩ :=
      merged_as_inherited fleeting 0 .full housing "ring" rfl
    have ending : Merges housing.container.definitions "ring" (.error (.circularReference "ring")) :=
      .circular (.cons rfl (.cons rfl (.cons rfl .nil))) (by decide) (by decide)
    obtain rfl := (only _).mp ending
    rw [served, failed _ rfl]

end Container

end ComponentContainer
