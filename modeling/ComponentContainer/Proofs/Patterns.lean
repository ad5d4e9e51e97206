/-
  File:      ComponentContainer/Proofs/Patterns.lean
  Subject:   Lists of patterns in a text.

  * `splitOn_eq` -- cutting a text at a character is what the library calls so.
  * `Trimmed` -- what is left of a text without the blanks around it, said without a way to get
    there; `trimmed_iff` -- there is one such rest, and trimming finds it.
  * `Listed` -- the patterns that a text lists: the pieces between its commas, trimmed; blank ones do
    not count. `listed_iff` -- **these are the patterns that are read from the text.**
  * `Plain` -- a pattern that can stand in a list; `patterns_intercalate` -- **a list of such patterns
    is read back from its text.**
-/
import ComponentContainer.Text.Pieces
import Mathlib.Data.List.Forall2
import Mathlib.Data.List.TakeWhile

namespace ComponentContainer.Text

/-! ## 1. Cutting -/

/-- **Cutting a text at a character** is the library's way to cut a list at an element. -/
theorem splitOn_eq (sep : Char) (cs : List Char) : splitOn sep cs = cs.splitOn sep := by
  induction cs with
  | nil => rfl
  | cons c rest ih =>
      rw [List.splitOn_cons_eq_if_modifyHead, splitOn, ih]
      rcases pieces : rest.splitOn sep with _ | ⟨piece, pieces⟩
      · exact absurd pieces (List.splitOn_ne_nil sep rest)
      · by_cases h : c = sep <;> simp [h]

/-- No piece contains the separator. -/
theorem not_mem_of_mem_splitOn {sep : Char} {cs piece : List Char} (mem : piece ∈ splitOn sep cs) :
    sep ∉ piece := by
  induction cs generalizing piece with
  | nil =>
      rw [List.mem_singleton.mp mem]
      exact List.not_mem_nil
  | cons c rest ih =>
      rw [splitOn] at mem
      split at mem
      · rw [List.mem_singleton.mp mem]
        exact List.not_mem_nil
      · rename_i first others pieces
        have apart : ∀ piece ∈ first :: others, sep ∉ piece := fun piece mem => ih (pieces ▸ mem)
        split at mem
        · rcases List.mem_cons.mp mem with rfl | mem
          · exact List.not_mem_nil
          · exact apart piece mem
        · rename_i other
          rcases List.mem_cons.mp mem with rfl | mem
          · simp [Ne.symm other, apart first List.mem_cons_self]
          · exact apart piece (List.mem_cons_of_mem first mem)

/-- The pieces of a text are those that make it up with the separator between them and do not
    contain it. -/
theorem splitOn_eq_iff {sep : Char} {cs : List Char} {pieces : List (List Char)} :
    splitOn sep cs = pieces ↔
      pieces ≠ [] ∧ (∀ piece ∈ pieces, sep ∉ piece) ∧ [sep].intercalate pieces = cs := by
  constructor
  · rintro rfl
    refine ⟨?_, fun piece => not_mem_of_mem_splitOn, ?_⟩ <;> rw [splitOn_eq]
    · exact List.splitOn_ne_nil sep cs
    · exact List.intercalate_splitOn sep
  · rintro ⟨some, apart, rfl⟩
    rw [splitOn_eq]
    exact List.splitOn_intercalate sep apart some

/-! ## 2. Trimming -/

/-- The part is what is left of the whole without the blanks around it. -/
structure Trimmed (whole part : List Char) : Prop where
  around : ∃ before after, whole = before ++ (part ++ after) ∧
    (∀ c ∈ before, isBlankChar c = true) ∧ ∀ c ∈ after, isBlankChar c = true
  first : ∀ c ∈ part.head?, isBlankChar c = false
  last : ∀ c ∈ part.getLast?, isBlankChar c = false

theorem dropBlanks_append {before : List Char} (blank : ∀ c ∈ before, isBlankChar c = true)
    (rest : List Char) : dropBlanks (before ++ rest) = dropBlanks rest :=
  List.dropWhile_append_of_pos blank

theorem dropBlanks_of_head {cs : List Char} (first : ∀ c ∈ cs.head?, isBlankChar c = false) :
    dropBlanks cs = cs := by
  cases cs with
  | nil => rfl
  | cons c rest => exact List.dropWhile_cons_of_neg (by simp [first c rfl])

/-- Blanks have been dropped in front, and the first character that is left is none. -/
theorem exists_dropBlanks (cs : List Char) :
    (∃ before, cs = before ++ dropBlanks cs ∧ ∀ c ∈ before, isBlankChar c = true) ∧
      ∀ c ∈ (dropBlanks cs).head?, isBlankChar c = false := by
  refine ⟨⟨cs.takeWhile isBlankChar, List.takeWhile_append_dropWhile.symm,
    fun c hc => (List.mem_takeWhile_imp hc)⟩, fun c hc => ?_⟩
  have stopped := List.head?_dropWhile_not isBlankChar cs
  rw [show (cs.dropWhile isBlankChar).head? = some c from hc] at stopped
  exact stopped

/-- The same from behind. -/
theorem exists_dropLastBlanks (cs : List Char) :
    (∃ after, cs = dropLastBlanks cs ++ after ∧ ∀ c ∈ after, isBlankChar c = true) ∧
      ∀ c ∈ (dropLastBlanks cs).getLast?, isBlankChar c = false := by
  obtain ⟨⟨before, parts, blank⟩, first⟩ := exists_dropBlanks cs.reverse
  refine ⟨⟨before.reverse, ?_, fun c hc => blank c (List.mem_reverse.mp hc)⟩, ?_⟩
  · rw [dropLastBlanks, ← List.reverse_append, ← parts, List.reverse_reverse]
  · rwa [dropLastBlanks, List.getLast?_reverse]

/-- Where dropping blanks from behind leaves something, it leaves the beginning. -/
theorem head?_of_append {part after whole : List Char} (h : whole = part ++ after) {c : Char}
    (hc : c ∈ part.head?) : c ∈ whole.head? := by
  cases part with
  | nil => cases hc
  | cons d rest =>
      rw [h]
      exact hc

/-- **There is one such part, and trimming finds it.** -/
theorem trimmed_iff {whole part : List Char} :
    Trimmed whole part ↔ part = dropLastBlanks (dropBlanks whole) := by
  constructor
  · rintro ⟨⟨before, after, rfl, blank, blank'⟩, first, last⟩
    rw [dropBlanks_append blank]
    cases part with
    | nil =>
        have nothing : dropBlanks after = [] :=
          (dropBlanks_eq_nil_iff after).mpr (List.all_eq_true.mpr blank')
        rw [List.nil_append, nothing]
        rfl
    | cons c rest =>
        have kept : dropBlanks (c :: rest ++ after) = c :: rest ++ after :=
          dropBlanks_of_head first
        have blank'' : ∀ d ∈ after.reverse, isBlankChar d = true :=
          fun d hd => blank' d (List.mem_reverse.mp hd)
        have last' : ∀ d ∈ (c :: rest).reverse.head?, isBlankChar d = false := by
          rwa [List.head?_reverse]
        rw [kept, dropLastBlanks, List.reverse_append, dropBlanks_append blank'',
          dropBlanks_of_head last', List.reverse_reverse]
  · rintro rfl
    obtain ⟨⟨before, parts, blank⟩, first⟩ := exists_dropBlanks whole
    obtain ⟨⟨after, parts', blank'⟩, last⟩ := exists_dropLastBlanks (dropBlanks whole)
    refine ⟨⟨before, after, ?_, blank, blank'⟩, fun c hc => ?_, last⟩
    · rw [← parts', ← parts]
    · exact first c (head?_of_append parts' hc)

theorem trim_ofList (cs : List Char) :
    trim (String.ofList cs) = String.ofList (dropLastBlanks (dropBlanks cs)) := by
  rw [trim, String.toList_ofList]

/-! ## 3. Lists of patterns -/

/-- **The patterns that a text lists**: the pieces between its commas, without the blanks around them.
    Pieces of which nothing is left do not count. -/
def Listed (text : String) (patterns : List String) : Prop :=
  ∃ pieces parts : List (List Char), pieces ≠ [] ∧ (∀ piece ∈ pieces, ',' ∉ piece) ∧
    [','].intercalate pieces = text.toList ∧ List.Forall₂ Trimmed pieces parts ∧
    patterns = (parts.map String.ofList).filter (!isBlank ·)

theorem forall₂_trimmed_iff {pieces parts : List (List Char)} :
    List.Forall₂ Trimmed pieces parts ↔
      parts = pieces.map fun piece => dropLastBlanks (dropBlanks piece) := by
  induction pieces generalizing parts with
  | nil => simp
  | cons piece pieces ih =>
      cases parts with
      | nil => simp
      | cons part parts => simp [ih, trimmed_iff]

/-- **The patterns that a text lists are those that are read from it**, and no others. -/
theorem listed_iff {text : String} {ps : List String} : Listed text ps ↔ ps = patterns text := by
  have read (pieces : List (List Char)) :
      (pieces.map fun piece => dropLastBlanks (dropBlanks piece)).map String.ofList =
        pieces.map fun piece => trim (String.ofList piece) := by
    rw [List.map_map]
    exact List.map_congr_left fun piece _ => (trim_ofList piece).symm
  constructor
  · rintro ⟨pieces, parts, some, apart, joined, trimmed, rfl⟩
    rw [forall₂_trimmed_iff.mp trimmed, read, patterns,
      splitOn_eq_iff.mpr ⟨some, apart, joined⟩]
  · rintro rfl
    obtain ⟨some, apart, joined⟩ := splitOn_eq_iff.mp (rfl : splitOn ',' text.toList = _)
    refine ⟨_, _, some, apart, joined, forall₂_trimmed_iff.mpr rfl, ?_⟩
    rw [read, patterns]

/-- No pattern that is read from a text is blank. -/
theorem not_blank_of_mem_patterns {text pattern : String} (h : pattern ∈ patterns text) :
    isBlank pattern = false := by
  have kept := (List.mem_filter.mp h).2
  simpa using kept

/-- A pattern that can stand in a list: not blank, without blanks around it, and without commas. -/
structure Plain (pattern : String) : Prop where
  trimmed : Trimmed pattern.toList pattern.toList
  visible : isBlank pattern = false
  whole : ',' ∉ pattern.toList

/-- **A list of plain patterns is read back from its text.** The empty list is read back, too, for the
    empty text has one piece, and that is blank. -/
theorem patterns_intercalate {ps : List String} (plain : ∀ pattern ∈ ps, Plain pattern) :
    patterns (",".intercalate ps) = ps := by
  cases ps with
  | nil => rfl
  | cons pattern others =>
      refine (listed_iff.mp ⟨(pattern :: others).map String.toList, _, ?_, ?_, ?_,
        List.forall₂_same.mpr ?_, ?_⟩).symm
      · simp
      · intro piece mem
        obtain ⟨other, listed, rfl⟩ := List.mem_map.mp mem
        exact (plain other listed).whole
      · rw [String.toList_intercalate]
        rfl
      · intro piece mem
        obtain ⟨other, listed, rfl⟩ := List.mem_map.mp mem
        exact (plain other listed).trimmed
      · have same : ((pattern :: others).map String.toList).map String.ofList = pattern :: others := by
          simp
        rw [same]
        refine (List.filter_eq_self.mpr fun other mem => ?_).symm
        simp [(plain other mem).visible]

end ComponentContainer.Text
