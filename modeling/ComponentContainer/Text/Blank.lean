/-
  File:      ComponentContainer/Text/Blank.lean
  Subject:   Blank characters, trimming, blank texts.

  * `isBlankChar` -- the characters with the Unicode property White_Space and no others: the
    zero-width space, the word joiner and the information separators are NOT blank.
  * `trim`, `trimEnd` -- a text without the blanks at its ends, at its end.
  * `isBlank` -- a text of blanks only (the empty text is one); `trim_eq_empty_iff` says that
    these are the texts of which trimming leaves nothing.
-/
namespace ComponentContainer.Text

/-! ## 1. Blank characters -/

/-- The Unicode property White_Space. -/
def isBlankChar (c : Char) : Bool :=
  let n := c.toNat
  (9 ≤ n && n ≤ 13) || n == 0x20 || n == 0x85 || n == 0xA0 || n == 0x1680 ||
    (0x2000 ≤ n && n ≤ 0x200A) || n == 0x2028 || n == 0x2029 || n == 0x202F || n == 0x205F ||
    n == 0x3000

/-! ## 2. Trimming -/

/-- The characters from the first that is not blank. -/
def dropBlanks (cs : List Char) : List Char := cs.dropWhile isBlankChar

/-- The characters up to the last that is not blank. -/
def dropLastBlanks (cs : List Char) : List Char := (dropBlanks cs.reverse).reverse

/-- A text without the blanks at either end. -/
def trim (s : String) : String := String.ofList (dropLastBlanks (dropBlanks s.toList))

/-- A text without the blanks at its end. -/
def trimEnd (s : String) : String := String.ofList (dropLastBlanks s.toList)

/-! ## 3. Blank texts -/

/-- Nothing but blanks. -/
def isBlank (s : String) : Bool := s.toList.all isBlankChar

theorem dropBlanks_eq_nil_iff (cs : List Char) :
    dropBlanks cs = [] ↔ cs.all isBlankChar = true := by
  induction cs with
  | nil => simp [dropBlanks]
  | cons c rest ih =>
    cases hc : isBlankChar c
    · simp [dropBlanks, hc]
    · rw [show dropBlanks (c :: rest) = dropBlanks rest from List.dropWhile_cons_of_pos hc, ih,
        List.all_cons, hc, Bool.true_and]

theorem dropLastBlanks_eq_nil_iff (cs : List Char) :
    dropLastBlanks cs = [] ↔ cs.all isBlankChar = true := by
  rw [dropLastBlanks, List.reverse_eq_nil_iff, dropBlanks_eq_nil_iff, List.all_reverse]

/-- What is left after dropping blanks is blank only if nothing is left. -/
theorem all_dropBlanks_iff (cs : List Char) :
    (dropBlanks cs).all isBlankChar = true ↔ cs.all isBlankChar = true := by
  induction cs with
  | nil => rfl
  | cons c rest ih =>
    cases hc : isBlankChar c
    · simp [dropBlanks, hc]
    · rw [show dropBlanks (c :: rest) = dropBlanks rest from List.dropWhile_cons_of_pos hc, ih,
        List.all_cons, hc, Bool.true_and]

/-- **A text is blank exactly when trimming leaves nothing of it.** -/
theorem trim_eq_empty_iff (s : String) : trim s = "" ↔ isBlank s = true := by
  rw [trim, isBlank, ← String.toList_inj, String.toList_ofList, String.toList_empty,
    dropLastBlanks_eq_nil_iff, all_dropBlanks_iff]

end ComponentContainer.Text
