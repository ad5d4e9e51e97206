/-
  File:      ComponentContainer/Proofs/Spellings.lean
  Subject:   Which texts spell a boolean, and which a number.

  * `Unshared` -- a character that only it and its own capital are lowered to; all beyond the first
    128 go elsewhere, but for the dotted I and the Kelvin sign. `lowerAfter_eq_iff` -- so a word
    of such characters is the lower-case form of no text but those in its own letters.
  * `Spells`, `IsBoolean` -- the spellings of a word, of a boolean; `readBoolean_eq_ok_iff` -- **these
    are the texts that are read as that boolean.**
  * `Denotes` -- the numerals for a number; `readNumeral_eq_ok_iff` -- **these are the texts that are
    read as that number**, if it is not too large.
  * `readPassLimit_eq_ok_iff` -- the same for limits, which are not zero.
-/
import ComponentContainer.Environment.Settings
import ComponentContainer.Proofs.Patterns
import Mathlib

namespace ComponentContainer

namespace Text

/-! ## 1. Lower-case words -/

/-- A character that only it and its capital are lowered to. -/
def Unshared (c : Char) : Prop := c.toNat < 128 ∧ c ≠ 'i' ∧ c ≠ 'k'

instance (c : Char) : Decidable (Unshared c) := inferInstanceAs (Decidable (_ ∧ _ ∧ _))

/-- The runs of capitals beyond the first 128 characters stay there, and among the characters; only
    the Kelvin sign goes to a letter below. -/
theorem caseRuns_beyond : ∀ r ∈ caseRuns,
    (128 ≤ r.first + r.offset ∧ (r.last + r.offset < 0xD800 ∨
      0xE000 ≤ r.first + r.offset ∧ r.last + r.offset < 0x110000)) ∨
    (r.first = r.last ∧ r.first + r.offset = 'k'.toNat) := by decide +kernel

/-- What a character beyond the first 128 is lowered to begins with no unshared character. -/
theorem lowerChar_beyond {c : Char} (beyond : ¬c.toNat < 128) :
    ∃ x rest, lowerChar c = x :: rest ∧ ¬Unshared x := by
  unfold lowerChar
  rw [if_neg beyond]
  split
  · exact ⟨'i', _, rfl, by decide⟩
  · split
    · rename_i r found
      have member := List.mem_of_find?_eq_some found
      have holds := List.find?_some found
      simp only [CaseRun.holds, Bool.and_eq_true, decide_eq_true_eq] at holds
      obtain ⟨⟨first, last⟩, -⟩ := holds
      refine ⟨_, [], rfl, fun unshared => ?_⟩
      rcases caseRuns_beyond r member with ⟨high, valid⟩ | ⟨single, kelvin⟩
      · have char : (c.toNat + r.offset).toNat.isValidChar := by
          unfold Nat.isValidChar
          omega
        have low := unshared.1
        rw [Char.toNat_ofNat, if_pos char] at low
        omega
      · have code : c.toNat + r.offset = 'k'.toNat := by omega
        rw [code] at unshared
        exact unshared.2.2 rfl
    · exact ⟨c, [], rfl, fun unshared => beyond unshared.1⟩

theorem toLower_beyond {c : Char} (beyond : ¬c.toNat < 128) : c.toLower = c := by
  refine Char.toLower_eq_of_not_isUpper fun upper => ?_
  simp only [Char.isUpper, decide_eq_true_eq, UInt32.le_iff_toNat_le] at upper
  exact beyond (lt_of_le_of_lt upper.2 (by decide))

/-- **A word of unshared characters** is the lower-case form of a text only if the text has the same
    letters, be they capitals or not. -/
theorem lowerAfter_eq_iff {before cs word : List Char} (own : ∀ c ∈ word, Unshared c) :
    lowerAfter before cs = word ↔ cs.map Char.toLower = word := by
  induction cs generalizing before word with
  | nil => rfl
  | cons c rest ih =>
      by_cases low : c.toNat < 128
      · have plain : c ≠ 'Σ' := by
          rintro rfl
          exact absurd low (by decide)
        rw [lowerAfter, if_neg plain, lowerChar, if_pos low, List.singleton_append, List.map_cons]
        cases word with
        | nil => simp
        | cons w word =>
            rw [List.cons.injEq, List.cons.injEq, ih (List.forall_mem_cons.mp own).2]
      · -- neither side begins with a character of the word
        have foreign : ∃ x more, lowerAfter before (c :: rest) = x :: more ∧ ¬Unshared x := by
          rw [lowerAfter]
          split
          · split
            · exact ⟨'ς', _, rfl, by decide⟩
            · exact ⟨'σ', _, rfl, by decide⟩
          · obtain ⟨x, more, lowered, foreign⟩ := lowerChar_beyond low
            rw [lowered]
            exact ⟨x, _, rfl, foreign⟩
        obtain ⟨x, more, lowered, foreign⟩ := foreign
        rw [lowered, List.map_cons, toLower_beyond low]
        cases word with
        | nil => simp
        | cons w word =>
            have here := (List.forall_mem_cons.mp own).1
            refine iff_of_false (fun same => ?_) (fun same => ?_)
            · exact foreign ((List.cons.inj same).1 ▸ here)
            · exact low ((List.cons.inj same).1 ▸ here).1

/-! ## 2. Spellings -/

/-- The text is the word, with blanks around it and its letters in either case. -/
def Spells (word text : String) : Prop :=
  ∃ part, Trimmed text.toList part ∧ part.map Char.toLower = word.toList

/-- **The spellings of a word** are the texts of which trimming and lowering leave the word. -/
theorem spells_iff {word text : String} (own : ∀ c ∈ word.toList, Unshared c) :
    Spells word text ↔ lowercase (trim text) = word := by
  rw [lowercase, ← String.toList_inj, String.toList_ofList, lowerAfter_eq_iff own, trim,
    String.toList_ofList]
  constructor
  · rintro ⟨part, trimmed, letters⟩
    rwa [← trimmed_iff.mp trimmed]
  · exact fun letters => ⟨_, trimmed_iff.mpr rfl, letters⟩

/-! ## 3. Numerals -/

/-- The numerals for a number: its digits, with any number of zeros and perhaps a plus sign in front
    of them. -/
def Denotes (cs : List Char) (n : Nat) : Prop :=
  ∃ digits, (cs = digits ∨ cs = '+' :: digits) ∧ digits ≠ [] ∧
    (∀ c ∈ digits, c.isDigit = true) ∧ Nat.ofDigitChars 10 digits 0 = n

theorem digit?_cases (c : Char) :
    (c.isDigit = true ∧ digit? c = some (c.toNat - '0'.toNat)) ∨
      (c.isDigit = false ∧ digit? c = none) := by
  have same : c.isDigit = decide ('0' ≤ c ∧ c ≤ '9') := by
    simp only [Char.isDigit, Char.le_def, ge_iff_le, Bool.decide_and]
  by_cases digit : '0' ≤ c ∧ c ≤ '9'
  · exact .inl ⟨by rw [same, decide_eq_true digit], if_pos digit⟩
  · exact .inr ⟨by rw [same, decide_eq_false digit], if_neg digit⟩

/-- More digits do not make a number smaller. -/
theorem le_ofDigitChars (cs : List Char) (value : Nat) : value ≤ Nat.ofDigitChars 10 cs value := by
  induction cs generalizing value with
  | nil => exact Nat.le_refl value
  | cons c rest ih =>
      calc value ≤ 10 * value + (c.toNat - '0'.toNat) := by omega
        _ ≤ _ := ih _

/-- **Digits are read for what they denote** after the ones before them, up to the limit. -/
theorem readDigits_eq_ok_iff {limit value n : Nat} {cs : List Char} (room : value ≤ limit) :
    readDigits limit value cs = .ok n ↔
      (∀ c ∈ cs, c.isDigit = true) ∧ Nat.ofDigitChars 10 cs value = n ∧ n ≤ limit := by
  induction cs generalizing value with
  | nil =>
      constructor
      · rintro ⟨⟩
        exact ⟨List.forall_mem_nil _, rfl, room⟩
      · rintro ⟨-, rfl, -⟩
        rfl
  | cons c rest ih =>
      rw [readDigits, List.forall_mem_cons]
      rcases digit?_cases c with ⟨digit, found⟩ | ⟨other, found⟩
      · have longer : Nat.ofDigitChars 10 (c :: rest) value =
            Nat.ofDigitChars 10 rest (value * 10 + (c.toNat - '0'.toNat)) := by
          rw [Nat.mul_comm value]
          rfl
        rw [longer]
        simp only [found, digit, true_and]
        by_cases fits : value * 10 + (c.toNat - '0'.toNat) ≤ limit
        · rw [if_pos fits, ih fits]
        · rw [if_neg fits]
          refine iff_of_false (fun read => nomatch read) ?_
          rintro ⟨-, rfl, bound⟩
          exact fits (Nat.le_trans (le_ofDigitChars rest _) bound)
      · simp [found, other]

theorem not_digit_plus : ¬ '+'.isDigit = true := by decide

/-- **Numerals are read as their numbers**, up to the limit, and nothing else is read. -/
theorem readNumeral_eq_ok_iff {limit n : Nat} {cs : List Char} :
    readNumeral limit cs = .ok n ↔ Denotes cs n ∧ n ≤ limit := by
  unfold readNumeral
  split
  · refine iff_of_false (fun read => nomatch read) ?_
    rintro ⟨⟨digits, rfl | signed, some, -⟩, -⟩
    · exact some rfl
    · cases signed
  · refine iff_of_false (fun read => nomatch read) ?_
    rintro ⟨⟨digits, rfl | signed, some, all, -⟩, -⟩
    · exact not_digit_plus (all '+' List.mem_cons_self)
    · cases signed
      exact some rfl
  · rename_i digits several
    rw [readDigits_eq_ok_iff (Nat.zero_le limit)]
    constructor
    · rintro ⟨all, value, bound⟩
      exact ⟨⟨digits, .inr rfl, fun none => several none, all, value⟩, bound⟩
    · rintro ⟨⟨digits', rfl | signed, -, all, value⟩, bound⟩
      · exact absurd (all '+' List.mem_cons_self) not_digit_plus
      · cases signed
        exact ⟨all, value, bound⟩
  · rename_i some _ unsigned
    rw [readDigits_eq_ok_iff (Nat.zero_le limit)]
    constructor
    · rintro ⟨all, value, bound⟩
      exact ⟨⟨cs, .inl rfl, some, all, value⟩, bound⟩
    · rintro ⟨⟨digits, rfl | rfl, -, all, value⟩, bound⟩
      · exact ⟨all, value, bound⟩
      · exact absurd rfl (unsigned digits)

end Text

open Text

/-! ## 4. Settings -/

/-- The words for a boolean. -/
def booleanWords : Bool → List String
  | true => ["true", "1", "yes", "on"]
  | false => ["false", "0", "no", "off"]

/-- The text spells a word for the boolean. -/
def IsBoolean (b : Bool) (text : String) : Prop := ∃ word ∈ booleanWords b, Spells word text

/-- The words for booleans can be spelt in their own letters only. -/
theorem unshared_of_mem {b : Bool} {word : String} (mem : word ∈ booleanWords b) :
    ∀ c ∈ word.toList, Unshared c := by
  cases b with
  | false => fin_cases mem <;> simp [Unshared]
  | true => fin_cases mem <;> simp [Unshared]

theorem isBoolean_iff {b : Bool} {text : String} :
    IsBoolean b text ↔ lowercase (trim text) ∈ booleanWords b := by
  constructor
  · rintro ⟨word, mem, spelt⟩
    rwa [(spells_iff (unshared_of_mem mem)).mp spelt]
  · exact fun mem => ⟨_, mem, (spells_iff (unshared_of_mem mem)).mpr rfl⟩

/-- **A boolean is read from its spellings**, and from nothing else. -/
theorem readBoolean_eq_ok_iff {key text : String} {b : Bool} :
    readBoolean key text = .ok b ↔ IsBoolean b text := by
  have apart : ∀ word ∈ booleanWords true, word ∉ booleanWords false := by decide
  rw [isBoolean_iff, readBoolean]
  generalize lowercase (trim text) = word
  change (if word ∈ booleanWords true then _ else if word ∈ booleanWords false then _ else _) = _ ↔ _
  by_cases yes : word ∈ booleanWords true
  · have no := apart word yes
    cases b <;> simp [yes, no]
  · by_cases no : word ∈ booleanWords false
    · cases b <;> simp [yes, no]
    · cases b <;> simp [yes, no]

/-- What spells neither is refused, and the failure names the variable and the word that was read. -/
theorem readBoolean_refused {key text : String} (neither : ∀ b, ¬IsBoolean b text) :
    readBoolean key text =
      .error (.invalidConfiguration (.notABoolean key (lowercase (trim text)))) := by
  simp only [isBoolean_iff, Bool.forall_bool, booleanWords] at neither
  simp only [readBoolean, neither, if_false]

/-- The text is a numeral for a limit, with blanks around it: a number that is not zero and that a
    machine word can hold. -/
def IsPassLimit (n : Nat) (text : String) : Prop :=
  ∃ part, Trimmed text.toList part ∧ Denotes part n ∧ 1 ≤ n ∧ n ≤ maxCount

/-- **A limit is read from its numerals**, and from nothing else. -/
theorem readPassLimit_eq_ok_iff {text : String} {n : Nat} :
    readPassLimit text = .ok n ↔ IsPassLimit n text := by
  have denoted : IsPassLimit n text ↔
      readNumeral maxCount (trim text).toList = .ok n ∧ 1 ≤ n := by
    rw [readNumeral_eq_ok_iff, trim, String.toList_ofList]
    constructor
    · rintro ⟨part, trimmed, numeral, positive, bound⟩
      rw [← trimmed_iff.mp trimmed]
      exact ⟨⟨numeral, bound⟩, positive⟩
    · rintro ⟨⟨numeral, bound⟩, positive⟩
      exact ⟨_, trimmed_iff.mpr rfl, numeral, positive, bound⟩
  rw [denoted, readPassLimit]
  cases readNumeral maxCount (trim text).toList with
  | error fault => simp
  | ok m =>
      cases m with
      | zero => simp; omega
      | succ m => simp; omega

/-- What is no limit is refused. -/
theorem readPassLimit_refused {text : String} (unfit : ∀ n, ¬IsPassLimit n text) :
    ∃ flaw, readPassLimit text = .error (.invalidConfiguration flaw) := by
  have unread : ∀ n, readPassLimit text ≠ .ok n := fun n read =>
    unfit n (readPassLimit_eq_ok_iff.mp read)
  revert unread
  unfold readPassLimit
  split
  · exact fun _ => ⟨_, rfl⟩
  · exact fun _ => ⟨_, rfl⟩
  · exact fun unread => absurd rfl (unread _)

end ComponentContainer
