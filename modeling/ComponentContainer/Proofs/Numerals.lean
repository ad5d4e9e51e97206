/-
  File:      ComponentContainer/Proofs/Numerals.lean
  Subject:   The limit of registry passes as a text: what it is read as, and why it is refused.

  * `readNumeral_of_denotes` -- **a numeral is read as its number or found too large**, however many
    digits it has; the value read so far never goes beyond the limit.
  * `denotes_toString` -- the decimal rendering of a number is a numeral for it; `trimmed_between` --
    and trimming leaves it, whatever blanks are around it.
  * `passLimit_read_exactly` -- **a limit is the number that the text denotes, or it is refused.**
-/
import ComponentContainer.Proofs.Spellings

namespace ComponentContainer

namespace Text

/-! ## 1. Numerals of any length -/

/-- **Digits are read for what they denote, or found too large.** By induction on the digits: where
    the value read so far would go beyond the limit, all numbers that go on from there do. -/
theorem readDigits_of_digits {limit value : Nat} {cs : List Char} (room : value ≤ limit)
    (digits : ∀ c ∈ cs, c.isDigit = true) :
    readDigits limit value cs =
      if Nat.ofDigitChars 10 cs value ≤ limit then .ok (Nat.ofDigitChars 10 cs value)
      else .error .tooLarge := by
  induction cs generalizing value with
  | nil => exact (if_pos room).symm
  | cons c rest ih =>
      obtain ⟨digit, digits⟩ := List.forall_mem_cons.mp digits
      have found : digit? c = some (c.toNat - '0'.toNat) := by
        rcases digit?_cases c with ⟨-, found⟩ | ⟨other, -⟩
        · exact found
        · rw [digit] at other
          cases other
      have longer : Nat.ofDigitChars 10 (c :: rest) value =
          Nat.ofDigitChars 10 rest (value * 10 + (c.toNat - '0'.toNat)) := by
        rw [Nat.mul_comm value]
        rfl
      rw [readDigits, found, longer]
      show (if _ then _ else _) = _
      by_cases fits : value * 10 + (c.toNat - '0'.toNat) ≤ limit
      · rw [if_pos fits, ih fits digits]
      · have beyond := le_ofDigitChars rest (value * 10 + (c.toNat - '0'.toNat))
        rw [if_neg fits, if_neg fun bound => fits (Nat.le_trans beyond bound)]

/-- A sign does not matter, and neither does its absence. -/
theorem readNumeral_eq_readDigits {limit : Nat} {cs digits : List Char}
    (signed : cs = digits ∨ cs = '+' :: digits) (some : digits ≠ [])
    (all : ∀ c ∈ digits, c.isDigit = true) :
    readNumeral limit cs = readDigits limit 0 digits := by
  unfold readNumeral
  split
  · rcases signed with rfl | signed
    · exact absurd rfl some
    · cases signed
  · rcases signed with rfl | signed
    · exact absurd (all '+' List.mem_cons_self) not_digit_plus
    · cases signed
      exact absurd rfl some
  · rcases signed with rfl | signed
    · exact absurd (all '+' List.mem_cons_self) not_digit_plus
    · cases signed
      rfl
  · rename_i unsigned
    rcases signed with rfl | rfl
    · rfl
    · exact absurd rfl (unsigned digits)

/-- **A numeral is read as its number, or found too large.** -/
theorem readNumeral_of_denotes {limit n : Nat} {cs : List Char} (h : Denotes cs n) :
    readNumeral limit cs = if n ≤ limit then .ok n else .error .tooLarge := by
  obtain ⟨digits, signed, some, all, rfl⟩ := h
  rw [readNumeral_eq_readDigits signed some all, readDigits_of_digits (Nat.zero_le limit) all]

/-! ## 2. Renderings -/

/-- The decimal rendering of a number is a numeral for it. -/
theorem denotes_toString (n : Nat) : Denotes (toString n).toList n := by
  rw [Nat.toString_eq_repr, Nat.toList_repr]
  exact ⟨_, .inl rfl, Nat.toDigits_ne_nil,
    fun c => Nat.isDigit_of_mem_toDigits (by decide) (Nat.le_refl _), Nat.ofDigitChars_ten_toDigits⟩

theorem isBlankChar_of_isDigit {c : Char} (digit : c.isDigit = true) : isBlankChar c = false := by
  simp only [Char.isDigit, ge_iff_le, Bool.and_eq_true, decide_eq_true_eq,
    UInt32.le_iff_toNat_le] at digit
  have low : 48 ≤ c.toNat := digit.1
  have high : c.toNat ≤ 57 := digit.2
  simp only [isBlankChar, Bool.or_eq_false_iff, Bool.and_eq_false_iff, beq_eq_false_iff_ne,
    decide_eq_false_iff_not]
  omega

/-- Nothing in a numeral is blank. -/
theorem Denotes.not_blank {cs : List Char} {n : Nat} (h : Denotes cs n) :
    ∀ c ∈ cs, isBlankChar c = false := by
  obtain ⟨digits, rfl | rfl, -, all, -⟩ := h
  · exact fun c mem => isBlankChar_of_isDigit (all c mem)
  · exact List.forall_mem_cons.mpr ⟨by decide, fun c mem => isBlankChar_of_isDigit (all c mem)⟩

/-- **Trimming leaves the numeral**, whatever blanks are around it. -/
theorem Denotes.trimmed_between {cs before after : List Char} {n : Nat} (h : Denotes cs n)
    (blank : ∀ c ∈ before, isBlankChar c = true) (blank' : ∀ c ∈ after, isBlankChar c = true) :
    Trimmed (before ++ (cs ++ after)) cs where
  around := ⟨before, after, rfl, blank, blank'⟩
  first c mem := h.not_blank c (List.mem_of_mem_head? mem)
  last c mem := h.not_blank c (List.mem_of_mem_getLast? mem)

end Text

open Text

/-! ## 3. Limits -/

/-- **What a numeral in blanks is read as**: its number, if that is a limit; else the failure says
    whether it is too large or zero. -/
theorem readPassLimit_of_denotes {text : String} {part : List Char} {n : Nat}
    (trimmed : Trimmed text.toList part) (h : Denotes part n) :
    readPassLimit text =
      if n = 0 then .error (.invalidConfiguration (.zero passLimitKey))
      else if n ≤ maxCount then .ok n
      else .error (.invalidConfiguration (.notANumeral passLimitKey .tooLarge)) := by
  rw [readPassLimit, trim, String.toList_ofList, ← trimmed_iff.mp trimmed, readNumeral_of_denotes h]
  by_cases zero : n = 0
  · subst zero
    rfl
  · rw [if_neg zero]
    by_cases bound : n ≤ maxCount
    · rw [if_pos bound, if_pos bound]
      cases n with
      | zero => exact absurd rfl zero
      | succ n => rfl
    · rw [if_neg bound, if_neg bound]

/-- **A limit is the number that the text denotes, or it is refused.** With the blanks around it left
    out, a text is read as `n` exactly if it is an optional plus sign and then one or more digits,
    which denote `n`, and `n` is at least 1 and fits into a machine word; any other text is an
    invalid configuration. A numeral that denotes too large a number is refused as such, and not read
    as another number. So each number in the range is read back from its decimal rendering, with
    blanks around it or not. -/
theorem passLimit_read_exactly :
    (∀ (text : String) (n : Nat), readPassLimit text = .ok n ↔
      ∃ part, Trimmed text.toList part ∧ Denotes part n ∧ 1 ≤ n ∧ n ≤ 2 ^ 64 - 1) ∧
    (∀ text : String, (¬∃ n part, Trimmed text.toList part ∧ Denotes part n ∧ 1 ≤ n ∧
        n ≤ 2 ^ 64 - 1) →
      ∃ flaw, readPassLimit text = .error (.invalidConfiguration flaw)) ∧
    (∀ (text : String) (part : List Char) (n : Nat), Trimmed text.toList part → Denotes part n →
      2 ^ 64 - 1 < n →
      readPassLimit text =
        .error (.invalidConfiguration (.notANumeral passLimitKey .tooLarge))) ∧
    ∀ (n : Nat) (before after : String), isBlank before = true → isBlank after = true → 1 ≤ n →
      n ≤ 2 ^ 64 - 1 → readPassLimit (before ++ toString n ++ after) = .ok n := by
  have most : maxCount = 2 ^ 64 - 1 := rfl
  rw [← most]
  refine ⟨fun text n => readPassLimit_eq_ok_iff, fun text unfit => ?_, ?_, ?_⟩
  · exact readPassLimit_refused fun n ⟨part, fit⟩ => unfit ⟨n, part, fit⟩
  · intro text part n trimmed denotes large
    have nonzero : n ≠ 0 := Nat.ne_of_gt (Nat.lt_of_le_of_lt (Nat.zero_le _) large)
    rw [readPassLimit_of_denotes trimmed denotes, if_neg nonzero, if_neg (Nat.not_le.mpr large)]
  · intro n before after blank blank' positive bound
    have trimmed : Trimmed (before ++ toString n ++ after).toList (toString n).toList := by
      rw [String.toList_append, String.toList_append, List.append_assoc]
      exact (denotes_toString n).trimmed_between (List.all_eq_true.mp blank)
        (List.all_eq_true.mp blank')
    rw [readPassLimit_of_denotes trimmed (denotes_toString n), if_neg (Nat.ne_of_gt positive),
      if_pos bound]

/-- The largest limit between wide spaces, with a plus sign and zeros in front; the number after it;
    its rendering between other blanks; and two signs. -/
theorem largest_passLimit_read_exactly :
    readPassLimit "\u3000 +00018446744073709551615\u2003" = .ok 18446744073709551615 ∧
    readPassLimit "18446744073709551616" =
      .error (.invalidConfiguration (.notANumeral passLimitKey .tooLarge)) ∧
    readPassLimit ("\t" ++ toString (2 ^ 64 - 1) ++ "\u00a0\n") = .ok (2 ^ 64 - 1) ∧
    ∃ flaw, readPassLimit "+-1" = .error (.invalidConfiguration flaw) := by
  obtain ⟨exactly, refused, tooLarge, rendered⟩ := passLimit_read_exactly
  refine ⟨(exactly _ _).mpr ⟨"+00018446744073709551615".toList, ?_, ?_, ?_, ?_⟩, ?_, ?_, ?_⟩
  · exact trimmed_iff.mpr (by decide)
  · exact ⟨"00018446744073709551615".toList, .inr rfl, by decide,
      List.all_eq_true.mp (by decide), by decide⟩
  · decide
  · decide
  · refine tooLarge _ "18446744073709551616".toList 18446744073709551616 ?_ ?_ (by norm_num)
    · exact trimmed_iff.mpr (by decide)
    · exact ⟨_, .inl rfl, by decide, List.all_eq_true.mp (by decide), by decide⟩
  · exact rendered _ _ _ (by decide) (by decide) (by norm_num) (Nat.le_refl _)
  · refine refused _ fun ⟨n, fit⟩ => ?_
    have read := (exactly "+-1" n).mpr fit
    rw [show readPassLimit "+-1" =
      .error (.invalidConfiguration (.notANumeral passLimitKey .invalidDigit)) by decide] at read
    cases read

end ComponentContainer
