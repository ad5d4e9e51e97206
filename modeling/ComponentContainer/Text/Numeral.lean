/-
  File:      ComponentContainer/Text/Numeral.lean
  Subject:   Reading whole numbers.

  * `NumeralFault` -- why a text is not a numeral, with its wording.
  * `readNumeral` -- an optional plus sign and then decimal digits, at most `limit`; read from
    the left, so that the first character at which something is wrong decides the fault.
-/
namespace ComponentContainer.Text

/-- Why a text is not a numeral. -/
inductive NumeralFault where
  | empty
  | invalidDigit
  | tooLarge
  deriving DecidableEq, Repr

/-- The wording of a fault. -/
def NumeralFault.message : NumeralFault → String
  | .empty => "cannot parse integer from empty string"
  | .invalidDigit => "invalid digit found in string"
  | .tooLarge => "number too large to fit in target type"

/-- The value of a decimal digit. -/
def digit? (c : Char) : Option Nat :=
  if '0' ≤ c ∧ c ≤ '9' then some (c.toNat - '0'.toNat) else none

/-- Reads digits on from the value read so far. -/
def readDigits (limit : Nat) : Nat → List Char → Except NumeralFault Nat
  | value, [] => .ok value
  | value, c :: rest =>
    match digit? c with
    | none => .error .invalidDigit
    | some d =>
      if value * 10 + d ≤ limit then readDigits limit (value * 10 + d) rest
      else .error .tooLarge

/-- A numeral: an optional plus sign, then at least one digit. A sign alone is an invalid
    digit. -/
def readNumeral (limit : Nat) : List Char → Except NumeralFault Nat
  | [] => .error .empty
  | ['+'] => .error .invalidDigit
  | '+' :: digits => readDigits limit 0 digits
  | digits => readDigits limit 0 digits

end ComponentContainer.Text
