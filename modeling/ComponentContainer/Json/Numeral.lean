/-
  File:      ComponentContainer/Json/Numeral.lean
  Subject:   How large a written number is.

  A number that is read as a double is first cut down to a significand of 64 bits and a power of
  ten; both are rounded to doubles, and their product must not be beyond the largest one.

  * `Numeral` -- a number as it is written, without its sign.
  * `roundToDouble` -- the nearest whole number with 53 significant bits; `roundToDouble_of_lt`,
    `roundToDouble_near` -- small numbers stay, and all others move by at most half a unit.
  * `Numeral.scaled` -- the significand with its power of ten.
  * `Numeral.isTooLarge` -- beyond the largest double.
-/
namespace ComponentContainer.Json

/-! ## 1. Whole doubles -/

/-- The value of the last of 53 significant bits. -/
def lastBit (n : Nat) : Nat := Nat.pow 2 (n.log2 + 1 - 53)

/-- The nearest whole number with at most 53 significant bits; of two, the one whose last bit is
    zero. -/
def roundToDouble (n : Nat) : Nat :=
  if 2 * (n % lastBit n) < lastBit n ∨
      (2 * (n % lastBit n) = lastBit n ∧ n / lastBit n % 2 = 0) then n / lastBit n * lastBit n
  else (n / lastBit n + 1) * lastBit n

/-- A number of 53 bits is a double. -/
theorem roundToDouble_of_lt {n : Nat} (h : n < Nat.pow 2 53) : roundToDouble n = n := by
  have hlog : n.log2 < 53 := by
    by_cases hn : n = 0
    · subst hn; decide
    · exact (Nat.log2_lt hn).mpr h
  have hbit : lastBit n = 1 := by
    unfold lastBit
    rw [show n.log2 + 1 - 53 = 0 by omega]
  simp [roundToDouble, hbit, Nat.mod_one]

/-- **Rounding moves a number by at most half of its last bit.** -/
theorem roundToDouble_near (n : Nat) :
    2 * n ≤ 2 * roundToDouble n + lastBit n ∧ 2 * roundToDouble n ≤ 2 * n + lastBit n := by
  have hdiv := Nat.div_add_mod n (lastBit n)
  have hmod : n % lastBit n < lastBit n := Nat.mod_lt _ (Nat.two_pow_pos _)
  rw [Nat.mul_comm] at hdiv
  unfold roundToDouble
  split
  next h =>
    have : 2 * (n % lastBit n) ≤ lastBit n := by omega
    omega
  next h =>
    have : lastBit n ≤ 2 * (n % lastBit n) := by omega
    rw [Nat.add_mul, Nat.one_mul]
    omega

/-- The least number that is nearer to two to the 1024th than to the largest double. -/
def doubleLimit : Nat := Nat.pow 2 1024 - Nat.pow 2 970

/-! ## 2. Written numbers -/

/-- A number as it is written, without its sign: the digits before and after the point, and the
    power of ten behind them. -/
structure Numeral where
  whole : List Nat
  fraction : List Nat
  exponent : Int

/-- The largest significand. -/
def maxSignificand : Nat := Nat.pow 2 64 - 1

/-- Appends digits to a significand as long as it stays small enough; the digits that are left
    begin with the first that does not fit. -/
def appendDigits : Nat → List Nat → Nat × List Nat
  | n, [] => (n, [])
  | n, d :: rest =>
    if n * 10 + d ≤ maxSignificand then appendDigits (n * 10 + d) rest else (n, d :: rest)

/-- The significand and its power of ten. A digit before the point that does not fit counts only
    as a power of ten, and one after the point not at all. -/
def Numeral.scaled (n : Numeral) : Nat × Int :=
  let (significand, dropped) := appendDigits 0 n.whole
  let (significand, ignored) := appendDigits significand n.fraction
  (significand, n.exponent + dropped.length + ignored.length - n.fraction.length)

/-- The largest power of ten that is no larger than a double can be. -/
def maxPower : Int := 308

/-- Beyond the largest double. -/
def Numeral.isTooLarge (n : Numeral) : Bool :=
  let (significand, power) := n.scaled
  if significand = 0 ∨ power < 0 then false
  else maxPower < power ||
    decide (doubleLimit ≤ roundToDouble significand * roundToDouble (Nat.pow 10 power.toNat))

end ComponentContainer.Json
