/-
  File:      ComponentContainer/Text/Ranges.lean
  Subject:   Sets of characters given by ranges of code points.

  * `Ranges` -- a list of closed ranges, ascending.
  * `Ranges.holds` -- is the code point of a character in one of them?
-/
namespace ComponentContainer.Text

/-- Closed ranges of code points, ascending and apart. -/
abbrev Ranges := List (Nat × Nat)

/-- The code point of `c` lies in one of the ranges. -/
def Ranges.holds (rs : Ranges) (c : Char) : Bool :=
  rs.any fun r => r.1 ≤ c.toNat && c.toNat ≤ r.2

end ComponentContainer.Text
