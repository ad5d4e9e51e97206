/-
  File:      ComponentContainer/Precedence.lean
  Subject:   Where a definition stands among the extensions, and sorting by it.

  * `Precedence` -- the declared standing: in the priority group, ordered, or undeclared.
  * `Precedence.tier`, `Precedence.value` -- the group it falls into, and the number that decides
    inside a group (the largest one if nothing is declared).
  * `Comparator`, `standard` -- a way to compare two standings, and the usual one: the priority
    group first, then the smaller number.
  * `sortBy` -- a stable sort under a comparator.
-/
namespace ComponentContainer

/-! ## 1. Standings -/

/-- The standing a definition declares for itself. -/
inductive Precedence where
  /-- In the group that goes before all others. -/
  | priority (value : Int32)
  | ordered (value : Int32)
  | unordered
  deriving DecidableEq, Repr

instance : Inhabited Precedence := ⟨.unordered⟩

/-- The groups, in the order in which they run. -/
inductive Tier where
  | highest
  | ordered
  | unordered
  deriving DecidableEq, Repr

/-- The place of a group among the groups. -/
def Tier.rank : Tier → Nat
  | .highest => 0
  | .ordered => 1
  | .unordered => 2

namespace Precedence

/-- The number of a standing that declares none: the largest of its width. -/
def lowest : Int32 := 2147483647

/-- The group of a standing. -/
def tier : Precedence → Tier
  | .priority _ => .highest
  | .ordered _ => .ordered
  | .unordered => .unordered

/-- The number that decides inside a group. -/
def value : Precedence → Int32
  | .priority n => n
  | .ordered n => n
  | .unordered => lowest

/-- In the priority group. -/
def isPriority : Precedence → Bool
  | .priority _ => true
  | _ => false

/-- Declared at all; the priority group is a kind of order too. -/
def isOrdered : Precedence → Bool
  | .unordered => false
  | _ => true

/-- The wording of a standing. -/
def text : Precedence → String
  | .priority n => "PriorityOrdered(" ++ toString n.toInt ++ ")"
  | .ordered n => "Ordered(" ++ toString n.toInt ++ ")"
  | .unordered => "Unordered"

end Precedence

/-! ## 2. Comparators -/

/-- A way to compare two standings. -/
abbrev Comparator := Precedence → Precedence → Ordering

namespace Comparator

/-- The usual comparator: the priority group goes first; inside a group, and between the ordered
    and the undeclared, the smaller number goes first. -/
def standard : Comparator := fun left right =>
  match left.isPriority, right.isPriority with
  | true, false => .lt
  | false, true => .gt
  | _, _ => compare left.value.toInt right.value.toInt

/-- The comparator in force where `custom` may replace the usual one. -/
def resolve (custom : Option Comparator) : Comparator := custom.getD standard

/-- A total preorder: swapping the sides swaps the answer, and "not after" is transitive. -/
structure Lawful (cmp : Comparator) : Prop where
  swap (a b : Precedence) : cmp b a = (cmp a b).swap
  trans {a b c : Precedence} : (cmp a b).isLE = true → (cmp b c).isLE = true → (cmp a c).isLE = true

end Comparator

/-! ## 3. Sorting -/

/-- Sorts under a comparator; what compares equal keeps its order. -/
def sortBy {α : Type} (cmp : Comparator) (standing : α → Precedence) (items : List α) : List α :=
  items.mergeSort fun a b => (cmp (standing a) (standing b)).isLE

end ComponentContainer
