/-!
# Sets of characters

A set of code points is kept as the increasing list of the points at which membership changes:
a code point belongs to the set when an odd number of those points lie at or below it.

- `CharSet.contains_ofRange`: the set of one range holds exactly the points of that range.
-/

namespace DocSchema

/-- A set of code points, by the increasing points at which membership changes. -/
structure CharSet where
  toggles : List Nat
  deriving Repr

namespace CharSet

/-- Whether a code point has an odd number of changes at or below it. -/
def hasPoint (s : CharSet) (point : Nat) : Bool :=
  (s.toggles.takeWhile (· ≤ point)).length % 2 == 1

/-- Whether the set holds a character. -/
def contains (s : CharSet) (c : Char) : Bool :=
  s.hasPoint c.toNat

/-- The code points from `low` up to, but not including, `high`. -/
def ofRange (low high : Nat) : CharSet :=
  ⟨[low, high]⟩

theorem hasPoint_ofRange {low high point : Nat} (h : low ≤ high) :
    (ofRange low high).hasPoint point = (decide (low ≤ point) && decide (point < high)) := by
  by_cases h1 : low ≤ point
  · by_cases h2 : high ≤ point <;> simp [hasPoint, ofRange, List.takeWhile, h1, h2]
    omega
  · have h2 : ¬ high ≤ point := fun h2 => h1 (Nat.le_trans h h2)
    simp [hasPoint, ofRange, h1]

theorem contains_ofRange {low high : Nat} (h : low ≤ high) (c : Char) :
    (ofRange low high).contains c = (decide (low ≤ c.toNat) && decide (c.toNat < high)) :=
  hasPoint_ofRange h

end CharSet

end DocSchema
