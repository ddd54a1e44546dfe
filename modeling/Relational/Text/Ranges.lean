/-!
# Ranges of code points

A class of characters is an ascending list of disjoint ranges of code points, both ends included.
The classes that follow are those of Unicode 17.
-/

namespace Relational.Text

/-- Whether a code point lies in one of the ranges. The search ends at the first range above it,
since the ranges ascend. -/
def inRanges : List (Nat × Nat) → Nat → Bool
  | [], _ => false
  | (low, high) :: rest, n =>
    if n < low then false else if n ≤ high then true else inRanges rest n

end Relational.Text
