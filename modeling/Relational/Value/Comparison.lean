import Relational.Ordered.Set
import Relational.Value.Access

/-!
# Comparisons of values

The order comparisons are defined for any two values, the inclusions only for sets, and membership
only in a set.

> If one of the operands of an inclusion is not a set, the comparison fails, whatever the other
> operand is; of two wrong operands the first one looked at is reported.
-/

namespace Relational

namespace Value

/-- Whether a value is a member of a set. -/
def isMember (a b : Value) : Except Cause Bool :=
  match b with
  | .set members => .ok (OrderedSet.contains a members)
  | b => .error (.memberOfNonSet b.text)

/-- Whether a set is included in another and smaller. -/
def isSubset (a b : Value) : Except Cause Bool := do
  let xs ← a.asSet
  let ys ← b.asSet
  .ok (OrderedSet.isProperSubset xs ys)

/-- Whether a set is included in another. -/
def isSubsetEq (a b : Value) : Except Cause Bool := do
  let xs ← a.asSet
  let ys ← b.asSet
  .ok (OrderedSet.isSubset xs ys)

/-- Whether one of two sets is included in the other and smaller. -/
def isComparable (a b : Value) : Except Cause Bool := do
  if ← a.isSubset b then .ok true else b.isSubset a

/-- Whether one of two sets is included in the other. -/
def isComparableEq (a b : Value) : Except Cause Bool := do
  if ← a.isSubsetEq b then .ok true else b.isSubsetEq a

/-- The negation of a comparison. -/
def negated (holds : Except Cause Bool) : Except Cause Bool := holds.map (!·)

end Value

open Value in
/-- Whether a comparison holds. -/
def CompareOp.holds (op : CompareOp) (a b : Value) : Except Cause Bool :=
  match op with
  | .member => isMember a b
  | .notMember => negated (isMember a b)
  | .eq => .ok (a == b)
  | .ne => .ok (a != b)
  | .lt => .ok ((a.compare b).isLT)
  | .gt => .ok ((b.compare a).isLT)
  | .le => .ok ((a.compare b).isLE)
  | .ge => .ok ((a.compare b).isGE)
  | .subset => isSubset a b
  | .superset => isSubset b a
  | .subsetEq => isSubsetEq a b
  | .supersetEq => isSubsetEq b a
  | .comparable => isComparable a b
  | .comparableEq => isComparableEq b a
  | .notSubset => negated (isSubset a b)
  | .notSuperset => negated (isSubset b a)
  | .notSubsetEq => negated (isSubsetEq a b)
  | .notSupersetEq => negated (isSubsetEq b a)
  | .notComparable => negated (isComparable a b)
  | .notComparableEq => negated (isComparableEq b a)

end Relational
