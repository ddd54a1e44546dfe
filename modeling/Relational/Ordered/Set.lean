/-!
# Sets as ascending lists

A set over an ordered type is the list of its members in strictly ascending order. Two members
that compare equal are one member, so there is one list for every set, up to which of two equal
members stands for both.

> Membership in the result of each operation is the matching combination of the memberships in
> its arguments: or for `union`, and for `inter`, and-not for `diff`, exclusive or for
> `symmDiff`.
-/

namespace Relational.OrderedSet

variable {α : Type} [Ord α]

/-- Whether one element stands at or before another in the order. -/
def le (x y : α) : Bool := (compare x y).isLE

/-- Whether two elements compare equal. -/
def same (x y : α) : Bool := compare x y == .eq

/-- Whether an element is a member. The search ends at the first greater member. -/
def contains (x : α) : List α → Bool
  | [] => false
  | y :: ys =>
    match compare x y with
    | .lt => false
    | .eq => true
    | .gt => contains x ys

/-- Adds an element. A member equal to it stays in its place. -/
def insert (x : α) : List α → List α
  | [] => [x]
  | y :: ys =>
    match compare x y with
    | .lt => x :: y :: ys
    | .eq => y :: ys
    | .gt => y :: insert x ys

/-- Removes an element. -/
def erase (x : α) : List α → List α
  | [] => []
  | y :: ys =>
    match compare x y with
    | .lt => y :: ys
    | .eq => ys
    | .gt => y :: erase x ys

/-- Of equal neighbours in a list, keeps the last. -/
def dedupLast (xs : List α) : List α :=
  xs.foldr (fun x kept => match kept with
    | [] => [x]
    | y :: ys => if same x y then y :: ys else x :: y :: ys) []

/-- Of equal neighbours in a list, keeps the first. -/
def dedupFirst (xs : List α) : List α :=
  xs.foldr (fun x kept => match kept with
    | [] => [x]
    | y :: ys => if same x y then x :: ys else x :: y :: ys) []

/-- The set of the elements of a list. Of equal elements the last stands for all. -/
def ofList (xs : List α) : List α := dedupLast (xs.mergeSort le)

/-- The elements of either set. A member of both is taken from the first. -/
def union (xs ys : List α) : List α := dedupFirst (List.merge xs ys le)

/-- The elements of both sets. -/
def inter (xs ys : List α) : List α := xs.filter (contains · ys)

/-- The elements of the first set that are not in the second. -/
def diff (xs ys : List α) : List α := xs.filter (!contains · ys)

/-- The elements of exactly one of the sets. -/
def symmDiff (xs ys : List α) : List α := List.merge (diff xs ys) (diff ys xs) le

/-- Whether all members of the first set are in the second. -/
def isSubset (xs ys : List α) : Bool := xs.all (contains · ys)

/-- Whether the first set is included in the second and smaller. -/
def isProperSubset (xs ys : List α) : Bool :=
  decide (xs.length < ys.length) && isSubset xs ys

/-- The members of a set whose places are bits of a mask. -/
def selected {α : Type} (members : List α) (mask : Nat) : List α :=
  (members.zipIdx.filter fun member => mask.testBit member.2).map Prod.fst

end Relational.OrderedSet
