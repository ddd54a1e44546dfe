/-!
# Maps as ascending lists

A map over an ordered type of keys is the list of its entries in strictly ascending order of their
keys.

> What is found under a key after `insert` is the new value under that key and the old one under
> every other; after `erase` it is nothing under that key and the old value under every other.
-/

namespace Relational.OrderedMap

variable {κ ν : Type} [Ord κ]

/-- The value under a key. The search ends at the first greater key. -/
def find? (k : κ) : List (κ × ν) → Option ν
  | [] => none
  | (k', v) :: rest =>
    match compare k k' with
    | .lt => none
    | .eq => some v
    | .gt => find? k rest

/-- Whether there is a value under a key. -/
def contains (k : κ) (entries : List (κ × ν)) : Bool := (find? k entries).isSome

/-- Puts a value under a key. A key equal to it stays in its place. -/
def insert (k : κ) (v : ν) : List (κ × ν) → List (κ × ν)
  | [] => [(k, v)]
  | (k', v') :: rest =>
    match compare k k' with
    | .lt => (k, v) :: (k', v') :: rest
    | .eq => (k', v) :: rest
    | .gt => (k', v') :: insert k v rest

/-- Removes a key with its value. -/
def erase (k : κ) : List (κ × ν) → List (κ × ν)
  | [] => []
  | (k', v') :: rest =>
    match compare k k' with
    | .lt => (k', v') :: rest
    | .eq => rest
    | .gt => (k', v') :: erase k rest

/-- Puts all the entries of a list into a map, one after the other. -/
def insertAll (entries : List (κ × ν)) (new : List (κ × ν)) : List (κ × ν) :=
  new.foldl (fun acc (k, v) => insert k v acc) entries

/-- The map of the entries of a list. A later entry takes the place of an earlier one. -/
def ofList (new : List (κ × ν)) : List (κ × ν) := insertAll [] new

end Relational.OrderedMap
