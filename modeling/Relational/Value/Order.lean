import Relational.Expr.Basic

/-!
# The order of values

Any two values can be compared. Values of different kinds are ordered by kind; within a kind the
order is that of the contents, and sequences are compared element by element, a shorter one coming
before its extensions.

> The order is total: `compare` is reflexive, turns around when its arguments are exchanged, and
> is transitive. Equality of values is what compares equal; it joins the two zeros and keeps two
> functions apart that were made apart.
-/

namespace Relational

/-- The place of a value's kind among the kinds. -/
def Value.rank : Value → Nat
  | .bool _ => 0
  | .number _ => 1
  | .string _ => 2
  | .bytes _ => 3
  | .array _ => 4
  | .tuple _ => 5
  | .set _ => 6
  | .dict _ => 7
  | .closure _ _ _ _ => 8
  | .native _ _ => 9

/-- The order of two rows of bytes. -/
def compareBytes : List UInt8 → List UInt8 → Ordering
  | [], [] => .eq
  | [], _ :: _ => .lt
  | _ :: _, [] => .gt
  | a :: as, b :: bs => (compare a b).then (compareBytes as bs)

mutual

/-- The order of two values. -/
def Value.compare : Value → Value → Ordering
  | .bool a, .bool b => Ord.compare a b
  | .number a, .number b => a.compare b
  | .string a, .string b => Ord.compare a b
  | .bytes a, .bytes b => compareBytes a b
  | .array a, .array b => Value.compareItems a b
  | .tuple a, .tuple b => Value.compareAttrs a b
  | .set a, .set b => Value.compareMembers a b
  | .dict a, .dict b => Value.compareEntries a b
  | .closure a _ _ _, .closure b _ _ _ => Ord.compare a b
  | .native a f, .native b g => (Ord.compare f.name g.name).then (Ord.compare a b)
  | a, b => Ord.compare a.rank b.rank
termination_by structural x => x

/-- The order of two rows of items; a hole comes before every item. -/
def Value.compareItems : List (Option Value) → List (Option Value) → Ordering
  | [], [] => .eq
  | [], _ :: _ => .lt
  | _ :: _, [] => .gt
  | none :: as, none :: bs => Value.compareItems as bs
  | none :: _, some _ :: _ => .lt
  | some _ :: _, none :: _ => .gt
  | some a :: as, some b :: bs => (a.compare b).then (Value.compareItems as bs)
termination_by structural x => x

/-- The order of two rows of attributes, by name first. -/
def Value.compareAttrs : List (String × Value) → List (String × Value) → Ordering
  | [], [] => .eq
  | [], _ :: _ => .lt
  | _ :: _, [] => .gt
  | (m, a) :: as, (n, b) :: bs =>
    (Ord.compare m n).then ((a.compare b).then (Value.compareAttrs as bs))
termination_by structural x => x

/-- The order of two rows of members. -/
def Value.compareMembers : List Value → List Value → Ordering
  | [], [] => .eq
  | [], _ :: _ => .lt
  | _ :: _, [] => .gt
  | a :: as, b :: bs => (a.compare b).then (Value.compareMembers as bs)
termination_by structural x => x

/-- The order of two rows of entries, by key first. -/
def Value.compareEntries : List (Value × Value) → List (Value × Value) → Ordering
  | [], [] => .eq
  | [], _ :: _ => .lt
  | _ :: _, [] => .gt
  | (j, a) :: as, (k, b) :: bs =>
    (j.compare k).then ((a.compare b).then (Value.compareEntries as bs))
termination_by structural x => x

end

instance : Ord Value := ⟨Value.compare⟩

/-- Values are equal when they compare equal. -/
instance : BEq Value := ⟨fun a b => a.compare b == .eq⟩

end Relational
