import Relational.Proofs.NumberOrder
import Relational.Value.Comparison

/-!
# The order of values is total

Sets and dictionaries are kept in the order of values, so everything rests on that order being one:
reflexive, turning around with its arguments, and transitive, on values nested to any depth.

> `Value.compare` is a total order (`instTransOrdValue`), and exactly one of `<`, `=` and `>` holds
> of any two values.

Transitivity does not go through by itself. The order of two arrays is decided by the first items
that differ, so to compare the outer two of three arrays one has to know what happens when a pair
of items is equal and the next one is not. `Chained` states all of it at once, for the three
comparisons of three things, and is closed under comparing one thing after another
(`Chained.then`); the induction over values then has nothing left to do but follow the data.
-/

namespace Relational

open Std (OrientedOrd TransCmp TransOrd)

/-! ## Three comparisons of three things -/

/-- What an order says about the comparisons of `a` with `b`, of `b` with `c` and of `a` with
`c`. -/
structure Chained (ab bc ac : Ordering) : Prop where
  left : ab = .eq → ac = bc
  right : bc = .eq → ac = ab
  lt : ab = .lt → bc = .lt → ac = .lt
  gt : ab = .gt → bc = .gt → ac = .gt

theorem chained_of_transOrd {α : Type} [Ord α] [TransOrd α] (a b c : α) :
    Chained (compare a b) (compare b c) (compare a c) where
  left h := TransCmp.congr_left h
  right h := (TransCmp.congr_right h).symm
  lt hab hbc := TransCmp.lt_trans hab hbc
  gt hab hbc := TransCmp.gt_trans hab hbc

/-- Comparing first by one thing and then by another is an order again. The second comparison
counts only where the first says that all three are equal. -/
theorem Chained.then {ab bc ac ab' bc' ac' : Ordering} (h : Chained ab bc ac)
    (h' : ab = .eq → bc = .eq → Chained ab' bc' ac') :
    Chained (ab.then ab') (bc.then bc') (ac.then ac') := by
  obtain ⟨hleft, hright, hlt, hgt⟩ := h
  cases ab with
  | eq =>
    obtain rfl := hleft rfl
    cases ac with
    | eq => exact h' rfl rfl
    | lt => constructor <;> simp
    | gt => constructor <;> simp
  | lt =>
    cases bc with
    | eq =>
      obtain rfl := hright rfl
      constructor <;> simp
    | lt =>
      obtain rfl := hlt rfl rfl
      constructor <;> simp
    | gt => constructor <;> simp
  | gt =>
    cases bc with
    | eq =>
      obtain rfl := hright rfl
      constructor <;> simp
    | lt => constructor <;> simp
    | gt =>
      obtain rfl := hgt rfl rfl
      constructor <;> simp

/-- Of three comparisons that belong together, two that are at most equal give a third. -/
theorem Chained.isLE {ab bc ac : Ordering} (h : Chained ab bc ac) (hab : ab.isLE)
    (hbc : bc.isLE) : ac.isLE := by
  cases ab with
  | eq => rw [h.left rfl]; exact hbc
  | gt => cases hab
  | lt =>
    cases bc with
    | eq => rw [h.right rfl]; rfl
    | lt => rw [h.lt rfl rfl]; rfl
    | gt => cases hbc

/-! ## Bytes and numbers -/

theorem compareBytes_eq_compare (as bs : List UInt8) : compareBytes as bs = compare as bs := by
  induction as generalizing bs with
  | nil => cases bs <;> rfl
  | cons a as ih =>
    cases bs with
    | nil => rfl
    | cons b bs => rw [compareBytes, ih, List.compare_cons_cons]

/-- Numbers are ordered as their keys are. -/
theorem Number.compare_chained (x y z : Number) :
    Chained (x.compare y) (y.compare z) (x.compare z) := chained_of_transOrd x.key y.key z.key

/-! ## Values -/

namespace Value

/-- Two values of one kind. -/
inductive SameKind : Value → Value → Prop
  | bool (x y : Bool) : SameKind (.bool x) (.bool y)
  | number (x y : Number) : SameKind (.number x) (.number y)
  | string (x y : String) : SameKind (.string x) (.string y)
  | bytes (x y : List UInt8) : SameKind (.bytes x) (.bytes y)
  | array (x y : List (Option Value)) : SameKind (.array x) (.array y)
  | tuple (x y : List (String × Value)) : SameKind (.tuple x) (.tuple y)
  | set (x y : List Value) : SameKind (.set x) (.set y)
  | dict (x y : List (Value × Value)) : SameKind (.dict x) (.dict y)
  | closure (x y : Identity) {p q : Pattern} {d e : Expr} {c b : List (String × Value)} :
    SameKind (.closure x p d c) (.closure y q e b)
  | native (x y : Identity) (f g : Native) : SameKind (.native x f) (.native y g)

/-- The place of its kind tells a value's kind. -/
theorem sameKind_of_rank {a b : Value} (h : a.rank = b.rank) : SameKind a b := by
  cases a <;> cases b <;> first | constructor | simp [rank] at h

/-- Kinds are compared first; contents count only within one kind. -/
theorem compare_eq_rank_then (a b : Value) :
    a.compare b = (Ord.compare a.rank b.rank).then (a.compare b) := by
  cases a <;> cases b <;> rfl

/-- Across kinds the order is that of the kinds, so it remains to order the values of one kind. -/
theorem chained_of_sameKind {a b c : Value}
    (h : SameKind a b → SameKind b c → Chained (a.compare b) (b.compare c) (a.compare c)) :
    Chained (a.compare b) (b.compare c) (a.compare c) := by
  rw [compare_eq_rank_then a b, compare_eq_rank_then b c, compare_eq_rank_then a c]
  refine (chained_of_transOrd a.rank b.rank c.rank).then fun hab hbc => ?_
  exact h (sameKind_of_rank (Nat.compare_eq_eq.mp hab)) (sameKind_of_rank (Nat.compare_eq_eq.mp hbc))

/-- Across kinds the order turns around, so it remains to turn it around within one kind. -/
theorem swap_of_sameKind {a b : Value}
    (h : SameKind a b → b.compare a = (a.compare b).swap) : b.compare a = (a.compare b).swap := by
  rw [compare_eq_rank_then b a, compare_eq_rank_then a b, Ordering.swap_then]
  by_cases hrank : a.rank = b.rank
  · rw [h (sameKind_of_rank hrank), hrank]
    simp
  · have hne : Ord.compare a.rank b.rank ≠ .eq := fun he => hrank (Nat.compare_eq_eq.mp he)
    rw [OrientedOrd.eq_swap (a := b.rank)]
    cases hc : Ord.compare a.rank b.rank with
    | eq => exact absurd hc hne
    | lt => rfl
    | gt => rfl

mutual

/-- The order of values turns around when its arguments are exchanged. -/
theorem compare_swap : ∀ a b : Value, b.compare a = (a.compare b).swap
  | .bool x, _ => swap_of_sameKind fun h => by
    cases h with
    | bool _ y => exact OrientedOrd.eq_swap
  | .number x, _ => swap_of_sameKind fun h => by
    cases h with
    | number _ y => exact OrientedOrd.eq_swap (a := y.key) (b := x.key)
  | .string x, _ => swap_of_sameKind fun h => by
    cases h with
    | string _ y => exact OrientedOrd.eq_swap
  | .bytes x, _ => swap_of_sameKind fun h => by
    cases h with
    | bytes _ y =>
      simp only [Value.compare, compareBytes_eq_compare]
      exact OrientedOrd.eq_swap
  | .array x, _ => swap_of_sameKind fun h => by
    cases h with
    | array _ y => exact compareItems_swap x y
  | .tuple x, _ => swap_of_sameKind fun h => by
    cases h with
    | tuple _ y => exact compareAttrs_swap x y
  | .set x, _ => swap_of_sameKind fun h => by
    cases h with
    | set _ y => exact compareMembers_swap x y
  | .dict x, _ => swap_of_sameKind fun h => by
    cases h with
    | dict _ y => exact compareEntries_swap x y
  | .closure x _ _ _, _ => swap_of_sameKind fun h => by
    cases h with
    | closure _ y => exact OrientedOrd.eq_swap
  | .native x f, _ => swap_of_sameKind fun h => by
    cases h with
    | native _ y _ g =>
      simp only [Value.compare]
      rw [Ordering.swap_then, ← OrientedOrd.eq_swap, ← OrientedOrd.eq_swap]
termination_by structural x => x

theorem compareItems_swap : ∀ as bs : List (Option Value),
    compareItems bs as = (compareItems as bs).swap
  | [], [] | [], _ :: _ | none :: _, [] | none :: _, some _ :: _ | some _ :: _, []
  | some _ :: _, none :: _ => rfl
  | none :: as, none :: bs => compareItems_swap as bs
  | some a :: as, some b :: bs => by
    simp only [compareItems]
    rw [compare_swap a b, compareItems_swap as bs, Ordering.swap_then]
termination_by structural x => x

theorem compareAttrs_swap : ∀ as bs : List (String × Value),
    compareAttrs bs as = (compareAttrs as bs).swap
  | [], [] | [], _ :: _ | _ :: _, [] => rfl
  | (m, a) :: as, (n, b) :: bs => by
    simp only [compareAttrs]
    rw [compare_swap a b, compareAttrs_swap as bs, OrientedOrd.eq_swap (a := n), Ordering.swap_then,
      Ordering.swap_then]
termination_by structural x => x

theorem compareMembers_swap : ∀ as bs : List Value,
    compareMembers bs as = (compareMembers as bs).swap
  | [], [] | [], _ :: _ | _ :: _, [] => rfl
  | a :: as, b :: bs => by
    simp only [compareMembers]
    rw [compare_swap a b, compareMembers_swap as bs, Ordering.swap_then]
termination_by structural x => x

theorem compareEntries_swap : ∀ as bs : List (Value × Value),
    compareEntries bs as = (compareEntries as bs).swap
  | [], [] | [], _ :: _ | _ :: _, [] => rfl
  | (j, a) :: as, (k, b) :: bs => by
    simp only [compareEntries]
    rw [compare_swap j k, compare_swap a b, compareEntries_swap as bs, Ordering.swap_then,
      Ordering.swap_then]
termination_by structural x => x

end

mutual

/-- The order of values is transitive. -/
theorem compare_chained : ∀ a b c : Value, Chained (a.compare b) (b.compare c) (a.compare c)
  | .bool x, _, _ => chained_of_sameKind fun hab hbc => by
    cases hab with
    | bool _ y =>
      cases hbc with
      | bool _ z => exact chained_of_transOrd x y z
  | .number x, _, _ => chained_of_sameKind fun hab hbc => by
    cases hab with
    | number _ y =>
      cases hbc with
      | number _ z => exact Number.compare_chained x y z
  | .string x, _, _ => chained_of_sameKind fun hab hbc => by
    cases hab with
    | string _ y =>
      cases hbc with
      | string _ z => exact chained_of_transOrd x y z
  | .bytes x, _, _ => chained_of_sameKind fun hab hbc => by
    cases hab with
    | bytes _ y =>
      cases hbc with
      | bytes _ z =>
        simp only [Value.compare, compareBytes_eq_compare]
        exact chained_of_transOrd x y z
  | .array x, _, _ => chained_of_sameKind fun hab hbc => by
    cases hab with
    | array _ y =>
      cases hbc with
      | array _ z => exact compareItems_chained x y z
  | .tuple x, _, _ => chained_of_sameKind fun hab hbc => by
    cases hab with
    | tuple _ y =>
      cases hbc with
      | tuple _ z => exact compareAttrs_chained x y z
  | .set x, _, _ => chained_of_sameKind fun hab hbc => by
    cases hab with
    | set _ y =>
      cases hbc with
      | set _ z => exact compareMembers_chained x y z
  | .dict x, _, _ => chained_of_sameKind fun hab hbc => by
    cases hab with
    | dict _ y =>
      cases hbc with
      | dict _ z => exact compareEntries_chained x y z
  | .closure x _ _ _, _, _ => chained_of_sameKind fun hab hbc => by
    cases hab with
    | closure _ y =>
      cases hbc with
      | closure _ z => exact chained_of_transOrd x y z
  | .native x f, _, _ => chained_of_sameKind fun hab hbc => by
    cases hab with
    | native _ y _ g =>
      cases hbc with
      | native _ z _ h =>
        exact (chained_of_transOrd f.name g.name h.name).then fun _ _ =>
          chained_of_transOrd x y z
termination_by structural x => x

theorem compareItems_chained : ∀ as bs cs : List (Option Value),
    Chained (compareItems as bs) (compareItems bs cs) (compareItems as cs)
  | none :: as, none :: bs, none :: cs => compareItems_chained as bs cs
  | some a :: as, some b :: bs, some c :: cs =>
    (compare_chained a b c).then fun _ _ => compareItems_chained as bs cs
  -- in all other cases a row has ended or a hole stands against an item
  | [], bs, cs => by
    rcases bs with _ | ⟨_ | _, _⟩ <;> rcases cs with _ | ⟨_ | _, _⟩ <;>
      constructor <;> simp [compareItems]
  | as, [], cs => by
    rcases as with _ | ⟨_ | _, _⟩ <;> rcases cs with _ | ⟨_ | _, _⟩ <;>
      constructor <;> simp [compareItems]
  | as, bs, [] => by
    rcases as with _ | ⟨_ | _, _⟩ <;> rcases bs with _ | ⟨_ | _, _⟩ <;>
      constructor <;> simp [compareItems]
  | none :: _, some _ :: _, c :: _ | some _ :: _, none :: _, c :: _ => by
    cases c <;> constructor <;> simp [compareItems]
  | none :: _, none :: _, some _ :: _ | some _ :: _, some _ :: _, none :: _ => by
    constructor <;> simp [compareItems]
termination_by structural x => x

theorem compareAttrs_chained : ∀ as bs cs : List (String × Value),
    Chained (compareAttrs as bs) (compareAttrs bs cs) (compareAttrs as cs)
  | (l, a) :: as, (m, b) :: bs, (n, c) :: cs =>
    (chained_of_transOrd l m n).then fun _ _ =>
      (compare_chained a b c).then fun _ _ => compareAttrs_chained as bs cs
  | [], bs, cs => by cases bs <;> cases cs <;> constructor <;> simp [compareAttrs]
  | as, [], cs => by cases as <;> cases cs <;> constructor <;> simp [compareAttrs]
  | as, bs, [] => by cases as <;> cases bs <;> constructor <;> simp [compareAttrs]
termination_by structural x => x

theorem compareMembers_chained : ∀ as bs cs : List Value,
    Chained (compareMembers as bs) (compareMembers bs cs) (compareMembers as cs)
  | a :: as, b :: bs, c :: cs =>
    (compare_chained a b c).then fun _ _ => compareMembers_chained as bs cs
  | [], bs, cs => by cases bs <;> cases cs <;> constructor <;> simp [compareMembers]
  | as, [], cs => by cases as <;> cases cs <;> constructor <;> simp [compareMembers]
  | as, bs, [] => by cases as <;> cases bs <;> constructor <;> simp [compareMembers]
termination_by structural x => x

theorem compareEntries_chained : ∀ as bs cs : List (Value × Value),
    Chained (compareEntries as bs) (compareEntries bs cs) (compareEntries as cs)
  | (j, a) :: as, (k, b) :: bs, (l, c) :: cs =>
    (compare_chained j k l).then fun _ _ =>
      (compare_chained a b c).then fun _ _ => compareEntries_chained as bs cs
  | [], bs, cs => by cases bs <;> cases cs <;> constructor <;> simp [compareEntries]
  | as, [], cs => by cases as <;> cases cs <;> constructor <;> simp [compareEntries]
  | as, bs, [] => by cases as <;> cases bs <;> constructor <;> simp [compareEntries]
termination_by structural x => x

end

end Value

/-! ## The order as a whole -/

instance : TransOrd Value where
  eq_swap {a b} := Value.compare_swap b a
  isLE_trans {a b c} hab hbc := (Value.compare_chained a b c).isLE hab hbc

namespace Value

theorem compare_self (a : Value) : a.compare a = .eq :=
  Ordering.eq_eq_of_eq_swap (compare_swap a a)

theorem beq_iff {a b : Value} : (a == b) = true ↔ a.compare b = .eq := by
  show (a.compare b == .eq) = true ↔ a.compare b = .eq
  exact beq_iff_eq

/-- Equality of values is an equivalence. -/
theorem beq_equivalence : Equivalence fun a b : Value => (a == b) = true where
  refl a := beq_iff.mpr (compare_self a)
  symm {a b} h := by
    rw [beq_iff, compare_swap, beq_iff.mp h]
    rfl
  trans {a b c} h h' := by
    rw [beq_iff, (compare_chained a b c).left (beq_iff.mp h), beq_iff.mp h']

/-- The comparison that an order makes true of two values. -/
def orderOp : Ordering → CompareOp
  | .lt => .lt
  | .eq => .eq
  | .gt => .gt

/-- Of `<`, `=` and `>`, the one that holds of two values is the one their order says. -/
theorem holds_iff_orderOp {op : CompareOp} (h : op ∈ [CompareOp.lt, .eq, .gt]) (a b : Value) :
    op.holds a b = .ok true ↔ op = orderOp (a.compare b) := by
  have hgt : b.compare a = (a.compare b).swap := compare_swap a b
  have heq : (a == b) = (a.compare b == .eq) := rfl
  simp only [List.mem_cons, List.not_mem_nil, or_false] at h
  rcases h with rfl | rfl | rfl <;> unfold CompareOp.holds <;> simp only [hgt, heq] <;>
    cases a.compare b <;> simp [orderOp]

/-- **The order of values is total**: every value equals itself, the order of two values turns
around with them, and it is transitive. Exactly one of `<`, `=` and `>` holds of two values, and
equality is an equivalence. Numbers are compared by value, so that the two zeros are one, and by
their pattern when one of them is a NaN. -/
theorem compare_total_order :
    (∀ a : Value, a.compare a = .eq) ∧
    (∀ a b : Value, b.compare a = (a.compare b).swap) ∧
    (∀ a b c : Value, (a.compare b).isLE → (b.compare c).isLE → (a.compare c).isLE) ∧
    (∀ a b : Value, ∃! op, op ∈ [CompareOp.lt, .eq, .gt] ∧ op.holds a b = .ok true) ∧
    (Equivalence fun a b : Value => (a == b) = true) ∧
    (∀ x y : Number, (Value.number x).compare (.number y)
      = (x.partialCompare y).getD (x.totalCompare y)) := by
  refine ⟨compare_self, compare_swap,
    fun a b c => (compare_chained a b c).isLE, fun a b => ?_, beq_equivalence,
    Number.compare_eq_getD⟩
  have hmem : orderOp (a.compare b) ∈ [CompareOp.lt, .eq, .gt] := by
    cases a.compare b <;> simp [orderOp]
  refine ⟨orderOp (a.compare b), ⟨hmem, (holds_iff_orderOp hmem a b).mpr rfl⟩, ?_⟩
  rintro op ⟨hop, hholds⟩
  exact (holds_iff_orderOp hop a b).mp hholds

/-- A NaN below the zeros, inside arrays: the least pattern is ordered by its bits and the two
zeros by their value. -/
theorem compare_total_order_nan :
    ((Value.ofItems [.number (.nan true)]).compare (.ofItems [.number .zero])).isLE ∧
    ((Value.ofItems [.number .zero]).compare (.ofItems [.number .negZero])).isLE ∧
    ((Value.ofItems [.number (.nan true)]).compare (.ofItems [.number .negZero])).isLE :=
  ⟨by decide, by decide,
    compare_total_order.2.2.1 _ (.ofItems [.number .zero]) _ (by decide) (by decide)⟩

end Value

end Relational
