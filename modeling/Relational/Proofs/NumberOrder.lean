import Mathlib.Algebra.Order.Field.Rat
import Mathlib.Data.Int.ConditionallyCompleteOrder
import Mathlib.Order.WithBot
import Mathlib.Tactic.Linarith
import Mathlib.Tactic.NormNum
import Mathlib.Tactic.Ring
import Relational.Number.Arithmetic

/-!
# The order of numbers glues two comparisons

`Number.compare` orders numbers by one integer each, the key. What a floating-point unit offers is
two comparisons. One is *by value*: it joins the two zeros and says nothing about a NaN. The other
is *by pattern*: it orders everything and keeps the zeros apart. This file shows that the order by
keys is the first wherever it answers and the second everywhere else:

> `compare_eq_getD`: numbers are compared by value, and by pattern when one of them is a NaN.

The load-bearing fact is `units_strictMono`: read as an integer, the pattern of a magnitude grows
with the value it stands for, across the change from subnormal to normal numbers and across every
change of exponent. The rest is bookkeeping of signs and infinities.
-/

namespace Relational.Number

/-! ## Comparison by value and by pattern -/

/-- The value of a finite number. -/
def value (x : Number) : ℚ :=
  (if x.isNegative then -1 else 1) * (x.significand * 2 ^ x.exponent)

/-- The value of a number on the line with both infinities. A NaN has none. -/
def value? (x : Number) : Option (WithBot (WithTop ℚ)) :=
  if x.isNaN then none
  else if x.isFinite then some (x.value : WithTop ℚ)
  else if x.isNegative then some ⊥
  else some ((⊤ : WithTop ℚ) : WithBot (WithTop ℚ))

/-- Comparison by value. Nothing is said about a NaN. -/
def partialCompare (x y : Number) : Option Ordering :=
  match x.value?, y.value? with
  | some a, some b => some (Ord.compare a b)
  | _, _ => none

/-- Comparison by pattern: a negative pattern comes before a positive one, and of two negative
ones the greater magnitude comes first. -/
def totalCompare (x y : Number) : Ordering := Ord.compare x.strictKey y.strictKey

/-! ## Magnitudes grow with their values -/

/-- The value of a magnitude in units of the least positive number. Up to the first change of
exponent a magnitude counts its units; from there on each exponent doubles the step. -/
def units (m : Nat) : Nat :=
  if m < exponentUnit then m
  else (m % exponentUnit + exponentUnit) * 2 ^ (m / exponentUnit - 1)

/-- The next magnitude has the next value. -/
theorem units_lt_succ (m : Nat) : units m < units (m + 1) := by
  have hunit : exponentUnit = 4503599627370496 := rfl
  by_cases hsub : m + 1 < exponentUnit
  · rw [units, if_pos (by omega), units, if_pos hsub]
    omega
  · rw [units, units, if_neg hsub]
    by_cases hedge : m < exponentUnit
    · -- the first normal number comes right after the last subnormal one
      have hm : m + 1 = exponentUnit := by omega
      rw [if_pos hedge, hm, Nat.mod_self, Nat.div_self (by omega)]
      omega
    · rw [if_neg hedge]
      have hq : 1 ≤ m / exponentUnit := Nat.div_pos (by omega) (by omega)
      by_cases hcarry : m % exponentUnit + 1 = exponentUnit
      · -- the fraction overflows into the exponent
        have hdiv : (m + 1) / exponentUnit = m / exponentUnit + 1 := by
          rw [hunit] at hcarry ⊢
          omega
        have hmod : (m + 1) % exponentUnit = 0 := by
          rw [hunit] at hcarry ⊢
          omega
        have hpow : 2 ^ (m / exponentUnit + 1 - 1) = 2 * 2 ^ (m / exponentUnit - 1) := by
          rw [← Nat.pow_succ']
          congr 1
          omega
        rw [hdiv, hmod, hpow, Nat.zero_add, ← Nat.mul_assoc]
        exact Nat.mul_lt_mul_of_pos_right (by omega) (Nat.two_pow_pos _)
      · have hdiv : (m + 1) / exponentUnit = m / exponentUnit := by
          rw [hunit] at hcarry ⊢
          omega
        have hmod : (m + 1) % exponentUnit = m % exponentUnit + 1 := by
          rw [hunit] at hcarry ⊢
          omega
        rw [hdiv, hmod]
        exact Nat.mul_lt_mul_of_pos_right (by omega) (Nat.two_pow_pos _)

/-- Greater magnitudes have greater values. -/
theorem units_strictMono : StrictMono units := strictMono_nat_of_lt_succ units_lt_succ

/-- The significand and the exponent of a number spell out its units. -/
theorem significand_mul_pow (x : Number) :
    (x.significand : ℚ) * 2 ^ x.exponent = units x.magnitude * 2 ^ (-1074 : Int) := by
  unfold significand exponent units
  by_cases hsub : x.magnitude < exponentUnit
  · rw [if_pos hsub, if_pos hsub, if_pos hsub]
  · rw [if_neg hsub, if_neg hsub, if_neg hsub]
    have hq : 1 ≤ x.magnitude / exponentUnit :=
      Nat.div_pos (by omega) (by unfold exponentUnit; omega)
    have hexp : ((x.magnitude / exponentUnit : Nat) : Int) - 1075
        = ((x.magnitude / exponentUnit - 1 : Nat) : Int) + (-1074) := by
      omega
    rw [hexp, zpow_add₀ (by norm_num), zpow_natCast, Nat.cast_mul, Nat.cast_pow,
      Nat.cast_ofNat, mul_assoc]

/-! ## Keys grow with values -/

/-- The value of the finite number with this key. -/
def lineValue (k : Int) : ℚ :=
  (if k < 0 then -(units k.natAbs : ℚ) else units k.natAbs) * 2 ^ (-1074 : Int)

theorem lineValue_strictMono : StrictMono lineValue := by
  intro a b hab
  unfold lineValue
  refine mul_lt_mul_of_pos_right ?_ (zpow_pos (by norm_num) _)
  by_cases hb : b < 0
  · rw [if_pos (by omega), if_pos hb, neg_lt_neg_iff, Nat.cast_lt]
    exact units_strictMono (by omega)
  · rw [if_neg hb]
    by_cases ha : a < 0
    · rw [if_pos ha]
      have hpos : (0 : ℚ) < units a.natAbs := by
        rw [Nat.cast_pos]
        exact Nat.lt_of_le_of_lt (Nat.zero_le _) (units_strictMono (by omega : 0 < a.natAbs))
      have hnonneg : (0 : ℚ) ≤ units b.natAbs := Nat.cast_nonneg _
      linarith
    · rw [if_neg ha, Nat.cast_lt]
      exact units_strictMono (by omega)

theorem value_eq_lineValue (x : Number) : x.value = lineValue x.key := by
  unfold value lineValue key
  rw [significand_mul_pow]
  by_cases hneg : x.isNegative = true
  · rw [if_pos hneg, if_pos hneg]
    by_cases hzero : x.magnitude = 0
    · simp [hzero, units, exponentUnit]
    · rw [if_pos (by omega), Int.natAbs_neg, Int.natAbs_natCast]
      ring
  · rw [if_neg hneg, if_neg hneg, if_neg (by omega), Int.natAbs_natCast]
    ring

/-- The place of a key on the line with both infinities. -/
def place (k : Int) : WithBot (WithTop ℚ) :=
  if k = infinityMagnitude then ((⊤ : WithTop ℚ) : WithBot (WithTop ℚ))
  else if k = -(infinityMagnitude : Int) then ⊥
  else ((lineValue k : WithTop ℚ) : WithBot (WithTop ℚ))

/-- Between the infinities, greater keys have greater places. -/
theorem place_strictMonoOn :
    StrictMonoOn place (Set.Icc (-(infinityMagnitude : Int)) infinityMagnitude) := by
  intro a ha b hb hab
  have hpos : 0 < infinityMagnitude := by decide
  unfold place
  rw [if_neg (by have := hb.2; omega : ¬a = (infinityMagnitude : Int)),
    if_neg (by have := ha.1; omega : ¬b = -(infinityMagnitude : Int))]
  by_cases hlow : a = -(infinityMagnitude : Int)
  · rw [if_pos hlow]
    split <;> exact WithBot.bot_lt_coe _
  · rw [if_neg hlow]
    split
    next => exact WithBot.coe_lt_coe.mpr (WithTop.coe_lt_top _)
    next =>
      exact WithBot.coe_lt_coe.mpr (WithTop.coe_lt_coe.mpr (lineValue_strictMono hab))

/-! ## The two comparisons, glued -/

/-- A number that is no NaN has the value at the place of its key. -/
theorem value?_eq_place {x : Number} (h : x.isNaN = false) : x.value? = some (place x.key) := by
  have hmag : x.magnitude ≤ infinityMagnitude := by
    simpa [isNaN] using h
  have hpos : 0 < infinityMagnitude := by decide
  unfold value? place
  rw [h, value_eq_lineValue, if_neg (by decide)]
  by_cases hfin : x.isFinite = true
  · have hlt : x.magnitude < infinityMagnitude := by simpa [isFinite] using hfin
    have hkey : x.key ≠ infinityMagnitude ∧ x.key ≠ -(infinityMagnitude : Int) := by
      unfold key
      constructor <;> split <;> omega
    rw [if_pos hfin, if_neg hkey.1, if_neg hkey.2]
  · have heq : x.magnitude = infinityMagnitude := by
      have : ¬x.magnitude < infinityMagnitude := by simpa [isFinite] using hfin
      omega
    rw [if_neg hfin]
    unfold key
    by_cases hneg : x.isNegative = true
    · rw [if_pos hneg, if_pos hneg, heq, if_neg (by omega), if_pos rfl]
    · rw [if_neg hneg, if_neg hneg, heq, if_pos rfl]

/-- Where neither number is a NaN, comparison by value is comparison of the keys. -/
theorem partialCompare_of_not_isNaN {x y : Number} (hx : x.isNaN = false)
    (hy : y.isNaN = false) : x.partialCompare y = some (x.compare y) := by
  have hbound : ∀ z : Number, z.isNaN = false →
      z.key ∈ Set.Icc (-(infinityMagnitude : Int)) infinityMagnitude := by
    intro z hz
    have hmag : z.magnitude ≤ infinityMagnitude := by simpa [isNaN] using hz
    unfold key
    constructor <;> split <;> omega
  unfold partialCompare Number.compare
  rw [value?_eq_place hx, value?_eq_place hy]
  simp only [Option.some.injEq]
  rw [← cmp_eq_compare, ← cmp_eq_compare]
  exact place_strictMonoOn.cmp_map_eq (hbound x hx) (hbound y hy)

/-- Comparison by value says nothing exactly when one of the numbers is a NaN. -/
theorem partialCompare_eq_none_iff {x y : Number} :
    x.partialCompare y = none ↔ x.isNaN = true ∨ y.isNaN = true := by
  constructor
  · intro h
    by_contra hno
    rw [not_or, Bool.not_eq_true, Bool.not_eq_true] at hno
    rw [partialCompare_of_not_isNaN hno.1 hno.2] at h
    exact absurd h (by simp)
  · intro h
    unfold partialCompare
    rcases h with h | h
    · rw [value?, if_pos h]
    · rw [show y.value? = none by rw [value?, if_pos h]]
      cases x.value? <;> rfl

/-- Next to a NaN both keys order alike: its magnitude is beyond every other, so it does not matter
which of the zeros comes first. -/
theorem key_lt_iff_strictKey_lt {x y : Number} (h : x.isNaN = true ∨ y.isNaN = true) :
    x.key < y.key ↔ x.strictKey < y.strictKey := by
  have hmag : infinityMagnitude < x.magnitude ∨ infinityMagnitude < y.magnitude := by
    simpa [isNaN] using h
  unfold key strictKey
  split <;> split <;> omega

/-- Next to a NaN the order by keys is the order by patterns. -/
theorem compare_eq_totalCompare {x y : Number} (h : x.isNaN = true ∨ y.isNaN = true) :
    x.compare y = x.totalCompare y := by
  have hxy := key_lt_iff_strictKey_lt h
  have hyx := key_lt_iff_strictKey_lt h.symm
  unfold Number.compare totalCompare
  rw [← cmp_eq_compare, ← cmp_eq_compare]
  rcases lt_trichotomy x.strictKey y.strictKey with hlt | heq | hgt
  · rw [(cmp_eq_lt_iff _ _).mpr hlt, cmp_eq_lt_iff]
    exact hxy.mpr hlt
  · rw [(cmp_eq_eq_iff _ _).mpr heq, cmp_eq_eq_iff]
    omega
  · rw [(cmp_eq_gt_iff _ _).mpr hgt, cmp_eq_gt_iff]
    exact hyx.mpr hgt

/-- Numbers are compared by value, and by pattern when one of them is a NaN. -/
theorem compare_eq_getD (x y : Number) :
    x.compare y = (x.partialCompare y).getD (x.totalCompare y) := by
  by_cases h : x.isNaN = true ∨ y.isNaN = true
  · rw [partialCompare_eq_none_iff.mpr h, Option.getD_none]
    exact compare_eq_totalCompare h
  · rw [not_or, Bool.not_eq_true, Bool.not_eq_true] at h
    rw [partialCompare_of_not_isNaN h.1 h.2, Option.getD_some]

end Relational.Number
