import Relational.Number.Basic

/-!
# Arithmetic on numbers

The four operations and powers are those of the floating-point unit, rounded to nearest. The
remainder, the floor and the whole part are exact and are computed on significands and exponents.

> Summing starts from negative zero, the neutral element of addition, so that a sum of negative
> zeros is negative zero.
-/

namespace Relational.Number

/-- The number as a machine float. A NaN loses its sign. -/
def toFloat (x : Number) : Float := Float.ofBits x.bits

/-- The number of a machine float. -/
def ofFloat (f : Float) : Number := ⟨f.toBits⟩

def add (x y : Number) : Number := ofFloat (x.toFloat + y.toFloat)

def sub (x y : Number) : Number := ofFloat (x.toFloat - y.toFloat)

def mul (x y : Number) : Number := ofFloat (x.toFloat * y.toFloat)

def div (x y : Number) : Number := ofFloat (x.toFloat / y.toFloat)

def pow (x y : Number) : Number := ofFloat (Float.pow x.toFloat y.toFloat)

/-- The number with its sign turned, also for a zero and a NaN. -/
def neg (x : Number) : Number := ⟨x.bits ^^^ signBit⟩

/-- The remainder of a division that rounds toward zero; it has the sign of the dividend. -/
def mod (x y : Number) : Number :=
  if !x.isFinite || y.isNaN || y.isZero then nan false
  else if !y.isFinite then x
  else
    let e := min x.exponent y.exponent
    let m := x.significand <<< (x.exponent - e).toNat
    let n := y.significand <<< (y.exponent - e).toNat
    ofScaled x.isNegative (m % n) e

/-- The dividend less its remainder. -/
def subMod (x y : Number) : Number := sub x (mod x y)

/-- The greatest whole number at or below a number. -/
def floor (x : Number) : Number :=
  if x.isIntegral || !x.isFinite then x
  else if x.isNegative then ofScaled true (x.wholePart + 1) 0
  else ofScaled false x.wholePart 0

/-- The quotient, rounded down to a whole number. -/
def intDiv (x y : Number) : Number := floor (div x y)

/-- The number without its fractional part. -/
def trunc (x : Number) : Number :=
  if x.isIntegral || !x.isFinite then x else ofScaled x.isNegative x.wholePart 0

/-! ## Aggregates -/

/-- The sum of numbers, added from the left. -/
def sum (xs : List Number) : Number := xs.foldl add negZero

/-- The arithmetic mean. -/
def mean (xs : List Number) : Number := div (sum xs) (ofNat xs.length)

/-- The greatest number; a NaN is passed over. Of two equal numbers the first stays. -/
def maximum (xs : List Number) : Number :=
  xs.foldl (fun best x => if lt best x then x else best) (infinity true)

/-- The least number; a NaN is passed over. Of two equal numbers the first stays. -/
def minimum (xs : List Number) : Number :=
  xs.foldl (fun best x => if lt x best then x else best) (infinity false)

/-- The key that also puts negative zero below positive zero. -/
def strictKey (x : Number) : Int :=
  if x.isNegative then - (x.magnitude : Int) - 1 else (x.magnitude : Int)

/-- The number in the middle of the sorted numbers, or the mean of the two in the middle. -/
def median (xs : List Number) : Number :=
  let sorted := xs.mergeSort (fun x y => decide (x.strictKey ≤ y.strictKey))
  let mid := sorted.length / 2
  if sorted.length % 2 = 0 then
    div (add (sorted.getD (mid - 1) zero) (sorted.getD mid zero)) (ofNat 2)
  else sorted.getD mid zero

end Relational.Number
