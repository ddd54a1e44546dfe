/-!
# Numbers

A `Number` is a binary floating-point number of 64 bits, held as its bit pattern: one bit of
sign, eleven of exponent and fifty-two of fraction. Holding the bits keeps apart what has to stay
apart (the two zeros, a NaN of either sign) and leaves nothing about the order to be assumed.

> `Number.key` places every number on the line of integers: the value's sign on the pattern of
> its magnitude. The order of numbers is the order of the keys, so it is total. The two zeros
> share the key `0`; a NaN lies beyond the infinity of its own sign.

A finite number is `± significand * 2 ^ exponent`; the exact arithmetic below works on that form.
-/

namespace Relational

/-- A floating-point number of 64 bits, as its bit pattern. -/
structure Number where
  bits : UInt64
deriving DecidableEq

namespace Number

/-- The pattern of the sign bit alone. -/
def signBit : UInt64 := 0x8000000000000000

/-- The value of the sign bit: 2 to the 63. -/
def signValue : Nat := 0x8000000000000000

/-- The value of the lowest bit of the exponent: 2 to the 52. -/
def exponentUnit : Nat := 0x10000000000000

/-- Whether the sign bit is set. -/
def isNegative (x : Number) : Bool := decide (signValue ≤ x.bits.toNat)

/-- The pattern without its sign bit. -/
def magnitude (x : Number) : Nat := x.bits.toNat % signValue

/-- The magnitude of the infinities. -/
def infinityMagnitude : Nat := 2047 * exponentUnit

/-- Whether the pattern is that of a NaN. -/
def isNaN (x : Number) : Bool := decide (infinityMagnitude < x.magnitude)

/-- Whether the number is neither infinite nor a NaN. -/
def isFinite (x : Number) : Bool := decide (x.magnitude < infinityMagnitude)

/-- Whether the number is one of the two zeros. -/
def isZero (x : Number) : Bool := x.magnitude == 0

/-- The place of a number in the order of all numbers. -/
def key (x : Number) : Int :=
  if x.isNegative then - (x.magnitude : Int) else (x.magnitude : Int)

/-- The order of numbers: by value, the two zeros equal, and NaNs beyond the infinities. -/
def compare (x y : Number) : Ordering := Ord.compare x.key y.key

/-- Whether one number is less than another as a value. A NaN is less than nothing and nothing
is less than it. -/
def lt (x y : Number) : Bool := !x.isNaN && !y.isNaN && decide (x.key < y.key)

/-- The number with this magnitude and sign. -/
def ofMagnitude (negative : Bool) (magnitude : Nat) : Number :=
  ⟨UInt64.ofNat (if negative then signValue + magnitude else magnitude)⟩

/-- Positive zero. -/
def zero : Number := ⟨0⟩

/-- Negative zero. -/
def negZero : Number := ⟨signBit⟩

/-- Infinity of either sign. -/
def infinity (negative : Bool) : Number := ofMagnitude negative infinityMagnitude

/-- The quiet NaN of either sign. -/
def nan (negative : Bool) : Number :=
  ofMagnitude negative (infinityMagnitude + exponentUnit / 2)

/-! ## Finite numbers as integers times powers of two -/

/-- The integer `m` of a finite number `± m * 2 ^ e`. -/
def significand (x : Number) : Nat :=
  if x.magnitude < exponentUnit then x.magnitude
  else x.magnitude % exponentUnit + exponentUnit

/-- The power `e` of a finite number `± m * 2 ^ e`. -/
def exponent (x : Number) : Int :=
  if x.magnitude < exponentUnit then -1074 else (x.magnitude / exponentUnit : Nat) - 1075

/-- The number of binary digits of a natural number. -/
def bitLength (n : Nat) : Nat := if n = 0 then 0 else n.log2 + 1

/-- The number `± m * 2 ^ e`. What does not fit into 53 binary digits is cut off, so the result is
exact when the value can be represented. -/
def ofScaled (negative : Bool) (m : Nat) (e : Int) : Number :=
  if m = 0 then ofMagnitude negative 0
  else
    let shift : Int := max ((bitLength m : Int) - 53) (-1074 - e)
    let m' := if 0 ≤ shift then m >>> shift.toNat else m <<< (-shift).toNat
    let e' := e + shift
    if m' < exponentUnit then ofMagnitude negative m'
    else if 971 < e' then infinity negative
    else ofMagnitude negative ((e' + 1075).toNat * exponentUnit + (m' - exponentUnit))

/-- The number of a natural number. -/
def ofNat (n : Nat) : Number := ofScaled false n 0

/-- The whole part of a finite number's magnitude. -/
def wholePart (x : Number) : Nat :=
  if 0 ≤ x.exponent then x.significand <<< x.exponent.toNat
  else x.significand >>> (-x.exponent).toNat

/-- Whether a number is finite and has no fractional part. -/
def isIntegral (x : Number) : Bool :=
  x.isFinite &&
    (decide (0 ≤ x.exponent) || x.significand % (1 <<< (-x.exponent).toNat) == 0)

/-- The natural number that a number stands for: none for a negative number, a fraction, an
infinity or a NaN. Negative zero is zero. -/
def toNat? (x : Number) : Option Nat :=
  if x.isIntegral && (!x.isNegative || x.isZero) then some x.wholePart else none

end Number

end Relational
