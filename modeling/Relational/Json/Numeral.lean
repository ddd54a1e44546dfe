import Relational.Json.Basic
import Relational.Number.Reading

/-!
# JSON numerals

A numeral is an optional minus sign, digits without a superfluous leading zero, optional places
after a point and an optional exponent.

> A numeral without places and exponent that fits into 64 bits is an integer; minus zero is not
> one. Every other numeral is a floating-point number: its leading digits that fit into 64 bits,
> times or divided by one power of ten. A numeral beyond the range of numbers is refused.
-/

namespace Relational.Json

/-- The parts of a numeral. -/
structure Numeral where
  negative : Bool
  whole : List Char
  places : List Char
  exponent : Option Int

/-- A row of digits and what follows it. -/
def spanDigits (cs : List Char) : List Char × List Char :=
  (cs.takeWhile Char.isDigit, cs.dropWhile Char.isDigit)

/-- The places after a point, if there is one. There has to be at least one place. -/
def readPlaces (cs : List Char) : Option (List Char × List Char) :=
  match cs with
  | '.' :: rest =>
    let (digits, rest) := spanDigits rest
    if digits.isEmpty then none else some (digits, rest)
  | cs => some ([], cs)

/-- The exponent, if there is one. It has to have at least one digit. -/
def readExponent (cs : List Char) : Option (Option Int × List Char) :=
  match cs with
  | e :: rest =>
    if e = 'e' || e = 'E' then
      let (negative, rest) : Bool × List Char := match rest with
        | '-' :: rest => (true, rest)
        | '+' :: rest => (false, rest)
        | rest => (false, rest)
      let (digits, rest) := spanDigits rest
      let n : Int := Number.digitsValue 0 digits
      if digits.isEmpty then none else some (some (if negative then -n else n), rest)
    else some (none, cs)
  | [] => some (none, [])

/-- The parts of the numeral at the front of a text, and what follows it. -/
def readNumeral (cs : List Char) : Option (Numeral × List Char) :=
  let (negative, cs) : Bool × List Char := match cs with
    | '-' :: rest => (true, rest)
    | cs => (false, cs)
  let (whole, rest) := spanDigits cs
  if whole.isEmpty || (whole.head? == some '0' && whole.length != 1) then none
  else do
    let (places, rest) ← readPlaces rest
    let (exponent, rest) ← readExponent rest
    some (⟨negative, whole, places, exponent⟩, rest)

/-- The bound of the integers of 64 bits. -/
def wordBound : Nat := 0x10000000000000000

/-- Appends a digit, if the result fits into 64 bits. -/
def appendDigit? (n : Nat) (c : Char) : Option Nat :=
  let next := 10 * n + (c.toNat - '0'.toNat)
  if next < wordBound then some next else none

/-- The leading digits that fit into 64 bits, and the power of ten of those left out. -/
def leadingDigits : Nat → List Char → Nat × Nat
  | n, [] => (n, 0)
  | n, c :: cs =>
    match appendDigit? n c with
    | some next => leadingDigits next cs
    | none => (n, cs.length + 1)

/-- Appends places to a coefficient up to the first that does not fit, and counts them. -/
def appendPlaces : Nat → Nat → List Char → Nat × Nat
  | n, used, [] => (n, used)
  | n, used, c :: cs =>
    match appendDigit? n c with
    | some next => appendPlaces next (used + 1) cs
    | none => (n, used)

/-- A number divided by powers of ten that are too large for one step. What is left is zero after
three steps. -/
def scaleDown (x : Number) (e : Int) : Nat → Number × Int
  | 0 => (x, e)
  | fuel + 1 =>
    if x.isZero || -308 ≤ e then (x, e)
    else scaleDown (Number.div x (Number.ofDecimal 1 308)) (e + 308) fuel

/-- The number `coefficient * 10 ^ e`, computed in one multiplication or division. -/
def scale? (coefficient : Nat) (e : Int) : Option Number :=
  let x := Number.ofFloat (UInt64.ofNat coefficient).toFloat
  if x.isZero then some x
  else if 308 < e then none
  else if 0 ≤ e then
    let scaled := Number.mul x (Number.ofDecimal 1 e)
    if scaled.isFinite then some scaled else none
  else
    let (x, e) := scaleDown x e 3
    if x.isZero then some x else some (Number.div x (Number.ofDecimal 1 (-e)))

/-- The value of a numeral. -/
def Numeral.value? (n : Numeral) : Option Json :=
  let integer := Number.digitsValue 0 n.whole
  let isInteger := n.places.isEmpty && n.exponent.isNone
  if isInteger && !n.negative && integer < wordBound then some (.int integer)
  else if isInteger && n.negative && 0 < integer && integer ≤ 0x8000000000000000 then
    some (.int (-(integer : Int)))
  else
    let (coefficient, dropped) := leadingDigits 0 n.whole
    let (coefficient, used) := appendPlaces coefficient 0 n.places
    let e := (dropped : Int) - used + n.exponent.getD 0
    (scale? coefficient e).map fun x => .float (if n.negative then x.neg else x)

end Relational.Json
