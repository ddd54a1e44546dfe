import Relational.Number.Basic

/-!
# Numbers in decimal digits

The text of a number is the shortest one that reads back as the same number, always written out
without an exponent.

> `Number.shortest` searches the decimal grids from the coarsest one down. On each grid only the
> two neighbours of the value can be the answer; the first grid with a neighbour inside the
> interval of values that round to the number wins, and of two neighbours the nearer.

The bounds of that interval and the comparison with them are exact: all of it is arithmetic on
natural numbers.
-/

namespace Relational.Number

/-- A positive decimal number `coefficient * 10 ^ exponent`. -/
structure Decimal where
  coefficient : Nat
  exponent : Int
deriving DecidableEq

/-- A non-negative fraction. -/
structure Fraction where
  num : Nat
  den : Nat

namespace Fraction

/-- The fraction `m * 2 ^ e`. -/
def scaled (m : Nat) (e : Int) : Fraction :=
  if 0 ≤ e then ⟨m <<< e.toNat, 1⟩ else ⟨m, 1 <<< (-e).toNat⟩

/-- The fraction times a power of ten. -/
def shift (x : Fraction) (e : Int) : Fraction :=
  if 0 ≤ e then ⟨x.num * Nat.pow 10 e.toNat, x.den⟩
  else ⟨x.num, x.den * Nat.pow 10 (-e).toNat⟩

/-- The order of a fraction and a natural number. -/
def compareNat (x : Fraction) (n : Nat) : Ordering := Ord.compare x.num (n * x.den)

/-- The natural number nearest to a fraction; a half goes to the even neighbour. -/
def roundEven (x : Fraction) : Nat :=
  let quotient := x.num / x.den
  let twice := 2 * (x.num % x.den)
  if twice < x.den then quotient
  else if x.den < twice then quotient + 1
  else if quotient % 2 = 0 then quotient
  else quotient + 1

end Fraction

/-- The values that round to a number, with the number itself. The bounds belong to the interval
when `closed` holds. -/
structure Interval where
  low : Fraction
  value : Fraction
  high : Fraction
  closed : Bool

/-- The interval of a finite number. Below a power of two the next number is only half as far, so
the lower bound is nearer there; a bound is inside exactly when the significand is even. -/
def interval (x : Number) : Interval :=
  let m := x.significand
  let e := x.exponent - 2
  let near := m == exponentUnit && decide (-1074 < x.exponent)
  { low := .scaled (4 * m - (if near then 1 else 2)) e
    value := .scaled (4 * m) e
    high := .scaled (4 * m + 2) e
    closed := m % 2 == 0 }

/-- Whether `d * 10 ^ e` rounds to the number of the interval. -/
def Interval.contains (i : Interval) (d : Nat) (e : Int) : Bool :=
  match (i.low.shift (-e)).compareNat d, (i.high.shift (-e)).compareNat d with
  | .lt, .gt => true
  | .eq, .gt => i.closed
  | .lt, .eq => i.closed
  | _, _ => false

/-- Which of two equally near neighbours is taken. -/
inductive Tie where
  | up
  | even
deriving DecidableEq

/-- Whether the upper neighbour of a fraction is taken when both of its neighbours would do. -/
def Fraction.roundsUp (x : Fraction) (tie : Tie) : Bool :=
  let twice := 2 * (x.num % x.den)
  if twice < x.den then false
  else if x.den < twice then true
  else match tie with
    | .up => true
    | .even => x.num / x.den % 2 == 1

/-- The better of the two neighbours of the value on the grid of multiples of `10 ^ e`, if one of
them rounds to the number. -/
def Interval.neighbour? (i : Interval) (tie : Tie) (e : Int) : Option Decimal :=
  let scaled := i.value.shift (-e)
  let down := scaled.num / scaled.den
  let up := down + 1
  match i.contains down e, i.contains up e with
  | true, true => if scaled.roundsUp tie then some ⟨up, e⟩ else some ⟨down, e⟩
  | true, false => some ⟨down, e⟩
  | false, true => some ⟨up, e⟩
  | false, false => none

/-- The number of digits of a natural number. -/
def digitCount (n : Nat) : Nat := (Nat.toDigits 10 n).length

/-- The least `j ≤ fuel` from `j` on for which `x * 10 ^ j` is at least one. -/
def leadingZeros (x : Fraction) (j : Nat) : Nat → Nat
  | 0 => j
  | fuel + 1 =>
    if x.den ≤ (x.shift (j : Int)).num then j else leadingZeros x (j + 1) fuel

/-- The power `k` with `10 ^ (k - 1) ≤ x < 10 ^ k`. No positive number has more than 324 zeros
after the point, so that many steps suffice. -/
def magnitudePower (x : Fraction) : Int :=
  let whole := x.num / x.den
  if 0 < whole then (digitCount whole : Int) else 1 - (leadingZeros x 1 324 : Int)

/-- Removes zeros from the end of a coefficient, at most `fuel` of them. -/
def Decimal.trim (d : Decimal) : Nat → Decimal
  | 0 => d
  | fuel + 1 =>
    if d.coefficient % 10 = 0 && 0 < d.coefficient then
      Decimal.trim ⟨d.coefficient / 10, d.exponent + 1⟩ fuel
    else d

/-- The shortest decimal number that rounds to a finite non-zero number. Seventeen digits always
suffice. -/
def shortest (x : Number) (tie : Tie) : Decimal :=
  let i := x.interval
  let k := magnitudePower i.value
  let found := (List.range 17).findSome? fun n => i.neighbour? tie (k - (n + 1 : Nat))
  (found.getD ⟨0, 0⟩).trim 20

/-- A decimal number written out without an exponent. -/
def Decimal.positional (d : Decimal) : String :=
  let digits := Nat.toDigits 10 d.coefficient
  let point := (digits.length : Int) + d.exponent
  if point ≤ 0 then
    String.ofList ('0' :: '.' :: List.replicate (-point).toNat '0' ++ digits)
  else if (digits.length : Int) ≤ point then
    String.ofList (digits ++ List.replicate (point.toNat - digits.length) '0')
  else
    String.ofList (digits.take point.toNat ++ '.' :: digits.drop point.toNat)

/-- The sign in front of a number: only a negative one has it. -/
def signText (x : Number) : String := if x.isNegative then "-" else ""

/-- The text of an infinity or a NaN; none for a finite number. -/
def specialText? (x : Number) : Option String :=
  if x.isNaN then some "NaN"
  else if x.isFinite then none
  else some (x.signText ++ "inf")

/-- The shortest text that reads back as the number, with the sign of a negative zero. -/
def plainText (x : Number) : String :=
  match x.specialText? with
  | some text => text
  | none => if x.isZero then x.signText ++ "0" else x.signText ++ (x.shortest .up).positional

/-- The text of a number as a value: as `plainText`, but a zero has no sign. -/
def text (x : Number) : String := if x.isZero then "0" else x.plainText

/-- The text of a number with a fixed count of places after the point. A half goes to the even
neighbour, and a negative number keeps its sign when it becomes zero. -/
def fixedText (x : Number) (places : Nat) : String :=
  match x.specialText? with
  | some text => text
  | none =>
    let scaled := ((Fraction.scaled x.significand x.exponent).shift (places : Int)).roundEven
    let digits := Nat.toDigits 10 scaled
    let padded := List.replicate (places + 1 - digits.length) '0' ++ digits
    let whole := padded.take (padded.length - places)
    let rest := padded.drop (padded.length - places)
    x.signText ++ String.ofList (if places = 0 then whole else whole ++ '.' :: rest)

end Relational.Number
