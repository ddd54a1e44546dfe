import Relational.Number.Arithmetic
import Relational.Number.Decimal

/-!
# Reading numbers

A number is written as an optional sign and then either a word for infinity or for not a number,
in letters of any case, or decimal digits with an optional point and an optional exponent. At
least one digit stands before or after the point.

> A decimal number reads as the nearest number, a tie going to the even significand. What is too
> large reads as infinity and what is too small as zero.
-/

namespace Relational.Number

/-- Why a text is no number. -/
inductive ReadError where
  | empty
  | invalid
deriving DecidableEq

/-- The wording of a failed reading. -/
def ReadError.message : ReadError → String
  | .empty => "cannot parse float from empty string"
  | .invalid => "invalid float literal"

/-- The value of a row of decimal digits, continued from `acc`. -/
def digitsValue (acc : Nat) (digits : List Char) : Nat :=
  digits.foldl (fun n c => 10 * n + (c.toNat - '0'.toNat)) acc

/-- The number nearest to `coefficient * 10 ^ exponent`. Far outside of the range of numbers the
answer is known without computing the power. -/
def ofDecimal (coefficient : Nat) (exponent : Int) : Number :=
  let power := (digitCount coefficient : Int) + exponent
  if coefficient = 0 then zero
  else if 310 < power then infinity false
  else if power < -330 then zero
  else ofFloat (Float.ofScientific coefficient (decide (exponent < 0)) exponent.natAbs)

/-- The exponent after an `e`: an optional sign and at least one digit. Nothing at all stands for
exponent zero. -/
def readExponent : List Char → Option Int
  | [] => some 0
  | e :: rest =>
    if e = 'e' || e = 'E' then
      let (negative, digits) : Bool × List Char := match rest with
        | '-' :: digits => (true, digits)
        | '+' :: digits => (false, digits)
        | digits => (false, digits)
      if digits.isEmpty || !digits.all Char.isDigit then none
      else
        let n : Int := digitsValue 0 digits
        some (if negative then -n else n)
    else none

/-- A decimal number without a sign. -/
def readDecimal (cs : List Char) : Option Number :=
  let whole := cs.takeWhile Char.isDigit
  let rest := cs.dropWhile Char.isDigit
  let (places, tail) : List Char × List Char := match rest with
    | '.' :: after => (after.takeWhile Char.isDigit, after.dropWhile Char.isDigit)
    | _ => ([], rest)
  if whole.isEmpty && places.isEmpty then none
  else
    (readExponent tail).map fun e =>
      ofDecimal (digitsValue (digitsValue 0 whole) places) (e - places.length)

/-- A number without a sign. -/
def readUnsigned (cs : List Char) : Option Number :=
  let word := String.ofList (cs.map Char.toLower)
  if word = "inf" || word = "infinity" then some (infinity false)
  else if word = "nan" then some (nan false)
  else readDecimal cs

/-- The number that a text stands for. -/
def read (s : String) : Except ReadError Number :=
  let number : Option Number := match s.toList with
    | '-' :: cs => (readUnsigned cs).map neg
    | '+' :: cs => readUnsigned cs
    | cs => readUnsigned cs
  if s.isEmpty then .error .empty
  else match number with
    | some x => .ok x
    | none => .error .invalid

end Relational.Number
