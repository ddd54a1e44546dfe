import Relational.Number.Decimal
import Relational.Ordered.Map
import Relational.Text.Quoted

/-!
# JSON values

A number is kept as an integer when it is written as one and fits into 64 bits, and as a
floating-point number otherwise: offsets have to be integers, and messages show a number in the
form it was taken for. The members of an object are in ascending order of their keys.
-/

namespace Relational

/-- A JSON value. -/
inductive Json where
  | null
  | bool (b : Bool)
  | int (n : Int)
  | float (x : Number)
  | string (s : String)
  | array (items : List Json)
  | object (members : List (String × Json))
deriving Inhabited

namespace Json

/-- The object with the given members. A later member takes the place of an earlier one. -/
def ofMembers (members : List (String × Json)) : Json := .object (OrderedMap.ofList members)

/-- A power of ten as it stands after a coefficient, always with its sign. -/
def exponentText (e : Int) : String := (if e < 0 then "e-" else "e+") ++ toString e.natAbs

/-- The digits of a number with a point, or with an exponent where the point would stand far from
them. At most sixteen digits stand before the point and at most four zeros right after it. -/
def decimalText (d : Number.Decimal) : String :=
  let digits := Nat.toDigits 10 d.coefficient
  let point := (digits.length : Int) + d.exponent
  if 0 ≤ d.exponent && point ≤ 16 then d.positional ++ ".0"
  else if -5 < point && point ≤ 16 then d.positional
  else match digits with
    | [digit] => digit.toString ++ exponentText (point - 1)
    | digit :: rest => String.ofList (digit :: '.' :: rest) ++ exponentText (point - 1)
    | [] => ""

/-- The text of a finite floating-point number. It always has a point or an exponent. -/
def floatText (x : Number) : String :=
  x.signText ++ (if x.isZero then "0.0" else decimalText (x.shortest .even))

/-- How a character stands in a string. -/
def stringChar (c : Char) : String :=
  if c = '"' then "\\\""
  else if c = '\\' then "\\\\"
  else if c = '\n' then "\\n"
  else if c = '\r' then "\\r"
  else if c = '\t' then "\\t"
  else if c.toNat < 32 then
    "\\u00" ++ (if c.toNat < 16 then "0" else "") ++ Text.hexadecimal c.toNat
  else c.toString

/-- The text of a string. -/
def stringText (s : String) : String := "\"" ++ String.join (s.toList.map stringChar) ++ "\""

mutual

/-- The text of a value, without blanks. -/
def text : Json → String
  | .null => "null"
  | .bool b => if b then "true" else "false"
  | .int n => toString n
  | .float x => floatText x
  | .string s => stringText s
  | .array items => "[" ++ ",".intercalate (itemTexts items) ++ "]"
  | .object members => "\x7b" ++ ",".intercalate (memberTexts members) ++ "\x7d"

def itemTexts : List Json → List String
  | [] => []
  | item :: rest => item.text :: itemTexts rest

def memberTexts : List (String × Json) → List String
  | [] => []
  | (key, value) :: rest => (stringText key ++ ":" ++ value.text) :: memberTexts rest

end

end Json

end Relational
