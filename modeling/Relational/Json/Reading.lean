import Relational.Json.Numeral
import Relational.Text.Literal

/-!
# Reading JSON

A reader takes characters from the front of a text and returns what it read with what follows. It
is strict: no comments, no trailing commas, no control characters in strings and no half of a
surrogate pair.

> `readValue` bounds the nesting of arrays and objects; `skipValue`, for values that nobody looks
> at, only checks their form and has no such bound.

Each step of a reader takes at least one character, so fuel beyond the length of the text suffices.
-/

namespace Relational.Json

/-- Whether a character may stand between the parts of a value. -/
def isBlank (c : Char) : Bool := c == ' ' || c == '\n' || c == '\t' || c == '\r'

/-- The text after leading blanks. -/
def skipBlanks (cs : List Char) : List Char := cs.dropWhile isBlank

/-! ## Strings -/

/-- The characters that a backslash and one character stand for. -/
def shortEscape? (c : Char) : Option Char :=
  match c with
  | '"' => some '"'
  | '\\' => some '\\'
  | '/' => some '/'
  | 'b' => some '\x08'
  | 'f' => some '\x0c'
  | 'n' => some '\n'
  | 'r' => some '\r'
  | 't' => some '\t'
  | _ => none

/-- Whether a code is the first half of a surrogate pair. -/
def isHighSurrogate (n : Nat) : Bool := 0xd800 ≤ n && n ≤ 0xdbff

/-- Whether a code is the second half of a surrogate pair. -/
def isLowSurrogate (n : Nat) : Bool := 0xdc00 ≤ n && n ≤ 0xdfff

/-- The code point of a surrogate pair. -/
def pairCode (high low : Nat) : Nat := 0x10000 + (high - 0xd800) * 0x400 + (low - 0xdc00)

/-- The characters of a string up to its closing quote. -/
def readString : List Char → Option (List Char × List Char)
  | '"' :: rest => some ([], rest)
  | '\\' :: 'u' :: a :: b :: c :: d :: rest => do
    let code ← Text.hexDigits? 0 [a, b, c, d]
    if isHighSurrogate code then
      match rest with
      | '\\' :: 'u' :: a :: b :: c :: d :: rest => do
        let low ← Text.hexDigits? 0 [a, b, c, d]
        if isLowSurrogate low then
          let (cs, rest) ← readString rest
          some (Char.ofNat (pairCode code low) :: cs, rest)
        else none
      | _ => none
    else if isLowSurrogate code then none
    else
      let (cs, rest) ← readString rest
      some (Char.ofNat code :: cs, rest)
  | '\\' :: c :: rest => do
    let decoded ← shortEscape? c
    let (cs, rest) ← readString rest
    some (decoded :: cs, rest)
  | c :: rest =>
    if c == '\\' || c.toNat < 32 then none
    else do
      let (cs, rest) ← readString rest
      some (c :: cs, rest)
  | [] => none

/-- What follows a string, of which only the form is checked. -/
def skipString : List Char → Option (List Char)
  | '"' :: rest => some rest
  | '\\' :: 'u' :: a :: b :: c :: d :: rest =>
    if (Text.hexDigits? 0 [a, b, c, d]).isSome then skipString rest else none
  | '\\' :: c :: rest => if (shortEscape? c).isSome then skipString rest else none
  | c :: rest => if c == '\\' || c.toNat < 32 then none else skipString rest
  | [] => none

/-! ## Values -/

/-- The key of a member up to its colon, from before its opening quote. -/
def readKey (cs : List Char) : Option (String × List Char) :=
  match skipBlanks cs with
  | '"' :: rest => do
    let (key, rest) ← readString rest
    match skipBlanks rest with
    | ':' :: rest => some (String.ofList key, rest)
    | _ => none
  | _ => none

/-- A word, a string or a number. -/
def readScalar (cs : List Char) : Option (Json × List Char) :=
  match cs with
  | 'n' :: 'u' :: 'l' :: 'l' :: rest => some (.null, rest)
  | 't' :: 'r' :: 'u' :: 'e' :: rest => some (.bool true, rest)
  | 'f' :: 'a' :: 'l' :: 's' :: 'e' :: rest => some (.bool false, rest)
  | '"' :: rest => do
    let (s, rest) ← readString rest
    some (.string (String.ofList s), rest)
  | cs => do
    let (numeral, rest) ← readNumeral cs
    let value ← numeral.value?
    some (value, rest)

mutual

/-- A value, in which arrays and objects are nested less than `depth` deep. -/
def readValue : Nat → Nat → List Char → Option (Json × List Char)
  | 0, _, _ => none
  | fuel + 1, depth, cs =>
    match skipBlanks cs with
    | '[' :: rest =>
      if depth ≤ 1 then none
      else match skipBlanks rest with
        | ']' :: rest => some (.array [], rest)
        | rest => do
          let (items, rest) ← readItems fuel (depth - 1) rest
          some (.array items, rest)
    | '{' :: rest =>
      if depth ≤ 1 then none
      else match skipBlanks rest with
        | '}' :: rest => some (.object [], rest)
        | rest => do
          let (members, rest) ← readMembers fuel (depth - 1) rest
          some (ofMembers members, rest)
    | cs => readScalar cs

/-- The items of an array up to its closing bracket. -/
def readItems : Nat → Nat → List Char → Option (List Json × List Char)
  | 0, _, _ => none
  | fuel + 1, depth, cs => do
    let (item, rest) ← readValue fuel depth cs
    match skipBlanks rest with
    | ',' :: rest => do
      let (items, rest) ← readItems fuel depth rest
      some (item :: items, rest)
    | ']' :: rest => some ([item], rest)
    | _ => none

/-- The members of an object up to its closing brace. -/
def readMembers : Nat → Nat → List Char → Option (List (String × Json) × List Char)
  | 0, _, _ => none
  | fuel + 1, depth, cs => do
    let (key, rest) ← readKey cs
    let (value, rest) ← readValue fuel depth rest
    match skipBlanks rest with
    | ',' :: rest => do
      let (members, rest) ← readMembers fuel depth rest
      some ((key, value) :: members, rest)
    | '}' :: rest => some ([(key, value)], rest)
    | _ => none

end

/-- What follows a word, a string or a number, of which only the form is checked. -/
def skipScalar (cs : List Char) : Option (List Char) :=
  match cs with
  | 'n' :: 'u' :: 'l' :: 'l' :: rest => some rest
  | 't' :: 'r' :: 'u' :: 'e' :: rest => some rest
  | 'f' :: 'a' :: 'l' :: 's' :: 'e' :: rest => some rest
  | '"' :: rest => skipString rest
  | cs => (readNumeral cs).map (·.2)

mutual

/-- What follows a value, of which only the form is checked. -/
def skipValue : Nat → List Char → Option (List Char)
  | 0, _ => none
  | fuel + 1, cs =>
    match skipBlanks cs with
    | '[' :: rest =>
      match skipBlanks rest with
      | ']' :: rest => some rest
      | rest => skipItems fuel rest
    | '{' :: rest =>
      match skipBlanks rest with
      | '}' :: rest => some rest
      | rest => skipMembers fuel rest
    | cs => skipScalar cs

/-- What follows the items of an array and its closing bracket. -/
def skipItems : Nat → List Char → Option (List Char)
  | 0, _ => none
  | fuel + 1, cs => do
    let rest ← skipValue fuel cs
    match skipBlanks rest with
    | ',' :: rest => skipItems fuel rest
    | ']' :: rest => some rest
    | _ => none

/-- What follows the members of an object and its closing brace. -/
def skipMembers : Nat → List Char → Option (List Char)
  | 0, _ => none
  | fuel + 1, cs => do
    let rest ← match skipBlanks cs with
      | '"' :: rest => skipString rest
      | _ => none
    let rest ← match skipBlanks rest with
      | ':' :: rest => skipValue fuel rest
      | _ => none
    match skipBlanks rest with
    | ',' :: rest => skipMembers fuel rest
    | '}' :: rest => some rest
    | _ => none

end

/-- The value of a whole text, in which arrays and objects are nested less than `depth` deep. -/
def read? (depth : Nat) (s : String) : Option Json := do
  let cs := s.toList
  let (value, rest) ← readValue (cs.length + 2) depth cs
  if (skipBlanks rest).isEmpty then some value else none

end Relational.Json
