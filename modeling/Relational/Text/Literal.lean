import Relational.Text.Alphabetic
import Relational.Text.Numeric

/-!
# String literals

A string of the language is written between single or double quotes with escapes, or between
backquotes without them. The same string is printed between single quotes.

> `singleQuoted` escapes the quote, the backslash, the newline and the tab and nothing else;
> `readLiteral` undoes it, and a good many escapes more.

A name of an attribute is printed bare when it looks like an identifier and as a string
otherwise.
-/

namespace Relational.Text

/-! ## Escapes -/

/-- The value of a hexadecimal digit. -/
def hexDigit? (c : Char) : Option Nat :=
  if '0' ≤ c && c ≤ '9' then some (c.toNat - '0'.toNat)
  else if 'a' ≤ c && c ≤ 'f' then some (c.toNat - 'a'.toNat + 10)
  else if 'A' ≤ c && c ≤ 'F' then some (c.toNat - 'A'.toNat + 10)
  else none

/-- The value of a row of hexadecimal digits, continued from `acc`. -/
def hexDigits? (acc : Nat) : List Char → Option Nat
  | [] => some acc
  | c :: cs => (hexDigit? c).bind fun d => hexDigits? (16 * acc + d) cs

/-- A hexadecimal number: at least one digit, with an optional plus sign in front. -/
def hexNumber? : List Char → Option Nat
  | [] => none
  | c :: cs =>
    if c = '+' then (if cs.isEmpty then none else hexDigits? 0 cs) else hexDigits? 0 (c :: cs)

/-- The character of a code point, if there is one. -/
def charOfCode? (n : Nat) : Option Char := if n.isValidChar then some (Char.ofNat n) else none

/-- The character that a row of exactly `width` hexadecimal places stands for. -/
def codeEscape? (width : Nat) (places : List Char) : Option Char :=
  if places.length = width then (hexNumber? places).bind charOfCode? else none

/-- The characters that a backslash and one letter stand for. -/
def simpleEscape? (c : Char) : Option Char :=
  match c with
  | 'n' => some '\n'
  | 't' => some '\t'
  | 'r' => some '\r'
  | '0' => some '\x00'
  | 'a' => some '\x07'
  | 'b' => some '\x08'
  | 'f' => some '\x0c'
  | 'v' => some '\x0b'
  | _ => none

/-- The number of hexadecimal places after an escape that gives a code point. -/
def codeWidth? (c : Char) : Option Nat :=
  match c with
  | 'x' => some 2
  | 'u' => some 4
  | 'U' => some 8
  | _ => none

/-- Decodes the escapes of a text. A backslash before a character without a meaning of its own
gives that character, and one at the end of the text stays. The characters to skip after a
code point are counted in `skip`. -/
def unescapeFrom (skip : Nat) : List Char → List Char
  | [] => []
  | c :: rest =>
    match skip with
    | skip + 1 => unescapeFrom skip rest
    | 0 =>
      if c = '\\' then
        match rest with
        | [] => ['\\']
        | kind :: tail =>
          match simpleEscape? kind with
          | some decoded => decoded :: unescapeFrom 0 tail
          | none =>
            match codeWidth? kind with
            | none => kind :: unescapeFrom 0 tail
            | some width =>
              match codeEscape? width (tail.take width) with
              | some decoded => decoded :: unescapeFrom width tail
              | none => kind :: unescapeFrom 0 tail
      else c :: unescapeFrom 0 rest

/-- The text with its escapes decoded. -/
def unescape (s : String) : String := String.ofList (unescapeFrom 0 s.toList)

/-! ## Literals -/

/-- Removes one character from the end of a text if it is the given one. -/
def dropLast (mark : Char) (cs : List Char) : List Char :=
  if cs.getLast? = some mark then cs.dropLast else cs

/-- Reads two backquotes in a row as one. -/
def undouble : List Char → List Char
  | '`' :: '`' :: rest => '`' :: undouble rest
  | c :: rest => c :: undouble rest
  | [] => []

/-- The string of a literal. The closing quote may be missing; a text that starts with no quote
stands for itself. -/
def readLiteral (raw : String) : String :=
  match raw.toList with
  | '\'' :: body => String.ofList (unescapeFrom 0 (dropLast '\'' body))
  | '"' :: body => String.ofList (unescapeFrom 0 (dropLast '"' body))
  | '`' :: body => String.ofList (undouble (dropLast '`' body))
  | _ => raw

/-- How a character stands between single quotes. -/
def singleQuotedChar (c : Char) : List Char :=
  if c = '\'' then ['\\', '\'']
  else if c = '\\' then ['\\', '\\']
  else if c = '\n' then ['\\', 'n']
  else if c = '\t' then ['\\', 't']
  else [c]

/-- A string between single quotes. -/
def singleQuoted (s : String) : String :=
  String.ofList ('\'' :: s.toList.flatMap singleQuotedChar ++ ['\''])

/-! ## Names of attributes -/

/-- Whether a character may start a bare name. -/
def startsName (c : Char) : Bool := isAlphabetic c || c == '_' || c == '@'

/-- Whether a character may follow in a bare name. -/
def continuesName (c : Char) : Bool := isAlphabetic c || isNumeric c || c == '_'

/-- Whether a name can be written without quotes. -/
def isBareName (s : String) : Bool :=
  match s.toList with
  | [] => false
  | c :: cs => startsName c && cs.all continuesName

/-- A name as it is printed: bare if it can be, else as a string. -/
def attrName (s : String) : String := if isBareName s then s else singleQuoted s

end Relational.Text
