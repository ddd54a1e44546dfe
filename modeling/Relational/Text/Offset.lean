/-!
# Byte offsets into text

A position in a text is a number of bytes from its start, and only the positions
between two characters (or at an end) are places where the text can be cut. The
functions here walk the characters of a text and count their bytes.

> `floorBoundary cs n` and `ceilBoundary cs n` are the boundaries next to `n`: the
> greatest one at or below it and the least one at or above it. A boundary is its
> own neighbour on both sides.

Every function is by structural recursion on the characters, so each of them can
be followed step by step along the text.
-/

namespace Relational.Text

/-- The number of bytes that a sequence of characters takes. -/
def byteLength : List Char → Nat
  | [] => 0
  | c :: cs => c.utf8Size + byteLength cs

/-- Whether a byte offset falls between two characters or at an end of the text. -/
def isBoundary : List Char → Nat → Bool
  | _, 0 => true
  | [], _ + 1 => false
  | c :: cs, n + 1 => decide (c.utf8Size ≤ n + 1) && isBoundary cs (n + 1 - c.utf8Size)

/-- The greatest boundary at or below an offset; the end of the text for an offset past it. -/
def floorBoundary : List Char → Nat → Nat
  | [], _ => 0
  | c :: cs, n =>
    if n < c.utf8Size then 0 else c.utf8Size + floorBoundary cs (n - c.utf8Size)

/-- The least boundary at or above an offset; the end of the text for an offset past it. -/
def ceilBoundary : List Char → Nat → Nat
  | [], _ => 0
  | c :: cs, n => if n = 0 then 0 else c.utf8Size + ceilBoundary cs (n - c.utf8Size)

/-- The characters that end at or before an offset. -/
def takeBytes : List Char → Nat → List Char
  | [], _ => []
  | c :: cs, n => if n < c.utf8Size then [] else c :: takeBytes cs (n - c.utf8Size)

/-- The characters that start at or after an offset. -/
def dropBytes : List Char → Nat → List Char
  | [], _ => []
  | c :: cs, n => if n = 0 then c :: cs else dropBytes cs (n - c.utf8Size)

/-- The offset of the first place where `needle` stands in a text. The empty needle stands at
the start of every text. -/
def find? (needle : List Char) : List Char → Option Nat
  | [] => if needle.isEmpty then some 0 else none
  | c :: cs =>
    if needle.isPrefixOf (c :: cs) then some 0
    else (find? needle cs).map (c.utf8Size + ·)

/-- The line of the character that follows `before`, counted from one. -/
def lineAfter (before : List Char) : Nat := before.count '\n' + 1

/-- The column, in characters and counted from one, of the character that follows `before`. -/
def columnAfter (before : List Char) : Nat :=
  (before.reverse.takeWhile (· != '\n')).length + 1

end Relational.Text
