import Relational.Text.Offset
import Relational.Text.Quoted

/-!
# Sources and spans

A `Span` is a range of byte offsets in a named text. Spans are cut to the text and to
whole characters when they are made, so that the text under a span always exists.

> `Span.ofOffsets` gives the smallest range of whole characters that covers the offsets
> asked for, once these are brought inside the text.
>
> `Span.merge` gives the smallest span that covers all of its inputs, and fails exactly
> when there are none or when they are not all over one source.
-/

namespace Relational

/-- A text and the name under which it is known. -/
structure Source where
  name : String
  text : String
deriving DecidableEq

namespace Source

/-- The characters of the text. -/
def chars (source : Source) : List Char := source.text.toList

/-- The length of the text in bytes. -/
def size (source : Source) : Nat := Text.byteLength source.chars

end Source

/-- A range of bytes of a source, from `start` up to and without `stop`. -/
structure Span where
  source : Source
  start : Nat
  stop : Nat
deriving DecidableEq

/-- Why spans have no common span. -/
inductive MergeError where
  | empty
  | differentSources (left right : String)

/-- The wording of a failed merge. -/
def MergeError.message : MergeError → String
  | .empty => "no spans to merge"
  | .differentSources left right =>
    "cannot merge spans from " ++ Text.quoted left ++ " and " ++ Text.quoted right

namespace Span

/-- The span of whole characters around two offsets. The end is brought into the text and moved
up to a boundary; the start is brought below that end and moved down to a boundary. -/
def ofOffsets (source : Source) (start stop : Nat) : Span :=
  let stop := Text.ceilBoundary source.chars (min stop source.size)
  { source, start := Text.floorBoundary source.chars (min start stop), stop }

/-- The span of a whole source. -/
def whole (source : Source) : Span := ofOffsets source 0 source.size

/-- The span of something that stands in no source. -/
def unknown : Span := whole { name := "<unknown>", text := "" }

/-- The span of a text of its own, which is no part of a program. -/
def detached (name text : String) : Span := whole { name, text }

/-- The span of the first place where `needle` stands in a source. -/
def find? (source : Source) (needle : String) : Option Span :=
  (Text.find? needle.toList source.chars).map fun start =>
    ofOffsets source start (start + Text.byteLength needle.toList)

/-- The name of the source. -/
def filename (span : Span) : String := span.source.name

/-- The number of bytes covered. -/
def size (span : Span) : Nat := span.stop - span.start

/-- Whether no bytes are covered. -/
def isEmpty (span : Span) : Bool := span.start == span.stop

/-- The characters covered. -/
def chars (span : Span) : List Char :=
  Text.takeBytes (Text.dropBytes span.source.chars span.start) (span.stop - span.start)

/-- The text covered. -/
def text (span : Span) : String := String.ofList span.chars

/-- The characters of the source that stand before the span. -/
def before (span : Span) : List Char := Text.takeBytes span.source.chars span.start

/-- The line of the start, counted from one. -/
def line (span : Span) : Nat := Text.lineAfter span.before

/-- The column of the start, in characters and counted from one. -/
def column (span : Span) : Nat := Text.columnAfter span.before

/-- Whether two spans are over the same name and text. -/
def sameSource (a b : Span) : Bool := a.source == b.source

/-- The span with its start moved `count` characters to the left, or to the start of the text. The
walk to the left takes off the bytes of one character after another. -/
def extendLeft (span : Span) (count : Nat) : Span :=
  let passed := span.before.reverse.take count
  { span with start := passed.foldl (fun start c => start - c.utf8Size) span.start }

/-- Widens a span to cover others of its source; fails at the first one of another source. -/
def mergeFrom (first : Span) : Span → List Span → Except MergeError Span
  | acc, [] => .ok acc
  | acc, span :: rest =>
    if first.sameSource span then
      mergeFrom first
        { acc with start := min acc.start span.start, stop := max acc.stop span.stop } rest
    else .error (.differentSources first.filename span.filename)

/-- The smallest span that covers all the given ones. -/
def merge : List Span → Except MergeError Span
  | [] => .error .empty
  | first :: rest => mergeFrom first first rest

/-- The smallest span that covers all the given ones, or the fallback when there is none. -/
def mergeOr (fallback : Span) (spans : List Span) : Span :=
  match merge spans with
  | .ok span => span
  | .error _ => fallback

/-- The position of the start as it stands in front of messages. -/
def position (span : Span) : String :=
  span.filename ++ ":" ++ toString span.line ++ ":" ++ toString span.column

/-- The range and the quoted text of a span. -/
def describe (span : Span) : String :=
  span.filename ++ ":" ++ toString span.start ++ ".." ++ toString span.stop ++ " " ++
    Text.quoted span.text

end Span

end Relational
