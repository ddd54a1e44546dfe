import Relational.Json.Reading
import Relational.Tree.Node

/-!
# Documents

A document is the text of a program together with its syntax tree, written as a JSON object with
the keys `source` and `tree`, or as an array of the two. In the tree

* an object is a branch: its keys are tags, an array under a tag is a sequence, and the key `@`,
  if there is one, gives the span;
* an array of two integers `[start, end]` is a leaf, given by byte offsets into the program;
* a string is a leaf at the first place where the program has that text, or a leaf of its own when
  the program does not have it.

> Under a tag, an array of two non-negative integers is a leaf and any other array is a sequence.
-/

namespace Relational

/-- A program text with its tree as JSON. -/
structure Document where
  source : String
  tree : Json

/-- What is wrong at a place in a tree. -/
inductive TreeFault where
  | notNode (found : String)
  | notOffsets
  | outOfRange (start stop size : Nat)
deriving DecidableEq

/-- The wording of a fault. -/
def TreeFault.message : TreeFault → String
  | .notNode found => "expected a node, found " ++ found
  | .notOffsets => "expected a [start, end] pair"
  | .outOfRange start stop size =>
    "span [" ++ toString start ++ ", " ++ toString stop ++
      "] out of range for source of length " ++ toString size

/-- Why a text is no syntax tree. -/
inductive ParseFault where
  /-- The text is no document. -/
  | unreadable
  /-- The tree of the document has a fault at the path. -/
  | misshapen (path : String) (fault : TreeFault)
  /-- Anything that another grammar reports. -/
  | other (message : String)
deriving DecidableEq

/-- The wording of a fault. -/
def ParseFault.message : ParseFault → String
  | .unreadable => "invalid syntax tree document"
  | .misshapen path fault => path ++ ": " ++ fault.message
  | .other message => message

/-- A fault of a file. -/
structure ParseError where
  filename : String
  fault : ParseFault
deriving DecidableEq

/-- The wording of a fault of a file. -/
def ParseError.message (e : ParseError) : String := e.filename ++ ": " ++ e.fault.message

namespace Document

/-! ## From text to documents -/

/-- How deep arrays and objects may be nested, the document itself included, must stay below
this. -/
def depthLimit : Nat := 128

/-- What was read of a document. -/
structure Parts where
  source : Option String
  tree : Option Json

/-- Reads a string. -/
def readText (cs : List Char) : Option (String × List Char) :=
  match Json.skipBlanks cs with
  | '"' :: rest => do
    let (s, rest) ← Json.readString rest
    some (String.ofList s, rest)
  | _ => none

/-- Reads the members of a document up to its closing brace. The source and the tree may be given
once; other members are passed over. -/
def readMembers : Nat → Parts → List Char → Option (Parts × List Char)
  | 0, _, _ => none
  | fuel + 1, parts, cs => do
    let (key, rest) ← Json.readKey cs
    let (parts, rest) ←
      if key = "source" then
        if parts.source.isSome then none
        else do
          let (s, rest) ← readText rest
          some ({ parts with source := some s }, rest)
      else if key = "tree" then
        if parts.tree.isSome then none
        else do
          let (tree, rest) ← Json.readValue fuel (depthLimit - 1) rest
          some ({ parts with tree := some tree }, rest)
      else do
        let rest ← Json.skipValue fuel rest
        some (parts, rest)
    match Json.skipBlanks rest with
    | ',' :: rest => readMembers fuel parts rest
    | '}' :: rest => some (parts, rest)
    | _ => none

/-- Reads a document written as an array, from after its opening bracket. -/
def readPair (fuel : Nat) (cs : List Char) : Option (Parts × List Char) := do
  let (source, rest) ← readText cs
  match Json.skipBlanks rest with
  | ',' :: rest => do
    let (tree, rest) ← Json.readValue fuel (depthLimit - 1) rest
    match Json.skipBlanks rest with
    | ']' :: rest => some (⟨some source, some tree⟩, rest)
    | _ => none
  | _ => none

/-- Reads a document. -/
def read? (text : String) : Option Document := do
  let cs := text.toList
  let fuel := cs.length + 2
  let (parts, rest) ← match Json.skipBlanks cs with
    | '{' :: rest => readMembers fuel ⟨none, none⟩ rest
    | '[' :: rest => readPair fuel rest
    | _ => none
  let source ← parts.source
  let tree ← parts.tree
  if (Json.skipBlanks rest).isEmpty then some ⟨source, tree⟩ else none

/-! ## From JSON to trees -/

/-- The offsets of a leaf: an array of exactly two non-negative integers. -/
def offsets? : Json → Option (Nat × Nat)
  | .array [.int (.ofNat start), .int (.ofNat stop)] => some (start, stop)
  | _ => none

/-- The span of offsets. They have to be in order and inside the source. -/
def offsetsSpan (source : Source) (path : String) (json : Json) : Except ParseFault Span :=
  match offsets? json with
  | none => .error (.misshapen path .notOffsets)
  | some (start, stop) =>
    if stop < start || source.size < stop then
      .error (.misshapen path (.outOfRange start stop source.size))
    else .ok (Span.ofOffsets source start stop)

/-- The leaf of a text: its first place in the source, or a place of its own. -/
def textLeaf (source : Source) (text : String) : Node :=
  .leaf ((Span.find? source text).getD (Span.detached source.name text))

/-- The span that an object gives or that its emptiness implies. -/
def branchSpan (source : Source) (path : String) (members : List (String × Json)) :
    Except ParseFault (Option Span) :=
  match OrderedMap.find? "@" members with
  | some offsets => (offsetsSpan source path offsets).map some
  | none => .ok (if members.isEmpty then some (Span.ofOffsets source 0 0) else none)

mutual

/-- The node of a JSON value. -/
def readNode (source : Source) (path : String) : Json → Except ParseFault Node
  | .object members => do
    let children ← readTags source path members
    let span ← branchSpan source path members
    .ok (Node.ofChildren children span)
  | .array items => do
    let span ← offsetsSpan source path (.array items)
    .ok (.leaf span)
  | .string text => .ok (textLeaf source text)
  | json => .error (.misshapen path (.notNode json.text))

/-- The tagged children of a branch. The key `@` is no tag. -/
def readTags (source : Source) (path : String) :
    List (String × Json) → Except ParseFault (List (String × Children))
  | [] => .ok []
  | (tag, .array items) :: rest =>
    if tag = "@" then readTags source path rest
    else if (offsets? (.array items)).isSome then do
      let span ← offsetsSpan source (path ++ "." ++ tag) (.array items)
      let others ← readTags source path rest
      .ok ((tag, .one (.leaf span)) :: others)
    else do
      let nodes ← readNodes source (path ++ "." ++ tag) 0 items
      let others ← readTags source path rest
      .ok ((tag, .many nodes) :: others)
  | (tag, json) :: rest =>
    if tag = "@" then readTags source path rest
    else do
      let node ← readNode source (path ++ "." ++ tag) json
      let others ← readTags source path rest
      .ok ((tag, .one node) :: others)

/-- The nodes of a sequence, from an index on. -/
def readNodes (source : Source) (path : String) (index : Nat) :
    List Json → Except ParseFault (List Node)
  | [] => .ok []
  | json :: rest => do
    let node ← readNode source (path ++ "[" ++ toString index ++ "]") json
    let nodes ← readNodes source path (index + 1) rest
    .ok (node :: nodes)

end

/-- The tree of a document, with its places in the file of the given name. -/
def toTree (doc : Document) (filename : String) : Except ParseFault Node :=
  readNode { name := filename, text := doc.source } "tree" doc.tree

/-- The tree of a document given as text. -/
def parse (text filename : String) : Except ParseError Node :=
  match read? text with
  | none => .error ⟨filename, .unreadable⟩
  | some doc =>
    match doc.toTree filename with
    | .ok tree => .ok tree
    | .error fault => .error ⟨filename, fault⟩

end Document

end Relational
