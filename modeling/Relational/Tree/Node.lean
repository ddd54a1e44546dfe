import Relational.Expr.Text
import Relational.Ordered.Map

/-!
# Syntax trees

A tree has branches, whose children stand under tags, and leaves, which are places in the source. A
tag holds one child or a sequence of them. An expression that was worked out before may stand in a
tree as well.

> The span of a branch that is given none covers its children wherever they are all over one
> source: the children under each tag first, then the tags.
-/

namespace Relational

mutual

/-- A node of a syntax tree. -/
inductive Node where
  | branch (children : List (String × Children)) (span : Span)
  | leaf (span : Span)
  | embedded (expr : Expr) (span : Span)

/-- What stands under a tag. -/
inductive Children where
  | one (node : Node)
  | many (nodes : List Node)

end

/-- The children under a tag as a list. -/
def Children.nodes : Children → List Node
  | .one node => [node]
  | .many nodes => nodes

namespace Node

/-- The place of a node. -/
def span : Node → Span
  | .branch _ span | .leaf span | .embedded _ span => span

/-- The text under a node. -/
def text (node : Node) : String := node.span.text

/-- Whether a node is a leaf. -/
def isLeaf : Node → Bool
  | .leaf _ => true
  | _ => false

/-- The expression that stands in the tree. -/
def embedded? : Node → Option Expr
  | .embedded expr _ => some expr
  | _ => none

/-- The tagged children of a branch. -/
def children : Node → List (String × Children)
  | .branch children _ => children
  | _ => []

/-- The tags of a branch, in order. -/
def tags (node : Node) : List String := node.children.map (·.1)

/-- What stands under a tag. The first of equal tags counts. -/
def get? (node : Node) (tag : String) : Option Children :=
  (node.children.find? (·.1 == tag)).map (·.2)

/-- Whether a branch has a tag. -/
def has (node : Node) (tag : String) : Bool := (node.get? tag).isSome

/-- The only child under a tag, also when it stands in a sequence of one. -/
def one? (node : Node) (tag : String) : Option Node :=
  match node.get? tag with
  | some (.one child) => some child
  | some (.many [child]) => some child
  | _ => none

/-- The children under a tag; none when there is no such tag. -/
def many (node : Node) (tag : String) : List Node :=
  match node.get? tag with
  | some children => children.nodes
  | none => []

end Node

/-- The span that covers the children under a tag, or that of the first one if none covers them
all. -/
def Children.span? (children : Children) : Option Span :=
  match children.nodes with
  | [] => none
  | first :: rest => some (Span.mergeOr first.span ((first :: rest).map Node.span))

namespace Node

/-- The span of a branch with the given children. -/
def spanOfChildren (children : List (String × Children)) : Span :=
  match children.filterMap fun (_, c) => c.span? with
  | [] => Span.unknown
  | first :: rest => Span.mergeOr first (first :: rest)

/-- The branch with the given children. Its span is worked out unless it is given. -/
def ofChildren (children : List (String × Children)) (span : Option Span) : Node :=
  .branch children (span.getD (spanOfChildren children))

mutual

/-- A node as text: a leaf is its quoted text, and a branch lists its tags. -/
def describe : Node → String
  | .leaf span => Text.quoted span.text
  | .embedded expr _ => "<embedded " ++ expr.text ++ ">"
  | .branch children _ => "\x7b" ++ commas (describeTags children) ++ "\x7d"

def describeTags : List (String × Children) → List String
  | [] => []
  | (tag, .one node) :: rest => (Text.quoted tag ++ ": " ++ node.describe) :: describeTags rest
  | (tag, .many nodes) :: rest =>
    (Text.quoted tag ++ ": [" ++ commas (describeAll nodes) ++ "]") :: describeTags rest

def describeAll : List Node → List String
  | [] => []
  | node :: rest => node.describe :: describeAll rest

end

mutual

/-- The height of a tree: none for what has no children. -/
def height : Node → Nat
  | .branch children _ => heightTags children
  | _ => 0

/-- One more than the height of the highest child. -/
def heightTags : List (String × Children) → Nat
  | [] => 0
  | (_, .one node) :: rest => max (node.height + 1) (heightTags rest)
  | (_, .many nodes) :: rest => max (heightAll nodes) (heightTags rest)

/-- One more than the height of the highest node. -/
def heightAll : List Node → Nat
  | [] => 0
  | node :: rest => max (node.height + 1) (heightAll rest)

end

mutual

/-- The attributes of a branch as a value: a child is its value, a sequence an array. -/
def tagValues : List (String × Children) → List (String × Value)
  | [] => []
  | (tag, .one node) :: rest => (tag, node.toValue) :: tagValues rest
  | (tag, .many nodes) :: rest => (tag, .ofItems (valuesOf nodes)) :: tagValues rest

def valuesOf : List Node → List Value
  | [] => []
  | node :: rest => node.toValue :: valuesOf rest

/-- A tree as a value: a branch is the tuple of its tags, anything else its text. -/
def toValue : Node → Value
  | .branch children _ => .tuple (OrderedMap.ofList (tagValues children))
  | .leaf span => .string span.text
  | .embedded _ span => .string span.text

end

end Node

end Relational
