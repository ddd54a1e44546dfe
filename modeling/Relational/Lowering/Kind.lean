import Relational.Compiler.Error

/-!
# Kinds of nodes

The tags of a node tell what it is. For expressions (`Node.exprForm`) the tags are searched in one
fixed order and the first that is present decides; patterns (`Node.patternForm`) have an order of
their own, in which a tag counts only when it holds a single node.
-/

namespace Relational

/-- What an expression node is. -/
inductive ExprKind where
  | arrow (amp : Bool)
  | let_
  | unop
  | binop
  | compare
  | rbinop
  | if_
  | callGet
  | postfixOp
  | relation
  | set
  | dict
  | array
  | bytes
  | embed
  | function
  | package
  | tuple
  | xstr
  | ident
  | str
  | num
  | char
  | cond
  | paren
deriving DecidableEq

namespace ExprKind

/-- The tags of expressions with what they stand for, in the order in which they are searched. -/
def table : List (String × ExprKind) :=
  [("amp", .arrow true), ("arrow", .arrow false), ("let", .let_), ("unop", .unop),
   ("binop", .binop), ("compare", .compare), ("rbinop", .rbinop), ("if", .if_),
   ("get", .callGet), ("tail_op", .callGet), ("postfix", .postfixOp), ("touch", .postfixOp),
   ("rel", .relation), ("set", .set), ("dict", .dict), ("array", .array), ("bytes", .bytes),
   ("embed", .embed), ("fn", .function), ("pkg", .package), ("tuple", .tuple), ("xstr", .xstr),
   ("IDENT", .ident), ("STR", .str), ("NUM", .num), ("CHAR", .char), ("cond", .cond),
   ("expr", .paren)]

/-- Whether an expression of this kind is described by the first node under its tag. -/
def hasSubject : ExprKind → Bool
  | .let_ | .relation | .set | .dict | .array | .bytes | .package | .tuple | .xstr | .ident
  | .str | .num | .char | .cond => true
  | _ => false

end ExprKind

/-- An expression node that was recognised: its kind, the tag that told, what stands under the tag,
and the node that describes it. For kinds that need no description that is the node itself. -/
structure ExprForm where
  kind : ExprKind
  children : Children
  subject : Node

/-- The form of an expression node; none when no tag is known. The tag of a kind that needs a
description must not be empty. -/
def Node.exprForm (node : Node) : Except CompileError (Option ExprForm) :=
  let found := ExprKind.table.findSome? fun (tag, kind) =>
    (node.get? tag).map fun children => (tag, kind, children)
  match found with
  | none => .ok none
  | some (tag, kind, children) =>
    if kind.hasSubject then
      match children.nodes with
      | [] => .error (.malformed node.span (.emptySequence tag node.describe))
      | subject :: _ => .ok (some ⟨kind, children, subject⟩)
    else .ok (some ⟨kind, children, node⟩)

/-- What a pattern node is, with the node that describes it. -/
inductive PatternForm where
  | wrapper (inner : Node)
  | array (node : Node)
  | tuple (node : Node)
  | dict (node : Node)
  | set (node : Node)
  | extra (node : Node)
  | exprs (alternatives : List Node)
  | expr

/-- The tags of patterns with what they stand for, in the order in which they are searched. -/
def PatternForm.table : List (String × (Node → PatternForm)) :=
  [("pattern", .wrapper), ("array", .array), ("tuple", .tuple), ("dict", .dict), ("set", .set),
   ("extra", .extra)]

/-- The form of a pattern node. -/
def Node.patternForm (node : Node) : PatternForm :=
  let found := PatternForm.table.findSome? fun (tag, form) => (node.one? tag).map form
  match found, node.many "exprpattern" with
  | some form, _ => form
  | none, [] => .expr
  | none, alternatives => .exprs alternatives

/-- What a step of a chain of arrows is. -/
inductive ArrowStep where
  | nest (node : Node)
  | unnest (node : Node)
  | op (node : Node)
  | binding
  | filter

/-- The form of a step of a chain of arrows. -/
def Node.arrowStep? (step : Node) : Option ArrowStep :=
  match step.one? "nest", step.one? "unnest", step.one? "ARROW" with
  | some nest, _, _ => some (.nest nest)
  | none, some unnest, _ => some (.unnest unnest)
  | none, none, some op => some (.op op)
  | none, none, none =>
    if step.has "binding" then some .binding
    else if (step.one? "FILTER").isSome then some .filter
    else none

end Relational
