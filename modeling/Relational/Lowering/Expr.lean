import Relational.Lowering.Access
import Relational.Lowering.Atom
import Relational.Lowering.Binder
import Relational.Lowering.Pattern

/-!
# Lowering of trees

The kind of a node decides how it is lowered (`exprStep`, `patternStep`), and its parts are lowered
with less fuel. Parts are lower in the tree, except that the pattern of a function, or an expression
in place of a pattern, is read off the same node; so two units of fuel for each level are enough.

> `Node.lower` never runs out of fuel on a tree whose functions have patterns.
-/

namespace Relational

namespace Lowering

/-- An expression in parentheses, or one that merely stands in another. -/
def paren (lo : Lowerer) (node : Node) : Children → Lowering Expr
  | .one inner => do
    let e ← lo.expr inner
    pure (if node.has "odelim" then .paren e node.delimitedSpan else e)
  | .many [inner] => lo.expr inner
  | .many nodes => malformed node.span (.manyExprs nodes.length)

/-- The expression of a node of a known form, given the lowering of its parts. -/
def formStep (lo : Lowerer) (node : Node) (form : ExprForm) : Lowering Expr :=
  match form.kind with
  | .arrow amp => arrows lo node amp
  | .let_ => let_ lo form.subject
  | .unop => unaryChain lo node
  | .binop => leftChain lo node
  | .compare => compareChain lo node
  | .rbinop => rightChain lo node
  | .if_ => if_ lo node
  | .callGet => access lo node
  | .postfixOp => postfixOp lo node
  | .relation => relation lo node form.subject
  | .set => set lo node form.subject
  | .dict => dict lo node form.subject
  | .array => array lo node form.subject
  | .bytes => bytes lo node form.subject
  | .embed => embed node
  | .function => function lo node
  | .package => package node form.subject
  | .tuple => tuple lo node form.subject
  | .xstr => xstr lo node form.subject
  | .ident => pure (ident form.subject.token)
  | .str => pure (str form.subject.token)
  | .num => num form.subject.token
  | .char => char form.subject.token
  | .cond => cond lo form.subject
  | .paren => paren lo node form.children

/-- The expression of a node, given the lowering of its parts. -/
def exprStep (lo : Lowerer) (node : Node) : Lowering Expr :=
  match node.embedded? with
  | some e => pure e
  | none => do
    match ← ofExcept node.exprForm with
    | some form => formStep lo node form
    | none => malformed node.span (.noTag node.describe)

mutual

/-- The expression of a node. -/
def lowerExpr : Nat → Node → Lowering Expr
  | 0, _ => exhausted
  | fuel + 1, node => exprStep ⟨lowerExpr fuel, lowerPattern fuel⟩ node

/-- The pattern of a node. -/
def lowerPattern : Nat → Node → Lowering Pattern
  | 0, _ => exhausted
  | fuel + 1, node => patternStep ⟨lowerExpr fuel, lowerPattern fuel⟩ node

end

/-- The fuel for a tree. -/
def fuelFor (node : Node) : Nat := 2 * (node.height + 1)

end Lowering

/-- The expression of a tree. -/
def Node.lower (node : Node) : Lowering Expr := Lowering.lowerExpr (Lowering.fuelFor node) node

/-- The pattern of a tree. -/
def Node.lowerPattern (node : Node) : Lowering Pattern :=
  Lowering.lowerPattern (Lowering.fuelFor node) node

end Relational
