import Relational.Lowering.Basic

/-!
# Chains of operators

Operators before an operand bind from the right (`unaryChain`). Between operands, most chains group
to the left (`leftChain`) and some to the right (`rightChain`), and a chain of comparisons stays one
expression (`compareChain`). `postfixOp` is the operator after an operand.

> A chain of n operators has n + 1 operands.
-/

namespace Relational.Lowering

/-- The meaning of an operator's token. -/
def resolve {α : Type} (table : OperatorTable) (ofSymbol? : String → Option α) (token : String)
    (span : Span) : Lowering α :=
  match ofSymbol? token with
  | some op => pure op
  | none => reject (.unresolved span table token)

/-- The operator between operands that a token stands for. -/
def binaryOp (token : Node) : Lowering BinaryOp :=
  resolve .binary BinaryOp.ofSymbol? token.text token.span

/-- An operator before its operand. -/
def leading (op : LeadingOp) (operand : Expr) (span : Span) : Expr :=
  match op with
  | .unary op => .unary op operand span
  | .package => .package operand span
  | .current op => .binary op (.current span) operand span

/-- Operators before an operand; the last one is applied first. -/
def unaryChain (lo : Lowerer) (node : Node) : Lowering Expr := do
  let operand ← lo.expr (← node.child "expr")
  foldl
    (fun operand op => do
      let token := op.token
      let span := Span.mergeOr token.span [token.span, operand.span]
      let op ← resolve .unary LeadingOp.ofSymbol? token.text span
      pure (leading op operand span))
    operand (node.many "unop").reverse

/-- The operands of a chain, when there is one more than operators. -/
def operands (node : Node) (ops : List Node) : Lowering (Node × List Node) :=
  match node.many "expr" with
  | first :: rest =>
    if rest.length = ops.length then pure (first, rest)
    else reject (.arity node.span (.chain ops.length (rest.length + 1)))
  | [] => reject (.arity node.span (.chain ops.length 0))

/-- A chain that groups to the left. The span of each step covers all that it joins. -/
def leftChain (lo : Lowerer) (node : Node) : Lowering Expr := do
  let ops := node.many "binop"
  let (first, rest) ← operands node ops
  let first ← lo.expr first
  foldl
    (fun lhs (step : Node × Node) => do
      let token := step.1.token
      let op ← binaryOp token
      let rhs ← lo.expr step.2
      let span := Span.mergeOr token.span [token.span, lhs.span, rhs.span]
      pure (.binary op lhs rhs span))
    first (ops.zip rest)

/-- A chain that groups to the right. The span of each step is that of its operator. -/
def rightChain (lo : Lowerer) (node : Node) : Lowering Expr := do
  let ops := node.many "rbinop"
  let (first, rest) ← operands node ops
  let last ← lo.expr ((first :: rest).getLast (List.cons_ne_nil first rest))
  foldl
    (fun rhs (step : Node × Node) => do
      let token := step.1.token
      let op ← binaryOp token
      let lhs ← lo.expr step.2
      pure (.binary op lhs rhs token.span))
    last (ops.zip (first :: rest)).reverse

/-- The span from the first to the last operand. -/
def operandsSpan (first : Expr) (rest : List Expr) : Span :=
  Span.mergeOr first.span [first.span, ((first :: rest).getLast (List.cons_ne_nil first rest)).span]

/-- A chain of comparisons. -/
def compareChain (lo : Lowerer) (node : Node) : Lowering Expr := do
  let ops := node.many "compare"
  let (first, rest) ← operands node ops
  let first ← lo.expr first
  let rest ← lo.exprs rest
  let ops ← traverse
    (fun op : Node => resolve .compare CompareOp.ofSymbol? op.token.text op.token.span) ops
  pure (.compare (first :: rest) ops (operandsSpan first rest))

/-- An operator after its operand. -/
def postfixOp (lo : Lowerer) (node : Node) : Lowering Expr := do
  if node.has "touch" then reject (.unsupported node.span .touch)
  else
    let op := (← node.child "postfix").token
    let operand ← lo.expr (← node.child "expr")
    match op.text with
    | "count" => pure (.count operand node.span)
    | "single" => pure (.single operand node.span)
    | other => reject (.unsupported op.span (.postfixOp other))

end Relational.Lowering
