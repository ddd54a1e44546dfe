import Relational.Lowering.Collection
import Relational.Lowering.Kind
import Relational.Lowering.Operation

/-!
# Functions, bindings and choices

What binds names or chooses between expressions: functions (`function`), let (`let_`), chains of
arrows (`arrows`), the old `if` (`if_`) and `cond`.

> A let is the arrow of its value and the function of its pattern and its body.
-/

namespace Relational.Lowering

/-- A function. -/
def function (lo : Lowerer) (node : Node) : Lowering Expr := do
  let pattern ← lo.pattern node
  let body ← lo.expr (← node.child "expr")
  pure (.function pattern body node.span)

/-- The name of a pattern that is a name. -/
def patternName? : Pattern → Option String
  | .expr e => e.ident?
  | _ => none

/-- A let. A recursive one binds a single name. -/
def let_ (lo : Lowerer) (node : Node) : Lowering Expr := do
  let span := node.span
  match node.many "expr" with
  | [value, body] =>
    let value ← lo.expr value
    let body ← lo.expr body
    let pattern ← lo.pattern node
    let value ←
      if node.has "rec" then
        match patternName? pattern with
        | some name => pure (recursion name value span)
        | none => reject (.unsupported span (.recursivePattern pattern.text))
      else pure value
    pure (.binary .arrow value (.function pattern body span) span)
  | exprs => malformed span (.letExprs exprs.length)

/-! ## Arrows -/

/-- Groups the rows of a relation. -/
def nest (lhs : Expr) (node : Node) (span : Span) : Lowering Expr := do
  let names ← node.child "names"
  let name ← node.child "IDENT"
  pure (.nest lhs (node.has "inverse") names.names name.tokenText span)

/-- A step of a chain of arrows. A filter keeps the elements that pass it, and then applies itself
to them. -/
def arrowStep (lo : Lowerer) (span : Span) (lhs : Expr) (step : Node) : Lowering Expr :=
  match step.arrowStep? with
  | none => malformed step.span (.unknownStep step.describe)
  | some (.nest node) => nest lhs node span
  | some (.unnest node) => reject (.unsupported node.span .unnest)
  | some (.op op) => do
    let op ← resolve .binary BinaryOp.ofSymbol? op.tokenText op.span
    let rhs ← lo.expr (← step.child "expr")
    pure (.binary op lhs rhs span)
  | some .binding => do
    let rhs ← lo.expr (← step.child "expr")
    if step.has "pattern" then
      let pattern ← lo.pattern step
      pure (.binary .arrow lhs (.function pattern rhs span) span)
    else pure (.binary .arrow lhs rhs span)
  | some .filter => do
    let test ← lo.expr step
    pure (.binary .dArrow (.binary .where_ lhs test span) test span)

/-- Wraps an expression into functions of the name `-`, one for each mark. -/
def sections (span : Span) (e : Expr) : List Node → Expr
  | [] => e
  | _ :: marks => sections span (.function (.expr (.ident "-" span)) e span) marks

/-- A chain of arrows. -/
def arrows (lo : Lowerer) (node : Node) (amp : Bool) : Lowering Expr := do
  let first ← lo.expr (← node.child "expr")
  let result ← foldl (arrowStep lo node.span) first (node.many "arrow")
  pure (if amp then sections node.span result (node.many "amp") else result)

/-! ## Choices -/

/-- A branch of the old form of conditions: what comes before it is its result. Without an
alternative that is nothing. -/
def ifBranch (lo : Lowerer) (span : Span) (result : Expr) (branch : Node) : Lowering Expr := do
  let condition ← lo.expr (← branch.child "t")
  let ifFalse ←
    match branch.one? "f" with
    | some f => lo.expr f
    | none => pure (.literal .nothing span)
  pure (.ifElse result condition ifFalse span)

/-- The old form of conditions, which is reported. -/
def if_ (lo : Lowerer) (node : Node) : Lowering Expr := do
  warnDeprecated
  let result ← lo.expr (← node.child "expr")
  foldl (ifBranch lo result.span) result (node.many "if")

/-- The pattern of an arm. -/
def armPattern (lo : Lowerer) (condition : Node) : Lowering Pattern :=
  if condition.has "pattern" then lo.pattern condition
  else malformed condition.span (.conditionWithoutPattern condition.describe)

/-- The result of an arm. Several expressions make an array. -/
def armValue (lo : Lowerer) (value : Node) : Lowering Expr := do
  match value.many "expr" with
  | [] => reject (.arity value.span .armWithoutValue)
  | [expr] => lo.expr expr
  | exprs =>
    let items ← lo.exprs exprs
    pure (.array (items.map some) value.span)

/-- A choice. With a control expression it takes the first arm whose pattern fits, without one the
first entry whose condition holds. -/
def cond (lo : Lowerer) (subject : Node) : Lowering Expr := do
  let span := subject.span
  match subject.one? "controlVar" with
  | none =>
    let entries ← dictOf lo subject true span
    pure (.cond entries span)
  | some control =>
    let patterns ← traverse (armPattern lo) (subject.many "condition")
    let values ← traverse (armValue lo) (subject.many "value")
    if patterns.length = values.length then
      let control ← lo.expr control
      pure (.condControl control (patterns.zip values) span)
    else reject (.arity span (.arms patterns.length values.length))

end Relational.Lowering
