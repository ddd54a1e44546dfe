import Relational.Lowering.Kind
import Relational.Lowering.Basic

/-!
# Patterns

Patterns of arrays, tuples, dictionaries and sets (`arrayPattern`, `tuplePattern`, `dictPattern`,
`setPattern`) have at most one extra element, which takes all that the others leave. A place in an
array, a tuple or a dictionary may have a fallback; in the latter two its key must be marked for it.
-/

namespace Relational.Lowering

/-- The pattern of an extra element, with or without a name. -/
def extra (node : Node) : Pattern :=
  match node.one? "ident" with
  | none => .extra none
  | some ident => .extra (if ident.tokenText.isEmpty then none else some ident.tokenText)

/-- Refuses a structure with more than one extra element. -/
def checkExtra (node : Node) (kind : Structure) (extras : Nat) : Lowering Unit :=
  if extras ≤ 1 then pure () else reject (.duplicateExtra node.span kind)

/-- The fallback of a place, if it has one. -/
def fallback (lo : Lowerer) (holder : Node) : Lowering (Option Expr) :=
  match holder.one? "fall" with
  | none => pure none
  | some fall => do
    let expr ← lo.expr fall
    pure (some expr)

/-- The fallback of a place that needs a mark for it. -/
def markedFallback (lo : Lowerer) (marked : Bool) (holder : Node) : Lowering (Option Expr) :=
  match holder.one? "fall" with
  | none => pure none
  | some fall =>
    if marked then fallback lo holder else reject (.fallbackWithoutMark fall.span)

/-- A place in the pattern of an array. -/
def arraySlot (lo : Lowerer) (item : Node) : Lowering Slot :=
  if item.has "empty" then pure .elided
  else do
    let pattern ← lo.pattern item
    let fall ← fallback lo item
    pure (.mk (some pattern) fall)

/-- The pattern of an array. -/
def arrayPattern (lo : Lowerer) (node : Node) : Lowering Pattern := do
  let slots ← traverse (arraySlot lo) ((node.one? "first_item").toList ++ node.many "item")
  checkExtra node .array (slots.countP Slot.isExtra)
  pure (.array slots)

/-- A place in the pattern of a tuple. Without a name it is called like its pattern. -/
def tupleSlot (lo : Lowerer) (pair : Node) : Lowering (String × Slot) :=
  if pair.has "extra" then do
    let pattern ← lo.pattern pair
    pure ("", .mk (some pattern) none)
  else do
    let v ← pair.child "v"
    let pattern ← lo.pattern v
    let name := ((pair.one? "name").map Node.name).getD pattern.text
    let fall ← markedFallback lo (pair.has "tail") v
    pure (name, .mk (some pattern) fall)

/-- The pattern of a tuple. -/
def tuplePattern (lo : Lowerer) (node : Node) : Lowering Pattern := do
  let slots ← traverse (tupleSlot lo) (node.many "pairs")
  checkExtra node .tuple (slots.countP (·.2.isExtra))
  pure (.tuple slots)

/-- A place in the pattern of a dictionary. -/
def dictSlot (lo : Lowerer) (pair : Node) : Lowering (Option Expr × Slot) :=
  match pair.one? "extra" with
  | some node => pure (none, .mk (some (extra node)) none)
  | none => do
    let key ← pair.child "key"
    let value ← pair.child "value"
    let keyExpr ← lo.expr key
    let pattern ← lo.pattern value
    let fall ← markedFallback lo (key.has "tail") value
    pure (some keyExpr, .mk (some pattern) fall)

/-- The pattern of a dictionary. -/
def dictPattern (lo : Lowerer) (node : Node) : Lowering Pattern := do
  let slots ← traverse (dictSlot lo) (node.many "pairs")
  checkExtra node .dict (slots.countP (·.2.isExtra))
  pure (.dict slots)

/-- Whether a pattern takes all that others leave. -/
def isExtraPattern : Pattern → Bool
  | .extra _ => true
  | _ => false

/-- The pattern of a set. -/
def setPattern (lo : Lowerer) (node : Node) : Lowering Pattern := do
  let elements ← traverse lo.pattern (node.many "elt")
  checkExtra node .set (elements.countP isExtraPattern)
  pure (.set elements)

/-- The pattern of a node, given the lowering of its parts. A node that is no pattern of its own
is an expression. -/
def patternStep (lo : Lowerer) (node : Node) : Lowering Pattern :=
  match node.patternForm with
  | .wrapper inner => lo.pattern inner
  | .array array => arrayPattern lo array
  | .tuple tuple => tuplePattern lo tuple
  | .dict dict => dictPattern lo dict
  | .set set => setPattern lo set
  | .extra node => pure (extra node)
  | .exprs alternatives => do
    let es ← lo.exprs alternatives
    pure (.exprs es)
  | .expr => do
    let e ← lo.expr node
    pure (.expr e)

end Relational.Lowering
