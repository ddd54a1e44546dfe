import Relational.Lowering.Basic

/-!
# Collections

Relations, sets, dictionaries, arrays, bytes and tuples, each lowered by the function of its name.
A collection without elements is lowered to a literal.
-/

namespace Relational.Lowering

/-- The first name of a list that stands in it before. -/
def repeated? (seen : List String) : List String → Option String
  | [] => none
  | name :: rest => if seen.contains name then some name else repeated? (name :: seen) rest

/-- A row of a relation: one value for each name. -/
def relationRow (lo : Lowerer) (names : List String) (row : Node) : Lowering (List Expr) := do
  let values ← lo.exprs (row.many "v")
  if values.length = names.length then pure values
  else reject (.arity row.span (.row values.length names.length))

/-- A relation: names, and rows of values for them. -/
def relation (lo : Lowerer) (node subject : Node) : Lowering Expr := do
  let span := node.delimitedSpan
  let names := (← subject.child "names").names
  match repeated? [] names with
  | some name => reject (.arity span (.repeatedName name))
  | none =>
    let rows ← traverse (relationRow lo names) (subject.many "tuple")
    pure (.relation names rows span)

/-- A set. -/
def set (lo : Lowerer) (node subject : Node) : Lowering Expr :=
  if subject.has "elt" then do
    let elements ← lo.exprs (subject.many "elt")
    pure (.set elements node.delimitedSpan)
  else pure (.literal .nothing node.delimitedSpan)

/-- An entry of a dictionary. -/
def dictEntry (lo : Lowerer) (pair : Node) : Lowering DictEntry :=
  match pair.one? "key", pair.one? "value" with
  | some key, some value => do
    let key ← lo.expr key
    let value ← lo.expr value
    pure (.mk key value pair.span)
  | _, _ => reject (.arity pair.span .dictPair)

/-- The entries in a node as a dictionary. -/
def dictOf (lo : Lowerer) (subject : Node) (conditional : Bool) (span : Span) : Lowering Expr := do
  match subject.many "pairs" with
  | [] => pure (.literal (.dict []) span)
  | pairs =>
    let entries ← traverse (dictEntry lo) pairs
    pure (.dict entries conditional span)

/-- A dictionary. -/
def dict (lo : Lowerer) (node subject : Node) : Lowering Expr :=
  dictOf lo subject false node.delimitedSpan

/-- The items of an array. Without a first item there are none. -/
def arrayItems (subject : Node) : List Node :=
  match subject.one? "first_item" with
  | none => []
  | some first => first :: subject.many "item"

/-- An item of an array, or a hole. -/
def arrayItem (lo : Lowerer) (item : Node) : Lowering (Option Expr) :=
  if item.has "empty" then pure none
  else do
    let expr ← lo.expr item
    pure (some expr)

/-- An array. -/
def array (lo : Lowerer) (node subject : Node) : Lowering Expr := do
  match arrayItems subject with
  | [] => pure (.literal (.array []) node.delimitedSpan)
  | items =>
    let items ← traverse (arrayItem lo) items
    pure (.array items node.delimitedSpan)

/-- A row of bytes. -/
def bytes (lo : Lowerer) (node subject : Node) : Lowering Expr :=
  if subject.has "item" then do
    let items ← lo.exprs (subject.many "item")
    pure (.bytes items node.delimitedSpan)
  else pure (.literal (.bytes []) node.delimitedSpan)

/-- A recursive binding of a name. -/
def recursion (name : String) (base : Expr) (span : Span) : Expr :=
  .recursion name base (.literal (.native 0 .fix) .unknown) (.literal (.native 0 .fixt) .unknown)
    span

/-- The name that an expression gives to an attribute without one. -/
def impliedName? : Expr → Option String
  | .dot _ attr _ => some attr
  | .ident name _ => some name
  | _ => none

/-- An attribute of a tuple. -/
def tupleAttr (lo : Lowerer) (pair : Node) : Lowering (String × Expr) := do
  let v ← pair.child "v"
  let value ← lo.expr v
  let name ←
    match (pair.one? "name").map Node.name <|> impliedName? value with
    | some name => pure name
    | none => reject (.unsupported v.span (.unnamedAttr value.text))
  pure (name, if pair.has "rec" then recursion name value v.span else value)

/-- A tuple. -/
def tuple (lo : Lowerer) (node subject : Node) : Lowering Expr := do
  match subject.many "pairs" with
  | [] => pure (.literal (.tuple []) node.delimitedSpan)
  | pairs =>
    let attrs ← traverse (tupleAttr lo) pairs
    pure (.tuple attrs node.delimitedSpan)

end Relational.Lowering
