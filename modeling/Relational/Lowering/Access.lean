import Relational.Lowering.Basic

/-!
# Calls and attributes

An access (`access`) is a base and a row of tails. A tail (`tail`) calls the base, reads an
attribute of it, or both; a call with several arguments is one call after another. A safe tail
(`safeTail`) is a chain with a fallback for the case that something is absent.
-/

namespace Relational.Lowering

/-- The name of the attribute that an access reads, with its place. -/
def attrName (get : Node) : Lowering (String × Span) :=
  match get.one? "IDENT", get.one? "STR" with
  | some ident, _ => pure (ident.tokenText, ident.token.span)
  | none, some s => pure (Text.readLiteral s.tokenText, s.token.span)
  | none, none => malformed get.span (.attrWithoutName get.describe)

/-- Reads an attribute, or takes a part of a tuple. -/
def getAttr (base : Expr) (get : Node) : Lowering Expr :=
  match get.one? "names" with
  | some names =>
    pure (.project base (get.has "inverse") names.names (accessSpan base.span names.span))
  | none => do
    let (attr, span) ← attrName get
    pure (.dot base attr (accessSpan base.span span))

/-- Reads an attribute if there is one to read. -/
def getAttr? (base : Expr) : Option Node → Lowering Expr
  | some get => getAttr base get
  | none => pure base

/-- The arguments of a call. -/
def arguments (lo : Lowerer) (call : Node) : Lowering (List Expr) :=
  traverse (fun arg : Node => do lo.expr (← arg.child "expr")) (call.many "arg")

/-- Calls with one argument after the other. -/
def calls (span : Span) (base : Expr) : List Expr → Expr
  | [] => base
  | arg :: rest => calls span (.call base arg (accessSpan base.span span)) rest

/-- A tail: a call, and then an attribute. -/
def tail (lo : Lowerer) (base : Expr) (tail : Node) : Lowering Expr := do
  let called ←
    match tail.one? "call" with
    | some call => do
      let args ← arguments lo call
      pure (calls call.span base args)
    | none => pure base
  getAttr? called (tail.one? "get")

/-- The arguments of a tail's call, with their place. -/
def tailArgs (lo : Lowerer) (tail : Node) : Lowering (Option (List Expr × Span)) :=
  match tail.one? "call" with
  | some call => do
    let args ← arguments lo call
    pure (some (args, call.span))
  | none => pure none

/-- The attribute that a tail reads, with its place. -/
def tailAttr (tail : Node) : Lowering (Option (String × Span)) :=
  match tail.one? "get" with
  | some get => do
    let attr ← attrName get
    pure (some attr)
  | none => pure none

/-- A step of safe navigation. -/
def safeStep (lo : Lowerer) (safe : Bool) (tail : Node) : Lowering SafeStep := do
  let args ← tailArgs lo tail
  let attr ← tailAttr tail
  if args.isNone && attr.isNone then malformed tail.span .emptyTail
  else pure (.mk safe args attr)

/-- A step of safe navigation after the first one. It is safe only if it is marked. -/
def safeOp (lo : Lowerer) (op : Node) : Lowering SafeStep :=
  match op.one? "safe", op.one? "tail" with
  | some safe, _ => do safeStep lo true (← safe.child "tail")
  | none, some tail => safeStep lo false tail
  | none, none => malformed op.span (.safeOpWithoutTail op.describe)

/-- A chain of safe navigation. Its fallback is lowered after the first step. -/
def safeTail (lo : Lowerer) (base : Expr) (chain : Node) : Lowering Expr := do
  let first ← safeStep lo true (← (← chain.child "first_safe").child "tail")
  let fallback ← lo.expr (← chain.child "fall")
  let rest ← traverse (safeOp lo) (chain.many "ops")
  pure (.safeTail fallback base (first :: rest) chain.span)

/-- What an access starts from: an expression, or an attribute of the current value. -/
def accessBase (lo : Lowerer) (node : Node) : Lowering Expr :=
  match node.one? "expr" with
  | some expr => lo.expr expr
  | none => do
    let get ← node.child "get"
    let dot ← get.child "dot"
    getAttr (.current dot.span) get

/-- An access. -/
def access (lo : Lowerer) (node : Node) : Lowering Expr := do
  let base ← accessBase lo node
  foldl
    (fun base (part : Node) =>
      match part.one? "safe_tail", part.one? "tail" with
      | some chain, _ => safeTail lo base chain
      | none, some t => tail lo base t
      | none, none => pure base)
    base (node.many "tail_op")

end Relational.Lowering
