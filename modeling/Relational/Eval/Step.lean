import Relational.Eval.Call
import Relational.Value.Comparison
import Relational.Value.Operation

/-!
# The meaning of expressions

One rule for each kind of expression. Operands are evaluated from left to right, and each of them
before the operation that needs it; what is not needed is not evaluated.

The arrows `=>`, `>>` and `:>` are `mapElements`, `mapSequence` and `mapAttrs`, `where` is
`filterElements`, and the aggregates are `aggregateElements`; `binary` gives every operator its
operands. A chain of comparisons is `compareChain`, the two forms of `cond` are `firstArm` and
`condition`, safe navigation is `safeChain`, and `let rec` is `recursion`. `evalStep` joins them.

> A failure raised by a construct is placed at that construct. Failures of its parts come with
> places of their own and keep them.
-/

namespace Relational.Evaluator

variable (ev : Evaluator)

/-! ## Arrows, filters and aggregates -/

/-- Maps the elements of a collection; those of a dictionary are its pairs. -/
def mapElements (rhs : Expr) (scope : Scope) (v : Value) : Run Value :=
  match v with
  | .set members => do
    let mapped ← Run.traverse (ev.apply rhs scope) members
    pure (.set (OrderedSet.ofList mapped))
  | .array items => do
    let mapped ← Run.traverseItems (ev.apply rhs scope) items
    pure (.array mapped)
  | .dict entries => do
    let mapped ← Run.traverse (fun (k, v) => ev.apply rhs scope (.pair k v)) entries
    pure (.set (OrderedSet.ofList mapped))
  | v => Run.ofExcept (wrongKind "=>" "a set, array or dict" v)

/-- The new value at a key or index. A strict arrow is given the key and calls the result with the
value; the other one is given the value. -/
def mapAt (rhs : Expr) (strict : Bool) (scope : Scope) (key v : Value) : Run Value :=
  if strict then do
    let function ← ev.apply rhs scope key
    ev.call function v
  else ev.apply rhs scope v

/-- Maps the items of an array from an index on. -/
def mapItemsFrom (rhs : Expr) (strict : Bool) (scope : Scope) :
    Nat → List (Option Value) → Run (List (Option Value))
  | _, [] => pure []
  | i, none :: rest => do
    let mapped ← mapItemsFrom rhs strict scope (i + 1) rest
    pure (none :: mapped)
  | i, some v :: rest => do
    let first ← ev.mapAt rhs strict scope (.number (.ofNat i)) v
    let mapped ← mapItemsFrom rhs strict scope (i + 1) rest
    pure (some first :: mapped)

/-- Maps the values of a sequence and keeps its keys. -/
def mapSequence (rhs : Expr) (strict : Bool) (scope : Scope) (v : Value) : Run Value :=
  match v with
  | .array items => do
    let mapped ← ev.mapItemsFrom rhs strict scope 0 items
    pure (.array mapped)
  | .dict entries => do
    let mapped ← Run.traverse (fun (k, v) => do
      let mapped ← ev.mapAt rhs strict scope k v
      pure (k, mapped)) entries
    pure (.dict mapped)
  | .set [] => pure .nothing
  | v => Run.ofExcept (wrongKind ">>" "an array or dict" v)

/-- Maps the attributes of a tuple and keeps their names. -/
def mapAttrs (rhs : Expr) (scope : Scope) (v : Value) : Run Value :=
  match v with
  | .tuple attrs => do
    let mapped ← Run.traverse (fun (name, v) => do
      let mapped ← ev.apply rhs scope v
      pure (name, mapped)) attrs
    pure (.tuple mapped)
  | v => Run.ofExcept (wrongKind ":>" "a tuple" v)

/-- Whether a value passes a filter. -/
def passes (rhs : Expr) (scope : Scope) (v : Value) : Run Bool := do
  let answer ← ev.apply rhs scope v
  pure answer.truthy

/-- Keeps the elements that pass. An item of an array that does not leaves a hole. -/
def filterElements (rhs : Expr) (scope : Scope) (v : Value) : Run Value :=
  match v with
  | .set members => do
    let kept ← Run.filter (ev.passes rhs scope) members
    pure (.set kept)
  | .array items => do
    let kept ← Run.traverseItems (fun v => do
      let keep ← ev.passes rhs scope v
      pure (if keep then some v else none)) items
    pure (.array (kept.map Option.join))
  | .dict entries => do
    let kept ← Run.filter (fun (k, v) => ev.passes rhs scope (.pair k v)) entries
    pure (.dict kept)
  | v => Run.ofExcept (wrongKind "where" "a set, array or dict" v)

/-- The number that an element contributes to an aggregate. -/
def contribution (rhs : Expr) (scope : Scope) (v : Value) : Run Number := do
  let answer ← ev.apply rhs scope v
  Run.ofExcept answer.asNumber

/-- Aggregates the numbers of the elements. -/
def aggregateElements (op : BinaryOp) (rhs : Expr) (scope : Scope) (v : Value) : Run Value := do
  let elements ← Run.ofExcept (v.aggregated op)
  let numbers ← Run.traverse (ev.contribution rhs scope) elements
  Run.ofExcept (Value.aggregate op numbers)

/-! ## Operators -/

/-- The value of a binary operator. -/
def binary (op : BinaryOp) (lhs rhs : Expr) (scope : Scope) : Run Value :=
  match op with
  | .and => do
    let l ← ev.eval lhs scope
    if l.truthy then ev.eval rhs scope else pure l
  | .or => do
    let l ← ev.eval lhs scope
    if l.truthy then pure l else ev.eval rhs scope
  | .arrow => do
    let l ← ev.eval lhs scope
    ev.apply rhs scope l
  | .dArrow => do
    let l ← ev.eval lhs scope
    ev.mapElements rhs scope l
  | .seqArrow strict => do
    let l ← ev.eval lhs scope
    ev.mapSequence rhs strict scope l
  | .tupleMap => do
    let l ← ev.eval lhs scope
    ev.mapAttrs rhs scope l
  | .where_ => do
    let l ← ev.eval lhs scope
    ev.filterElements rhs scope l
  | .sum | .max | .mean | .median | .min => do
    let l ← ev.eval lhs scope
    ev.aggregateElements op rhs scope l
  | .orderBy | .order | .rank | .join | .compose | .joinCommon | .joinExists | .rightMatch
  | .leftMatch | .rightResidue | .leftResidue | .offset | .addArrow =>
    Run.fail (.unsupportedOperator op.symbol)
  | op => do
    let l ← ev.eval lhs scope
    let r ← ev.eval rhs scope
    Run.ofExcept (Value.combine op l r)

/-- The comparisons of a chain, from the value on the left of the next operator. The first that
does not hold ends the chain. -/
def chain (span : Span) (scope : Scope) : Value → List CompareOp → List Expr → Run Value
  | l, op :: ops, arg :: args => do
    let r ← ev.eval arg scope
    let holds ← Run.within span (Run.ofExcept (op.holds l r))
    if holds then chain span scope r ops args else pure (.bool false)
  | _, _, _ => pure (.bool true)

/-- The value of a chain of comparisons. -/
def compareChain (args : List Expr) (ops : List CompareOp) (span : Span) (scope : Scope) :
    Run Value :=
  match args with
  | [] => Run.within span (Run.fail .emptyChain)
  | first :: rest =>
    if rest.length = ops.length then do
      let l ← ev.eval first scope
      ev.chain span scope l ops rest
    else Run.within span (Run.fail (.chainArity args.length ops.length))

/-! ## Conditions -/

/-- The body of the first arm whose pattern fits; the empty set when none does. -/
def firstArm (scope : Scope) (v : Value) : List (Pattern × Expr) → Run Value
  | [] => pure .nothing
  | (pattern, body) :: arms => do
    match ← Run.attempt (ev.bindings pattern scope v) with
    | .ok bound => ev.eval body (scope.update bound)
    | .error failure =>
      if failure.cause.isMismatch then firstArm scope v arms else Run.rethrow failure

/-- The value of the first entry whose key holds; the empty set when none does. The key `_` holds
always and is not evaluated. -/
def firstEntry (scope : Scope) : List DictEntry → Run Value
  | [] => pure .nothing
  | entry :: entries => do
    if entry.key.ident? = some "_" then ev.eval entry.value scope
    else
      let key ← ev.eval entry.key scope
      if key.truthy then ev.eval entry.value scope else firstEntry scope entries

/-- The value of the first entry of a dictionary whose key holds. -/
def firstTruthy (v : Value) : Except Cause Value :=
  match v with
  | .dict entries =>
    match entries.find? (·.1.truthy) with
    | some (_, value) => .ok value
    | none => .ok .nothing
  | v => wrongKind "cond" "a dict" v

/-- The value of a condition over a dictionary. -/
def condition (dict : Expr) (scope : Scope) : Run Value :=
  match dict with
  | .dict entries _ _ => ev.firstEntry scope entries
  | dict => do
    let v ← ev.eval dict scope
    Run.ofExcept (firstTruthy v)

/-! ## Safe navigation -/

/-- Calls a value with the arguments of a step, one after the other. -/
def callArgs (span : Span) (scope : Scope) (v : Value) (args : List Expr) : Run Value :=
  Run.foldl (fun v arg => do
    let arg ← ev.eval arg scope
    Run.within span (ev.call v arg)) v args

/-- What a step makes of a value. -/
def step (scope : Scope) (v : Value) (s : SafeStep) : Run Value := do
  let v ← match s.args with
    | none => pure v
    | some (args, span) => ev.callArgs span scope v args
  match s.attr with
  | none => pure v
  | some (attr, span) => Run.within span (Run.ofExcept (v.getAttr attr))

/-- What the steps make of a value, one after the other. A safe step without a value ends the
chain with the fallback. -/
def safeChain (fallback : Expr) (scope : Scope) : Value → List SafeStep → Run Value
  | v, [] => pure v
  | v, s :: rest => do
    match ← Run.attempt (ev.step scope v s) with
    | .ok next => safeChain fallback scope next rest
    | .error failure =>
      if s.safe && failure.cause.isAbsent then ev.eval fallback scope
      else Run.rethrow failure

/-! ## Collections -/

/-- The tuple of a row of a relation. Later names take the place of earlier ones. -/
def row (names : List String) (scope : Scope) (values : List Expr) : Run Value := do
  let attrs ← Run.traverse (fun (name, e) => do
    let v ← ev.eval e scope
    pure (name, v)) (names.zip values)
  pure (.tuple (OrderedMap.ofList attrs))

/-- The byte that a value stands for. -/
def byte (v : Value) : Except Cause UInt8 := do
  let x ← v.asNumber
  match x.toNat? with
  | some n => if n ≤ 255 then .ok (UInt8.ofNat n) else .error (.notByte x.plainText)
  | none => .error (.notByte x.plainText)

/-- The text of a part of a text with substitutions. -/
def partText (span : Span) (scope : Scope) : TextPart → Run String
  | .text s => pure s
  | .expr e format => do
    let v ← ev.eval e scope
    Run.within span (v.formatted format)

/-! ## Recursion -/

/-- The combinator for the base of a recursion. -/
def combinator (base fix fixt : Expr) : Except Cause Expr :=
  match base with
  | .function _ _ _ => .ok fix
  | .tuple _ _ => .ok fixt
  | base => .error (.recursionBase base.text)

/-- The recursive value whose name is bound in its own base. -/
def recursion (name : String) (base fix fixt : Expr) (span : Span) (scope : Scope) :
    Run Value := do
  let combinator ← Run.within span (Run.ofExcept (combinator base fix fixt))
  let identity ← Run.fresh
  let f := Value.closure identity (.expr (.ident name span)) base scope
  let combine ← ev.eval combinator scope
  Run.within span (ev.call combine f)

/-! ## All expressions -/

/-- The value of an expression in a scope. -/
def evalStep (e : Expr) (scope : Scope) : Run Value :=
  match e with
  | .literal value _ => pure value
  | .ident name span =>
    match scope.get? name with
    | some v => pure v
    | none => Run.within span (Run.fail (.unbound name))
  | .dot lhs attr span => do
    let v ← ev.eval lhs scope
    Run.within span (Run.ofExcept (v.getAttr attr))
  | .project lhs inverse attrs span => do
    let v ← ev.eval lhs scope
    Run.within span (Run.ofExcept (v.project inverse attrs))
  | .call func arg span => do
    let f ← ev.eval func scope
    let a ← ev.eval arg scope
    Run.within span (ev.call f a)
  | .binary op lhs rhs span => Run.within span (ev.binary op lhs rhs scope)
  | .unary op operand span => do
    let v ← ev.eval operand scope
    Run.within span (Run.ofExcept (v.prefixed op))
  | .package inner _ => ev.eval inner scope
  | .paren inner _ => ev.eval inner scope
  | .compare args ops span => ev.compareChain args ops span scope
  | .ifElse ifTrue condition ifFalse _ => do
    let c ← ev.eval condition scope
    if c.truthy then ev.eval ifTrue scope else ev.eval ifFalse scope
  | .condControl control arms _ => do
    let v ← ev.eval control scope
    ev.firstArm scope v arms
  | .cond dict _ => ev.condition dict scope
  | .count operand span => do
    let v ← ev.eval operand scope
    Run.within span (Run.ofExcept v.count)
  | .single operand span => do
    let v ← ev.eval operand scope
    Run.within span (Run.ofExcept v.single)
  | .safeTail fallback base steps _ => do
    let v ← ev.eval base scope
    ev.safeChain fallback scope v steps
  | .relation names rows _ => do
    let tuples ← Run.traverse (ev.row names scope) rows
    pure (.set (tuples.foldl (fun members t => OrderedSet.insert t members) []))
  | .set elements _ => do
    let members ← Run.traverse (ev.eval · scope) elements
    pure (.set (OrderedSet.ofList members))
  | .dict entries _ _ => do
    let pairs ← Run.traverse (fun entry => do
      let key ← ev.eval entry.key scope
      let value ← ev.eval entry.value scope
      pure (key, value)) entries
    pure (.dict (OrderedMap.ofList pairs))
  | .array items _ => do
    let values ← Run.traverseItems (ev.eval · scope) items
    pure (.array values)
  | .bytes items span => do
    let values ← Run.traverse (fun item => do
      let v ← ev.eval item scope
      Run.within span (Run.ofExcept (byte v))) items
    pure (.bytes values)
  | .tuple attrs _ => do
    let values ← Run.traverse (fun (name, e) => do
      let v ← ev.eval e scope
      pure (name, v)) attrs
    pure (.tuple (OrderedMap.ofList values))
  | .function param body _ => do
    let identity ← Run.fresh
    pure (.closure identity param body scope)
  | .recursion name base fix fixt span => ev.recursion name base fix fixt span scope
  | .xstr parts span => do
    let texts ← Run.traverse (ev.partText span scope) parts
    pure (.string (String.join texts))
  | .nest lhs inverse attrs name span => do
    let v ← ev.eval lhs scope
    Run.within span (Run.ofExcept (v.nest inverse attrs name))

end Relational.Evaluator
