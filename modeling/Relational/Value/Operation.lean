import Relational.Eval.Run
import Relational.Number.Reading
import Relational.Ordered.Set
import Relational.Value.Access

/-!
# Operations on values

What the operators do once their operands are evaluated. Nothing here evaluates an expression.

`combine` is each operator of two values: arithmetic, the algebra of sets, `++`, `with` and
`without`. `prefixed` is each operator of one value, the power set among them. `count`, `single`,
`aggregate`, `project` and `nest` have forms of their own in the language, and `formatted` writes a
value into a text.

> Nesting groups the tuples of a relation by the attributes that stay outside; each group becomes
> one row, and every tuple of the relation is in exactly one of the groups.
-/

namespace Relational

/-- The failure of an operation that got a value of the wrong kind. -/
def wrongKind {α : Type} (operation wanted : String) (got : Value) : Except Cause α :=
  .error (.unexpected operation wanted got.shown)

namespace Value

/-- The operations on two numbers. -/
def arithmetic? : BinaryOp → Option (Number → Number → Number)
  | .add => some Number.add
  | .sub => some Number.sub
  | .mul => some Number.mul
  | .div => some Number.div
  | .mod => some Number.mod
  | .subMod => some Number.subMod
  | .intDiv => some Number.intDiv
  | .pow => some Number.pow
  | _ => none

/-- The operations on two sets. -/
def setAlgebra? : BinaryOp → Option (List Value → List Value → List Value)
  | .union => some OrderedSet.union
  | .intersect => some OrderedSet.inter
  | .difference => some OrderedSet.diff
  | .symmetricDiff => some OrderedSet.symmDiff
  | _ => none

/-- One sequence after another of its kind. The empty set is neutral on both sides. -/
def concat : Value → Value → Except Cause Value
  | .array a, .array b => .ok (.array (a ++ b))
  | .string a, .string b => .ok (.string (a ++ b))
  | .bytes a, .bytes b => .ok (.bytes (a ++ b))
  | a, b =>
    if a.isNothing then .ok b
    else if b.isNothing then .ok a
    else wrongKind "++" "an array, string or bytes" a

/-- A set with one more member. -/
def withMember (v member : Value) : Except Cause Value :=
  match v with
  | .set members => .ok (.set (OrderedSet.insert member members))
  | v => wrongKind "with" "a set" v

/-- A set without a member. -/
def withoutMember (v member : Value) : Except Cause Value :=
  match v with
  | .set members => .ok (.set (OrderedSet.erase member members))
  | v => wrongKind "without" "a set" v

/-- The binary operators that need the values of both operands. -/
def combine (op : BinaryOp) (l r : Value) : Except Cause Value :=
  match op with
  | .concat => concat l r
  | .with_ => withMember l r
  | .without => withoutMember l r
  | op =>
    match arithmetic? op with
    | some operation => do
      let a ← l.asNumber
      let b ← r.asNumber
      .ok (.number (operation a b))
    | none => do
      let a ← l.asSet
      let b ← r.asSet
      match setAlgebra? op with
      | some operation => .ok (.set (operation a b))
      | none => .error (.unsupportedOperator op.symbol)

/-- The largest set whose subsets are listed. -/
def powerSetLimit : Nat := 16

/-- The subset that is selected by a mask. -/
def subsetAt (members : List Value) (mask : Nat) : Value :=
  .set (OrderedSet.ofList (OrderedSet.selected members mask))

/-- The set of all subsets, of which there is one for each mask. -/
def powerSet (v : Value) : Except Cause Value := do
  let members ← v.asSet
  if powerSetLimit < members.length then .error (.unsupportedPowerSet members.length)
  else
    let masks := List.range (1 <<< members.length)
    .ok (.set (OrderedSet.ofList (masks.map (subsetAt members))))

/-- The unary operators. -/
def prefixed (op : UnaryOp) (v : Value) : Except Cause Value :=
  match op with
  | .pos => do
    let x ← v.asNumber
    .ok (.number x)
  | .neg => do
    let x ← v.asNumber
    .ok (.number x.neg)
  | .not => .ok (.bool (!v.truthy))
  | .powerSet => v.powerSet
  | .eval => .error (.unsupportedOperator op.symbol)

/-- The items of an array that are no holes. -/
def present (items : List (Option Value)) : List Value := items.filterMap id

/-- The number of elements. -/
def count (v : Value) : Except Cause Value :=
  let answer (n : Nat) : Except Cause Value := .ok (.number (.ofNat n))
  match v with
  | .set members => answer members.length
  | .array items => answer (present items).length
  | .dict entries => answer entries.length
  | .tuple attrs => answer attrs.length
  | .string s => answer s.length
  | .bytes b => answer b.length
  | v => wrongKind "count" "a collection" v

/-- The only element. -/
def single (v : Value) : Except Cause Value :=
  let only (elements : List Value) : Except Cause Value :=
    match elements with
    | [element] => .ok element
    | _ => .error (.notSingle v.text)
  match v with
  | .set members => only members
  | .array items => only (present items)
  | v => wrongKind "single" "a set or array" v

/-- The elements that are aggregated. -/
def aggregated (op : BinaryOp) : Value → Except Cause (List Value)
  | .set members => .ok members
  | .array items => .ok (present items)
  | v => wrongKind op.symbol "a set or array" v

/-- The aggregate of numbers. Only a sum is defined for no numbers at all. -/
def aggregate (op : BinaryOp) (numbers : List Number) : Except Cause Value :=
  if numbers.isEmpty then
    match op with
    | .sum => .ok (.number .zero)
    | _ => .error .noReturn
  else
    match op with
    | .sum => .ok (.number (.sum numbers))
    | .max => .ok (.number (.maximum numbers))
    | .min => .ok (.number (.minimum numbers))
    | .mean => .ok (.number (.mean numbers))
    | _ => .ok (.number (.median numbers))

/-! ## Projection and nesting -/

/-- Whether an attribute is one of those listed, or one of the others when turned around. -/
def selected (inverse : Bool) (names : List String) (name : String) : Bool :=
  names.contains name != inverse

/-- Some of the attributes of a tuple. Those listed have to be there. -/
def projectAttrs (inverse : Bool) (names : List String) (attrs : List (String × Value)) :
    Except Cause Value :=
  match names.find? (fun name => !inverse && !OrderedMap.contains name attrs) with
  | some missing => .error (.missingAttr missing (attrs.map (·.1)))
  | none => .ok (.tuple (attrs.filter fun (name, _) => selected inverse names name))

mutual

/-- The projection of a tuple, or of every member of a relation. -/
def project (inverse : Bool) (names : List String) : Value → Except Cause Value
  | .tuple attrs => projectAttrs inverse names attrs
  | .set members => do
    let projected ← projectAll inverse names members
    .ok (.set (OrderedSet.ofList projected))
  | v => wrongKind "projection" "a tuple or relation" v

/-- The projections of a list of values, up to the first that fails. -/
def projectAll (inverse : Bool) (names : List String) : List Value → Except Cause (List Value)
  | [] => .ok []
  | v :: rest => do
    let first ← project inverse names v
    let others ← projectAll inverse names rest
    .ok (first :: others)

end

/-- The attributes of a tuple of a relation. -/
def rowAttrs : Value → Except Cause (List (String × Value))
  | .tuple attrs => .ok attrs
  | v => wrongKind "nest" "a relation" v

/-- Puts a tuple into its group. A group is found by the attributes outside, as a tuple. -/
def addToGroup (inverse : Bool) (names : List String) (groups : List (Value × List Value))
    (attrs : List (String × Value)) : List (Value × List Value) :=
  let outer := Value.tuple (attrs.filter fun (name, _) => !selected inverse names name)
  let inner := Value.tuple (attrs.filter fun (name, _) => selected inverse names name)
  let group := (OrderedMap.find? outer groups).getD []
  OrderedMap.insert outer (OrderedSet.insert inner group) groups

/-- The groups of the rows of a relation, up to the first member that is no tuple. -/
def groupRows (inverse : Bool) (names : List String) :
    List (Value × List Value) → List Value → Except Cause (List (Value × List Value))
  | groups, [] => .ok groups
  | groups, v :: rest => do
    let attrs ← v.rowAttrs
    groupRows inverse names (addToGroup inverse names groups attrs) rest

/-- The row of a group: its outer attributes and, under a name, its inner tuples. -/
def groupRow (name : String) (group : Value × List Value) : Value :=
  match group with
  | (.tuple outer, members) => .tuple (OrderedMap.insert name (.set members) outer)
  | (v, _) => v

/-- The relation with some of its attributes nested under a name. -/
def nest (inverse : Bool) (names : List String) (name : String) (v : Value) :
    Except Cause Value := do
  let members ← v.asSet
  let groups ← groupRows inverse names [] members
  .ok (.set (OrderedSet.ofList (groups.map (groupRow name))))

/-! ## Substitution into texts -/

/-- The bound of the counts of places that a format can ask for. -/
def placesLimit : Nat := 0x10000000000000000

/-- The greatest count of places that can be written. -/
def writablePlaces : Nat := 65535

/-- The count of places of a format `.Nf`. -/
def formatPlaces? (spec : String) : Option Nat :=
  match spec.toList with
  | '.' :: rest =>
    let digits := match rest.dropLast with
      | '+' :: digits => digits
      | digits => digits
    let count := Number.digitsValue 0 digits
    if rest.getLast? = some 'f' && !digits.isEmpty && digits.all Char.isDigit &&
        decide (count < placesLimit) then
      some count
    else none
  | _ => none

/-- The text of a value inside another text. A format that asks for too many places of a number
aborts the run. -/
def formatted (format : Option String) (v : Value) : Run String :=
  match format, v with
  | none, .string s => pure s
  | none, v => pure v.text
  | some "q", v => pure v.text
  | some "d", .number x => pure x.trunc.text
  | some spec, .number x =>
    match formatPlaces? spec with
    | some places =>
      if places ≤ writablePlaces then pure (x.fixedText places) else Run.abort .placesOutOfRange
    | none => Run.fail (.unsupportedFormat spec)
  | some spec, _ => Run.fail (.unsupportedFormat spec)

end Value

end Relational
