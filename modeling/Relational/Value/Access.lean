import Relational.Eval.Failure
import Relational.Ordered.Map
import Relational.Value.Order

/-!
# Access to values

Reading a value as a number (`asNumber`) or a set (`asSet`), getting an attribute (`getAttr`), and
looking an argument up in a collection that is called like a function (`lookup`).

> An array answers to the indices of its items, a dictionary to its keys, and a set to the keys of
> its pairs `(@: key, @value: value)`. Any other argument has no return value, except that a set
> with two answers fails.
-/

namespace Relational.Value

/-- The number of a value. -/
def asNumber : Value → Except Cause Number
  | .number x => .ok x
  | v => .error (.notNumber v.shown)

/-- The members of a set. -/
def asSet : Value → Except Cause (List Value)
  | .set members => .ok members
  | v => .error (.notSet v.shown)

/-- An attribute of a tuple, or the value of a dictionary under a string. -/
def getAttr (v : Value) (attr : String) : Except Cause Value :=
  match v with
  | .tuple attrs =>
    match OrderedMap.find? attr attrs with
    | some value => .ok value
    | none => .error (.missingAttr attr (attrs.map (·.1)))
  | .dict entries =>
    match OrderedMap.find? (.string attr) entries with
    | some value => .ok value
    | none => .error (.missingAttr attr (entries.map (·.1.text)))
  | v => .error (.noAttrs attr v.shown)

/-- The value of a pair whose key is the argument. -/
def pairValue? (arg : Value) : Value → Option Value
  | .tuple attrs =>
    match OrderedMap.find? "@" attrs with
    | some key => if key == arg then OrderedMap.find? "@value" attrs else none
    | none => none
  | _ => none

/-- The pair that stands for an entry when a dictionary is taken as a set. -/
def pair (key value : Value) : Value := .tuple [("@", key), ("@value", value)]

/-- What a collection answers when it is called. -/
def lookup (v arg : Value) : Except Cause Value :=
  match v with
  | .array items => do
    let index ← arg.asNumber
    match index.toNat? with
    | none => .error .noReturn
    | some i =>
      match items[i]? with
      | some (some item) => .ok item
      | _ => .error .noReturn
  | .dict entries =>
    match OrderedMap.find? arg entries with
    | some value => .ok value
    | none => .error .noReturn
  | .set members =>
    match members.filterMap (pairValue? arg) with
    | [] => .error .noReturn
    | [value] => .ok value
    | _ => .error (.manyResults v.text arg.text)
  | v => .error (.notCallable v.shown)

end Relational.Value
