import Relational.Eval.Evaluator
import Relational.Ordered.Set
import Relational.Value.Access

/-!
# Matching patterns

A pattern takes a value apart and binds names to its parts. One name may be bound twice only to
equal values (`bindName`). `bindArray`, `bindAttrs`, `bindEntries` and `bindMembers` take arrays,
tuples, dictionaries and sets apart, `bindSlot` fills one slot, and `bindStep` tells the kinds of
patterns apart.

> A structural pattern takes every part of the value exactly once: each slot takes its own part or
> its fallback, the extra element takes what is left, and without an extra element nothing may be
> left.

The empty set stands for the empty array, tuple and dictionary.
-/

namespace Relational

/-- The failure of a value to fit a pattern. -/
def mismatch {α : Type} (pattern : Pattern) (v : Value) : Run α :=
  Run.fail (.mismatch v.text pattern.text)

/-- Binds one more name. `pattern` is the pattern that binds it. -/
def bindName (pattern : Pattern) (name : String) (v : Value) (bound : Scope) : Run Scope :=
  match bound.get? name with
  | some old =>
    if old == v then pure (bound.bind name v)
    else Run.fail (.rebound v.text old.text pattern.text)
  | none => pure (bound.bind name v)

namespace Evaluator

/-- Matches a slot of `whole` with its part of the value `v`. A slot that is left out fits
anything; a part that is missing is replaced by the fallback. -/
def bindSlot (ev : Evaluator) (whole : Pattern) (scope : Scope) (v : Value) (slot : Slot)
    (part : Option Value) (bound : Scope) : Run Scope :=
  match slot.pattern with
  | none => pure bound
  | some pattern =>
    match part, slot.fallback with
    | some part, _ => ev.bind pattern scope part bound
    | none, some fallback => do
      let part ← ev.eval fallback scope
      ev.bind pattern scope part bound
    | none, none => mismatch whole v

/-- Matches slots with the parts in the same places. A slot beyond the parts has none. -/
def bindSlots (ev : Evaluator) (whole : Pattern) (scope : Scope) (v : Value) :
    List Slot → List (Option Value) → Scope → Run Scope
  | [], _, bound => pure bound
  | slot :: slots, parts, bound => do
    let bound ← ev.bindSlot whole scope v slot parts.head?.join bound
    bindSlots ev whole scope v slots parts.tail bound

/-- The pattern of an extra element with what is left for it. -/
def bindExtra (ev : Evaluator) (scope : Scope) (extra : Option Pattern) (rest : Value)
    (bound : Scope) : Run Scope :=
  match extra with
  | some pattern => ev.bind pattern scope rest bound
  | none => pure bound

/-- Matches the items of an array with the slots of an array pattern. The slots before the extra
element take the first items, those after it the last ones, and it takes the items between. -/
def bindArray (ev : Evaluator) (whole : Pattern) (scope : Scope) (v : Value)
    (slots : List Slot) (items : List (Option Value)) (bound : Scope) : Run Scope :=
  match slots.findIdx? Slot.isExtra with
  | none =>
    if slots.length < items.length then mismatch whole v
    else ev.bindSlots whole scope v slots items bound
  | some extra => do
    let before := slots.take extra
    let after := slots.drop (extra + 1)
    if items.length < before.length + after.length then mismatch whole v
    else
      let tail := items.length - after.length
      let bound ← ev.bindSlots whole scope v before (items.take before.length) bound
      let bound ← ev.bindSlots whole scope v after (items.drop tail) bound
      let rest := (items.take tail).drop before.length
      ev.bindExtra scope (slots[extra]?.bind Slot.pattern) (.array rest) bound

/-- Matches the attributes of a tuple. `left` holds those that no slot has taken yet, and `extra`
the pattern for them. -/
def bindAttrs (ev : Evaluator) (whole : Pattern) (scope : Scope) (v : Value)
    (attrs : List (String × Value)) :
    List (String × Slot) → List (String × Value) → Option Pattern → Scope → Run Scope
  | [], left, none, bound => if left.isEmpty then pure bound else mismatch whole v
  | [], left, some extra, bound => ev.bind extra scope (.tuple left) bound
  | (name, slot) :: slots, left, extra, bound =>
    if slot.isExtra then bindAttrs ev whole scope v attrs slots left slot.pattern bound
    else do
      let bound ← ev.bindSlot whole scope v slot (OrderedMap.find? name attrs) bound
      bindAttrs ev whole scope v attrs slots (OrderedMap.erase name left) extra bound

/-- Matches the entries of a dictionary. `left` holds those that no slot has taken yet, and `extra`
the pattern for them. -/
def bindEntries (ev : Evaluator) (whole : Pattern) (scope : Scope) (v : Value)
    (entries : List (Value × Value)) :
    List (Option Expr × Slot) → List (Value × Value) → Option Pattern → Scope → Run Scope
  | [], left, none, bound => if left.isEmpty then pure bound else mismatch whole v
  | [], left, some extra, bound => ev.bind extra scope (.dict left) bound
  | (none, slot) :: slots, left, _, bound =>
    bindEntries ev whole scope v entries slots left slot.pattern bound
  | (some key, slot) :: slots, left, extra, bound => do
    let key ← ev.eval key scope
    let bound ← ev.bindSlot whole scope v slot (OrderedMap.find? key entries) bound
    bindEntries ev whole scope v entries slots (OrderedMap.erase key left) extra bound

/-- Matches the members of a set. Each element of the pattern takes one member away. -/
def bindMembers (ev : Evaluator) (whole : Pattern) (scope : Scope) (v : Value) :
    List Pattern → List Value → Option Pattern → Scope → Run Scope
  | [], left, none, bound => if left.isEmpty then pure bound else mismatch whole v
  | [], left, some extra, bound => ev.bind extra scope (.set left) bound
  | .extra name :: elements, left, _, bound =>
    bindMembers ev whole scope v elements left (some (.extra name)) bound
  | .expr e :: elements, left, extra, bound =>
    if e.isIdent then Run.fail (.unsupportedElement (Pattern.expr e).text)
    else do
      let member ← ev.eval e scope
      if OrderedSet.contains member left then
        bindMembers ev whole scope v elements (OrderedSet.erase member left) extra bound
      else mismatch whole v
  | element :: _, _, _, _ => Run.fail (.unsupportedElement element.text)

/-- Whether one of several expressions has the value. -/
def meetsOne (ev : Evaluator) (scope : Scope) (v : Value) : List Expr → Run Bool
  | [] => pure false
  | e :: rest => do
    let candidate ← ev.eval e scope
    if candidate == v then pure true else meetsOne ev scope v rest

/-- Matches a pattern with a value and adds its bindings to those made so far. -/
def bindStep (ev : Evaluator) (pattern : Pattern) (scope : Scope) (v : Value) (bound : Scope) :
    Run Scope :=
  match pattern with
  | .expr (.ident name _) => if name == "_" then pure bound else bindName pattern name v bound
  | .expr e => do
    if ← ev.meetsOne scope v [e] then pure bound else mismatch pattern v
  | .exprs es => do
    if ← ev.meetsOne scope v es then pure bound else mismatch pattern v
  | .extra none => pure bound
  | .extra (some name) => bindName pattern name v bound
  | .array slots =>
    match v with
    | .array items => ev.bindArray pattern scope v slots items bound
    | .set [] => ev.bindArray pattern scope v slots [] bound
    | _ => mismatch pattern v
  | .tuple slots =>
    match v with
    | .tuple attrs => ev.bindAttrs pattern scope v attrs slots attrs none bound
    | .set [] => ev.bindAttrs pattern scope v [] slots [] none bound
    | _ => mismatch pattern v
  | .dict slots =>
    match v with
    | .dict entries => ev.bindEntries pattern scope v entries slots entries none bound
    | .set [] => ev.bindEntries pattern scope v [] slots [] none bound
    | _ => mismatch pattern v
  | .set elements =>
    match v with
    | .set members => ev.bindMembers pattern scope v elements members none bound
    | _ => mismatch pattern v

end Evaluator

end Relational
