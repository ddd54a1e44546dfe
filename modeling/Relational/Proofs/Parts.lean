import Relational.Expr.Text

/-!
# The parts of expressions and patterns

What an expression evaluates on its way, in the scope that it is given itself, and what matching a
pattern reads and matches on its way. Left out are the operands of an operator, which see another
scope in part and report their failures at the operator; the bodies of functions and of arms, which
see the names of a pattern; and the keys `_` of a choice, which are not read.
-/

namespace Relational

/-- The expression that is put into a text. -/
def TextPart.expr? : TextPart → Option Expr
  | .text _ => none
  | .expr e _ => some e

/-- The arguments of a step, if it makes a call. -/
def SafeStep.arguments (step : SafeStep) : List Expr :=
  match step.args with
  | some (args, _) => args
  | none => []

/-- The places of a step: that of its call and that of its attribute. -/
def SafeStep.spans (step : SafeStep) : List Span :=
  (step.args.map (·.2)).toList ++ (step.attr.map (·.2)).toList

/-- What a choice may evaluate of an entry. -/
def DictEntry.alternatives (entry : DictEntry) : List Expr :=
  if entry.key.ident? = some "_" then [entry.value] else [entry.key, entry.value]

/-- The parts of an expression: what it evaluates in its own scope, one level down. -/
def Expr.parts : Expr → List Expr
  | .dot lhs _ _ | .project lhs _ _ _ | .nest lhs _ _ _ _ => [lhs]
  | .unary _ operand _ | .count operand _ | .single operand _ => [operand]
  | .package inner _ | .paren inner _ => [inner]
  | .call func arg _ => [func, arg]
  | .compare args _ _ | .set args _ | .bytes args _ => args
  | .ifElse ifTrue condition ifFalse _ => [condition, ifTrue, ifFalse]
  | .condControl control _ _ => [control]
  | .cond (.dict entries _ _) _ => entries.flatMap DictEntry.alternatives
  | .cond conditions _ => [conditions]
  | .safeTail fallback base steps _ => base :: fallback :: steps.flatMap SafeStep.arguments
  | .relation _ rows _ => rows.flatten
  | .dict entries _ _ => entries.flatMap fun entry => [entry.key, entry.value]
  | .array items _ => items.filterMap id
  | .tuple attrs _ => attrs.map (·.2)
  | .recursion _ _ fix fixt _ => [fix, fixt]
  | .xstr parts _ => parts.filterMap TextPart.expr?
  | .literal _ _ | .ident _ _ | .binary _ _ _ _ | .function _ _ _ => []

/-- The conditions of a choice: a conditional dictionary with entries, or an empty one. -/
def Expr.IsConditions (e : Expr) : Prop :=
  (∃ span, e = .literal (.dict []) span) ∨
    ∃ entries span, entries ≠ [] ∧ e = .dict entries true span

/-- The pattern and the fallback of a slot have the properties. -/
def Slot.Has (E : Expr → Prop) (P : Pattern → Prop) (slot : Slot) : Prop :=
  (∀ p, slot.pattern = some p → P p) ∧ ∀ e, slot.fallback = some e → E e

namespace Pattern

/-- The slots of a pattern of an array, a tuple or a dictionary. -/
def slots : Pattern → List Slot
  | .array slots => slots
  | .tuple slots => slots.map (·.2)
  | .dict slots => slots.map (·.2)
  | _ => []

/-- The keys of a pattern of a dictionary. -/
def keys : Pattern → List Expr
  | .dict slots => slots.filterMap (·.1)
  | _ => []

/-- The expressions whose values a pattern asks for. A name asks for none. -/
def literals : Pattern → List Expr
  | .expr e => if e.isIdent then [] else [e]
  | .exprs es => es
  | _ => []

/-- What matching a pattern reads, one level down: keys, literals and fallbacks. -/
def reads (p : Pattern) : List Expr := p.keys ++ p.literals ++ p.slots.filterMap Slot.fallback

/-- The parts of a pattern: what it matches, one level down. -/
def parts : Pattern → List Pattern
  | .set elements => elements
  | p => p.slots.filterMap Slot.pattern

/-- What holds of all that a pattern reads and matches holds of each of its slots. -/
theorem slot_has {E : Expr → Prop} {P : Pattern → Prop} {p : Pattern} (hreads : ∀ e ∈ p.reads, E e)
    (hparts : ∀ q ∈ p.parts, P q) : ∀ slot ∈ p.slots, slot.Has E P := by
  intro slot hslot
  refine ⟨fun q hq => hparts q ?_, fun e he => hreads e ?_⟩
  · have hmem : q ∈ p.slots.filterMap Slot.pattern := List.mem_filterMap.mpr ⟨slot, hslot, hq⟩
    cases p with
    | set elements => exact absurd hslot List.not_mem_nil
    | _ => exact hmem
  · exact List.mem_append_right _ (List.mem_filterMap.mpr ⟨slot, hslot, he⟩)

theorem mem_reads_of_mem_keys {p : Pattern} {e : Expr} (h : e ∈ p.keys) : e ∈ p.reads :=
  List.mem_append_left _ (List.mem_append_left _ h)

theorem mem_reads_of_mem_literals {p : Pattern} {e : Expr} (h : e ∈ p.literals) : e ∈ p.reads :=
  List.mem_append_left _ (List.mem_append_right _ h)

end Pattern

end Relational
