import Relational.Proofs.Parts
import Relational.Scope

/-!
# Free names

The names that an expression takes from its scope, by the lexical rules of the language:

> A function and an arm of a condition bind the variables of their pattern, in the body only. Keys,
> literals and fallbacks inside a pattern are read in the scope outside. The right side of an arrow,
> a filter or an aggregate binds the current value unless it is a function literal. A recursion
> binds its name in its base. The key `_` of a condition is not a reference.

A pattern `_` binds nothing, so a recursion under that name binds nothing either.

Literals hold values, and a function among them brings its own scope. What that scope lacks can not
be given by any scope around the literal, so these names are kept apart: they are loose, and no
binder takes them away. A value without loose names is closed.
-/

namespace Relational

/-! ## The variables of a pattern -/

/-- The variables of the elements of a set pattern: those of the last extra element. -/
def Pattern.memberVariables : List Pattern → List String → List String
  | [], last => last
  | .extra name :: elements, _ => memberVariables elements name.toList
  | _ :: elements, last => memberVariables elements last

mutual

/-- The names that a pattern binds. Of several extra elements of a tuple, a dictionary or a set the
last one takes what is left, and the others bind nothing. -/
def Pattern.variables : Pattern → List String
  | .expr (.ident name _) => if name = "_" then [] else [name]
  | .expr _ | .exprs _ => []
  | .array slots => Pattern.slotVariables slots
  | .tuple slots => Pattern.attrVariables slots []
  | .dict slots => Pattern.entryVariables slots []
  | .set elements => Pattern.memberVariables elements []
  | .extra name => name.toList
termination_by structural x => x

def Slot.variables : Slot → List String
  | .mk (some pattern) _ => pattern.variables
  | .mk none _ => []
termination_by structural x => x

def Pattern.slotVariables : List Slot → List String
  | [] => []
  | slot :: slots => slot.variables ++ Pattern.slotVariables slots
termination_by structural x => x

def Pattern.attrVariables : List (String × Slot) → List String → List String
  | [], last => last
  | (_, slot) :: slots, last =>
    if slot.isExtra then Pattern.attrVariables slots slot.variables
    else slot.variables ++ Pattern.attrVariables slots last
termination_by structural x => x

def Pattern.entryVariables : List (Option Expr × Slot) → List String → List String
  | [], last => last
  | (none, slot) :: slots, _ => Pattern.entryVariables slots slot.variables
  | (some _, slot) :: slots, last => slot.variables ++ Pattern.entryVariables slots last
termination_by structural x => x

end

/-! ## Names -/

/-- The names that something needs: those that it takes from its scope, and those that functions
inside its literals lack. -/
structure Names where
  free : List String
  loose : List String
deriving DecidableEq

namespace Names

/-- No names at all. -/
def none : Names := ⟨[], []⟩

instance : Append Names := ⟨fun m n => ⟨m.free ++ n.free, m.loose ++ n.loose⟩⟩

/-- The names that are left where some are bound. -/
def without (n : Names) (bound : List String) : Names :=
  { n with free := n.free.filter fun name => !bound.contains name }

/-- The names that are left over in a scope. -/
def missing (n : Names) (scope : Scope) : List String :=
  n.free.filter (fun name => (scope.get? name).isNone) ++ n.loose

end Names

/-- Whether the right side of an operator sees the value on the left as the current one. -/
def BinaryOp.bindsCurrent : BinaryOp → Bool
  | .arrow | .dArrow | .seqArrow _ | .tupleMap | .where_ | .sum | .max | .mean | .median
  | .min => true
  | _ => false

/-- Whether an expression is a function literal. -/
def Expr.isFunction : Expr → Bool
  | .function _ _ _ => true
  | _ => false

mutual

/-- The names that the functions in a value lack. -/
def Value.loose : Value → List String
  | .bool _ | .number _ | .string _ | .bytes _ => []
  | .array items => Value.looseItems items
  | .tuple attrs => Value.looseAttrs attrs
  | .set members => Value.looseMembers members
  | .dict entries => Value.looseEntries entries
  | .closure _ param body captured =>
    (param.names ++ body.names.without param.variables).missing captured ++
      Value.looseAttrs captured
  | .native _ function => function.loose
termination_by structural x => x

def Value.looseItems : List (Option Value) → List String
  | [] => []
  | none :: items => Value.looseItems items
  | some v :: items => v.loose ++ Value.looseItems items
termination_by structural x => x

def Value.looseAttrs : List (String × Value) → List String
  | [] => []
  | (_, v) :: attrs => v.loose ++ Value.looseAttrs attrs
termination_by structural x => x

def Value.looseMembers : List Value → List String
  | [] => []
  | v :: members => v.loose ++ Value.looseMembers members
termination_by structural x => x

def Value.looseEntries : List (Value × Value) → List String
  | [] => []
  | (k, v) :: entries => k.loose ++ v.loose ++ Value.looseEntries entries
termination_by structural x => x

def Native.loose : Native → List String
  | .fix | .fixt | .loader _ => []
  | .unfold f | .unfoldAttr f _ | .hosted _ f => f.loose
termination_by structural x => x

/-- The names that an expression needs. -/
def Expr.names : Expr → Names
  | .literal value _ => ⟨[], value.loose⟩
  | .ident name _ => ⟨[name], []⟩
  | .dot lhs _ _ | .project lhs _ _ _ | .nest lhs _ _ _ _ => lhs.names
  | .call func arg _ => func.names ++ arg.names
  | .binary op lhs rhs _ =>
    lhs.names ++
      if op.bindsCurrent && !rhs.isFunction then rhs.names.without ["."] else rhs.names
  | .unary _ operand _ | .count operand _ | .single operand _ => operand.names
  | .package inner _ | .paren inner _ => inner.names
  | .compare args _ _ => Expr.namesAll args
  | .ifElse ifTrue condition ifFalse _ => condition.names ++ ifTrue.names ++ ifFalse.names
  | .condControl control arms _ => control.names ++ Expr.namesArms arms
  | .cond (.dict entries _ _) _ => Expr.namesCases entries
  | .cond dict _ => dict.names
  | .safeTail fallback base steps _ => base.names ++ Expr.namesSteps steps ++ fallback.names
  | .relation _ rows _ => Expr.namesRows rows
  | .set elements _ | .bytes elements _ => Expr.namesAll elements
  | .dict entries _ _ => Expr.namesEntries entries
  | .array items _ => Expr.namesItems items
  | .tuple attrs _ => Expr.namesAttrs attrs
  | .function param body _ => param.names ++ body.names.without param.variables
  | .recursion name base fix fixt span =>
    base.names.without (Pattern.expr (.ident name span)).variables ++ fix.names ++ fixt.names
  | .xstr parts _ => Expr.namesParts parts
termination_by structural x => x

def Expr.namesAll : List Expr → Names
  | [] => .none
  | e :: es => e.names ++ Expr.namesAll es
termination_by structural x => x

def Expr.namesRows : List (List Expr) → Names
  | [] => .none
  | row :: rows => Expr.namesAll row ++ Expr.namesRows rows
termination_by structural x => x

def Expr.namesItems : List (Option Expr) → Names
  | [] => .none
  | none :: items => Expr.namesItems items
  | some e :: items => e.names ++ Expr.namesItems items
termination_by structural x => x

def Expr.namesAttrs : List (String × Expr) → Names
  | [] => .none
  | (_, e) :: attrs => e.names ++ Expr.namesAttrs attrs
termination_by structural x => x

def Expr.namesEntries : List DictEntry → Names
  | [] => .none
  | .mk key value _ :: entries => key.names ++ value.names ++ Expr.namesEntries entries
termination_by structural x => x

/-- The names that the entries of a condition need. The key `_` needs none. -/
def Expr.namesCases : List DictEntry → Names
  | [] => .none
  | .mk key value _ :: entries =>
    (if key.ident? = some "_" then .none else key.names) ++ value.names ++
      Expr.namesCases entries
termination_by structural x => x

def Expr.namesArms : List (Pattern × Expr) → Names
  | [] => .none
  | (pattern, body) :: arms =>
    pattern.names ++ body.names.without pattern.variables ++ Expr.namesArms arms
termination_by structural x => x

def Expr.namesSteps : List SafeStep → Names
  | [] => .none
  | .mk _ none _ :: steps => Expr.namesSteps steps
  | .mk _ (some (args, _)) _ :: steps => Expr.namesAll args ++ Expr.namesSteps steps
termination_by structural x => x

def Expr.namesParts : List TextPart → Names
  | [] => .none
  | .text _ :: parts => Expr.namesParts parts
  | .expr e _ :: parts => e.names ++ Expr.namesParts parts
termination_by structural x => x

/-- The names that a pattern takes from the scope outside. -/
def Pattern.names : Pattern → Names
  | .expr (.ident _ _) | .extra _ => .none
  | .expr e => e.names
  | .exprs es => Expr.namesAll es
  | .array slots => Pattern.namesSlots slots
  | .tuple slots => Pattern.namesAttrs slots
  | .dict slots => Pattern.namesEntries slots
  | .set elements => Pattern.namesAll elements
termination_by structural x => x

def Slot.names : Slot → Names
  | .mk none none => .none
  | .mk none (some fallback) => fallback.names
  | .mk (some pattern) none => pattern.names
  | .mk (some pattern) (some fallback) => pattern.names ++ fallback.names
termination_by structural x => x

def Pattern.namesSlots : List Slot → Names
  | [] => .none
  | slot :: slots => slot.names ++ Pattern.namesSlots slots
termination_by structural x => x

def Pattern.namesAttrs : List (String × Slot) → Names
  | [] => .none
  | (_, slot) :: slots => slot.names ++ Pattern.namesAttrs slots
termination_by structural x => x

def Pattern.namesEntries : List (Option Expr × Slot) → Names
  | [] => .none
  | (none, slot) :: slots => slot.names ++ Pattern.namesEntries slots
  | (some key, slot) :: slots => key.names ++ slot.names ++ Pattern.namesEntries slots
termination_by structural x => x

def Pattern.namesAll : List Pattern → Names
  | [] => .none
  | pattern :: patterns => pattern.names ++ Pattern.namesAll patterns
termination_by structural x => x

end

/-- The free names of an expression, with the names that functions inside its literals lack. -/
def Expr.freeNames (e : Expr) : List String := e.names.free ++ e.names.loose

/-! ## Scopes that give names -/

/-- A scope has a value for a name. -/
def Scope.Has (scope : Scope) (name : String) : Prop := (scope.get? name).isSome = true

namespace Names

/-- A scope gives all the names that something needs, and nothing is loose in it. -/
def MetBy (n : Names) (scope : Scope) : Prop :=
  (∀ name ∈ n.free, scope.Has name) ∧ n.loose = []

theorem missing_eq_nil_iff {n : Names} {scope : Scope} :
    n.missing scope = [] ↔ n.MetBy scope := by
  unfold missing MetBy Scope.Has
  simp [List.append_eq_nil_iff, List.filter_eq_nil_iff, Option.isSome_iff_ne_none]

theorem none_metBy (scope : Scope) : none.MetBy scope :=
  ⟨fun _ h => absurd h List.not_mem_nil, rfl⟩

@[simp]
theorem append_metBy {m n : Names} {scope : Scope} :
    (m ++ n).MetBy scope ↔ m.MetBy scope ∧ n.MetBy scope := by
  show (∀ name ∈ m.free ++ n.free, _) ∧ m.loose ++ n.loose = [] ↔ _
  simp only [List.mem_append, List.append_eq_nil_iff, MetBy]
  constructor
  · rintro ⟨hfree, hm, hn⟩
    exact ⟨⟨fun x h => hfree x (Or.inl h), hm⟩, fun x h => hfree x (Or.inr h), hn⟩
  · rintro ⟨⟨hfree, hm⟩, hfree', hn⟩
    exact ⟨fun x h => h.elim (hfree x) (hfree' x), hm, hn⟩

/-- A binder gives its names to what stands under it. -/
theorem MetBy.of_without {n : Names} {bound : List String} {scope scope' : Scope}
    (h : (n.without bound).MetBy scope) (hold : ∀ name, scope.Has name → scope'.Has name)
    (hnew : ∀ name ∈ bound, scope'.Has name) : n.MetBy scope' := by
  refine ⟨fun name hname => ?_, h.2⟩
  by_cases hbound : name ∈ bound
  · exact hnew name hbound
  · exact hold name (h.1 name (List.mem_filter.mpr ⟨hname, by simpa using hbound⟩))

end Names

theorem Expr.freeNames_eq_nil_iff {e : Expr} : e.freeNames = [] ↔ e.names.MetBy Scope.empty := by
  rw [← Names.missing_eq_nil_iff]
  unfold freeNames Names.missing
  have hall : e.names.free.filter (fun name => (Scope.empty.get? name).isNone) = e.names.free :=
    List.filter_eq_self.mpr fun _ _ => rfl
  rw [hall]

/-! ## Names of parts -/

namespace Expr

variable {scope : Scope}

theorem namesAll_metBy {es : List Expr} :
    (namesAll es).MetBy scope ↔ ∀ e ∈ es, e.names.MetBy scope := by
  induction es with
  | nil => simp [namesAll, Names.none_metBy]
  | cons e es ih => simp [namesAll, ih]

theorem namesRows_metBy {rows : List (List Expr)} :
    (namesRows rows).MetBy scope ↔ ∀ e ∈ rows.flatten, e.names.MetBy scope := by
  induction rows with
  | nil => simp [namesRows, Names.none_metBy]
  | cons row rows ih =>
    rw [List.flatten_cons, List.forall_mem_append, ← namesAll_metBy, ← ih, ← Names.append_metBy,
      namesRows]

theorem namesItems_metBy {items : List (Option Expr)} :
    (namesItems items).MetBy scope ↔ ∀ e ∈ items.filterMap id, e.names.MetBy scope := by
  induction items with
  | nil => simp [namesItems, Names.none_metBy]
  | cons item items ih => cases item <;> simp [namesItems, ih]

theorem namesAttrs_metBy {attrs : List (String × Expr)} :
    (namesAttrs attrs).MetBy scope ↔ ∀ e ∈ attrs.map (·.2), e.names.MetBy scope := by
  induction attrs with
  | nil => simp [namesAttrs, Names.none_metBy]
  | cons attr attrs ih => simp [namesAttrs, ih]

theorem namesEntries_metBy {entries : List DictEntry} :
    (namesEntries entries).MetBy scope ↔
      ∀ e ∈ entries.flatMap fun entry => [entry.key, entry.value], e.names.MetBy scope := by
  induction entries with
  | nil => simp [namesEntries, Names.none_metBy]
  | cons entry entries ih =>
    obtain ⟨key, value, span⟩ := entry
    rw [List.flatMap_cons, List.forall_mem_append, ← ih]
    simp [namesEntries, DictEntry.key, DictEntry.value]

theorem namesCases_metBy {entries : List DictEntry} :
    (namesCases entries).MetBy scope ↔
      ∀ e ∈ entries.flatMap DictEntry.alternatives, e.names.MetBy scope := by
  induction entries with
  | nil => simp [namesCases, Names.none_metBy]
  | cons entry entries ih =>
    obtain ⟨key, value, span⟩ := entry
    rw [List.flatMap_cons, List.forall_mem_append, ← ih]
    by_cases hkey : key.ident? = some "_" <;>
      simp [namesCases, DictEntry.alternatives, DictEntry.key, DictEntry.value, hkey,
        Names.none_metBy]

theorem namesArms_metBy {arms : List (Pattern × Expr)} :
    (namesArms arms).MetBy scope ↔ ∀ arm ∈ arms, arm.1.names.MetBy scope ∧
      (arm.2.names.without arm.1.variables).MetBy scope := by
  induction arms with
  | nil => simp [namesArms, Names.none_metBy]
  | cons arm arms ih => simp [namesArms, ih]

theorem namesSteps_metBy {steps : List SafeStep} :
    (namesSteps steps).MetBy scope ↔
      ∀ e ∈ steps.flatMap SafeStep.arguments, e.names.MetBy scope := by
  induction steps with
  | nil => simp [namesSteps, Names.none_metBy]
  | cons step steps ih =>
    rw [List.flatMap_cons, List.forall_mem_append, ← ih]
    obtain ⟨safe, _ | ⟨args, span⟩, attr⟩ := step
    · simp [namesSteps, SafeStep.arguments, SafeStep.args]
    · simp [namesSteps, SafeStep.arguments, SafeStep.args, namesAll_metBy]

theorem namesParts_metBy {parts : List TextPart} :
    (namesParts parts).MetBy scope ↔
      ∀ e ∈ parts.filterMap TextPart.expr?, e.names.MetBy scope := by
  induction parts with
  | nil => simp [namesParts, Names.none_metBy]
  | cons part parts ih => cases part <;> simp [namesParts, TextPart.expr?, ih]

/-- The parts of an expression need no names but those that it needs. -/
theorem part_metBy {e : Expr} (h : e.names.MetBy scope) :
    ∀ part ∈ e.parts, part.names.MetBy scope := by
  cases e with
  | literal | ident | binary | function => exact List.forall_mem_nil _
  | dot | project | nest | unary | count | single | package | paren =>
    exact List.forall_mem_singleton.mpr h
  | call func arg span =>
    obtain ⟨hfunc, harg⟩ := Names.append_metBy.mp h
    exact List.forall_mem_cons.mpr ⟨hfunc, List.forall_mem_singleton.mpr harg⟩
  | compare args | set args | bytes args => exact namesAll_metBy.mp h
  | ifElse ifTrue condition ifFalse span =>
    obtain ⟨hcondtrue, hfalse⟩ := Names.append_metBy.mp h
    obtain ⟨hcond, htrue⟩ := Names.append_metBy.mp hcondtrue
    exact List.forall_mem_cons.mpr
      ⟨hcond, List.forall_mem_cons.mpr ⟨htrue, List.forall_mem_singleton.mpr hfalse⟩⟩
  | condControl control arms span =>
    exact List.forall_mem_singleton.mpr (Names.append_metBy.mp h).1
  | cond conditions span =>
    cases conditions with
    | dict entries conditional place => exact namesCases_metBy.mp h
    | _ => exact List.forall_mem_singleton.mpr h
  | safeTail fallback base steps span =>
    obtain ⟨hbasesteps, hfallback⟩ := Names.append_metBy.mp h
    obtain ⟨hbase, hsteps⟩ := Names.append_metBy.mp hbasesteps
    exact List.forall_mem_cons.mpr
      ⟨hbase, List.forall_mem_cons.mpr ⟨hfallback, namesSteps_metBy.mp hsteps⟩⟩
  | relation names rows span => exact namesRows_metBy.mp h
  | dict entries conditional span => exact namesEntries_metBy.mp h
  | array items span => exact namesItems_metBy.mp h
  | tuple attrs span => exact namesAttrs_metBy.mp h
  | recursion name base fix fixt span =>
    obtain ⟨hbasefix, hfixt⟩ := Names.append_metBy.mp h
    obtain ⟨-, hfix⟩ := Names.append_metBy.mp hbasefix
    exact List.forall_mem_cons.mpr ⟨hfix, List.forall_mem_singleton.mpr hfixt⟩
  | xstr parts span => exact namesParts_metBy.mp h

end Expr

namespace Pattern

theorem mem_slotVariables {x : String} {slots : List Slot} :
    x ∈ slotVariables slots ↔ ∃ slot ∈ slots, x ∈ slot.variables := by
  induction slots with
  | nil => simp [slotVariables]
  | cons slot slots ih => simp [slotVariables, ih]

/-- The names of an expression in place of a pattern, unless it is an identifier. -/
theorem names_expr {e : Expr} (h : e.ident? = none) : (Pattern.expr e).names = e.names := by
  cases e with
  | ident name span => cases h
  | _ => rfl

theorem variables_expr {e : Expr} (h : e.ident? = none) : (Pattern.expr e).variables = [] := by
  cases e with
  | ident name span => cases h
  | _ => rfl

variable {scope : Scope}

theorem slot_metBy {slot : Slot} : slot.names.MetBy scope ↔
    slot.Has (fun e => e.names.MetBy scope) fun p => p.names.MetBy scope := by
  obtain ⟨_ | pattern, _ | fallback⟩ := slot <;>
    simp [Slot.names, Slot.Has, Slot.pattern, Slot.fallback, Names.none_metBy]

theorem namesSlots_metBy {slots : List Slot} :
    (namesSlots slots).MetBy scope ↔ ∀ slot ∈ slots, slot.names.MetBy scope := by
  induction slots with
  | nil => simp [namesSlots, Names.none_metBy]
  | cons slot slots ih => simp [namesSlots, ih]

theorem namesAttrs_metBy {slots : List (String × Slot)} :
    (namesAttrs slots).MetBy scope ↔ ∀ slot ∈ slots.map (·.2), slot.names.MetBy scope := by
  induction slots with
  | nil => simp [namesAttrs, Names.none_metBy]
  | cons slot slots ih => simp [namesAttrs, ih]

theorem namesEntries_metBy {slots : List (Option Expr × Slot)} :
    (namesEntries slots).MetBy scope ↔
      (∀ key ∈ slots.filterMap (·.1), key.names.MetBy scope) ∧
        ∀ slot ∈ slots.map (·.2), slot.names.MetBy scope := by
  induction slots with
  | nil => simp [namesEntries, Names.none_metBy]
  | cons slot slots ih =>
    obtain ⟨_ | key, slot⟩ := slot
    · simp only [namesEntries, Names.append_metBy, ih, List.filterMap_cons, List.map_cons,
        List.forall_mem_cons]
      exact and_left_comm
    · simp only [namesEntries, Names.append_metBy, ih, List.filterMap_cons, List.map_cons,
        List.forall_mem_cons]
      exact and_and_and_comm

theorem namesAll_metBy {patterns : List Pattern} :
    (namesAll patterns).MetBy scope ↔ ∀ p ∈ patterns, p.names.MetBy scope := by
  induction patterns with
  | nil => simp [namesAll, Names.none_metBy]
  | cons p patterns ih => simp [namesAll, ih]

/-- What a pattern reads and matches needs no names but those that the pattern needs. -/
theorem part_metBy {p : Pattern} (h : p.names.MetBy scope) :
    (∀ e ∈ p.reads, e.names.MetBy scope) ∧ ∀ q ∈ p.parts, q.names.MetBy scope := by
  -- whatever has slots needs the names of each of them
  have hslots : ∀ slots : List Slot, (∀ slot ∈ slots, slot.names.MetBy scope) →
      (∀ e ∈ slots.filterMap Slot.fallback, e.names.MetBy scope) ∧
        ∀ q ∈ slots.filterMap Slot.pattern, q.names.MetBy scope := by
    intro slots hslots
    refine ⟨fun e he => ?_, fun q hq => ?_⟩
    · obtain ⟨slot, hslot, hfallback⟩ := List.mem_filterMap.mp he
      exact (slot_metBy.mp (hslots slot hslot)).2 e hfallback
    · obtain ⟨slot, hslot, hpattern⟩ := List.mem_filterMap.mp hq
      exact (slot_metBy.mp (hslots slot hslot)).1 q hpattern
  cases p with
  | expr e =>
    refine ⟨fun e' he => ?_, List.forall_mem_nil _⟩
    cases hident : e.isIdent with
    | true => simp [reads, keys, literals, slots, hident] at he
    | false =>
      obtain rfl : e' = e := by simpa [reads, keys, literals, slots, hident] using he
      rwa [names_expr (by simpa [Expr.isIdent] using hident)] at h
  | exprs es =>
    refine ⟨fun e he => Expr.namesAll_metBy.mp h e ?_, List.forall_mem_nil _⟩
    simpa [reads, keys, literals, slots] using he
  | array slots => exact hslots slots (namesSlots_metBy.mp h)
  | tuple slots => exact hslots _ (namesAttrs_metBy.mp h)
  | dict slots =>
    obtain ⟨hkeys, hentries⟩ := namesEntries_metBy.mp h
    obtain ⟨hfallbacks, hpatterns⟩ := hslots _ hentries
    refine ⟨List.forall_mem_append.mpr ⟨fun e he => hkeys e ?_, hfallbacks⟩, hpatterns⟩
    simpa [keys, literals] using he
  | set elements => exact ⟨List.forall_mem_nil _, namesAll_metBy.mp h⟩
  | extra name => exact ⟨List.forall_mem_nil _, List.forall_mem_nil _⟩

end Pattern

/-! ## Closed values -/

/-- A value whose functions lack no names. -/
def Value.Closed (v : Value) : Prop := v.loose = []

/-- A scope that gives closed values. -/
def Scope.Closed (scope : Scope) : Prop := ∀ binding ∈ scope, binding.2.Closed

namespace Value

@[simp]
theorem closed_array {items : List (Option Value)} :
    (Value.array items).Closed ↔ ∀ v, some v ∈ items → v.Closed := by
  unfold Closed
  rw [loose]
  induction items with
  | nil => simp [looseItems]
  | cons item items ih => cases item <;> simp [looseItems, ih]

theorem looseAttrs_eq_nil_iff {attrs : List (String × Value)} :
    looseAttrs attrs = [] ↔ ∀ attr ∈ attrs, attr.2.Closed := by
  induction attrs with
  | nil => simp [looseAttrs]
  | cons attr attrs ih => simp [looseAttrs, ih, Closed]

@[simp]
theorem closed_tuple {attrs : List (String × Value)} :
    (Value.tuple attrs).Closed ↔ ∀ attr ∈ attrs, attr.2.Closed := by
  rw [← looseAttrs_eq_nil_iff]
  rfl

@[simp]
theorem closed_set {members : List Value} :
    (Value.set members).Closed ↔ ∀ v ∈ members, v.Closed := by
  unfold Closed
  rw [loose]
  induction members with
  | nil => simp [looseMembers]
  | cons v members ih => simp [looseMembers, ih]

@[simp]
theorem closed_dict {entries : List (Value × Value)} :
    (Value.dict entries).Closed ↔ ∀ entry ∈ entries, entry.1.Closed ∧ entry.2.Closed := by
  unfold Closed
  rw [loose]
  induction entries with
  | nil => simp [looseEntries]
  | cons entry entries ih => simp [looseEntries, ih, and_assoc]

theorem closed_closure {identity : Identity} {param : Pattern} {body : Expr} {captured : Scope} :
    (Value.closure identity param body captured).Closed ↔
      param.names.MetBy captured ∧ (body.names.without param.variables).MetBy captured ∧
        captured.Closed := by
  unfold Closed
  rw [loose, List.append_eq_nil_iff, Names.missing_eq_nil_iff, Names.append_metBy,
    looseAttrs_eq_nil_iff, and_assoc]
  rfl

end Value

end Relational
