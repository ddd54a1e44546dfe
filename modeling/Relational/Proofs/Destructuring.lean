import Relational.Proofs.FreeNames
import Relational.Proofs.Fuel
import Relational.Proofs.Shape

/-!
# Destructuring inverts construction

Matching a pattern of identifiers, arrays, tuples and dictionaries takes a value apart; putting the
bound values at the identifiers builds one. The two are inverse to each other.

The argument has three steps. `Shaped` says that a pattern is of this form and gives its shape:
the pattern with its keys evaluated. Matching is then a function of the shape (`Shaped.bind`): it
lists the bindings of the shape and makes them one after the other, and nothing else decides
whether it succeeds. With distinct names all the bindings are made (`makeAll_eq_insertAll`), so
what remains is the inverse on shapes, `Shape.destructs_iff_builds`.

> `bindings_iff_build`: a pattern binds as a scope does exactly when the scope binds the variables
> of the pattern and no others and the value is equal to the one that the pattern makes with it.
-/

namespace Relational

open Std

/-! ## Runs that end with a known result -/

namespace Run

variable {α β : Type}

theorem bind_eq_done_iff {r : Run α} {f : α → Run β} {next after : Identity} {b : β} :
    (r >>= f) next = .done (b, after) ↔
      ∃ a between, r next = .done (a, between) ∧ f a between = .done (b, after) := by
  rw [bind_apply]
  rcases r next with ⟨a, between⟩ | _ | _ | _ <;> simp

/-- Started at `next` the run ends with a result exactly when `x` is one: with this result and at
`after`. -/
def Yields (r : Run α) (next : Identity) (x : Option α) (after : Identity) : Prop :=
  ∀ a between, r next = .done (a, between) ↔ x = some a ∧ between = after

theorem yields_pure (a : α) (next : Identity) : (pure a : Run α).Yields next (some a) next := by
  intro b between
  rw [pure_apply]
  simp [eq_comm]

theorem yields_fail (cause : Cause) (next after : Identity) :
    (fail cause : Run α).Yields next none after := by
  intro a between
  simp [fail]

/-- A step with a known result leads on to the rest of the run. -/
theorem Yields.after_done {r : Run α} {f : α → Run β} {y : Option β}
    {next between after : Identity} {a : α} (h : r next = .done (a, between))
    (hf : (f a).Yields between y after) : (r >>= f).Yields next y after := by
  intro b last
  rw [bind_apply, h]
  exact hf b last

theorem Yields.bind {r : Run α} {f : α → Run β} {x : Option α} {g : α → Option β}
    {next between after : Identity} (hr : r.Yields next x between)
    (hf : ∀ a, (f a).Yields between (g a) after) : (r >>= f).Yields next (x.bind g) after := by
  intro b last
  rw [bind_eq_done_iff, Option.bind_eq_some_iff]
  constructor
  · rintro ⟨a, middle, ha, hb⟩
    obtain ⟨hx, rfl⟩ := (hr a middle).mp ha
    obtain ⟨hg, rfl⟩ := (hf a b last).mp hb
    exact ⟨⟨a, hx, hg⟩, rfl⟩
  · rintro ⟨⟨a, hx, hg⟩, rfl⟩
    exact ⟨a, between, (hr a between).mpr ⟨hx, rfl⟩, (hf a b last).mpr ⟨hg, rfl⟩⟩

end Run

/-! ## Making bindings -/

/-- The scope with one more binding. A name that is bound stays bound to an equal value. -/
def makeOne (bound : Scope) (b : String × Value) : Option Scope :=
  match bound.get? b.1 with
  | some old => if old == b.2 then some (bound.bind b.1 b.2) else none
  | none => some (bound.bind b.1 b.2)

/-- The scope with more bindings, made one after the other. -/
def makeAll (bound : Scope) (bindings : List (String × Value)) : Option Scope :=
  bindings.foldlM makeOne bound

theorem makeAll_append (bound : Scope) (first others : List (String × Value)) :
    makeAll bound (first ++ others) = (makeAll bound first).bind fun bound => makeAll bound others :=
  List.foldlM_append

theorem makeAll_singleton (bound : Scope) (b : String × Value) :
    makeAll bound [b] = makeOne bound b := by
  simp [makeAll]

/-- Whether all the bindings are there before the first one is made makes no difference. -/
theorem bind_makeAll_append (x y : Option (List (String × Value))) (bound : Scope) :
    ((x.bind fun first => y.bind fun others => some (first ++ others)).bind (makeAll bound)) =
      (x.bind (makeAll bound)).bind fun bound => y.bind (makeAll bound) := by
  cases x with
  | none => rfl
  | some first =>
    cases y with
    | none => simp
    | some others => simp [makeAll_append]

theorem bind_makeAll_append_append (x y : Option (List (String × Value)))
    (last : List (String × Value)) (bound : Scope) :
    ((x.bind fun first => y.bind fun others => some (first ++ others ++ last)).bind
      (makeAll bound)) =
      (x.bind (makeAll bound)).bind fun bound =>
        (y.bind (makeAll bound)).bind fun bound => makeAll bound last := by
  cases x with
  | none => rfl
  | some first =>
    cases y with
    | none => simp
    | some others => simp [makeAll_append]

theorem bindName_yields (pattern : Pattern) (name : String) (v : Value) (bound : Scope)
    (next : Identity) :
    (bindName pattern name v bound).Yields next (makeOne bound (name, v)) next := by
  unfold bindName makeOne
  cases bound.get? name with
  | none => exact Run.yields_pure _ next
  | some old =>
    dsimp only
    split
    next => exact Run.yields_pure _ next
    next => exact Run.yields_fail _ next next

/-- Bindings of distinct names that are all free are all made. -/
theorem makeAll_eq_insertAll {bindings : List (String × Value)} :
    ∀ {bound : Scope}, (bindings.map (·.1)).Nodup → (∀ b ∈ bindings, bound.get? b.1 = none) →
    makeAll bound bindings = some (OrderedMap.insertAll bound bindings) := by
  induction bindings with
  | nil => exact fun _ _ => rfl
  | cons b bindings ih =>
    intro bound hnodup hfree
    rw [List.map_cons, List.nodup_cons] at hnodup
    rw [List.forall_mem_cons] at hfree
    have hfirst : makeOne bound b = some (bound.bind b.1 b.2) := by
      unfold makeOne
      rw [hfree.1]
    -- the names are distinct, so making this binding leaves the others free
    have hothers : ∀ b' ∈ bindings, (bound.bind b.1 b.2).get? b'.1 = none := by
      intro b' hb'
      have hne : compare b'.1 b.1 ≠ .eq := fun heq =>
        hnodup.1 (LawfulEqCmp.eq_of_compare heq ▸ List.mem_map_of_mem hb')
      rw [Scope.get?, Scope.bind, OrderedMap.find?_insert, if_neg hne]
      exact hfree.2 b' hb'
    rw [makeAll, List.foldlM_cons, hfirst]
    exact ih hnodup.2 hothers

/-! ## Patterns with a shape -/

/-- The slot of an extra element. -/
def extraSlot (name : String) : Slot := .mk (some (.extra (some name))) none

mutual

/-- The pattern is made of identifiers other than `_`, arrays, tuples with distinct names and
dictionaries with keys of distinct values. No slot is left out or has a fallback, and each
structure has at most one extra element, with a name. Its keys are evaluated from `next` to
`after`, and the shape has their values in their places. -/
inductive Pattern.Shaped (scope : Scope) : Pattern → Identity → Shape → Identity → Prop where
  | ident {name : String} {span : Span} {next : Identity} (hname : name ≠ "_") :
      Pattern.Shaped scope (.expr (.ident name span)) next (.var name) next
  | array {slots : List Slot} {fields : List Shape} {next after : Identity}
      (hslots : SlotsShaped scope slots next fields after) :
      Pattern.Shaped scope (.array slots) next (.node (.array fields.length 0) fields none) after
  | splice {before after : List Slot} {name : String} {first last : List Shape}
      {next between done : Identity} (hbefore : SlotsShaped scope before next first between)
      (hafter : SlotsShaped scope after between last done) :
      Pattern.Shaped scope (.array (before ++ extraSlot name :: after)) next
        (.node (.array first.length last.length) (first ++ last) (some name)) done
  | tuple {slots : List (String × Slot)} {names : List String} {fields : List Shape}
      {extra : Option String} {next after : Identity} (hnames : names.Nodup)
      (hslots : AttrsShaped scope none slots next names fields extra after) :
      Pattern.Shaped scope (.tuple slots) next (.node (.tuple names) fields extra) after
  | dict {slots : List (Option Expr × Slot)} {keys : List Value} {fields : List Shape}
      {extra : Option String} {next after : Identity}
      (hkeys : keys.Pairwise fun j k => compare j k ≠ .eq)
      (hslots : EntriesShaped scope none slots next keys fields extra after) :
      Pattern.Shaped scope (.dict slots) next (.node (.dict keys) fields extra) after

/-- The slots of an array that are not the extra element, with their shapes. -/
inductive SlotsShaped (scope : Scope) :
    List Slot → Identity → List Shape → Identity → Prop where
  | nil {next : Identity} : SlotsShaped scope [] next [] next
  | cons {pattern : Pattern} {slots : List Slot} {field : Shape} {fields : List Shape}
      {next between after : Identity} (hpattern : pattern.Shaped scope next field between)
      (hslots : SlotsShaped scope slots between fields after) :
      SlotsShaped scope (.mk (some pattern) none :: slots) next (field :: fields) after

/-- The slots of a tuple with the names, the shapes and the extra name. `given` is the extra name
of the slots before. -/
inductive AttrsShaped (scope : Scope) : (given : Option String) → List (String × Slot) →
    Identity → List String → List Shape → (extra : Option String) → Identity → Prop where
  | nil {given : Option String} {next : Identity} :
      AttrsShaped scope given [] next [] [] given next
  | field {given extra : Option String} {name : String} {pattern : Pattern}
      {slots : List (String × Slot)} {field : Shape} {names : List String} {fields : List Shape}
      {next between after : Identity} (hpattern : pattern.Shaped scope next field between)
      (hslots : AttrsShaped scope given slots between names fields extra after) :
      AttrsShaped scope given ((name, .mk (some pattern) none) :: slots) next (name :: names)
        (field :: fields) extra after
  | extra {extra : Option String} {label name : String} {slots : List (String × Slot)}
      {names : List String} {fields : List Shape} {next after : Identity}
      (hslots : AttrsShaped scope (some name) slots next names fields extra after) :
      AttrsShaped scope none ((label, extraSlot name) :: slots) next names fields extra after

/-- The slots of a dictionary with the values of the keys, the shapes and the extra name. `given`
is the extra name of the slots before. -/
inductive EntriesShaped (scope : Scope) : (given : Option String) → List (Option Expr × Slot) →
    Identity → List Value → List Shape → (extra : Option String) → Identity → Prop where
  | nil {given : Option String} {next : Identity} :
      EntriesShaped scope given [] next [] [] given next
  | field {given extra : Option String} {key : Expr} {k : Value} {fuel : Nat} {pattern : Pattern}
      {slots : List (Option Expr × Slot)} {field : Shape} {keys : List Value}
      {fields : List Shape} {next keyed between after : Identity}
      (hkey : key.eval fuel scope next = .done (k, keyed))
      (hpattern : pattern.Shaped scope keyed field between)
      (hslots : EntriesShaped scope given slots between keys fields extra after) :
      EntriesShaped scope given ((some key, .mk (some pattern) none) :: slots) next (k :: keys)
        (field :: fields) extra after
  | extra {extra : Option String} {name : String} {slots : List (Option Expr × Slot)}
      {keys : List Value} {fields : List Shape} {next after : Identity}
      (hslots : EntriesShaped scope (some name) slots next keys fields extra after) :
      EntriesShaped scope none ((none, extraSlot name) :: slots) next keys fields extra after

end

/-! ## Matching one level -/

section

variable {scope : Scope} {next between after : Identity}

/-- Matching the pattern makes the bindings of the shape, and fails when it has none. -/
def Matches (scope : Scope) (pattern : Pattern) (next : Identity) (S : Shape)
    (after : Identity) : Prop :=
  ∀ v bound, (unbounded.bind pattern scope v bound).Yields next
    ((S.destruct v).bind (makeAll bound)) after

theorem bindSlot_yields {pattern : Pattern} {S : Shape}
    (h : Matches scope pattern next S after) (whole : Pattern) (v : Value)
    (part : Option Value) (bound : Scope) :
    (unbounded.bindSlot whole scope v (.mk (some pattern) none) part bound).Yields next
      ((part.bind S.destruct).bind (makeAll bound)) after := by
  cases part with
  | none => exact Run.yields_fail _ next after
  | some part => exact h part bound

theorem bind_extra_yields (name : String) (rest : Value) (bound : Scope) :
    (unbounded.bind (.extra (some name)) scope rest bound).Yields next
      (makeAll bound [(name, rest)]) next := by
  rw [unbounded_bind, makeAll_singleton]
  exact bindName_yields _ name rest bound next

/-- Without an extra element nothing may be left. -/
theorem bindRest_yields {frame : Frame} {left : Value} {isEmpty : Bool}
    (h : (left == frame.vacant) = isEmpty) (whole : Pattern) (v : Value) (bound : Scope) :
    (if isEmpty then pure bound else mismatch whole v : Run Scope).Yields next
      ((frame.bindRest none left).bind (makeAll bound)) next := by
  rw [Frame.bindRest, h]
  cases isEmpty with
  | true => exact Run.yields_pure bound next
  | false => exact Run.yields_fail _ next next

theorem matches_ident {name : String} {span : Span} (hname : name ≠ "_") :
    Matches scope (.expr (.ident name span)) next (.var name) next := by
  intro v bound
  have hbind : (Option.bind (some [(name, v)]) (makeAll bound)) = makeOne bound (name, v) :=
    makeAll_singleton bound (name, v)
  rw [unbounded_bind, Evaluator.bindStep, if_neg (by simpa using hname), Shape.destruct, hbind]
  exact bindName_yields _ name v bound next

/-- The first part goes to the first field. -/
theorem destructAll_cons (field : Shape) (fields : List Shape) (parts : List (Option Value)) :
    Shape.destructAll (field :: fields) parts =
      (parts.head?.join.bind field.destruct).bind fun first =>
        (Shape.destructAll fields parts.tail).bind fun others => some (first ++ others) := by
  rcases parts with _ | ⟨_ | part, parts⟩ <;> rfl

/-- Matching slots with parts makes the bindings of the shapes. -/
def SlotsMatch (scope : Scope) (slots : List Slot) (next : Identity) (fields : List Shape)
    (after : Identity) : Prop :=
  ∀ whole v parts bound, parts.length ≤ slots.length →
    (unbounded.bindSlots whole scope v slots parts bound).Yields next
      ((Shape.destructAll fields parts).bind (makeAll bound)) after

theorem slotsMatch_nil : SlotsMatch scope [] next [] next := by
  intro whole v parts bound hlen
  obtain rfl := List.eq_nil_of_length_eq_zero (Nat.le_zero.mp hlen)
  exact Run.yields_pure bound next

theorem slotsMatch_cons {pattern : Pattern} {slots : List Slot} {field : Shape}
    {fields : List Shape} (hpattern : Matches scope pattern next field between)
    (hslots : SlotsMatch scope slots between fields after) :
    SlotsMatch scope (.mk (some pattern) none :: slots) next (field :: fields) after := by
  intro whole v parts bound hlen
  rw [destructAll_cons, bind_makeAll_append]
  refine (bindSlot_yields hpattern whole v parts.head?.join bound).bind fun bound => ?_
  refine hslots whole v parts.tail bound ?_
  rw [List.length_tail]
  exact Nat.sub_le_of_le_add hlen

/-- Matching the slots of a tuple makes the bindings of the shapes, and then that of the extra
name to the attributes that are left. -/
def AttrsMatch (scope : Scope) (given : Option String) (slots : List (String × Slot))
    (next : Identity) (names : List String) (fields : List Shape) (extra : Option String)
    (after : Identity) : Prop :=
  ∀ whole v attrs left all bound,
    (unbounded.bindAttrs whole scope v attrs slots left
      (given.map fun name => .extra (some name)) bound).Yields next
      (((Shape.destructAll fields (names.map (OrderedMap.find? · attrs))).bind
        (makeAll bound)).bind fun bound =>
          ((Frame.tuple all).bindRest extra (.tuple (OrderedMap.eraseAll left names))).bind
            (makeAll bound)) after

theorem attrsMatch_nil {given : Option String} :
    AttrsMatch scope given [] next [] [] given next := by
  intro whole v attrs left all bound
  cases given with
  | some name => exact bind_extra_yields name (.tuple left) bound
  | none => exact bindRest_yields (by cases left <;> rfl) whole v bound

theorem attrsMatch_field {given extra : Option String} {name : String} {pattern : Pattern}
    {slots : List (String × Slot)} {field : Shape} {names : List String} {fields : List Shape}
    (hextra : (Slot.mk (some pattern) none).isExtra = false)
    (hpattern : Matches scope pattern next field between)
    (hslots : AttrsMatch scope given slots between names fields extra after) :
    AttrsMatch scope given ((name, .mk (some pattern) none) :: slots) next (name :: names)
      (field :: fields) extra after := by
  intro whole v attrs left all bound
  rw [destructAll_cons, bind_makeAll_append, Option.bind_assoc, Evaluator.bindAttrs, hextra]
  exact (bindSlot_yields hpattern whole v (OrderedMap.find? name attrs) bound).bind fun bound =>
    hslots whole v attrs (OrderedMap.erase name left) all bound

theorem attrsMatch_extra {extra : Option String} {label name : String}
    {slots : List (String × Slot)} {names : List String} {fields : List Shape}
    (hslots : AttrsMatch scope (some name) slots next names fields extra after) :
    AttrsMatch scope none ((label, extraSlot name) :: slots) next names fields extra after :=
  fun whole v attrs left all bound => hslots whole v attrs left all bound

/-- Matching the slots of a dictionary makes the bindings of the shapes, and then that of the extra
name to the entries that are left. -/
def EntriesMatch (scope : Scope) (given : Option String) (slots : List (Option Expr × Slot))
    (next : Identity) (keys : List Value) (fields : List Shape) (extra : Option String)
    (after : Identity) : Prop :=
  ∀ whole v entries left all bound,
    (unbounded.bindEntries whole scope v entries slots left
      (given.map fun name => .extra (some name)) bound).Yields next
      (((Shape.destructAll fields (keys.map (OrderedMap.find? · entries))).bind
        (makeAll bound)).bind fun bound =>
          ((Frame.dict all).bindRest extra (.dict (OrderedMap.eraseAll left keys))).bind
            (makeAll bound)) after

theorem entriesMatch_nil {given : Option String} :
    EntriesMatch scope given [] next [] [] given next := by
  intro whole v entries left all bound
  cases given with
  | some name => exact bind_extra_yields name (.dict left) bound
  | none => exact bindRest_yields (by cases left <;> rfl) whole v bound

theorem entriesMatch_field {given extra : Option String} {key : Expr} {k : Value} {fuel : Nat}
    {pattern : Pattern} {slots : List (Option Expr × Slot)} {field : Shape} {keys : List Value}
    {fields : List Shape} {keyed : Identity}
    (hkey : key.eval fuel scope next = .done (k, keyed))
    (hpattern : Matches scope pattern keyed field between)
    (hslots : EntriesMatch scope given slots between keys fields extra after) :
    EntriesMatch scope given ((some key, .mk (some pattern) none) :: slots) next (k :: keys)
      (field :: fields) extra after := by
  intro whole v entries left all bound
  have heval : unbounded.eval key scope next = .done (k, keyed) :=
    (unbounded_eval_eq_iff (o := .done (k, keyed)) nofun).mpr ⟨fuel, hkey⟩
  rw [destructAll_cons, bind_makeAll_append, Option.bind_assoc, Evaluator.bindEntries]
  refine Run.Yields.after_done heval ?_
  exact (bindSlot_yields hpattern whole v (OrderedMap.find? k entries) bound).bind fun bound =>
    hslots whole v entries (OrderedMap.erase k left) all bound

theorem entriesMatch_extra {extra : Option String} {name : String}
    {slots : List (Option Expr × Slot)} {keys : List Value} {fields : List Shape}
    (hslots : EntriesMatch scope (some name) slots next keys fields extra after) :
    EntriesMatch scope none ((none, extraSlot name) :: slots) next keys fields extra after :=
  fun whole v entries left all bound => hslots whole v entries left all bound

/-! ## Matching a structure -/

theorem bindStep_array (ev : Evaluator) (slots : List Slot) (v : Value) (bound : Scope) :
    ev.bindStep (.array slots) scope v bound =
      match v.items? with
      | some items => ev.bindArray (.array slots) scope v slots items bound
      | none => mismatch (.array slots) v := by
  cases v with
  | set members => cases members <;> rfl
  | _ => rfl

theorem bindStep_tuple (ev : Evaluator) (slots : List (String × Slot)) (v : Value)
    (bound : Scope) :
    ev.bindStep (.tuple slots) scope v bound =
      match v.attrs? with
      | some attrs => ev.bindAttrs (.tuple slots) scope v attrs slots attrs none bound
      | none => mismatch (.tuple slots) v := by
  cases v with
  | set members => cases members <;> rfl
  | _ => rfl

theorem bindStep_dict (ev : Evaluator) (slots : List (Option Expr × Slot)) (v : Value)
    (bound : Scope) :
    ev.bindStep (.dict slots) scope v bound =
      match v.entries? with
      | some entries => ev.bindEntries (.dict slots) scope v entries slots entries none bound
      | none => mismatch (.dict slots) v := by
  cases v with
  | set members => cases members <;> rfl
  | _ => rfl

theorem destructAll_eq_none_of_length {fields : List Shape} {parts : List (Option Value)}
    (h : parts.length < fields.length) : Shape.destructAll fields parts = none := by
  induction fields generalizing parts with
  | nil => cases h
  | cons field fields ih =>
    rw [destructAll_cons]
    rcases parts with _ | ⟨part, parts⟩
    · rfl
    · rw [List.tail_cons, ih (Nat.lt_of_succ_lt_succ h)]
      cases (part :: parts).head?.join.bind field.destruct <;> rfl

theorem destructAll_append {first last : List Shape} {front back : List (Option Value)}
    (h : front.length = first.length) :
    Shape.destructAll (first ++ last) (front ++ back) =
      (Shape.destructAll first front).bind fun inner =>
        (Shape.destructAll last back).bind fun inner' => some (inner ++ inner') := by
  induction first generalizing front with
  | nil =>
    obtain rfl := List.eq_nil_of_length_eq_zero h
    cases hlast : Shape.destructAll last back <;> simp [Shape.destructAll, hlast]
  | cons field first ih =>
    rcases front with _ | ⟨part, front⟩
    · cases h
    · simp only [List.cons_append, destructAll_cons, List.tail_cons, ih (Nat.succ.inj h),
        List.head?_cons, Option.join_some, Option.bind_assoc, Option.bind_some,
        List.append_assoc]

theorem bindRest_array {before after : Nat} (left : List (Option Value)) :
    (Frame.array before after).bindRest none (.array left) =
      if left.isEmpty then some [] else none := by
  cases left <;> rfl

/-- Without an extra element there is an item for every field and none beyond. -/
theorem destruct_array {fields : List Shape} {v : Value} {items : List (Option Value)}
    (hitems : v.items? = some items) :
    (Shape.node (.array fields.length 0) fields none).destruct v =
      if fields.length < items.length then none else Shape.destructAll fields items := by
  simp only [Shape.destruct, Frame.split, hitems, Option.bind_eq_bind, Option.bind_some]
  -- too few items fail at a field that has none, too many at the rest that no name takes
  rcases Nat.lt_trichotomy items.length fields.length with hlt | heq | hgt
  · rw [Frame.splitItems, if_pos (by omega), if_neg (by omega),
      destructAll_eq_none_of_length hlt]
    rfl
  · have hsplit := Frame.splitItems_append items [] []
    simp only [List.append_nil, List.length_nil, heq] at hsplit
    rw [hsplit, if_neg (by omega)]
    simp only [Option.bind_some, bindRest_array]
    cases Shape.destructAll fields items <;> simp
  · have hleft : ((items.take (items.length - 0)).drop fields.length).isEmpty = false := by
      rw [List.isEmpty_eq_false_iff_exists_mem, Nat.sub_zero, List.take_length]
      exact ⟨_, List.getElem_mem (by rw [List.length_drop]; omega : 0 < _)⟩
    rw [Frame.splitItems, if_neg (by omega), if_pos hgt]
    simp only [Option.bind_some, bindRest_array, hleft, Bool.false_eq_true, if_false]
    exact Option.bind_fun_none _

/-- The extra name is bound to the items between those of the other fields. -/
theorem destruct_splice {first last : List Shape} {name : String} {v : Value}
    {items : List (Option Value)} (hitems : v.items? = some items) :
    (Shape.node (.array first.length last.length) (first ++ last) (some name)).destruct v =
      if items.length < first.length + last.length then none
      else
        let tail := items.length - last.length
        (Shape.destructAll first (items.take first.length)).bind fun inner =>
          (Shape.destructAll last (items.drop tail)).bind fun inner' =>
            some (inner ++ inner' ++ [(name, .array ((items.take tail).drop first.length))]) := by
  simp only [Shape.destruct, Frame.split, hitems, Option.bind_eq_bind, Option.bind_some,
    Frame.splitItems]
  split
  next => rfl
  next hle =>
    have hfront : (items.take first.length).length = first.length := by
      rw [List.length_take]; omega
    simp only [Option.bind_some, destructAll_append hfront, Option.bind_assoc, Frame.bindRest]

theorem matches_array {slots : List Slot} {fields : List Shape}
    (hextra : ∀ slot ∈ slots, slot.isExtra = false) (hlen : slots.length = fields.length)
    (h : SlotsMatch scope slots next fields after) :
    Matches scope (.array slots) next (.node (.array fields.length 0) fields none) after := by
  intro v bound
  rw [unbounded_bind, bindStep_array]
  cases hitems : v.items? with
  | none =>
    simp only [Shape.destruct, Frame.split, hitems]
    exact Run.yields_fail _ next after
  | some items =>
    dsimp only
    rw [Evaluator.bindArray, List.findIdx?_eq_none_iff.mpr hextra, destruct_array hitems, hlen]
    dsimp only
    split
    next => exact Run.yields_fail _ next after
    next hle => exact h (.array slots) v items bound (hlen ▸ Nat.le_of_not_lt hle)

theorem matches_splice {before behind : List Slot} {name : String} {first last : List Shape}
    (hextra : ∀ slot ∈ before, slot.isExtra = false) (hfirst : before.length = first.length)
    (hlast : behind.length = last.length)
    (hbefore : SlotsMatch scope before next first between)
    (hbehind : SlotsMatch scope behind between last after) :
    Matches scope (.array (before ++ extraSlot name :: behind)) next
      (.node (.array first.length last.length) (first ++ last) (some name)) after := by
  intro v bound
  have hfind : (before ++ extraSlot name :: behind).findIdx? Slot.isExtra =
      some before.length := by
    rw [List.findIdx?_append, List.findIdx?_eq_none_iff.mpr hextra]
    simp [List.findIdx?_cons, extraSlot, Slot.isExtra]
  have hdrop : (before ++ extraSlot name :: behind).drop (before.length + 1) = behind := by
    simp [List.drop_append]
  have hget : (before ++ extraSlot name :: behind)[before.length]? = some (extraSlot name) := by
    simp
  rw [unbounded_bind, bindStep_array]
  cases hitems : v.items? with
  | none =>
    simp only [Shape.destruct, Frame.split, hitems]
    exact Run.yields_fail _ next after
  | some items =>
    dsimp only
    rw [Evaluator.bindArray, hfind, destruct_splice hitems]
    simp only [List.take_left, hdrop, hget]
    simp only [hfirst, hlast]
    split
    next => exact Run.yields_fail _ next after
    next hle =>
      -- the slots on both sides are matched first, and the extra name is bound last
      rw [bind_makeAll_append_append]
      refine (hbefore _ v _ bound ?_).bind fun bound => ?_
      · rw [List.length_take]; omega
      · refine (hbehind _ v _ bound ?_).bind fun bound => ?_
        · rw [List.length_drop]; omega
        · exact bind_extra_yields name _ bound

theorem matches_tuple {slots : List (String × Slot)} {names : List String}
    {fields : List Shape} {extra : Option String}
    (h : AttrsMatch scope none slots next names fields extra after) :
    Matches scope (.tuple slots) next (.node (.tuple names) fields extra) after := by
  intro v bound
  rw [unbounded_bind, bindStep_tuple, Shape.destruct]
  cases hattrs : v.attrs? with
  | none =>
    simp only [Frame.split, hattrs]
    exact Run.yields_fail _ next after
  | some attrs =>
    simp only [Frame.split, hattrs]
    exact (bind_makeAll_append _ _ bound) ▸ h (.tuple slots) v attrs attrs names bound

theorem matches_dict {slots : List (Option Expr × Slot)} {keys : List Value}
    {fields : List Shape} {extra : Option String}
    (h : EntriesMatch scope none slots next keys fields extra after) :
    Matches scope (.dict slots) next (.node (.dict keys) fields extra) after := by
  intro v bound
  rw [unbounded_bind, bindStep_dict, Shape.destruct]
  cases hentries : v.entries? with
  | none =>
    simp only [Frame.split, hentries]
    exact Run.yields_fail _ next after
  | some entries =>
    simp only [Frame.split, hentries]
    exact (bind_makeAll_append _ _ bound) ▸ h (.dict slots) v entries entries keys bound

end

/-! ## Matching a pattern with a shape -/

theorem Pattern.Shaped.not_extra {scope : Scope} {pattern : Pattern} {S : Shape}
    {next after : Identity} (h : pattern.Shaped scope next S after) (fallback : Option Expr) :
    (Slot.mk (some pattern) fallback).isExtra = false := by
  cases h <;> rfl

theorem SlotsShaped.not_extra {scope : Scope} : ∀ {slots : List Slot} {fields : List Shape}
    {next after : Identity}, SlotsShaped scope slots next fields after →
    ∀ slot ∈ slots, slot.isExtra = false
  | _, _, _, _, .nil => List.forall_mem_nil _
  | _, _, _, _, .cons hpattern hslots =>
    List.forall_mem_cons.mpr ⟨hpattern.not_extra none, hslots.not_extra⟩

theorem SlotsShaped.length_eq {scope : Scope} : ∀ {slots : List Slot} {fields : List Shape}
    {next after : Identity}, SlotsShaped scope slots next fields after →
    slots.length = fields.length
  | _, _, _, _, .nil => rfl
  | _, _, _, _, .cons _ hslots => congrArg Nat.succ hslots.length_eq

mutual

/-- Matching a pattern with a shape makes the bindings of the shape. -/
theorem Pattern.Shaped.bind {scope : Scope} : ∀ {pattern : Pattern} {S : Shape}
    {next after : Identity}, pattern.Shaped scope next S after →
    Matches scope pattern next S after
  | _, _, _, _, .ident hname => matches_ident hname
  | _, _, _, _, .array hslots => matches_array hslots.not_extra hslots.length_eq hslots.bind
  | _, _, _, _, .splice hbefore hafter =>
    matches_splice hbefore.not_extra hbefore.length_eq hafter.length_eq hbefore.bind hafter.bind
  | _, _, _, _, .tuple _ hslots => matches_tuple hslots.bind
  | _, _, _, _, .dict _ hslots => matches_dict hslots.bind

theorem SlotsShaped.bind {scope : Scope} : ∀ {slots : List Slot} {fields : List Shape}
    {next after : Identity}, SlotsShaped scope slots next fields after →
    SlotsMatch scope slots next fields after
  | _, _, _, _, .nil => slotsMatch_nil
  | _, _, _, _, .cons hpattern hslots => slotsMatch_cons hpattern.bind hslots.bind

theorem AttrsShaped.bind {scope : Scope} : ∀ {given extra : Option String}
    {slots : List (String × Slot)} {names : List String} {fields : List Shape}
    {next after : Identity}, AttrsShaped scope given slots next names fields extra after →
    AttrsMatch scope given slots next names fields extra after
  | _, _, _, _, _, _, _, .nil => attrsMatch_nil
  | _, _, _, _, _, _, _, .field hpattern hslots =>
    attrsMatch_field (hpattern.not_extra none) hpattern.bind hslots.bind
  | _, _, _, _, _, _, _, .extra hslots => attrsMatch_extra hslots.bind

theorem EntriesShaped.bind {scope : Scope} : ∀ {given extra : Option String}
    {slots : List (Option Expr × Slot)} {keys : List Value} {fields : List Shape}
    {next after : Identity}, EntriesShaped scope given slots next keys fields extra after →
    EntriesMatch scope given slots next keys fields extra after
  | _, _, _, _, _, _, _, .nil => entriesMatch_nil
  | _, _, _, _, _, _, _, .field hkey hpattern hslots =>
    entriesMatch_field hkey hpattern.bind hslots.bind
  | _, _, _, _, _, _, _, .extra hslots => entriesMatch_extra hslots.bind

end

mutual

/-- The shape of a pattern is well formed. -/
theorem Pattern.Shaped.wellFormed {scope : Scope} : ∀ {pattern : Pattern} {S : Shape}
    {next after : Identity}, pattern.Shaped scope next S after → S.WellFormed
  | _, _, _, _, .ident _ => .var _
  | _, _, _, _, .array hslots => .node rfl hslots.wellFormed
  | _, _, _, _, .splice hbefore hafter =>
    .node List.length_append
      (List.forall_mem_append.mpr ⟨hbefore.wellFormed, hafter.wellFormed⟩)
  | _, _, _, _, .tuple hnames hslots =>
    .node ⟨hslots.wellFormed.1, hnames⟩ hslots.wellFormed.2
  | _, _, _, _, .dict hkeys hslots => .node ⟨hslots.wellFormed.1, hkeys⟩ hslots.wellFormed.2

theorem SlotsShaped.wellFormed {scope : Scope} : ∀ {slots : List Slot} {fields : List Shape}
    {next after : Identity}, SlotsShaped scope slots next fields after →
    ∀ field ∈ fields, field.WellFormed
  | _, _, _, _, .nil => List.forall_mem_nil _
  | _, _, _, _, .cons hpattern hslots =>
    List.forall_mem_cons.mpr ⟨hpattern.wellFormed, hslots.wellFormed⟩

theorem AttrsShaped.wellFormed {scope : Scope} : ∀ {given extra : Option String}
    {slots : List (String × Slot)} {names : List String} {fields : List Shape}
    {next after : Identity}, AttrsShaped scope given slots next names fields extra after →
    names.length = fields.length ∧ ∀ field ∈ fields, field.WellFormed
  | _, _, _, _, _, _, _, .nil => ⟨rfl, List.forall_mem_nil _⟩
  | _, _, _, _, _, _, _, .field hpattern hslots =>
    ⟨congrArg Nat.succ hslots.wellFormed.1,
      List.forall_mem_cons.mpr ⟨hpattern.wellFormed, hslots.wellFormed.2⟩⟩
  | _, _, _, _, _, _, _, .extra hslots => hslots.wellFormed

theorem EntriesShaped.wellFormed {scope : Scope} : ∀ {given extra : Option String}
    {slots : List (Option Expr × Slot)} {keys : List Value} {fields : List Shape}
    {next after : Identity}, EntriesShaped scope given slots next keys fields extra after →
    keys.length = fields.length ∧ ∀ field ∈ fields, field.WellFormed
  | _, _, _, _, _, _, _, .nil => ⟨rfl, List.forall_mem_nil _⟩
  | _, _, _, _, _, _, _, .field _ hpattern hslots =>
    ⟨congrArg Nat.succ hslots.wellFormed.1,
      List.forall_mem_cons.mpr ⟨hpattern.wellFormed, hslots.wellFormed.2⟩⟩
  | _, _, _, _, _, _, _, .extra hslots => hslots.wellFormed

end

theorem slotVariables_append (before after : List Slot) :
    Pattern.slotVariables (before ++ after) =
      Pattern.slotVariables before ++ Pattern.slotVariables after := by
  induction before with
  | nil => rfl
  | cons slot before ih => simp [Pattern.slotVariables, ih]

theorem allNames_append (first last : List Shape) :
    Shape.allNames (first ++ last) = Shape.allNames first ++ Shape.allNames last := by
  induction first with
  | nil => rfl
  | cons field first ih => simp [Shape.allNames, ih]

mutual

/-- The names of the shape are the variables of the pattern. Only their order differs, as the extra
name of an array is bound after the names on both its sides. -/
theorem Pattern.Shaped.variables_perm {scope : Scope} : ∀ {pattern : Pattern} {S : Shape}
    {next after : Identity}, pattern.Shaped scope next S after →
    pattern.variables.Perm S.names
  | _, _, _, _, .ident hname => by
    rw [Pattern.variables, if_neg hname, Shape.names]
  | _, _, _, _, .array hslots => by
    rw [Pattern.variables, Shape.names, Option.toList_none, List.append_nil]
    exact hslots.variables_perm
  | _, _, _, _, .splice hbefore hafter => by
    rw [Pattern.variables, slotVariables_append, Shape.names, allNames_append, List.append_assoc]
    refine hbefore.variables_perm.append ?_
    show ([_] ++ Pattern.slotVariables _).Perm _
    exact List.perm_append_comm.trans (hafter.variables_perm.append_right _)
  | _, _, _, _, .tuple _ hslots => by
    rw [Pattern.variables, Shape.names]
    exact hslots.variables_perm
  | _, _, _, _, .dict _ hslots => by
    rw [Pattern.variables, Shape.names]
    exact hslots.variables_perm

theorem SlotsShaped.variables_perm {scope : Scope} : ∀ {slots : List Slot}
    {fields : List Shape} {next after : Identity}, SlotsShaped scope slots next fields after →
    (Pattern.slotVariables slots).Perm (Shape.allNames fields)
  | _, _, _, _, .nil => List.Perm.refl _
  | _, _, _, _, .cons hpattern hslots => hpattern.variables_perm.append hslots.variables_perm

theorem AttrsShaped.variables_perm {scope : Scope} : ∀ {given extra : Option String}
    {slots : List (String × Slot)} {names : List String} {fields : List Shape}
    {next after : Identity}, AttrsShaped scope given slots next names fields extra after →
    (Pattern.attrVariables slots given.toList).Perm (Shape.allNames fields ++ extra.toList)
  | _, _, _, _, _, _, _, .nil => List.Perm.refl _
  | _, _, _, _, _, _, _, .field hpattern hslots => by
    rw [Pattern.attrVariables, hpattern.not_extra none, Shape.allNames, List.append_assoc]
    exact hpattern.variables_perm.append hslots.variables_perm
  | _, _, _, _, _, _, _, .extra hslots => hslots.variables_perm

theorem EntriesShaped.variables_perm {scope : Scope} : ∀ {given extra : Option String}
    {slots : List (Option Expr × Slot)} {keys : List Value} {fields : List Shape}
    {next after : Identity}, EntriesShaped scope given slots next keys fields extra after →
    (Pattern.entryVariables slots given.toList).Perm (Shape.allNames fields ++ extra.toList)
  | _, _, _, _, _, _, _, .nil => List.Perm.refl _
  | _, _, _, _, _, _, _, .field _ hpattern hslots => by
    rw [Pattern.entryVariables, Shape.allNames, List.append_assoc]
    exact hpattern.variables_perm.append hslots.variables_perm
  | _, _, _, _, _, _, _, .extra hslots => hslots.variables_perm

end

/-! ## The inverse -/

/-- The two scopes bind the same names to equal values. -/
def Scope.Same (s t : Scope) : Prop := ∀ name, Value.SamePart (s.get? name) (t.get? name)

/-- The scope made of bindings of distinct names is another one exactly when that one binds these
names, no others, and to equal values. -/
theorem Scope.insertAll_same_iff {bindings : List (String × Value)}
    (hnames : (bindings.map (·.1)).Nodup) (s : Scope) :
    Scope.Same (OrderedMap.insertAll Scope.empty bindings) s ↔
      (∀ name, s.Has name ↔ name ∈ bindings.map (·.1)) ∧ Shape.Agrees s bindings := by
  have hdistinct : bindings.Pairwise fun a b => compare a.1 b.1 ≠ .eq :=
    (List.pairwise_map.mp hnames).imp fun hne heq => hne (LawfulEqCmp.eq_of_compare heq)
  have hget : ∀ b ∈ bindings,
      Scope.get? (OrderedMap.insertAll Scope.empty bindings) b.1 = some b.2 :=
    fun b hb => OrderedMap.find?_insertAll_of_mem bindings hdistinct hb compare_self
  have hmiss : ∀ name, name ∉ bindings.map (·.1) →
      Scope.get? (OrderedMap.insertAll Scope.empty bindings) name = none := by
    intro name hname
    refine OrderedMap.find?_insertAll_of_forall_ne bindings fun b hb heq => hname ?_
    rw [LawfulEqCmp.eq_of_compare heq]
    exact List.mem_map_of_mem hb
  -- a name is that of one binding, or it is bound by neither scope
  constructor
  · intro h
    refine ⟨fun name => ?_, fun b hb => hget b hb ▸ h b.1⟩
    have hname := h name
    by_cases hmem : name ∈ bindings.map (·.1)
    · obtain ⟨b, hb, rfl⟩ := List.mem_map.mp hmem
      rw [hget b hb] at hname
      cases hs : s.get? b.1 with
      | none => rw [hs] at hname; cases hname
      | some w => simp [Scope.Has, hs, hmem]
    · rw [hmiss name hmem] at hname
      cases hs : s.get? name with
      | none => simp [Scope.Has, hs, hmem]
      | some w => rw [hs] at hname; cases hname
  · rintro ⟨hhas, hagrees⟩ name
    by_cases hmem : name ∈ bindings.map (·.1)
    · obtain ⟨b, hb, rfl⟩ := List.mem_map.mp hmem
      rw [hget b hb]
      exact hagrees b hb
    · have hs : s.get? name = none := by
        have hnot := mt (hhas name).mp hmem
        simpa [Scope.Has] using hnot
      rw [hmiss name hmem, hs]
      exact Option.Rel.none

/-- Matching a pattern with a shape ends with the bindings of the shape. -/
theorem Pattern.Shaped.bindings_iff {scope : Scope} {pattern : Pattern} {S : Shape}
    {next after last : Identity} (h : pattern.Shaped scope next S after) (hnames : S.names.Nodup)
    {v : Value} {bound : Scope} :
    (∃ fuel, pattern.bindings fuel scope v next = .done (bound, last)) ↔
      ∃ bindings, S.destruct v = some bindings ∧
        bound = OrderedMap.insertAll Scope.empty bindings ∧ last = after := by
  refine (unbounded_bind_eq_iff (o := .done (bound, last)) nofun).symm.trans ?_
  rw [h.bind v Scope.empty bound last, Option.bind_eq_some_iff]
  constructor
  · rintro ⟨⟨bindings, hbindings, hbound⟩, rfl⟩
    rw [← Shape.destruct_names h.wellFormed hbindings] at hnames
    rw [makeAll_eq_insertAll hnames fun _ _ => rfl] at hbound
    exact ⟨bindings, hbindings, (Option.some.inj hbound).symm, rfl⟩
  · rintro ⟨bindings, hbindings, rfl, rfl⟩
    rw [← Shape.destruct_names h.wellFormed hbindings] at hnames
    exact ⟨⟨bindings, hbindings, makeAll_eq_insertAll hnames fun _ _ => rfl⟩, rfl⟩

/-- Destructuring inverts construction: matching succeeds with the bindings of `s` exactly when `s`
binds the variables of the pattern and no others, and the value is equal to the one that the
pattern makes with the values of `s` at its variables. An extra variable stands for an array, or
for a tuple or dictionary without the fixed fields; otherwise the pattern makes nothing. -/
theorem Pattern.bindings_iff_build {scope : Scope} {pattern : Pattern} {S : Shape}
    {next after : Identity} (hshape : pattern.Shaped scope next S after)
    (hvariables : pattern.variables.Nodup) {v : Value} (hv : v.Canonical)
    (hne : ¬S.MeetsNothing v) (s : Scope) :
    (∃ fuel bound last, pattern.bindings fuel scope v next = .done (bound, last) ∧
        bound.Same s) ↔
      (∀ name, s.Has name ↔ name ∈ pattern.variables) ∧
        ∃ w, S.build s = some w ∧ (v == w) = true := by
  have hnames : S.names.Nodup := hshape.variables_perm.nodup_iff.mp hvariables
  have hmem : ∀ name, name ∈ pattern.variables ↔ name ∈ S.names :=
    fun _ => hshape.variables_perm.mem_iff
  have hinverse : S.Destructs v s ↔ ∃ w, S.build s = some w ∧ (v == w) = true :=
    Shape.destructs_iff_builds hshape.wellFormed hv hne
  rw [← hinverse]
  simp only [hmem]
  constructor
  · rintro ⟨fuel, bound, last, hrun, hsame⟩
    obtain ⟨bindings, hbindings, rfl, -⟩ := (hshape.bindings_iff hnames).mp ⟨fuel, hrun⟩
    have hfst := Shape.destruct_names hshape.wellFormed hbindings
    rw [← hfst] at hnames
    obtain ⟨hhas, hagrees⟩ := (Scope.insertAll_same_iff hnames s).mp hsame
    exact ⟨hfst ▸ hhas, bindings, hbindings, hagrees⟩
  · rintro ⟨hhas, bindings, hbindings, hagrees⟩
    obtain ⟨fuel, hrun⟩ := (hshape.bindings_iff hnames).mpr ⟨bindings, hbindings, rfl, rfl⟩
    have hfst := Shape.destruct_names hshape.wellFormed hbindings
    rw [← hfst] at hnames hhas
    exact ⟨fuel, _, after, hrun, (Scope.insertAll_same_iff hnames s).mpr ⟨hhas, hagrees⟩⟩

/-- The pattern `[(a: x, ...attrs), ...items, {true: y, ...entries}]`. -/
def Samples.nestedExtras : Pattern :=
  let ident (name : String) : Slot := .mk (some (.expr (.ident name Span.unknown))) none
  let yes : Expr := .literal (.bool true) Span.unknown
  .array
    ([.mk (some (.tuple [("a", ident "x"), ("", extraSlot "attrs")])) none] ++
      extraSlot "items" ::
      [.mk (some (.dict [(some yes, ident "y"), (none, extraSlot "entries")])) none])

/-- Extra elements take an attribute, an item and a hole, and nothing. -/
theorem Pattern.bindings_nestedExtras :
    let v : Value := .array
      [some (.tuple [("a", .bool false), ("b", .string "b")]), some (.bool true), none,
        some (.dict [(.bool true, .string "y")])]
    let s : Scope :=
      [("attrs", .tuple [("b", .string "b")]), ("entries", .dict []),
        ("items", .array [some (.bool true), none]), ("x", .bool false), ("y", .string "y")]
    ∃ fuel bound last,
      Samples.nestedExtras.bindings fuel Scope.empty v 0 = .done (bound, last) ∧
        bound.Same s := by
  intro v s
  have hkey : Expr.eval 1 (.literal (.bool true) Span.unknown) Scope.empty 0 =
      .done (.bool true, 0) := rfl
  have hshape : Samples.nestedExtras.Shaped Scope.empty 0
      (.node (.array 1 1)
        [.node (.tuple ["a"]) [.var "x"] (some "attrs"),
          .node (.dict [.bool true]) [.var "y"] (some "entries")] (some "items")) 0 :=
    .splice (.cons (.tuple (by decide) (.field (.ident (by decide)) (.extra .nil))) .nil)
      (.cons (.dict (List.pairwise_singleton _ _)
        (.field hkey (.ident (by decide)) (.extra .nil))) .nil)
  have hv : v.Canonical := by
    refine .array fun item hitem => ?_
    simp only [List.mem_cons, Option.some.injEq, reduceCtorEq, List.not_mem_nil, or_false,
      false_or] at hitem
    rcases hitem with rfl | rfl | rfl
    · exact .tuple (List.pairwise_pair.mpr (by decide))
        (by simp [Value.Canonical.bool, Value.Canonical.string])
    · exact .bool true
    · exact .dict (List.pairwise_singleton _ _) (by simp [Value.Canonical.bool])
        (by simp [Value.Canonical.string])
  have hhas : ∀ name, s.Has name ↔ name ∈ s.map (·.1) := by
    have hsame : Scope.Same (OrderedMap.insertAll Scope.empty s) s :=
      fun name => Value.samePart_refl (s.get? name)
    exact ((Scope.insertAll_same_iff (by decide) s).mp hsame).1
  have hvariables : (s.map (·.1)).Perm Samples.nestedExtras.variables := by decide
  refine (Pattern.bindings_iff_build hshape (by decide) hv ?_ s).mpr
    ⟨fun name => (hhas name).trans hvariables.mem_iff, v, rfl, Value.beq_equivalence.refl v⟩
  rw [Shape.meetsNothing_node_iff]
  rintro (hempty | ⟨parts, left, hsplit, field, part, hmem, hpart⟩)
  · exact absurd hempty (by simp [v])
  · obtain ⟨rfl, rfl⟩ := Prod.mk.inj (Option.some.inj hsplit)
    simp only [List.take, List.drop, List.length, List.zip_cons_cons, List.cons_append,
      List.nil_append, List.mem_cons, Prod.mk.injEq, Option.some.injEq] at hmem
    rcases hmem with ⟨rfl, rfl⟩ | ⟨rfl, rfl⟩ | hmem
    · simp [Shape.meetsNothing_node_iff, Shape.not_meetsNothing_var, Frame.split,
        Value.attrs?] at hpart
    · simp [Shape.meetsNothing_node_iff, Shape.not_meetsNothing_var, Frame.split,
        Value.entries?] at hpart
    · cases hmem

end Relational
