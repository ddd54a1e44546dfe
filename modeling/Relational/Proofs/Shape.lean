import Relational.Proofs.OrderedMap
import Relational.Proofs.ValueOrder
import Relational.Scope

/-!
# Shapes of structured values

A shape is what is left of a pattern when its keys have values: names at the leaves, and at the
inner places the frames of arrays, tuples and dictionaries, each with an extra name for what its
fields do not take, or without one. A shape is read in two directions. `destruct` takes a value
apart and lists the bindings of the names, `build` puts a value together from bindings.

> `Frame.splits_iff_joins`: at one level, taking apart inverts putting together. The parts of a value
> and its rest are equal to given ones exactly when the value is equal to what these make.
>
> `Shape.destructs_iff_builds`: the same at every depth. A value comes apart into bindings that a
> scope has exactly when the scope makes an equal value.

The empty set stands for the empty array, tuple and dictionary when a value is taken apart, but no
frame makes it: a value with an empty set at a frame is left out (`Shape.MeetsNothing`).
-/

namespace Relational

open Std

/-! ## Values in their canonical form -/

/-- Sets, tuples and dictionaries are in strictly ascending order at every depth. Functions are not
looked into. -/
inductive Value.Canonical : Value → Prop where
  | bool (b : Bool) : Canonical (.bool b)
  | number (x : Number) : Canonical (.number x)
  | string (s : String) : Canonical (.string s)
  | bytes (bs : List UInt8) : Canonical (.bytes bs)
  | array {items : List (Option Value)} (hitems : ∀ v, some v ∈ items → Canonical v) :
      Canonical (.array items)
  | tuple {attrs : List (String × Value)} (hasc : OrderedMap.Ascending attrs)
      (hattrs : ∀ e ∈ attrs, Canonical e.2) : Canonical (.tuple attrs)
  | set {members : List Value} (hasc : members.Pairwise fun a b => compare a b = .lt)
      (hmembers : ∀ v ∈ members, Canonical v) : Canonical (.set members)
  | dict {entries : List (Value × Value)} (hasc : OrderedMap.Ascending entries)
      (hkeys : ∀ e ∈ entries, Canonical e.1) (hvalues : ∀ e ∈ entries, Canonical e.2) :
      Canonical (.dict entries)
  | closure (identity : Identity) (param : Pattern) (body : Expr) (captured : Scope) :
      Canonical (.closure identity param body captured)
  | native (identity : Identity) (f : Native) : Canonical (.native identity f)

/-! ## Equal structures -/

namespace Value

/-- The two values are equal. -/
abbrev Equal (a b : Value) : Prop := (a == b) = true

/-- Both parts are missing, or both are there and equal. -/
abbrev SamePart : Option Value → Option Value → Prop := Option.Rel Equal

theorem samePart_refl : ∀ part : Option Value, SamePart part part
  | none => .none
  | some v => .some (beq_equivalence.refl v)

theorem compareItems_eq_iff : ∀ as bs : List (Option Value),
    compareItems as bs = .eq ↔ List.Forall₂ SamePart as bs
  | [], [] => by simp [compareItems]
  | [], _ :: _ => by simp [compareItems]
  | _ :: _, [] => by simp [compareItems]
  | none :: as, none :: bs => by
    simp [compareItems, compareItems_eq_iff as bs]
  | none :: as, some b :: bs => by simp [compareItems]
  | some a :: as, none :: bs => by simp [compareItems]
  | some a :: as, some b :: bs => by
    simp [compareItems, Ordering.then_eq_eq, compareItems_eq_iff as bs, beq_iff]

theorem compareAttrs_eq_iff (as bs : List (String × Value)) :
    compareAttrs as bs = .eq ↔ OrderedMap.Same Equal as bs := by
  induction as generalizing bs with
  | nil => cases bs <;> simp [compareAttrs, OrderedMap.Same]
  | cons attr as ih =>
    cases bs with
    | nil => simp [compareAttrs, OrderedMap.Same]
    | cons other bs =>
      simp [compareAttrs, OrderedMap.Same, Ordering.then_eq_eq, ih bs, beq_iff, and_assoc]

theorem compareEntries_eq_iff (as bs : List (Value × Value)) :
    compareEntries as bs = .eq ↔ OrderedMap.Same Equal as bs := by
  induction as generalizing bs with
  | nil => cases bs <;> simp [compareEntries, OrderedMap.Same]
  | cons entry as ih =>
    cases bs with
    | nil => simp [compareEntries, OrderedMap.Same]
    | cons other bs =>
      have hkey : Ord.compare entry.1 other.1 = entry.1.compare other.1 := rfl
      simp [compareEntries, OrderedMap.Same, Ordering.then_eq_eq, ih bs, beq_iff, and_assoc, hkey]

theorem array_beq_iff {as bs : List (Option Value)} :
    Equal (.array as) (.array bs) ↔ List.Forall₂ SamePart as bs := by
  rw [Equal, beq_iff, Value.compare, compareItems_eq_iff]

theorem tuple_beq_iff {as bs : List (String × Value)} :
    Equal (.tuple as) (.tuple bs) ↔ OrderedMap.Same Equal as bs := by
  rw [Equal, beq_iff, Value.compare, compareAttrs_eq_iff]

theorem dict_beq_iff {as bs : List (Value × Value)} :
    Equal (.dict as) (.dict bs) ↔ OrderedMap.Same Equal as bs := by
  rw [Equal, beq_iff, Value.compare, compareEntries_eq_iff]

/-- Equal values are of one kind. -/
theorem Equal.sameKind {a b : Value} (h : Equal a b) : SameKind a b := by
  rw [Equal, beq_iff, compare_eq_rank_then, Ordering.then_eq_eq] at h
  exact sameKind_of_rank (Nat.compare_eq_eq.mp h.1)

end Value

/-! ## Frames -/

/-- One level of a structure: the places of its fields in a value. -/
inductive Frame where
  /-- The first items and the last ones. -/
  | array (before after : Nat)
  | tuple (names : List String)
  | dict (keys : List Value)

namespace Value

/-- The items of an array. -/
def items? : Value → Option (List (Option Value))
  | .array items => some items
  | .set [] => some []
  | _ => none

/-- The attributes of a tuple. -/
def attrs? : Value → Option (List (String × Value))
  | .tuple attrs => some attrs
  | .set [] => some []
  | _ => none

/-- The entries of a dictionary. -/
def entries? : Value → Option (List (Value × Value))
  | .dict entries => some entries
  | .set [] => some []
  | _ => none

theorem Canonical.of_items {v : Value} (hv : v.Canonical) {items : List (Option Value)}
    (h : v.items? = some items) {part : Value} (hpart : some part ∈ items) : part.Canonical := by
  unfold items? at h
  split at h
  next =>
    obtain rfl := Option.some.inj h
    cases hv with | array hitems => exact hitems part hpart
  next => obtain rfl := Option.some.inj h; cases hpart
  next => cases h

theorem Canonical.of_attrs {v : Value} (hv : v.Canonical) {attrs : List (String × Value)}
    (h : v.attrs? = some attrs) {e : String × Value} (he : e ∈ attrs) : e.2.Canonical := by
  unfold attrs? at h
  split at h
  next =>
    obtain rfl := Option.some.inj h
    cases hv with | tuple _ hattrs => exact hattrs e he
  next => obtain rfl := Option.some.inj h; cases he
  next => cases h

theorem Canonical.of_entries {v : Value} (hv : v.Canonical) {entries : List (Value × Value)}
    (h : v.entries? = some entries) {e : Value × Value} (he : e ∈ entries) : e.2.Canonical := by
  unfold entries? at h
  split at h
  next =>
    obtain rfl := Option.some.inj h
    cases hv with | dict _ _ hvalues => exact hvalues e he
  next => obtain rfl := Option.some.inj h; cases he
  next => cases h

theorem items?_eq_some {v : Value} {items : List (Option Value)} (hne : v ≠ .set []) :
    v.items? = some items ↔ v = .array items := by
  unfold items?
  split
  next => simp
  next => exact absurd rfl hne
  next h _ => exact ⟨nofun, fun hv => absurd hv (h items)⟩

theorem attrs?_eq_some {v : Value} {attrs : List (String × Value)} (hne : v ≠ .set []) :
    v.attrs? = some attrs ↔ v = .tuple attrs := by
  unfold attrs?
  split
  next => simp
  next => exact absurd rfl hne
  next h _ => exact ⟨nofun, fun hv => absurd hv (h attrs)⟩

theorem entries?_eq_some {v : Value} {entries : List (Value × Value)} (hne : v ≠ .set []) :
    v.entries? = some entries ↔ v = .dict entries := by
  unfold entries?
  split
  next => simp
  next => exact absurd rfl hne
  next h _ => exact ⟨nofun, fun hv => absurd hv (h entries)⟩

end Value

namespace Frame

/-- The frame is that of `size` fields, and no two of them have the same name or key. -/
def Fits : Frame → Nat → Prop
  | .array before after, size => size = before + after
  | .tuple names, size => names.length = size ∧ names.Nodup
  | .dict keys, size => keys.length = size ∧ keys.Pairwise fun j k => compare j k ≠ .eq

/-- The first items with the last ones, and the items between. -/
def splitItems {α : Type} (before after : Nat) (items : List α) : Option (List α × List α) :=
  if items.length < before + after then none
  else
    let tail := items.length - after
    some (items.take before ++ items.drop tail, (items.take tail).drop before)

/-- The parts of a value at the fields, in their order, and what is left without them. -/
def split : Frame → Value → Option (List (Option Value) × Value)
  | .array before after, v => do
    let (parts, rest) ← splitItems before after (← v.items?)
    some (parts, .array rest)
  | .tuple names, v => do
    let attrs ← v.attrs?
    some (names.map (OrderedMap.find? · attrs), .tuple (OrderedMap.eraseAll attrs names))
  | .dict keys, v => do
    let entries ← v.entries?
    some (keys.map (OrderedMap.find? · entries), .dict (OrderedMap.eraseAll entries keys))

/-- What is left when nothing is. -/
def vacant : Frame → Value
  | .array _ _ => .array []
  | .tuple _ => .tuple []
  | .dict _ => .dict []

/-- The value with given parts at the fields and a given rest: an array between the first items
and the last ones, or a tuple or dictionary that has none of the fields. -/
def join : Frame → List Value → Value → Option Value
  | .array before _, parts, .array rest =>
    some (.array ((parts.take before).map some ++ rest ++ (parts.drop before).map some))
  | .tuple names, parts, .tuple rest =>
    if names.any (OrderedMap.contains · rest) then none
    else some (.tuple (OrderedMap.insertAll rest (names.zip parts)))
  | .dict keys, parts, .dict rest =>
    if keys.any (OrderedMap.contains · rest) then none
    else some (.dict (OrderedMap.insertAll rest (keys.zip parts)))
  | _, _, _ => none

/-! ## One level -/

/-- What is related to a list in two pieces is in two pieces itself. -/
theorem exists_append_of_forall₂ {α : Type} {R : α → α → Prop} {as first last : List α}
    (h : List.Forall₂ R as (first ++ last)) :
    ∃ front back, as = front ++ back ∧ List.Forall₂ R front first ∧ List.Forall₂ R back last :=
  ⟨_, _, (List.take_append_drop first.length as).symm, List.forall₂_take_append _ _ _ h,
    List.forall₂_drop_append _ _ _ h⟩

theorem splitItems_append {α : Type} (front middle back : List α) :
    splitItems front.length back.length (front ++ middle ++ back) =
      some (front ++ back, middle) := by
  have htail : (front ++ middle ++ back).length - back.length = (front ++ middle).length := by
    rw [List.length_append, Nat.add_sub_cancel]
  rw [splitItems, if_neg (by simp)]
  simp only [htail, List.take_left, List.drop_left]
  rw [List.append_assoc front middle back, List.take_left]

theorem splitItems_eq_some {α : Type} {before after : Nat} {items parts rest : List α}
    (h : splitItems before after items = some (parts, rest)) :
    ∃ front back, front.length = before ∧ back.length = after ∧
      items = front ++ rest ++ back ∧ parts = front ++ back := by
  unfold splitItems at h
  split at h
  next => cases h
  next hlen =>
    obtain ⟨rfl, rfl⟩ := Prod.mk.inj (Option.some.inj h)
    refine ⟨_, _, ?_, ?_, ?_, rfl⟩
    · rw [List.length_take]; omega
    · rw [List.length_drop]; omega
    · have hfront : items.take before = (items.take (items.length - after)).take before := by
        rw [List.take_take, Nat.min_eq_left (by omega)]
      rw [hfront, List.take_append_drop, List.take_append_drop]

/-- An array is made of its first items, its rest and its last items. -/
theorem splitItems_iff_append {before after : Nat} {items rest : List (Option Value)}
    {ws : List Value} (hws : ws.length = before + after) :
    (∃ parts left, splitItems before after items = some (parts, left) ∧
        List.Forall₂ Value.SamePart parts (ws.map some) ∧ List.Forall₂ Value.SamePart left rest) ↔
      List.Forall₂ Value.SamePart items
        ((ws.take before).map some ++ rest ++ (ws.drop before).map some) := by
  have hmap : ws.map some = (ws.take before).map some ++ (ws.drop before).map some := by
    rw [← List.map_append, List.take_append_drop]
  have hbefore : ((ws.take before).map some).length = before := by
    rw [List.length_map, List.length_take]; omega
  have hafter : ((ws.drop before).map some).length = after := by
    rw [List.length_map, List.length_drop]; omega
  rw [hmap]
  generalize (ws.take before).map some = first at *
  generalize (ws.drop before).map some = last at *
  -- as the lengths are known, the pieces of the one list are those of the other
  constructor
  · rintro ⟨parts, left, hsplit, hparts, hleft⟩
    obtain ⟨front, back, rfl, rfl, rfl, rfl⟩ := splitItems_eq_some hsplit
    have hfront := List.forall₂_take_append _ _ _ hparts
    have hback := List.forall₂_drop_append _ _ _ hparts
    rw [hbefore, List.take_left] at hfront
    rw [hbefore, List.drop_left] at hback
    exact List.rel_append (List.rel_append hfront hleft) hback
  · intro h
    obtain ⟨frontLeft, back, rfl, hfrontLeft, hback⟩ := exists_append_of_forall₂ h
    obtain ⟨front, left, rfl, hfront, hleft⟩ := exists_append_of_forall₂ hfrontLeft
    refine ⟨front ++ back, left, ?_, List.rel_append hfront hback, hleft⟩
    rw [← hbefore, ← hafter, ← hfront.length_eq, ← hback.length_eq, splitItems_append]

/-- A map is made of the values at some keys and of what is left without them. -/
theorem fields_iff_insertAll {κ : Type} [Ord κ] [TransOrd κ] {keys : List κ} {ws : List Value}
    {entries rest : List (κ × Value)} (hlen : keys.length = ws.length)
    (hkeys : keys.Pairwise fun j k => compare j k ≠ .eq) (hasc : OrderedMap.Ascending entries) :
    (List.Forall₂ Value.SamePart (keys.map (OrderedMap.find? · entries)) (ws.map some) ∧
        OrderedMap.Same Value.Equal (OrderedMap.eraseAll entries keys) rest) ↔
      ¬keys.any (OrderedMap.contains · rest) = true ∧
        OrderedMap.Same Value.Equal entries (OrderedMap.insertAll rest (keys.zip ws)) := by
  have hfst : (keys.zip ws).map (·.1) = keys := List.map_fst_zip (Nat.le_of_eq hlen)
  have hparts : List.Forall₂ Value.SamePart (keys.map (OrderedMap.find? · entries))
      (ws.map some) ↔
      ∀ e ∈ keys.zip ws, Value.SamePart (OrderedMap.find? e.1 entries) (some e.2) := by
    rw [List.forall₂_map_left_iff, List.forall₂_map_right_iff, List.forall₂_iff_zip]
    exact ⟨fun h e he => h.2 he, fun h => ⟨hlen, fun he => h _ he⟩⟩
  have hfree : ¬keys.any (OrderedMap.contains · rest) = true ↔
      ∀ e ∈ keys.zip ws, OrderedMap.find? e.1 rest = none := by
    rw [← List.forall_mem_map (P := fun k => OrderedMap.find? k rest = none), hfst]
    simp [OrderedMap.contains]
  have hnew : (keys.zip ws).Pairwise fun a b => compare a.1 b.1 ≠ .eq := by
    rw [← List.pairwise_map (R := fun j k => compare j k ≠ .eq), hfst]
    exact hkeys
  rw [hparts, hfree, OrderedMap.same_insertAll_iff hasc hnew, hfst]

section

variable {ws : List Value} {v rest : Value}

/-- The parts of the value and its rest are equal to the given ones. -/
def Splits (frame : Frame) (v : Value) (ws : List Value) (rest : Value) : Prop :=
  ∃ parts left, frame.split v = some (parts, left) ∧
    List.Forall₂ Value.SamePart parts (ws.map some) ∧ left.Equal rest

/-- The value is equal to what the parts and the rest make. -/
def Joins (frame : Frame) (v : Value) (ws : List Value) (rest : Value) : Prop :=
  ∃ w, frame.join ws rest = some w ∧ v.Equal w

theorem splits_array_iff {before after : Nat} (hframe : (array before after).Fits ws.length)
    (hne : v ≠ .set []) :
    (array before after).Splits v ws rest ↔ (array before after).Joins v ws rest := by
  constructor
  · rintro ⟨parts, left, hsplit, hparts, hleft⟩
    obtain ⟨items, hitems, hrest⟩ := Option.bind_eq_some_iff.mp hsplit
    obtain ⟨⟨parts, left⟩, hpieces, heq⟩ := Option.bind_eq_some_iff.mp hrest
    obtain ⟨rfl, rfl⟩ := Prod.mk.inj (Option.some.inj heq)
    obtain rfl := (Value.items?_eq_some hne).mp hitems
    cases hleft.sameKind
    refine ⟨_, rfl, Value.array_beq_iff.mpr ?_⟩
    exact (splitItems_iff_append hframe).mp
      ⟨_, _, hpieces, hparts, Value.array_beq_iff.mp hleft⟩
  · rintro ⟨w, hjoin, hw⟩
    cases rest with
    | array rest =>
      obtain rfl := Option.some.inj hjoin
      cases hw.sameKind
      obtain ⟨parts, left, hpieces, hparts, hleft⟩ :=
        (splitItems_iff_append hframe).mpr (Value.array_beq_iff.mp hw)
      refine ⟨parts, .array left, ?_, hparts, Value.array_beq_iff.mpr hleft⟩
      simp [split, Value.items?, hpieces]
    | _ => cases hjoin

theorem splits_tuple_iff {names : List String} (hframe : (tuple names).Fits ws.length)
    (hv : v.Canonical) (hne : v ≠ .set []) :
    (tuple names).Splits v ws rest ↔ (tuple names).Joins v ws rest := by
  have hnames : names.Pairwise fun m n => compare m n ≠ .eq :=
    hframe.2.imp fun hmn heq => hmn (LawfulEqCmp.eq_of_compare heq)
  constructor
  · rintro ⟨parts, left, hsplit, hparts, hleft⟩
    obtain ⟨attrs, hattrs, heq⟩ := Option.bind_eq_some_iff.mp hsplit
    obtain ⟨rfl, rfl⟩ := Prod.mk.inj (Option.some.inj heq)
    obtain rfl := (Value.attrs?_eq_some hne).mp hattrs
    cases hv with | tuple hasc _ =>
    cases hleft.sameKind
    obtain ⟨hfree, hsame⟩ := (fields_iff_insertAll hframe.1 hnames hasc).mp
      ⟨hparts, Value.tuple_beq_iff.mp hleft⟩
    exact ⟨_, if_neg hfree, Value.tuple_beq_iff.mpr hsame⟩
  · rintro ⟨w, hjoin, hw⟩
    cases rest with
    | tuple rest =>
      rw [join] at hjoin
      split at hjoin
      next => cases hjoin
      next hfree =>
        obtain rfl := Option.some.inj hjoin
        cases hw.sameKind
        cases hv with | tuple hasc _ =>
        obtain ⟨hparts, hleft⟩ := (fields_iff_insertAll hframe.1 hnames hasc).mpr
          ⟨hfree, Value.tuple_beq_iff.mp hw⟩
        exact ⟨_, _, rfl, hparts, Value.tuple_beq_iff.mpr hleft⟩
    | _ => cases hjoin

theorem splits_dict_iff {keys : List Value} (hframe : (dict keys).Fits ws.length)
    (hv : v.Canonical) (hne : v ≠ .set []) :
    (dict keys).Splits v ws rest ↔ (dict keys).Joins v ws rest := by
  constructor
  · rintro ⟨parts, left, hsplit, hparts, hleft⟩
    obtain ⟨entries, hentries, heq⟩ := Option.bind_eq_some_iff.mp hsplit
    obtain ⟨rfl, rfl⟩ := Prod.mk.inj (Option.some.inj heq)
    obtain rfl := (Value.entries?_eq_some hne).mp hentries
    cases hv with | dict hasc _ _ =>
    cases hleft.sameKind
    obtain ⟨hfree, hsame⟩ := (fields_iff_insertAll hframe.1 hframe.2 hasc).mp
      ⟨hparts, Value.dict_beq_iff.mp hleft⟩
    exact ⟨_, if_neg hfree, Value.dict_beq_iff.mpr hsame⟩
  · rintro ⟨w, hjoin, hw⟩
    cases rest with
    | dict rest =>
      rw [join] at hjoin
      split at hjoin
      next => cases hjoin
      next hfree =>
        obtain rfl := Option.some.inj hjoin
        cases hw.sameKind
        cases hv with | dict hasc _ _ =>
        obtain ⟨hparts, hleft⟩ := (fields_iff_insertAll hframe.1 hframe.2 hasc).mpr
          ⟨hfree, Value.dict_beq_iff.mp hw⟩
        exact ⟨_, _, rfl, hparts, Value.dict_beq_iff.mpr hleft⟩
    | _ => cases hjoin

/-- The parts of a value and its rest are equal to given ones exactly when the value is equal to
what these make. -/
theorem splits_iff_joins {frame : Frame} (hframe : frame.Fits ws.length) (hv : v.Canonical)
    (hne : v ≠ .set []) : frame.Splits v ws rest ↔ frame.Joins v ws rest := by
  cases frame with
  | array => exact splits_array_iff hframe hne
  | tuple => exact splits_tuple_iff hframe hv hne
  | dict => exact splits_dict_iff hframe hv hne

/-- The parts of a value in its canonical form are in theirs. -/
theorem canonical_of_split {frame : Frame} {left part : Value} {parts : List (Option Value)}
    (hv : v.Canonical) (hsplit : frame.split v = some (parts, left))
    (hpart : some part ∈ parts) : part.Canonical := by
  cases frame with
  | array before after =>
    obtain ⟨items, hitems, hrest⟩ := Option.bind_eq_some_iff.mp hsplit
    obtain ⟨⟨parts, left⟩, hpieces, heq⟩ := Option.bind_eq_some_iff.mp hrest
    obtain ⟨rfl, rfl⟩ := Prod.mk.inj (Option.some.inj heq)
    obtain ⟨front, back, -, -, rfl, rfl⟩ := splitItems_eq_some hpieces
    refine hv.of_items hitems ?_
    simp only [List.mem_append] at hpart ⊢
    exact hpart.imp_left Or.inl
  | tuple names =>
    obtain ⟨attrs, hattrs, heq⟩ := Option.bind_eq_some_iff.mp hsplit
    obtain ⟨rfl, rfl⟩ := Prod.mk.inj (Option.some.inj heq)
    obtain ⟨name, -, hfind⟩ := List.mem_map.mp hpart
    obtain ⟨name', hmem, -⟩ := OrderedMap.exists_mem_of_find? hfind
    exact hv.of_attrs hattrs hmem
  | dict keys =>
    obtain ⟨entries, hentries, heq⟩ := Option.bind_eq_some_iff.mp hsplit
    obtain ⟨rfl, rfl⟩ := Prod.mk.inj (Option.some.inj heq)
    obtain ⟨key, -, hfind⟩ := List.mem_map.mp hpart
    obtain ⟨key', hmem, -⟩ := OrderedMap.exists_mem_of_find? hfind
    exact hv.of_entries hentries hmem

end

/-- The binding of the extra name to what is left. Without an extra name nothing may be left. -/
def bindRest (frame : Frame) (extra : Option String) (left : Value) :
    Option (List (String × Value)) :=
  match extra with
  | some name => some [(name, left)]
  | none => if left == frame.vacant then some [] else none

/-- The rest that a scope gives: the value of the extra name, or nothing. -/
def restIn (frame : Frame) (extra : Option String) (s : Scope) : Option Value :=
  match extra with
  | some name => s.get? name
  | none => some frame.vacant

end Frame

/-! ## Shapes -/

/-- Names for the parts of a value. -/
inductive Shape where
  | var (name : String)
  /-- The fields of a frame, and the name of what they do not take. -/
  | node (frame : Frame) (fields : List Shape) (extra : Option String)

namespace Shape

mutual

/-- The names of a shape, in the order in which they are bound. -/
def names : Shape → List String
  | .var name => [name]
  | .node _ fields extra => allNames fields ++ extra.toList

def allNames : List Shape → List String
  | [] => []
  | field :: fields => field.names ++ allNames fields

end

mutual

/-- The bindings of the names to the parts of a value, in order. -/
def destruct : Shape → Value → Option (List (String × Value))
  | .var name, v => some [(name, v)]
  | .node frame fields extra, v => do
    let (parts, left) ← frame.split v
    let inner ← destructAll fields parts
    let outer ← frame.bindRest extra left
    some (inner ++ outer)

def destructAll : List Shape → List (Option Value) → Option (List (String × Value))
  | [], [] => some []
  | field :: fields, some part :: parts => do
    let first ← field.destruct part
    let others ← destructAll fields parts
    some (first ++ others)
  | _, _ => none

end

mutual

/-- The value of a shape with the values of a scope at the names. -/
def build (s : Scope) : Shape → Option Value
  | .var name => s.get? name
  | .node frame fields extra => do
    let parts ← buildAll s fields
    let rest ← frame.restIn extra s
    frame.join parts rest

def buildAll (s : Scope) : List Shape → Option (List Value)
  | [] => some []
  | field :: fields => do
    let part ← field.build s
    let parts ← buildAll s fields
    some (part :: parts)

end

/-- Every frame is that of its fields. -/
inductive WellFormed : Shape → Prop where
  | var (name : String) : WellFormed (.var name)
  | node {frame : Frame} {fields : List Shape} {extra : Option String}
      (hframe : frame.Fits fields.length) (hfields : ∀ field ∈ fields, WellFormed field) :
      WellFormed (.node frame fields extra)

/-- The value has an empty set at a frame of the shape. -/
inductive MeetsNothing : Shape → Value → Prop where
  | here {frame : Frame} {fields : List Shape} {extra : Option String} :
      MeetsNothing (.node frame fields extra) (.set [])
  | inside {frame : Frame} {fields : List Shape} {extra : Option String} {v left : Value}
      {parts : List (Option Value)} {field : Shape} {part : Value}
      (hsplit : frame.split v = some (parts, left))
      (hmem : (field, some part) ∈ fields.zip parts) (hpart : MeetsNothing field part) :
      MeetsNothing (.node frame fields extra) v

theorem not_meetsNothing_var (name : String) (v : Value) : ¬(var name).MeetsNothing v :=
  nofun

theorem meetsNothing_node_iff {frame : Frame} {fields : List Shape} {extra : Option String}
    {v : Value} :
    (node frame fields extra).MeetsNothing v ↔
      v = .set [] ∨ ∃ parts left, frame.split v = some (parts, left) ∧
        ∃ field part, (field, some part) ∈ fields.zip parts ∧ field.MeetsNothing part := by
  constructor
  · intro h
    cases h with
    | here => exact Or.inl rfl
    | inside hsplit hmem hpart => exact Or.inr ⟨_, _, hsplit, _, _, hmem, hpart⟩
  · rintro (rfl | ⟨parts, left, hsplit, field, part, hmem, hpart⟩)
    · exact .here
    · exact .inside hsplit hmem hpart

/-- The scope has the bindings, up to equality of the values. -/
def Agrees (s : Scope) (bindings : List (String × Value)) : Prop :=
  ∀ b ∈ bindings, Value.SamePart (some b.2) (s.get? b.1)

/-- The value comes apart into bindings that the scope has. -/
def Destructs (S : Shape) (v : Value) (s : Scope) : Prop :=
  ∃ bindings, S.destruct v = some bindings ∧ Agrees s bindings

/-- The value is equal to what the shape makes with the scope. -/
def Builds (S : Shape) (v : Value) (s : Scope) : Prop :=
  ∃ w, S.build s = some w ∧ v.Equal w

variable {s : Scope}

theorem agrees_append {first others : List (String × Value)} :
    Agrees s (first ++ others) ↔ Agrees s first ∧ Agrees s others :=
  List.forall_mem_append

theorem agrees_singleton {name : String} {v : Value} :
    Agrees s [(name, v)] ↔ ∃ w, s.get? name = some w ∧ v.Equal w := by
  simp only [Agrees, List.forall_mem_singleton]
  cases s.get? name <;> simp

theorem destructAll_iff_buildAll {fields : List Shape} {parts : List (Option Value)}
    (h : ∀ field part, (field, some part) ∈ fields.zip parts →
      (field.Destructs part s ↔ field.Builds part s)) :
    (∃ bindings, destructAll fields parts = some bindings ∧ Agrees s bindings) ↔
      ∃ ws, buildAll s fields = some ws ∧ List.Forall₂ Value.SamePart parts (ws.map some) := by
  induction fields generalizing parts with
  | nil =>
    cases parts with
    | nil => simp [destructAll, buildAll, Agrees]
    | cons part parts => simp [destructAll, buildAll]
  | cons field fields ih =>
    -- a part for the first field and parts for the others, on both sides
    have hbuild : (∃ ws, buildAll s (field :: fields) = some ws ∧
        List.Forall₂ Value.SamePart parts (ws.map some)) ↔
        ∃ w ws, field.build s = some w ∧ buildAll s fields = some ws ∧
          List.Forall₂ Value.SamePart parts (some w :: ws.map some) := by
      simp only [buildAll, Option.bind_eq_bind, Option.bind_eq_some_iff, Option.some.injEq]
      constructor
      · rintro ⟨_, ⟨w, hw, ws, hws, rfl⟩, hparts⟩
        exact ⟨w, ws, hw, hws, hparts⟩
      · rintro ⟨w, ws, hw, hws, hparts⟩
        exact ⟨_, ⟨w, hw, ws, hws, rfl⟩, hparts⟩
    rw [hbuild]
    match parts, h with
    | [], _ => simp [destructAll]
    | none :: parts, _ => simp [destructAll]
    | some part :: parts, h =>
      have hfield := h field part (List.mem_cons_self ..)
      have hfields := ih fun field part hmem => h field part (List.mem_cons_of_mem _ hmem)
      simp only [destructAll, Option.bind_eq_bind, Option.bind_eq_some_iff, Option.some.injEq,
        List.forall₂_cons, Option.rel_some_some]
      constructor
      · rintro ⟨_, ⟨first, hfirst, others, hothers, rfl⟩, hagrees⟩
        rw [agrees_append] at hagrees
        obtain ⟨w, hw, hpart⟩ := hfield.mp ⟨first, hfirst, hagrees.1⟩
        obtain ⟨ws, hws, hparts⟩ := hfields.mp ⟨others, hothers, hagrees.2⟩
        exact ⟨w, ws, hw, hws, hpart, hparts⟩
      · rintro ⟨w, ws, hw, hws, hpart, hparts⟩
        obtain ⟨first, hfirst, hagrees⟩ := hfield.mpr ⟨w, hw, hpart⟩
        obtain ⟨others, hothers, hagrees'⟩ := hfields.mpr ⟨ws, hws, hparts⟩
        exact ⟨_, ⟨first, hfirst, others, hothers, rfl⟩, agrees_append.mpr ⟨hagrees, hagrees'⟩⟩

theorem buildAll_length {fields : List Shape} {ws : List Value}
    (h : buildAll s fields = some ws) : ws.length = fields.length := by
  induction fields generalizing ws with
  | nil => obtain rfl := Option.some.inj h; rfl
  | cons field fields ih =>
    simp only [buildAll, Option.bind_eq_bind, Option.bind_eq_some_iff, Option.some.injEq] at h
    obtain ⟨_, -, ws, hws, rfl⟩ := h
    rw [List.length_cons, List.length_cons, ih hws]

/-- The rest is bound as the scope has it exactly when it is equal to the rest that the scope
gives. -/
theorem bindRest_iff_restIn {frame : Frame} {extra : Option String} {left : Value} :
    (∃ bindings, frame.bindRest extra left = some bindings ∧ Agrees s bindings) ↔
      ∃ rest, frame.restIn extra s = some rest ∧ left.Equal rest := by
  cases extra with
  | some name => simp [Frame.bindRest, Frame.restIn, agrees_singleton]
  | none =>
    simp only [Frame.bindRest, Frame.restIn]
    split
    next h => simpa [Agrees] using h
    next h => simp [h]

/-- A value comes apart into bindings that a scope has exactly when the scope makes an equal
value. -/
theorem destructs_iff_builds {S : Shape} (hS : S.WellFormed) {v : Value} (hv : v.Canonical)
    (hne : ¬S.MeetsNothing v) : S.Destructs v s ↔ S.Builds v s := by
  -- the induction is on the shape; the level at its root is inverted by the frame
  induction hS generalizing v with
  | var name => simp [Destructs, Builds, destruct, build, agrees_singleton]
  | @node frame fields extra hframe hfields ih =>
    rw [meetsNothing_node_iff, not_or] at hne
    obtain ⟨hempty, hne⟩ := hne
    have hinside : ∀ {parts left}, frame.split v = some (parts, left) →
        ((∃ bindings, destructAll fields parts = some bindings ∧ Agrees s bindings) ↔
          ∃ ws, buildAll s fields = some ws ∧
            List.Forall₂ Value.SamePart parts (ws.map some)) := by
      intro parts left hsplit
      refine destructAll_iff_buildAll fun field part hmem => ?_
      obtain ⟨hfield, hpart⟩ := List.of_mem_zip hmem
      exact ih field hfield (Frame.canonical_of_split hv hsplit hpart)
        fun hnothing => hne ⟨parts, left, hsplit, field, part, hmem, hnothing⟩
    constructor
    · rintro ⟨bindings, hbindings, hagrees⟩
      simp only [destruct, Option.bind_eq_bind, Option.bind_eq_some_iff, Option.some.injEq,
        Prod.exists] at hbindings
      obtain ⟨parts, left, hsplit, inner, hinner, outer, houter, rfl⟩ := hbindings
      rw [agrees_append] at hagrees
      obtain ⟨ws, hws, hparts⟩ := (hinside hsplit).mp ⟨inner, hinner, hagrees.1⟩
      obtain ⟨rest, hrest, hleft⟩ := bindRest_iff_restIn.mp ⟨outer, houter, hagrees.2⟩
      rw [← buildAll_length hws] at hframe
      obtain ⟨w, hjoin, hw⟩ := (Frame.splits_iff_joins hframe hv hempty).mp
        ⟨parts, left, hsplit, hparts, hleft⟩
      exact ⟨w, by simp [build, hws, hrest, hjoin], hw⟩
    · rintro ⟨w, hbuild, hw⟩
      simp only [build, Option.bind_eq_bind, Option.bind_eq_some_iff] at hbuild
      obtain ⟨ws, hws, rest, hrest, hjoin⟩ := hbuild
      rw [← buildAll_length hws] at hframe
      obtain ⟨parts, left, hsplit, hparts, hleft⟩ :=
        (Frame.splits_iff_joins hframe hv hempty).mpr ⟨w, hjoin, hw⟩
      obtain ⟨inner, hinner, hagrees⟩ := (hinside hsplit).mpr ⟨ws, hws, hparts⟩
      obtain ⟨outer, houter, hagrees'⟩ := bindRest_iff_restIn.mpr ⟨rest, hrest, hleft⟩
      exact ⟨inner ++ outer, by simp [destruct, hsplit, hinner, houter],
        agrees_append.mpr ⟨hagrees, hagrees'⟩⟩

/-! ## The names of the bindings -/

theorem destructAll_names {fields : List Shape} {parts : List (Option Value)}
    {bindings : List (String × Value)}
    (ih : ∀ field ∈ fields, ∀ {v bindings}, field.destruct v = some bindings →
      bindings.map (·.1) = field.names)
    (h : destructAll fields parts = some bindings) : bindings.map (·.1) = allNames fields := by
  induction fields generalizing parts bindings with
  | nil =>
    cases parts with
    | nil => obtain rfl := Option.some.inj h; rfl
    | cons => cases h
  | cons field fields ih' =>
    match parts, h with
    | some part :: parts, h =>
      simp only [destructAll, Option.bind_eq_bind, Option.bind_eq_some_iff,
        Option.some.injEq] at h
      obtain ⟨first, hfirst, others, hothers, rfl⟩ := h
      rw [List.forall_mem_cons] at ih
      rw [List.map_append, ih.1 hfirst, ih' ih.2 hothers, allNames]

/-- Taking a value apart binds the names of the shape, each once for each time it occurs. -/
theorem destruct_names {S : Shape} (hS : S.WellFormed) {v : Value}
    {bindings : List (String × Value)} (h : S.destruct v = some bindings) :
    bindings.map (·.1) = S.names := by
  induction hS generalizing v bindings with
  | var name => obtain rfl := Option.some.inj h; rfl
  | @node frame fields extra _ _ ih =>
    simp only [destruct, Option.bind_eq_bind, Option.bind_eq_some_iff, Option.some.injEq,
      Prod.exists] at h
    obtain ⟨parts, left, -, inner, hinner, outer, houter, rfl⟩ := h
    have houter' : outer.map (·.1) = extra.toList := by
      unfold Frame.bindRest at houter
      split at houter
      next => obtain rfl := Option.some.inj houter; rfl
      next =>
        split at houter
        next => obtain rfl := Option.some.inj houter; rfl
        next => cases houter
    rw [List.map_append, destructAll_names (fun field hmem => ih field hmem) hinner, houter',
      names]

end Shape

end Relational
