import Mathlib.Data.List.Pairwise
import Relational.Proofs.SetAlgebra

/-!
# Nesting and flattening

Nesting splits each tuple of a relation by the names of its attributes and groups the inner parts by
the outer ones. A group is found under its outer part, up to equality, so the groups are told by
what is found in them:

> `Grouped.found_iff`: an inner part is found under an outer part exactly if both are the parts of
> one of the tuples that were put in.

One more tuple keeps this (`Grouped.addToGroup`), and so does a whole relation (`Grouped.foldl`).
Two parts make up a tuple again, since no name is in both of them (`tuple_equal_joined_iff`). So
nothing is lost:

> `Value.nest_lossless`: nesting succeeds, each row has a group of its own, which is not empty, and
> flattening the rows gives back the relation.
-/

namespace Relational

open Std

/-! ## Parts of maps -/

namespace OrderedMap

variable {κ ν : Type} [Ord κ] [TransOrd κ] {k : κ} {entries : List (κ × ν)}

/-- Ascending maps are the same exactly if they answer alike to every key. -/
theorem same_iff_find? {R : ν → ν → Prop} {entries' : List (κ × ν)} (h : Ascending entries)
    (h' : Ascending entries') :
    Same R entries entries' ↔ ∀ k, Option.Rel R (find? k entries) (find? k entries') :=
  ⟨Same.find?, same_of_find? h h'⟩

theorem Same.erase {R : ν → ν → Prop} {entries' : List (κ × ν)} (h : Same R entries entries')
    (k : κ) : Same R (erase k entries) (erase k entries') := by
  induction h with
  | nil => exact .nil
  | @cons a b as bs hab hrest ih =>
    rw [OrderedMap.erase, OrderedMap.erase, TransCmp.congr_right hab.1]
    cases compare k b.1 with
    | lt => exact .cons hab hrest
    | eq => exact hrest
    | gt => exact .cons hab ih

/-- After a map is put in, its values are found first. -/
theorem find?_insertAll {new : List (κ × ν)} (hnew : Ascending new) :
    find? k (insertAll entries new) = (find? k new).or (find? k entries) := by
  cases hk : find? k new with
  | none => exact find?_insertAll_of_forall_ne new ((find?_eq_none_iff hnew).mp hk)
  | some v =>
    obtain ⟨k', hmem, heq⟩ := exists_mem_of_find? hk
    exact find?_insertAll_of_mem new hnew.pairwise_ne hmem heq

variable [LawfulEqOrd κ]

/-- If all keys have a property, nothing is found under a key without it. -/
theorem find?_eq_none_of_forall (h : Ascending entries) {P : κ → Prop}
    (hP : ∀ e ∈ entries, P e.1) (hk : ¬P k) : find? k entries = none :=
  (find?_eq_none_iff h).mpr fun e he heq => hk (LawfulEqOrd.eq_of_compare heq ▸ hP e he)

/-- The part of a map with the keys that pass a test answers to these. -/
theorem find?_filter (h : Ascending entries) (test : κ → Bool) (k : κ) :
    find? k (entries.filter fun e => test e.1) = if test k then find? k entries else none := by
  have hpart : Ascending (entries.filter fun e => test e.1) := h.sublist List.filter_sublist
  split
  next hpasses =>
    cases hk : find? k entries with
    | none =>
      refine (find?_eq_none_iff hpart).mpr fun e he => ?_
      exact (find?_eq_none_iff h).mp hk e (List.mem_filter.mp he).1
    | some v =>
      obtain ⟨k', hmem, heq⟩ := exists_mem_of_find? hk
      obtain rfl := LawfulEqOrd.eq_of_compare heq
      exact hpart.find?_of_mem (List.mem_filter.mpr ⟨hmem, hpasses⟩) heq
  next hfails =>
    exact find?_eq_none_of_forall hpart (P := (test · = true))
      (fun e he => (List.mem_filter.mp he).2) hfails

/-- A new entry can be taken out again. -/
theorem erase_insert (h : Ascending entries) (hk : ∀ e ∈ entries, k ≠ e.1) (v : ν) :
    erase k (insert k v entries) = entries := by
  have hnone : find? k entries = none := find?_eq_none_of_forall h hk fun hne => hne rfl
  refine eq_of_find? ((h.insert k v).erase k) h fun j => ?_
  rw [find?_erase (h.insert k v), find?_insert]
  split
  next heq => rw [LawfulEqOrd.eq_of_compare heq, hnone]
  next => rfl

end OrderedMap

/-! ## Tuples and relations -/

namespace Value

/-- The value is a tuple with its attributes in order, whose names have a property. -/
def IsTuple (v : Value) (P : String → Prop) : Prop :=
  ∃ attrs, v = .tuple attrs ∧ OrderedMap.Ascending attrs ∧ ∀ e ∈ attrs, P e.1

/-- The value is a set of tuples, all of them in order. Their names may differ. -/
def IsRelation (v : Value) : Prop :=
  ∃ rows, v = .set rows ∧ OrderedSet.Ascending rows ∧ ∀ row ∈ rows, row.IsTuple fun _ => True

theorem IsTuple.mono {v : Value} {P Q : String → Prop} (h : v.IsTuple P) (hPQ : ∀ n, P n → Q n) :
    v.IsTuple Q := by
  obtain ⟨attrs, rfl, hattrs, hP⟩ := h
  exact ⟨attrs, rfl, hattrs, fun e he => hPQ _ (hP e he)⟩

/-- A tuple without one of its attributes. -/
def withoutAttr (name : String) : Value → Value
  | .tuple attrs => .tuple (OrderedMap.erase name attrs)
  | v => v

/-- Two tuples as one. -/
def joined : Value → Value → Value
  | .tuple outer, .tuple inner => .tuple (OrderedMap.insertAll outer inner)
  | v, _ => v

/-- The members of the set that a row has under a name. -/
def group (name : String) (row : Value) : List Value :=
  ((row.getAttr name).bind asSet).toOption.getD []

/-- The rows of a nested relation, flattened: each row without the name is joined with each of the
tuples that it has under the name. -/
def flattened (name : String) (rows : List Value) : List Value :=
  rows.flatMap fun row => (row.group name).map (joined (row.withoutAttr name))

/-- The part of a tuple with the names that pass a test. -/
def part (test : String → Bool) (attrs : List (String × Value)) : Value :=
  .tuple (attrs.filter fun e => test e.1)

theorem isTuple_part {attrs : List (String × Value)} (h : OrderedMap.Ascending attrs)
    {test : String → Bool} {P : String → Prop} (hP : ∀ e ∈ attrs, test e.1 = true → P e.1) :
    (part test attrs).IsTuple P := by
  refine ⟨_, rfl, h.sublist List.filter_sublist, fun e he => ?_⟩
  obtain ⟨he, hpasses⟩ := List.mem_filter.mp he
  exact hP e he hpasses

/-- A tuple is two tuples joined, of which only one has names that pass a test, exactly if these are
its parts. -/
theorem tuple_equal_joined_iff {attrs : List (String × Value)} (hattrs : OrderedMap.Ascending attrs)
    {test : String → Bool} {outer inner : Value} (houter : outer.IsTuple (test · = false))
    (hinner : inner.IsTuple (test · = true)) :
    Equal (.tuple attrs) (joined outer inner) ↔
      Equal (part (!test ·) attrs) outer ∧ Equal (part test attrs) inner := by
  obtain ⟨outer, rfl, houter, hout⟩ := houter
  obtain ⟨inner, rfl, hinner, hin⟩ := hinner
  unfold joined part
  rw [tuple_beq_iff, tuple_beq_iff, tuple_beq_iff,
    OrderedMap.same_iff_find? hattrs (houter.insertAll inner),
    OrderedMap.same_iff_find? (hattrs.sublist List.filter_sublist) houter,
    OrderedMap.same_iff_find? (hattrs.sublist List.filter_sublist) hinner, ← forall_and]
  refine forall_congr' fun k => ?_
  rw [OrderedMap.find?_insertAll hinner, OrderedMap.find?_filter hattrs (!test ·),
    OrderedMap.find?_filter hattrs test]
  -- each name is in one of the parts only
  cases hk : test k with
  | true =>
    have hnone : OrderedMap.find? k outer = none :=
      OrderedMap.find?_eq_none_of_forall houter (P := (test · = false)) hout (by simp [hk])
    rw [hnone, Option.or_none]
    exact ⟨fun h => ⟨.none, h⟩, fun h => h.2⟩
  | false =>
    have hnone : OrderedMap.find? k inner = none :=
      OrderedMap.find?_eq_none_of_forall hinner (P := (test · = true)) hin (by simp [hk])
    rw [hnone, Option.none_or]
    exact ⟨fun h => ⟨h, .none⟩, fun h => h.1⟩

/-! ## Groups -/

/-- The inner parts of some tuples: a set that is not empty. -/
structure IsGroup (test : String → Bool) (members : List Value) : Prop where
  ascending : OrderedSet.Ascending members
  ne_nil : members ≠ []
  isTuple : ∀ t ∈ members, t.IsTuple (test · = true)

/-- The tuples are grouped. The groups are in the order of their outer parts, none of which has the
name for the inner ones, and an inner part is found under an outer part exactly if both are the
parts of one of the tuples. -/
structure Grouped (test : String → Bool) (name : String) (tuples : List (List (String × Value)))
    (groups : List (Value × List Value)) : Prop where
  ascending : OrderedMap.Ascending groups
  shape : ∀ g ∈ groups, (g.1.IsTuple fun n => test n = false ∧ n ≠ name) ∧ IsGroup test g.2
  found_iff (outer inner : Value) :
    (∃ t ∈ (OrderedMap.find? outer groups).getD [], Equal inner t) ↔
      ∃ attrs ∈ tuples, Equal outer (part (!test ·) attrs) ∧ Equal inner (part test attrs)

/-- The outer attributes of a tuple leave the name free. -/
def LeavesFree (test : String → Bool) (name : String) (attrs : List (String × Value)) : Prop :=
  ∀ e ∈ attrs, test e.1 = false → e.1 ≠ name

variable {inverse : Bool} {names : List String} {name : String}
  {tuples : List (List (String × Value))} {groups : List (Value × List Value)}

theorem grouped_nil (test : String → Bool) (name : String) : Grouped test name [] [] where
  ascending := .nil
  shape := List.forall_mem_nil _
  found_iff outer inner := by simp [OrderedMap.find?]

/-- What is found under an outer part, be it nothing, and one more inner part are a group. -/
theorem Grouped.isGroup_insert {test : String → Bool} (h : Grouped test name tuples groups)
    (outer : Value) {inner : Value} (hinner : inner.IsTuple (test · = true)) :
    IsGroup test (OrderedSet.insert inner ((OrderedMap.find? outer groups).getD [])) := by
  obtain ⟨hascending, htuples⟩ : OrderedSet.Ascending ((OrderedMap.find? outer groups).getD []) ∧
      ∀ t ∈ (OrderedMap.find? outer groups).getD [], t.IsTuple (test · = true) := by
    cases hfind : OrderedMap.find? outer groups with
    | none => exact ⟨.nil, List.forall_mem_nil _⟩
    | some members =>
      obtain ⟨key, hmem, -⟩ := OrderedMap.exists_mem_of_find? hfind
      have hgroup := (h.shape _ hmem).2
      exact ⟨hgroup.ascending, hgroup.isTuple⟩
  refine ⟨hascending.insert inner, fun hnil => ?_, fun t ht => ?_⟩
  · obtain ⟨t, ht, -⟩ := OrderedSet.exists_mem_insert_iff.mpr (.inl (Std.compare_self (a := inner)))
    rw [hnil] at ht
    cases ht
  · rcases OrderedSet.mem_of_mem_insert ht with rfl | ht
    · exact hinner
    · exact htuples t ht

/-- After a tuple is put into its group, its inner part is found under its outer part, besides what
was found before. -/
theorem found_addToGroup_iff (attrs : List (String × Value)) (outer inner : Value) :
    (∃ t ∈ (OrderedMap.find? outer (addToGroup inverse names groups attrs)).getD [],
      Equal inner t) ↔
      (∃ t ∈ (OrderedMap.find? outer groups).getD [], Equal inner t) ∨
        Equal outer (part (!selected inverse names ·) attrs) ∧
          Equal inner (part (selected inverse names) attrs) := by
  have hfind : OrderedMap.find? outer (addToGroup inverse names groups attrs) =
      if Ord.compare outer (part (!selected inverse names ·) attrs) = .eq then
        some (OrderedSet.insert (part (selected inverse names) attrs)
          ((OrderedMap.find? (part (!selected inverse names ·) attrs) groups).getD []))
      else OrderedMap.find? outer groups := OrderedMap.find?_insert ..
  have hinsert (members : List Value) :
      (∃ t ∈ OrderedSet.insert (part (selected inverse names) attrs) members, Equal inner t) ↔
        Equal inner (part (selected inverse names) attrs) ∨ ∃ t ∈ members, Equal inner t := by
    simp only [Equal, beq_iff]
    exact OrderedSet.exists_mem_insert_iff
  rw [hfind]
  by_cases heq : Ord.compare outer (part (!selected inverse names ·) attrs) = .eq
  · have houter : Equal outer (part (!selected inverse names ·) attrs) := beq_iff.mpr heq
    rw [if_pos heq, Option.getD_some, hinsert, OrderedMap.find?_congr heq, or_comm]
    exact or_congr_right (and_iff_right houter).symm
  · rw [if_neg heq]
    exact (or_iff_left fun hparts => heq (beq_iff.mp hparts.1)).symm

/-- One more tuple goes into the group of its outer part. -/
theorem Grouped.addToGroup (h : Grouped (selected inverse names) name tuples groups)
    {attrs : List (String × Value)} (hattrs : OrderedMap.Ascending attrs)
    (hfree : LeavesFree (selected inverse names) name attrs) :
    Grouped (selected inverse names) name (tuples ++ [attrs])
      (addToGroup inverse names groups attrs) := by
  have houter : (part (!selected inverse names ·) attrs).IsTuple fun n =>
      selected inverse names n = false ∧ n ≠ name := by
    refine isTuple_part hattrs fun e he hpasses => ?_
    have hfails : selected inverse names e.1 = false := by simpa using hpasses
    exact ⟨hfails, hfree e he hfails⟩
  have hinner : (part (selected inverse names) attrs).IsTuple
      (selected inverse names · = true) := isTuple_part hattrs fun _ _ hpasses => hpasses
  refine ⟨h.ascending.insert _ _, OrderedMap.forall_mem_insert
    (P := (IsTuple · fun n => selected inverse names n = false ∧ n ≠ name)) h.shape houter
    (h.isGroup_insert _ hinner), fun outer inner => ?_⟩
  rw [found_addToGroup_iff, h.found_iff]
  simp only [List.mem_append, List.mem_singleton, or_and_right, exists_or, exists_eq_left]

/-- The tuples of a relation are put into their groups one after the other. -/
theorem groupRows_tuples (inverse : Bool) (names : List String)
    (tuples : List (List (String × Value))) (groups : List (Value × List Value)) :
    groupRows inverse names groups (tuples.map .tuple) =
      .ok (tuples.foldl (Value.addToGroup inverse names) groups) := by
  induction tuples generalizing groups with
  | nil => rfl
  | cons attrs tuples ih => exact ih _

theorem Grouped.foldl (h : Grouped (selected inverse names) name tuples groups)
    {new : List (List (String × Value))} (hnew : ∀ attrs ∈ new, OrderedMap.Ascending attrs)
    (hfree : ∀ attrs ∈ new, LeavesFree (selected inverse names) name attrs) :
    Grouped (selected inverse names) name (tuples ++ new)
      (new.foldl (Value.addToGroup inverse names) groups) := by
  induction new generalizing tuples groups with
  | nil => rwa [List.append_nil]
  | cons attrs new ih =>
    rw [List.forall_mem_cons] at hnew hfree
    rw [List.append_cons]
    exact ih (h.addToGroup hnew.1 hfree.1) hnew.2 hfree.2

/-! ## Rows -/

/-- The row of a group has the group under the name, and is the outer part without it. -/
theorem groupRow_spec {test : String → Bool} {g : Value × List Value}
    (h : g.1.IsTuple fun n => test n = false ∧ n ≠ name) :
    (groupRow name g).IsTuple (fun _ => True) ∧
      (groupRow name g).getAttr name = .ok (.set g.2) ∧
      (groupRow name g).withoutAttr name = g.1 := by
  obtain ⟨outer, members⟩ := g
  obtain ⟨attrs, rfl, hattrs, hnames⟩ := h
  have hfind : OrderedMap.find? name (OrderedMap.insert name (.set members) attrs) =
      some (.set members) := by rw [OrderedMap.find?_insert, if_pos Std.compare_self]
  refine ⟨⟨_, rfl, hattrs.insert _ _, fun _ _ => trivial⟩, ?_, ?_⟩
  · rw [groupRow, getAttr, hfind]
  · exact congrArg Value.tuple
      (OrderedMap.erase_insert hattrs (fun e he => (hnames e he).2.symm) _)

/-- Equal tuples are equal without an attribute. -/
theorem Equal.withoutAttr {v w : Value} (h : Equal v w) (name : String) :
    Equal (v.withoutAttr name) (w.withoutAttr name) := by
  cases h.sameKind with
  | tuple => exact tuple_beq_iff.mpr ((tuple_beq_iff.mp h).erase name)
  | _ => exact h

section

variable {test : String → Bool} (h : Grouped test name tuples groups)

include h

/-- Each outer part has one group only. -/
theorem Grouped.eq_of_equal {g g' : Value × List Value} (hg : g ∈ groups) (hg' : g' ∈ groups)
    (heq : Equal g.1 g'.1) : g = g' := by
  by_contra hne
  have : Std.Symm fun a b : Value × List Value => Ord.compare a.1 b.1 ≠ .eq :=
    ⟨fun _ _ hab hba => hab (OrientedCmp.eq_symm hba)⟩
  exact h.ascending.pairwise_ne.forall hg hg' hne (beq_iff.mp heq)

/-- The rows of two groups are different, even without the name. -/
theorem Grouped.eq_of_equal_rows {g g' : Value × List Value} (hg : g ∈ groups) (hg' : g' ∈ groups)
    (heq : Equal ((groupRow name g).withoutAttr name) ((groupRow name g').withoutAttr name)) :
    g = g' := by
  rw [(groupRow_spec (h.shape g hg).1).2.2, (groupRow_spec (h.shape g' hg').1).2.2] at heq
  exact h.eq_of_equal hg hg' heq

/-- No row is lost when the rows are put into a set. -/
theorem Grouped.mem_rows_iff {row : Value} :
    row ∈ OrderedSet.ofList (groups.map (groupRow name)) ↔ ∃ g ∈ groups, groupRow name g = row := by
  rw [← List.mem_map]
  refine ⟨OrderedSet.mem_of_mem_ofList, fun hrow => ?_⟩
  obtain ⟨row', hrow', heq⟩ :=
    OrderedSet.exists_mem_ofList_iff.mpr ⟨row, hrow, Std.compare_self⟩
  obtain ⟨g, hg, rfl⟩ := List.mem_map.mp hrow
  obtain ⟨g', hg', rfl⟩ := List.mem_map.mp (OrderedSet.mem_of_mem_ofList hrow')
  have hsame : g = g' := h.eq_of_equal_rows hg hg' (Equal.withoutAttr (beq_iff.mpr heq) name)
  rwa [hsame]

theorem Grouped.pairwise_rows :
    (OrderedSet.ofList (groups.map (groupRow name))).Pairwise fun row row' =>
      ¬Equal (row.withoutAttr name) (row'.withoutAttr name) := by
  refine (OrderedSet.ascending_ofList _).imp_of_mem fun hrow hrow' hlt heq => ?_
  obtain ⟨g, hg, rfl⟩ := h.mem_rows_iff.mp hrow
  obtain ⟨g', hg', rfl⟩ := h.mem_rows_iff.mp hrow'
  rw [h.eq_of_equal_rows hg hg' heq, Std.compare_self] at hlt
  cases hlt

/-- The flattened rows are what the groups hold, joined with their outer parts. -/
theorem Grouped.mem_flattened_iff {v : Value} :
    v ∈ flattened name (OrderedSet.ofList (groups.map (groupRow name))) ↔
      ∃ g ∈ groups, ∃ t ∈ g.2, joined g.1 t = v := by
  have hrow (g : Value × List Value) (hg : g ∈ groups) : v ∈ ((groupRow name g).group name).map
      (joined ((groupRow name g).withoutAttr name)) ↔ ∃ t ∈ g.2, joined g.1 t = v := by
    obtain ⟨-, hattr, hwithout⟩ := groupRow_spec (h.shape g hg).1
    rw [group, hattr, hwithout]
    exact List.mem_map
  rw [flattened, List.mem_flatMap]
  constructor
  · rintro ⟨row, hmem, hv⟩
    obtain ⟨g, hg, rfl⟩ := h.mem_rows_iff.mp hmem
    exact ⟨g, hg, (hrow g hg).mp hv⟩
  · rintro ⟨g, hg, hv⟩
    exact ⟨_, h.mem_rows_iff.mpr ⟨g, hg, rfl⟩, (hrow g hg).mpr hv⟩

/-- The flattened rows are the tuples that were grouped. -/
theorem Grouped.matched_flattened (htuples : ∀ attrs ∈ tuples, OrderedMap.Ascending attrs) :
    Matched Equal (flattened name (OrderedSet.ofList (groups.map (groupRow name))))
      (tuples.map .tuple) := by
  have hjoined {attrs : List (String × Value)} {g : Value × List Value} {t : Value}
      (hattrs : attrs ∈ tuples) (hg : g ∈ groups) (ht : t ∈ g.2) :
      Equal (.tuple attrs) (joined g.1 t) ↔
        Equal (part (!test ·) attrs) g.1 ∧ Equal (part test attrs) t :=
    tuple_equal_joined_iff (htuples attrs hattrs) ((h.shape g hg).1.mono fun _ hn => hn.1)
      ((h.shape g hg).2.isTuple t ht)
  constructor
  · intro v hv
    obtain ⟨g, hg, t, ht, rfl⟩ := h.mem_flattened_iff.mp hv
    have hfind : OrderedMap.find? g.1 groups = some g.2 :=
      h.ascending.find?_of_mem hg Std.compare_self
    obtain ⟨attrs, hattrs, houter, hinner⟩ := (h.found_iff g.1 t).mp
      ⟨t, by rwa [hfind], beq_equivalence.refl t⟩
    refine ⟨_, List.mem_map_of_mem hattrs, beq_equivalence.symm ?_⟩
    exact (hjoined hattrs hg ht).mpr ⟨beq_equivalence.symm houter, beq_equivalence.symm hinner⟩
  · intro v hv
    obtain ⟨attrs, hattrs, rfl⟩ := List.mem_map.mp hv
    obtain ⟨t, ht, hinner⟩ := (h.found_iff _ _).mpr
      ⟨attrs, hattrs, beq_equivalence.refl _, beq_equivalence.refl _⟩
    cases hfind : OrderedMap.find? (part (!test ·) attrs) groups with
    | none => rw [hfind] at ht; cases ht
    | some members =>
      rw [hfind] at ht
      obtain ⟨outer, hg, houter⟩ := OrderedMap.exists_mem_of_find? hfind
      refine ⟨_, h.mem_flattened_iff.mpr ⟨_, hg, t, ht, rfl⟩, beq_equivalence.symm ?_⟩
      exact (hjoined hattrs hg ht).mpr ⟨beq_iff.mpr houter, hinner⟩

end

/-! ## Nesting a relation -/

/-- A relation is a list of tuples. -/
theorem exists_tuples {rows : List Value} (h : ∀ row ∈ rows, row.IsTuple fun _ => True) :
    ∃ tuples : List (List (String × Value)), rows = tuples.map .tuple ∧
      ∀ attrs ∈ tuples, OrderedMap.Ascending attrs := by
  induction rows with
  | nil => exact ⟨[], rfl, List.forall_mem_nil _⟩
  | cons row rows ih =>
    rw [List.forall_mem_cons] at h
    obtain ⟨attrs, rfl, hattrs, -⟩ := h.1
    obtain ⟨tuples, rfl, htuples⟩ := ih h.2
    exact ⟨attrs :: tuples, rfl, List.forall_mem_cons.mpr ⟨hattrs, htuples⟩⟩

theorem eval_nest {lhs : Expr} {scope : Scope} {next last : Identity} {v w : Value}
    (h : unbounded.eval lhs scope next = .done (v, last))
    (hnest : v.nest inverse names name = .ok w) (span : Span) :
    unbounded.eval (.nest lhs inverse names name span) scope next = .done (w, last) := by
  rw [unbounded_eval, Evaluator.evalStep, Run.bind_apply, h]
  dsimp only
  rw [hnest]
  rfl

/-- Nesting groups without loss. For every relation, every list of attributes, turned around or not,
and every name that no tuple of the relation has among the attributes that stay outside:

* nesting succeeds, on values and in expressions, and gives a relation;
* every row of it has under the name a set of tuples that is not empty;
* without the name the rows are pairwise different;
* flattening the rows gives back the relation. -/
theorem nest_lossless {rows : List Value} (hrows : (Value.set rows).IsRelation) (inverse : Bool)
    (names : List String) {name : String}
    (hname : ∀ attrs, .tuple attrs ∈ rows → ∀ e ∈ attrs,
      selected inverse names e.1 = false → e.1 ≠ name) :
    ∃ nested, (Value.set rows).nest inverse names name = .ok (.set nested) ∧
      (∀ {lhs : Expr} {scope : Scope} {next last : Identity} (span : Span),
        unbounded.eval lhs scope next = .done (.set rows, last) →
        unbounded.eval (.nest lhs inverse names name span) scope next =
          .done (.set nested, last)) ∧
      (Value.set nested).IsRelation ∧
      (∀ row ∈ nested, ∃ group, row.getAttr name = .ok (.set group) ∧ group ≠ [] ∧
        (Value.set group).IsRelation) ∧
      (nested.Pairwise fun row row' =>
        ¬Equal (row.withoutAttr name) (row'.withoutAttr name)) ∧
      Equal (.set (OrderedSet.ofList (flattened name nested))) (.set rows) := by
  obtain ⟨_, ⟨⟩, hascending, hrows⟩ := hrows
  obtain ⟨tuples, rfl, htuples⟩ := exists_tuples hrows
  have hfree : ∀ attrs ∈ tuples, LeavesFree (selected inverse names) name attrs :=
    fun attrs hattrs => hname attrs (List.mem_map_of_mem hattrs)
  have hgrouped := (grouped_nil (selected inverse names) name).foldl htuples hfree
  rw [List.nil_append] at hgrouped
  have hnest : (Value.set (tuples.map .tuple)).nest inverse names name = .ok (.set
      (OrderedSet.ofList ((tuples.foldl (addToGroup inverse names) []).map (groupRow name)))) := by
    show (groupRows inverse names [] (tuples.map .tuple) >>= _) = _
    rw [groupRows_tuples]
    rfl
  refine ⟨_, hnest, fun span heval => eval_nest heval hnest span,
    ⟨_, rfl, OrderedSet.ascending_ofList _, fun row hrow => ?_⟩, fun row hrow => ?_,
    hgrouped.pairwise_rows, ?_⟩
  · obtain ⟨g, hg, rfl⟩ := hgrouped.mem_rows_iff.mp hrow
    exact (groupRow_spec (hgrouped.shape g hg).1).1
  · obtain ⟨g, hg, rfl⟩ := hgrouped.mem_rows_iff.mp hrow
    obtain ⟨houter, hgroup⟩ := hgrouped.shape g hg
    exact ⟨g.2, (groupRow_spec houter).2.1, hgroup.ne_nil, g.2, rfl, hgroup.ascending,
      fun t ht => (hgroup.isTuple t ht).mono fun _ _ => trivial⟩
  · rw [set_beq_iff_matched (OrderedSet.ascending_ofList _) hascending, matched_equal_iff]
    intro v
    rw [(holds_ofList _).mem_iff]
    exact matched_equal_iff.mp (hgrouped.matched_flattened htuples) v

/-- In `{(a: -0, b: "x"), (a: 0, b: "y"), (b: "z")}` the attribute `b` is nested under its own name.
The two zeros are in one row, and the tuple without `a` is in a row of its own. -/
theorem nest_lossless_zeros :
    let rows : List Value :=
      [.tuple [("a", .number .negZero), ("b", .string "x")],
       .tuple [("a", .number .zero), ("b", .string "y")], .tuple [("b", .string "z")]]
    (Value.set rows).IsRelation ∧
    (∀ attrs, .tuple attrs ∈ rows → ∀ e ∈ attrs, selected false ["b"] e.1 = false → e.1 ≠ "b") ∧
    ∃ nested, (Value.set rows).nest false ["b"] "b" = .ok (.set nested) ∧
      (nested.Pairwise fun row row' => ¬Equal (row.withoutAttr "b") (row'.withoutAttr "b")) ∧
      Equal (.set (OrderedSet.ofList (flattened "b" nested))) (.set rows) := by
  intro rows
  have hrows : (Value.set rows).IsRelation := by
    refine ⟨rows, rfl, by decide, fun row hrow => ?_⟩
    simp only [rows, List.mem_cons, List.not_mem_nil, or_false] at hrow
    rcases hrow with rfl | rfl | rfl <;> exact ⟨_, rfl, by decide, fun _ _ => trivial⟩
  have hname : ∀ attrs, .tuple attrs ∈ rows → ∀ e ∈ attrs, selected false ["b"] e.1 = false →
      e.1 ≠ "b" := by
    rintro attrs - e - hfails heq
    rw [heq] at hfails
    exact absurd hfails (by decide)
  obtain ⟨nested, hnest, -, -, -, hdifferent, hflat⟩ := nest_lossless hrows false ["b"] hname
  exact ⟨hrows, hname, nested, hnest, hdifferent, hflat⟩

end Value

end Relational
