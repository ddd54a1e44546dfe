import Relational.Proofs.Pairs
import Relational.Proofs.SetAlgebra

/-!
# Mapping and filtering as homomorphisms

The operators `=>`, `>>` and `where` apply their right side to the elements of a collection, one at
a time. Each application may make functions and use up identities. But a result without functions
does not depend on these, so every element has a result of its own, wherever it stands and whatever
was applied before (`Run.Constant`). Then the operators are functions of the collection, and they go
through unions and concatenations:

> `Expr.map_filter_homomorphic`: to map or filter a union of sets is to unite the mapped or filtered
> sets, if equal elements have equal results. To map or filter a concatenation of arrays is to
> concatenate, and what is mapped keeps its places and its holes. Filtering twice is filtering once.
-/

namespace Relational

open Std

/-! ## Runs with one result -/

namespace Run

variable {α β : Type} {next : Nat}

/-- From the identity on, the run ends always, and always with the same result. -/
def Constant (r : Run α) (next : Nat) (a : α) : Prop :=
  ∀ start : Nat, next ≤ start → ∃ last : Nat, start ≤ last ∧ r start = .done (a, last)

theorem constant_pure (a : α) : (pure a : Run α).Constant next a := fun start _ =>
  ⟨start, Nat.le_refl start, rfl⟩

theorem Constant.bind {r : Run α} {f : α → Run β} {a : α} {b : β} (hr : r.Constant next a)
    (hf : (f a).Constant next b) : (r >>= f).Constant next b := by
  intro start hstart
  obtain ⟨between, hle, hdone⟩ := hr start hstart
  obtain ⟨last, hle', hdone'⟩ := hf between (hstart.trans hle)
  exact ⟨last, hle.trans hle', bind_eq_done_iff.mpr ⟨a, between, hdone, hdone'⟩⟩

theorem Constant.within {r : Run α} {a : α} (hr : r.Constant next a) (span : Span) :
    (within span r).Constant next a := by
  intro start hstart
  obtain ⟨last, hle, hdone⟩ := hr start hstart
  exact ⟨last, hle, by rw [within_apply, hdone]⟩

theorem Constant.traverse {f : α → Run β} {g : α → β} {as : List α}
    (h : ∀ a ∈ as, (f a).Constant next (g a)) : (traverse f as).Constant next (as.map g) := by
  induction as with
  | nil => exact constant_pure []
  | cons a as ih =>
    obtain ⟨ha, has⟩ := List.forall_mem_cons.mp h
    exact ha.bind ((ih has).bind (constant_pure _))

theorem Constant.traverseItems {f : α → Run β} {g : α → β} {as : List (Option α)}
    (h : ∀ a, some a ∈ as → (f a).Constant next (g a)) :
    (traverseItems f as).Constant next (as.map (Option.map g)) := by
  induction as with
  | nil => exact constant_pure []
  | cons a as ih =>
    have has := ih fun b hb => h b (List.mem_cons_of_mem a hb)
    cases a with
    | none => exact has.bind (constant_pure _)
    | some a => exact (h a List.mem_cons_self).bind (has.bind (constant_pure _))

theorem Constant.filter {test : α → Run Bool} {p : α → Bool} {as : List α}
    (h : ∀ a ∈ as, (test a).Constant next (p a)) :
    (filter test as).Constant next (as.filter p) := by
  induction as with
  | nil => exact constant_pure []
  | cons a as ih =>
    obtain ⟨ha, has⟩ := List.forall_mem_cons.mp h
    rw [List.filter_cons]
    exact ha.bind ((ih has).bind (constant_pure _))

end Run

/-! ## Right sides -/

/-- The expression `v -> e`, which applies a right side to a value. -/
def Expr.appliedTo (rhs : Expr) (v : Value) : Expr :=
  .binary .arrow (.literal v .unknown) rhs .unknown

/-- From the identity on, a right side takes each of the values to one without functions. The
functions that it can reach were made before. -/
structure Expr.Takes (rhs : Expr) (scope : Scope) (next : Nat) (vs : List Value)
    (g : Value → Value) : Prop where
  reach : ∀ v ∈ vs, (rhs.appliedTo v).EveryIn (MadeBefore next) scope
  succeeds : ∀ v ∈ vs, ∃ last, unbounded.eval (rhs.appliedTo v) scope next = .done (g v, last)
  data : ∀ v ∈ vs, (g v).hasFunction = false

theorem eval_appliedTo (rhs : Expr) (v : Value) (scope : Scope) :
    unbounded.eval (rhs.appliedTo v) scope = Run.within .unknown (unbounded.apply rhs scope v) := by
  rw [unbounded_eval]
  show Run.within .unknown (unbounded.eval (.literal v .unknown) scope >>= _) = _
  rw [unbounded_eval_literal, pure_bind]

namespace Expr.Takes

variable {rhs : Expr} {scope : Scope} {next : Nat} {vs : List Value} {g : Value → Value}

theorem mono {ws : List Value} (h : rhs.Takes scope next vs g) (hsub : ∀ w ∈ ws, w ∈ vs) :
    rhs.Takes scope next ws g where
  reach w hw := h.reach w (hsub w hw)
  succeeds w hw := h.succeeds w (hsub w hw)
  data w hw := h.data w (hsub w hw)

theorem left {ws : List Value} (h : rhs.Takes scope next (vs ++ ws) g) :
    rhs.Takes scope next vs g :=
  h.mono fun _ hv => List.mem_append_left ws hv

theorem right {ws : List Value} (h : rhs.Takes scope next (vs ++ ws) g) :
    rhs.Takes scope next ws g :=
  h.mono fun _ hw => List.mem_append_right vs hw

theorem union {ws : List Value} (h : rhs.Takes scope next (vs ++ ws) g) :
    rhs.Takes scope next (OrderedSet.union vs ws) g :=
  h.mono fun _ hv => List.mem_append.mpr (OrderedSet.mem_of_mem_union hv)

/-- What the right side made before makes no difference to its result. -/
theorem apply (h : rhs.Takes scope next vs g) : ∀ v ∈ vs,
    (unbounded.apply rhs scope v).Constant next (g v) := by
  intro v hv start hstart
  obtain ⟨last, hdone⟩ := h.succeeds v hv
  -- the two evaluations may make different functions, but none of them is in the result
  have halike := (h.reach v hv).alike (Nat.le_refl next) hstart
  rw [hdone] at halike
  obtain ⟨⟨w, last'⟩, hw, hexchanged⟩ := halike.exists_done
  obtain rfl : g v = w := hexchanged.eq_of_data (h.data v hv)
  refine ⟨last', eval_le hw, ?_⟩
  rw [eval_appliedTo, Run.within_apply] at hw
  split at hw
  next => cases hw
  next => exact hw

theorem passes (h : rhs.Takes scope next vs g) : ∀ v ∈ vs,
    (unbounded.passes rhs scope v).Constant next (g v).truthy := fun v hv =>
  (h.apply v hv).bind (Run.constant_pure _)

end Expr.Takes

/-! ## What the operators do with a collection -/

namespace Value

/-- The collections that can be filtered. -/
inductive IsCollection : Value → Prop
  | set (members : List Value) : IsCollection (.set members)
  | array (items : List (Option Value)) : IsCollection (.array items)
  | dict (entries : List (Value × Value)) : IsCollection (.dict entries)

/-- The values that a right side is applied to. -/
def visited : Value → List Value
  | .set members => members
  | .array items => present items
  | .dict entries => entries.map fun entry => .pair entry.1 entry.2
  | _ => []

/-- What is left of a collection. An item of an array that does not pass leaves a hole. -/
def keep (test : Value → Bool) : Value → Value
  | .set members => .set (members.filter test)
  | .array items => .array (items.map (Option.filter test))
  | .dict entries => .dict (entries.filter fun entry => test (.pair entry.1 entry.2))
  | v => v

theorem mem_present_iff {items : List (Option Value)} {v : Value} :
    v ∈ present items ↔ some v ∈ items := by
  simp [present]

theorem isCollection_keep {v : Value} (hv : v.IsCollection) (test : Value → Bool) :
    (v.keep test).IsCollection := by
  cases hv with
  | set members => exact .set _
  | array items => exact .array _
  | dict entries => exact .dict _

theorem keep_keep (test : Value → Bool) (v : Value) : (v.keep test).keep test = v.keep test := by
  cases v with
  | set members => simp [keep]
  | array items => simp [keep]
  | dict entries => simp [keep]
  | _ => rfl

theorem visited_keep_subset (test : Value → Bool) (v : Value) :
    ∀ w ∈ (v.keep test).visited, w ∈ v.visited := by
  intro w hw
  cases v with
  | set members => exact (List.mem_filter.mp hw).1
  | array items =>
    obtain ⟨item, hitem, heq⟩ := List.mem_map.mp (mem_present_iff.mp hw)
    rw [(Option.filter_eq_some_iff.mp heq).1] at hitem
    exact mem_present_iff.mpr hitem
  | dict entries =>
    obtain ⟨entry, hentry, rfl⟩ := List.mem_map.mp hw
    exact List.mem_map_of_mem (List.mem_filter.mp hentry).1
  | _ => exact hw

end Value

/-- The mapping `>>` goes through the items of an array as `=>` does. -/
theorem Evaluator.mapSequence_array (ev : Evaluator) (rhs : Expr) (scope : Scope)
    (items : List (Option Value)) :
    ev.mapSequence rhs false scope (.array items) = ev.mapElements rhs scope (.array items) := by
  have hitems (start : Nat) : ev.mapItemsFrom rhs false scope start items =
      Run.traverseItems (ev.apply rhs scope) items := by
    induction items generalizing start with
    | nil => rfl
    | cons item items ih =>
      cases item with
      | none => rw [mapItemsFrom, Run.traverseItems, ih]
      | some v => rw [mapItemsFrom, Run.traverseItems, ih]; rfl
  rw [mapSequence, mapElements, hitems]

namespace Expr.Takes

variable {rhs : Expr} {scope : Scope} {next : Nat} {g : Value → Value}

theorem mapElements_set {members : List Value} (h : rhs.Takes scope next members g) :
    (unbounded.mapElements rhs scope (.set members)).Constant next
      (.set (OrderedSet.ofList (members.map g))) :=
  (Run.Constant.traverse h.apply).bind (Run.constant_pure _)

theorem mapElements_array {items : List (Option Value)}
    (h : rhs.Takes scope next (Value.present items) g) :
    (unbounded.mapElements rhs scope (.array items)).Constant next
      (.array (items.map (Option.map g))) :=
  (Run.Constant.traverseItems fun v hv => h.apply v (Value.mem_present_iff.mpr hv)).bind
    (Run.constant_pure _)

/-- Filtering keeps the elements whose results are true. -/
theorem filterElements {v : Value} (hv : v.IsCollection) (h : rhs.Takes scope next v.visited g) :
    (unbounded.filterElements rhs scope v).Constant next (v.keep fun w => (g w).truthy) := by
  cases hv with
  | set members => exact (Run.Constant.filter h.passes).bind (Run.constant_pure _)
  | dict entries =>
    refine (Run.Constant.filter fun entry hentry => ?_).bind (Run.constant_pure _)
    exact h.passes _ (List.mem_map_of_mem hentry)
  | array items =>
    have hkept := Run.Constant.traverseItems (f := fun v => do
        let keep ← unbounded.passes rhs scope v
        pure (if keep then some v else none)) fun v (hv : some v ∈ items) =>
      (h.passes v (Value.mem_present_iff.mpr hv)).bind (Run.constant_pure _)
    have hitem (item : Option Value) :
        (item.map fun v => if (g v).truthy then some v else none).join =
          item.filter fun v => (g v).truthy := by
      cases item with
      | none => rfl
      | some v => rfl
    have hjoin : (items.map (Option.map fun v => if (g v).truthy then some v else none)).map
        Option.join = items.map (Option.filter fun v => (g v).truthy) := by
      rw [List.map_map]
      exact List.map_congr_left fun item _ => hitem item
    rw [Value.keep, ← hjoin]
    exact hkept.bind (Run.constant_pure _)

end Expr.Takes

/-! ## Expressions with one value -/

namespace Expr

variable {rhs lhs lhs' : Expr} {scope : Scope} {next : Nat} {v w : Value}

/-- From the identity on, the expression always has the value. -/
def Denotes (e : Expr) (scope : Scope) (next : Nat) (v : Value) : Prop :=
  (unbounded.eval e scope).Constant next v

theorem denotes_literal (v : Value) (span : Span) : (literal v span).Denotes scope next v := by
  rw [Denotes, unbounded_eval_literal]
  exact Run.constant_pure v

/-- An operator that starts with its left side has the value that it goes on to from there. -/
theorem Denotes.operator {op : BinaryOp} {f : Value → Run Value} (h : lhs.Denotes scope next v)
    (hop : unbounded.binary op lhs rhs scope = (unbounded.eval lhs scope >>= f))
    (hw : (f v).Constant next w) (span : Span) : (binary op lhs rhs span).Denotes scope next w := by
  rw [Denotes, unbounded_eval, Evaluator.evalStep, hop]
  exact (Run.Constant.bind h hw).within span

theorem Denotes.where_ (h : lhs.Denotes scope next v) (hv : v.IsCollection) {g : Value → Value}
    (hrhs : rhs.Takes scope next v.visited g) (span : Span) :
    (binary .where_ lhs rhs span).Denotes scope next (v.keep fun w => (g w).truthy) :=
  h.operator rfl (hrhs.filterElements hv) span

theorem Denotes.union {as bs : List Value} (h : lhs.Denotes scope next (.set as))
    (h' : lhs'.Denotes scope next (.set bs)) (span : Span) :
    (binary .union lhs lhs' span).Denotes scope next (.set (OrderedSet.union as bs)) := by
  refine h.operator rfl (Run.Constant.bind h' ?_) span
  exact Run.constant_pure _

theorem Denotes.concat {xs ys : List (Option Value)} (h : lhs.Denotes scope next (.array xs))
    (h' : lhs'.Denotes scope next (.array ys)) (span : Span) :
    (binary .concat lhs lhs' span).Denotes scope next (.array (xs ++ ys)) := by
  refine h.operator rfl (Run.Constant.bind h' ?_) span
  exact Run.constant_pure _

end Expr

/-- An operator changes each item of an array in its place, where `g` gives the results of its right
side. -/
inductive BinaryOp.Itemwise (g : Value → Value) : BinaryOp → (Option Value → Option Value) → Prop
  | dArrow : Itemwise g .dArrow (Option.map g)
  | seqArrow : Itemwise g (.seqArrow false) (Option.map g)
  | where_ : Itemwise g .where_ (Option.filter fun v => (g v).truthy)

theorem BinaryOp.Itemwise.denotes {op : BinaryOp} {g : Value → Value}
    {f : Option Value → Option Value} (hop : op.Itemwise g f) {lhs rhs : Expr} {scope : Scope}
    {next : Nat} {items : List (Option Value)} (h : lhs.Denotes scope next (.array items))
    (hrhs : rhs.Takes scope next (Value.present items) g) (span : Span) :
    (Expr.binary op lhs rhs span).Denotes scope next (.array (items.map f)) := by
  cases hop with
  | dArrow => exact h.operator rfl hrhs.mapElements_array span
  | seqArrow =>
    refine h.operator rfl ?_ span
    rw [Evaluator.mapSequence_array]
    exact hrhs.mapElements_array
  | where_ => exact h.where_ (.array items) hrhs span

/-- Each of the three operators is one of these, and mapping leaves the holes as they are. -/
theorem BinaryOp.exists_itemwise {op : BinaryOp} (g : Value → Value)
    (h : op = .dArrow ∨ op = .seqArrow false ∨ op = .where_) : ∃ f, op.Itemwise g f ∧
      (op ≠ .where_ → ∀ item, (f item).isSome = item.isSome) := by
  rcases h with rfl | rfl | rfl
  · exact ⟨_, .dArrow, fun _ _ => Option.isSome_map⟩
  · exact ⟨_, .seqArrow, fun _ _ => Option.isSome_map⟩
  · exact ⟨_, .where_, fun h => absurd rfl h⟩

/-! ## Sets -/

namespace OrderedSet

variable {α : Type} [Ord α] [TransOrd α] {xs ys : List α}

/-- A property of the members that does not tell equal ones apart holds of a member of a union if it
holds of a member of either set. -/
theorem exists_mem_union_iff {P : α → Prop}
    (hP : ∀ x ∈ xs ++ ys, ∀ y ∈ xs ++ ys, compare x y = .eq → P x → P y) :
    (∃ z ∈ union xs ys, P z) ↔ (∃ x ∈ xs, P x) ∨ ∃ y ∈ ys, P y := by
  have hmem : ∀ z ∈ union xs ys, z ∈ xs ++ ys := fun z hz =>
    List.mem_append.mpr (mem_of_mem_union hz)
  have hfound : ∀ x ∈ xs ++ ys, P x → ∃ z ∈ union xs ys, P z := by
    intro x hx hPx
    obtain ⟨z, hz, hxz⟩ : ∃ z ∈ union xs ys, compare x z = .eq :=
      exists_mem_dedupFirst_iff.mpr
        ⟨x, List.mem_merge.mpr (List.mem_append.mp hx), compare_self⟩
    exact ⟨z, hz, hP x hx z (hmem z hz) hxz hPx⟩
  constructor
  · rintro ⟨z, hz, hPz⟩
    exact (mem_of_mem_union hz).imp (fun hx => ⟨z, hx, hPz⟩) fun hy => ⟨z, hy, hPz⟩
  · rintro (⟨x, hx, hPx⟩ | ⟨y, hy, hPy⟩)
    · exact hfound x (List.mem_append_left ys hx) hPx
    · exact hfound y (List.mem_append_right xs hy) hPy

end OrderedSet

theorem Number.isZero_eq (x : Number) : x.isZero = decide (x.key = 0) := by
  unfold isZero key
  split <;> simp [Bool.beq_eq_decide_eq]

namespace Value

/-- Equal values are both true or both false. -/
theorem Equal.truthy_eq {a b : Value} (h : Equal a b) : a.truthy = b.truthy := by
  have heq := beq_iff.mp h
  cases h.sameKind with
  | bool x y => rw [LawfulEqOrd.eq_of_compare (heq : Ord.compare x y = .eq)]
  | number x y =>
    have hkey : x.key = y.key := LawfulEqOrd.eq_of_compare heq
    rw [truthy, truthy, Number.isZero_eq, Number.isZero_eq, hkey]
  | string x y => rw [LawfulEqOrd.eq_of_compare (heq : Ord.compare x y = .eq)]
  | bytes x y =>
    replace heq : compareBytes x y = .eq := heq
    cases x <;> cases y <;> first | rfl | cases heq
  | array as bs => cases array_beq_iff.mp h <;> rfl
  | tuple as bs => cases tuple_beq_iff.mp h <;> rfl
  | set as bs => cases set_beq_iff.mp h <;> rfl
  | dict as bs => cases dict_beq_iff.mp h <;> rfl
  | closure => rfl
  | native => rfl

/-- Equal values among the given ones have equal results. -/
def RespectsEqual (g : Value → Value) (vs : List Value) : Prop :=
  ∀ v ∈ vs, ∀ w ∈ vs, Equal v w → Equal (g v) (g w)

variable {as bs : List Value} {g : Value → Value}

theorem exists_mem_union_equal_iff (as bs : List Value) (v : Value) :
    (∃ m ∈ OrderedSet.union as bs, Equal v m) ↔ (∃ a ∈ as, Equal v a) ∨ ∃ b ∈ bs, Equal v b :=
  OrderedSet.exists_mem_union_iff fun _ _ _ _ heq hv => beq_equivalence.trans hv (beq_iff.mpr heq)

theorem exists_mem_ofList_map_iff (g : Value → Value) (vs : List Value) (v : Value) :
    (∃ m ∈ OrderedSet.ofList (vs.map g), Equal v m) ↔ ∃ w ∈ vs, Equal v (g w) := by
  rw [(holds_ofList (vs.map g)).mem_iff v]
  simp only [List.mem_map, exists_exists_and_eq_and]

/-- Mapping a union gives the same members as uniting what is mapped. -/
theorem map_union_equal (hg : RespectsEqual g (as ++ bs)) :
    Equal (.set (OrderedSet.ofList ((OrderedSet.union as bs).map g)))
      (.set (OrderedSet.union (OrderedSet.ofList (as.map g)) (OrderedSet.ofList (bs.map g)))) := by
  have hascending := (OrderedSet.ascending_ofList (as.map g)).union
    (OrderedSet.ascending_ofList (bs.map g))
  refine (set_beq_iff_matched (OrderedSet.ascending_ofList _) hascending).mpr
    (matched_equal_iff.mpr fun v => ?_)
  rw [exists_mem_union_equal_iff]
  simp only [exists_mem_ofList_map_iff]
  refine OrderedSet.exists_mem_union_iff fun x hx y hy heq hv => ?_
  exact beq_equivalence.trans hv (hg x hx y hy (beq_iff.mpr heq))

/-- Filtering a union gives the same members as uniting what is filtered. -/
theorem filter_union_equal (has : OrderedSet.Ascending as) (hbs : OrderedSet.Ascending bs)
    (hg : RespectsEqual g (as ++ bs)) :
    Equal (.set ((OrderedSet.union as bs).filter fun v => (g v).truthy))
      (.set (OrderedSet.union (as.filter fun v => (g v).truthy)
        (bs.filter fun v => (g v).truthy))) := by
  have hkept {vs : List Value} (h : OrderedSet.Ascending vs) :
      OrderedSet.Ascending (vs.filter fun v => (g v).truthy) := h.sublist List.filter_sublist
  refine (set_beq_iff_matched (hkept (has.union hbs)) ((hkept has).union (hkept hbs))).mpr
    (matched_equal_iff.mpr fun v => ?_)
  rw [exists_mem_union_equal_iff]
  simp only [List.mem_filter, and_assoc]
  refine OrderedSet.exists_mem_union_iff fun x hx y hy heq hpasses => ?_
  have hxy : Equal x y := beq_iff.mpr heq
  exact ⟨(hg x hx y hy hxy).truthy_eq ▸ hpasses.1, beq_equivalence.trans hpasses.2 hxy⟩

end Value

/-! ## The laws -/

namespace Expr

variable {rhs a b : Expr} {scope : Scope} {next : Nat} {g : Value → Value}

/-- From the identity on, the expressions always have values, and these are equal. -/
def DenoteEqual (scope : Scope) (next : Nat) (a b : Expr) : Prop :=
  ∃ v w, a.Denotes scope next v ∧ b.Denotes scope next w ∧ v.Equal w

section Sets

variable {as bs : List Value} (ha : a.Denotes scope next (.set as))
  (hb : b.Denotes scope next (.set bs)) (hrhs : rhs.Takes scope next (as ++ bs) g)
  (hg : Value.RespectsEqual g (as ++ bs)) (inner outer left right span : Span)

include ha hb hrhs hg

theorem dArrow_union : DenoteEqual scope next (.binary .dArrow (.binary .union a b inner) rhs outer)
    (.binary .union (.binary .dArrow a rhs left) (.binary .dArrow b rhs right) span) := by
  refine ⟨_, _, (ha.union hb inner).operator rfl hrhs.union.mapElements_set outer, ?_,
    Value.map_union_equal hg⟩
  exact Denotes.union (ha.operator rfl hrhs.left.mapElements_set left)
    (hb.operator rfl hrhs.right.mapElements_set right) span

theorem where_union (has : OrderedSet.Ascending as) (hbs : OrderedSet.Ascending bs) :
    DenoteEqual scope next (.binary .where_ (.binary .union a b inner) rhs outer)
      (.binary .union (.binary .where_ a rhs left) (.binary .where_ b rhs right) span) := by
  refine ⟨_, _, (ha.union hb inner).where_ (.set _) hrhs.union outer, ?_,
    Value.filter_union_equal has hbs hg⟩
  exact Denotes.union (ha.where_ (.set as) hrhs.left left) (hb.where_ (.set bs) hrhs.right right)
    span

end Sets

theorem itemwise_concat {op : BinaryOp} {f : Option Value → Option Value} (hop : op.Itemwise g f)
    {xs ys : List (Option Value)} (ha : a.Denotes scope next (.array xs))
    (hb : b.Denotes scope next (.array ys))
    (hrhs : rhs.Takes scope next (Value.present xs ++ Value.present ys) g)
    (inner outer left right span : Span) :
    (binary op (.binary .concat a b inner) rhs outer).Denotes scope next
        (.array (xs.map f ++ ys.map f)) ∧
      (binary .concat (.binary op a rhs left) (.binary op b rhs right) span).Denotes scope next
        (.array (xs.map f ++ ys.map f)) := by
  constructor
  · rw [← List.map_append]
    refine hop.denotes (ha.concat hb inner) ?_ outer
    rwa [Value.present, List.filterMap_append]
  · exact (hop.denotes ha hrhs.left left).concat (hop.denotes hb hrhs.right right) span

theorem where_where {v : Value} (hv : v.IsCollection) (ha : a.Denotes scope next v)
    (hrhs : rhs.Takes scope next v.visited g) (inner outer : Span) :
    (binary .where_ (.binary .where_ a rhs inner) rhs outer).Denotes scope next
      (v.keep fun w => (g w).truthy) := by
  have hkept := hrhs.mono (Value.visited_keep_subset (fun w => (g w).truthy) v)
  rw [← Value.keep_keep]
  exact (ha.where_ hv hrhs inner).where_ (Value.isCollection_keep hv _) hkept outer

/-- Mapping and filtering are homomorphisms, for every right side that takes the elements of the
collections to values without functions (`g` gives these).

* To map or filter the union of two sets is to unite what is mapped or filtered, up to equality of
  values, if equal elements have equal results.
* To map or filter the concatenation of two arrays is to concatenate what is mapped or filtered.
  What is mapped has holes where the array has them, and only there.
* To filter a set, an array or a dictionary twice is to filter it once. -/
theorem map_filter_homomorphic (rhs : Expr) (scope : Scope) (next : Nat) (g : Value → Value) :
    (∀ {a b : Expr} {as bs : List Value}, OrderedSet.Ascending as → OrderedSet.Ascending bs →
      a.Denotes scope next (.set as) → b.Denotes scope next (.set bs) →
      rhs.Takes scope next (as ++ bs) g → Value.RespectsEqual g (as ++ bs) →
      ∀ op, op = .dArrow ∨ op = .where_ → ∀ inner outer left right span : Span,
        DenoteEqual scope next (.binary op (.binary .union a b inner) rhs outer)
          (.binary .union (.binary op a rhs left) (.binary op b rhs right) span)) ∧
    (∀ {a b : Expr} {xs ys : List (Option Value)},
      a.Denotes scope next (.array xs) → b.Denotes scope next (.array ys) →
      rhs.Takes scope next (Value.present xs ++ Value.present ys) g →
      ∀ op, op = .dArrow ∨ op = .seqArrow false ∨ op = .where_ → ∀ left right : Span,
        ∃ us vs, (binary op a rhs left).Denotes scope next (.array us) ∧
          (binary op b rhs right).Denotes scope next (.array vs) ∧
          (op ≠ .where_ → us.map Option.isSome = xs.map Option.isSome ∧
            vs.map Option.isSome = ys.map Option.isSome) ∧
          ∀ inner outer span : Span,
            (binary op (.binary .concat a b inner) rhs outer).Denotes scope next
              (.array (us ++ vs)) ∧
            (binary .concat (.binary op a rhs left) (.binary op b rhs right) span).Denotes scope
              next (.array (us ++ vs))) ∧
    ∀ {a : Expr} {v : Value}, v.IsCollection → a.Denotes scope next v →
      rhs.Takes scope next v.visited g → ∀ inner outer : Span,
      ∃ kept, (binary .where_ a rhs inner).Denotes scope next kept ∧
        (binary .where_ (.binary .where_ a rhs inner) rhs outer).Denotes scope next kept := by
  refine ⟨?_, ?_, ?_⟩
  · rintro a b as bs has hbs ha hb hrhs hg op (rfl | rfl) inner outer left right span
    · exact dArrow_union ha hb hrhs hg inner outer left right span
    · exact where_union ha hb hrhs hg inner outer left right span has hbs
  · intro a b xs ys ha hb hrhs op hop left right
    obtain ⟨f, hf, hholes⟩ := BinaryOp.exists_itemwise g hop
    refine ⟨xs.map f, ys.map f, hf.denotes ha hrhs.left left, hf.denotes hb hrhs.right right, ?_,
      fun inner outer span => itemwise_concat hf ha hb hrhs inner outer left right span⟩
    intro hne
    have hplaces (items : List (Option Value)) :
        (items.map f).map Option.isSome = items.map Option.isSome := by
      rw [List.map_map]
      exact List.map_congr_left fun item _ => hholes hne item
    exact ⟨hplaces xs, hplaces ys⟩
  · intro a v hv ha hrhs inner outer
    exact ⟨_, ha.where_ hv hrhs inner, where_where hv ha hrhs inner outer⟩

/-- The right side makes a function for each element and calls it. One set holds zero and the other
one holds the negative zero, which is equal to it. -/
theorem map_filter_homomorphic_called :
    let here := Span.unknown
    let rhs : Expr :=
      .call (.function (.expr (.ident "x" here)) (.ident "x" here) here) (.current here) here
    let zero : Value := .number (.ofNat 0)
    let minusZero : Value := .number (Number.ofNat 0).neg
    let a : Expr := .literal (.set [zero, .string "a"]) here
    let b : Expr := .literal (.set [minusZero, .string "b"]) here
    let xs := [some zero, none, some (.string "a")]
    let ys := [some (.string "b")]
    let x : Expr := .literal (.array xs) here
    let y : Expr := .literal (.array ys) here
    let d : Expr := .literal (.dict [(.string "a", zero)]) here
    Value.Equal zero minusZero ∧
    DenoteEqual Scope.empty 0 (.binary .where_ (.binary .union a b here) rhs here)
      (.binary .union (.binary .where_ a rhs here) (.binary .where_ b rhs here) here) ∧
    (∃ us vs, (binary (.seqArrow false) x rhs here).Denotes Scope.empty 0 (.array us) ∧
      (binary (.seqArrow false) y rhs here).Denotes Scope.empty 0 (.array vs) ∧
      us.map Option.isSome = [true, false, true] ∧
      (binary (.seqArrow false) (.binary .concat x y here) rhs here).Denotes Scope.empty 0
        (.array (us ++ vs))) ∧
    ∃ kept, (binary .where_ d rhs here).Denotes Scope.empty 0 kept ∧
      (binary .where_ (.binary .where_ d rhs here) rhs here).Denotes Scope.empty 0 kept := by
  intro here rhs zero minusZero a b xs ys x y d
  have hevery : rhs.Every (MadeBefore 0) := by
    have hf : (Expr.function (.expr (.ident "x" here)) (.ident "x" here) here).Every
        (MadeBefore 0) :=
      .mk (List.forall_mem_singleton.mpr (every_ident _ _))
        (List.forall_mem_singleton.mpr (Pattern.every_name _ _)) nofun
    exact .mk (List.forall_mem_cons.mpr
      ⟨hf, List.forall_mem_singleton.mpr (every_ident _ _)⟩) (List.forall_mem_nil _) nofun
  have hrhs {vs : List Value} (hvs : ∀ v ∈ vs, v.hasFunction = false) :
      rhs.Takes Scope.empty 0 vs id := by
    refine ⟨fun v hv => ⟨?_, fun _ _ _ => nofun⟩, fun v _ => ⟨1, ?_⟩, hvs⟩
    · exact .mk (List.forall_mem_cons.mpr ⟨every_literal (Value.every_of_data (hvs v hv)) _,
        List.forall_mem_singleton.mpr hevery⟩) (List.forall_mem_nil _) nofun
    · exact unbounded_eval_eq_done 9 rfl
  have hliteral (v : Value) : (literal v here).Denotes Scope.empty 0 v := denotes_literal v here
  obtain ⟨hsets, harrays, hwhere⟩ := map_filter_homomorphic rhs Scope.empty 0 id
  have hequal : Value.Equal zero minusZero := by decide +kernel
  refine ⟨hequal, ?_, ?_, ?_⟩
  · exact hsets (List.pairwise_pair.mpr (by decide)) (List.pairwise_pair.mpr (by decide))
      (hliteral _) (hliteral _) (hrhs (by decide)) (fun _ _ _ _ h => h) .where_ (.inr rfl) _ _ _ _ _
  · obtain ⟨us, vs, hus, hvs, hholes, hboth⟩ := harrays (hliteral (.array xs))
      (hliteral (.array ys))
      (hrhs (by decide)) (.seqArrow false) (.inr (.inl rfl)) here here
    exact ⟨us, vs, hus, hvs, (hholes nofun).1, (hboth here here here).1⟩
  · exact hwhere (.dict _) (hliteral _) (hrhs (by decide)) here here

end Expr

end Relational
