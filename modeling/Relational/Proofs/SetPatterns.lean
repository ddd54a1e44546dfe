import Relational.Proofs.Extensionality
import Relational.Proofs.Inquiry

/-!
# Patterns of sets and sets

A pattern of a set takes away a member for each of its elements, one after the other. A set
expression puts the values of its elements together, whatever their number. So the two agree as
long as the values are different: an element that has the value of an earlier one finds its member
gone.

> `Pattern.set_agrees_with_expression`: a pattern of expressions matches a value exactly if these
> have different values and the set of them is equal to that value. With a named extra element it
> matches exactly the sets with all those members, and binds the name to the others.
-/

namespace Relational

open Std

/-! ## Taking members away -/

namespace OrderedSet

section

variable {α : Type} [Ord α]

/-- Takes members away one by one, if each one is still there. -/
def takeAll : List α → List α → Option (List α)
  | [], left => some left
  | x :: xs, left => if contains x left then takeAll xs (erase x left) else none

variable [TransOrd α] {x : α} {xs left rest : List α}

/-- Members can be taken away one by one exactly if they are different members, and then the others
are left. -/
theorem takeAll_eq_some_iff (h : Ascending left) :
    takeAll xs left = some rest ↔ xs.Pairwise (compare · · ≠ .eq) ∧
      (∀ x ∈ xs, ∃ y ∈ left, compare x y = .eq) ∧
      rest = left.filter fun y => !xs.any (same · y) := by
  induction xs generalizing left with
  | nil => simp [takeAll, eq_comm]
  | cons x xs ih =>
    rw [takeAll, Option.ite_none_right_eq_some, contains_iff h, ih (h.erase x),
      erase_eq_filter h, List.filter_filter, List.pairwise_cons, List.forall_mem_cons]
    -- an element finds its member after `x` is gone exactly if it is not equal to `x`
    have hother : (∀ z ∈ xs, ∃ y ∈ left.filter (!same x ·), compare z y = .eq) ↔
        (∀ z ∈ xs, compare x z ≠ .eq) ∧ ∀ z ∈ xs, ∃ y ∈ left, compare z y = .eq := by
      rw [← forall₂_and]
      refine forall₂_congr fun z hz => ?_
      constructor
      · rintro ⟨y, hy, hzy⟩
        obtain ⟨hy, hxy⟩ := List.mem_filter.mp hy
        refine ⟨fun hxz => ?_, y, hy, hzy⟩
        simp [same, TransCmp.eq_trans hxz hzy] at hxy
      · rintro ⟨hxz, y, hy, hzy⟩
        refine ⟨y, List.mem_filter.mpr ⟨hy, ?_⟩, hzy⟩
        have hxy : compare x y ≠ .eq := fun hxy =>
          hxz (TransCmp.eq_trans hxy (OrientedCmp.eq_symm hzy))
        simp [same, hxy]
    have hfilter : (fun y => !xs.any (same · y) && !same x y) =
        fun y => !(x :: xs).any (same · y) := by
      funext y
      rw [List.any_cons, Bool.not_or, Bool.and_comm]
    rw [hother, hfilter]
    tauto

end

end OrderedSet

/-! ## Elements that take their members -/

section

variable {eval : Expr → Run Value} {refusal : Cause} {es : List Expr}
  (hes : ∀ e ∈ es, e.isIdent = false) {next after : Identity} {vals : List Value}
  (hvals : Run.traverse eval es next = .done (vals, after)) {bound : Scope}
  {result : Scope × Identity}

include hes hvals

/-- Elements that have values match exactly if the values can be taken away, and the elements after
them match what is left. -/
theorem run_ofMembers_append {elements : List Pattern} {left : List Value}
    {rest : Option Matcher} :
    (Inquiry.ofMembers refusal (es.map Pattern.expr ++ elements) left rest bound).run eval next =
      .done result ↔ ∃ left', OrderedSet.takeAll vals left = some left' ∧
        (Inquiry.ofMembers refusal elements left' rest bound).run eval after = .done result := by
  induction es generalizing next vals left with
  | nil =>
    obtain ⟨rfl, rfl⟩ := Prod.mk.inj (Outcome.done.inj hvals)
    simp [OrderedSet.takeAll]
  | cons e es ih =>
    obtain ⟨he, hes⟩ := List.forall_mem_cons.mp hes
    obtain ⟨x, between, hx, hrest⟩ := Run.bind_eq_done_iff.mp hvals
    obtain ⟨xs, last, hxs, hdone⟩ := Run.bind_eq_done_iff.mp hrest
    obtain ⟨rfl, rfl⟩ := Prod.mk.inj (Outcome.done.inj hdone)
    rw [List.map_cons, List.cons_append, Inquiry.ofMembers, if_neg (by rw [he]; decide),
      Inquiry.run, Run.bind_apply, hx, OrderedSet.takeAll]
    dsimp only
    split
    next => exact ih hes hxs
    next =>
      refine iff_of_false (fun h => ?_) ?_
      · cases h
      · rintro ⟨left', hleft, -⟩
        cases hleft

/-- Without an extra element nothing may be left. -/
theorem run_ofMembers_done_iff {left : List Value} :
    (Inquiry.ofMembers refusal (es.map Pattern.expr) left none bound).run eval next =
      .done result ↔ OrderedSet.takeAll vals left = some [] ∧ result = (bound, after) := by
  rw [← List.append_nil (es.map Pattern.expr), run_ofMembers_append hes hvals]
  constructor
  · rintro ⟨left', hleft, hrun⟩
    cases left' with
    | nil => exact ⟨hleft, (Outcome.done.inj hrun).symm⟩
    | cons m ms => cases hrun
  · rintro ⟨hleft, rfl⟩
    exact ⟨[], hleft, rfl⟩

/-- An extra element takes what is left. -/
theorem run_ofMembers_extra_done_iff {left : List Value} {name : String} :
    (Inquiry.ofMembers refusal (es.map Pattern.expr ++ [.extra (some name)]) left none
      Scope.empty).run eval next = .done result ↔
      ∃ left', OrderedSet.takeAll vals left = some left' ∧
        result = ([(name, .set left')], after) := by
  rw [run_ofMembers_append hes hvals]
  refine exists_congr fun left' => and_congr_right fun _ => ?_
  exact ⟨fun h => (Outcome.done.inj h).symm, fun h => congrArg Outcome.done h.symm⟩

end

/-! ## Patterns of sets -/

namespace Value

/-- Values are taken away from a set exactly if they are different members, and then the others are
left. -/
theorem takeAll_eq_some_iff {vals members left : List Value}
    (h : OrderedSet.Ascending members) :
    OrderedSet.takeAll vals members = some left ↔ vals.Pairwise (¬Equal · ·) ∧
      (∀ x ∈ vals, ∃ m ∈ members, Equal x m) ∧
      left = members.filter fun m => !vals.any (· == m) := by
  simp only [Equal, beq_iff]
  exact OrderedSet.takeAll_eq_some_iff h

theorem madeOf_of_ascending {members : List Value} (h : OrderedSet.Ascending members) :
    MadeOf members (.set members) := by
  have hmade := MadeOf.ofList members
  rwa [OrderedSet.ofList_of_ascending h] at hmade

/-- Nothing is left of a set exactly if it is equal to the set of the values, and these are
different. -/
theorem takeAll_eq_nil_iff {vals members : List Value} (h : OrderedSet.Ascending members) :
    OrderedSet.takeAll vals members = some [] ↔
      vals.Pairwise (¬Equal · ·) ∧ Equal (.set members) (.set (OrderedSet.ofList vals)) := by
  rw [takeAll_eq_some_iff h, (madeOf_of_ascending h).equal_iff (.ofList vals), Matched]
  have hsymm : ∀ x m : Value, Equal x m ↔ Equal m x := fun x m =>
    ⟨beq_equivalence.symm, beq_equivalence.symm⟩
  refine and_congr_right fun _ => and_comm.trans (and_congr ?_ ?_)
  · rw [eq_comm, List.filter_eq_nil_iff]
    refine forall₂_congr fun m hm => ?_
    rw [Bool.not_eq_true', Bool.not_eq_false, List.any_eq_true]
    exact exists_congr fun x => and_congr_right fun _ => hsymm x m
  · exact forall₂_congr fun x hx => exists_congr fun m => and_congr_right fun _ => hsymm x m

end Value

namespace Pattern

/-- A pattern of a set agrees with the set expression of the same elements, as long as these have
different values: it matches exactly the values that are equal to the value of the expression. With
a named extra element it matches exactly the sets that have all those values for members, and binds
the name to the set of the other members. If two elements have equal values, neither pattern
matches. -/
theorem set_agrees_with_expression {es : List Expr} (hes : ∀ e ∈ es, e.isIdent = false)
    {scope : Scope} {next after : Identity} {vals : List Value}
    (hvals : Run.traverse (unbounded.eval · scope) es next = .done (vals, after)) (span : Span) :
    ∃ w, unbounded.eval (.set es span) scope next = .done (w, after) ∧
      ∀ v : Value, v.Canonical →
        (∀ result, (∃ fuel, (Pattern.set (es.map .expr)).bindings fuel scope v next =
            .done result) ↔
          vals.Pairwise (¬Value.Equal · ·) ∧ Value.Equal v w ∧ result = (Scope.empty, after)) ∧
        ∀ rest result,
          (∃ fuel, (Pattern.set (es.map .expr ++ [.extra (some rest)])).bindings fuel scope v next =
            .done result) ↔
          vals.Pairwise (¬Value.Equal · ·) ∧ ∃ members, v = .set members ∧
            (∀ x ∈ vals, ∃ m ∈ members, Value.Equal x m) ∧
            result = ([(rest, .set (members.filter fun m => !vals.any (· == m)))], after) := by
  refine ⟨_, Value.eval_set span hvals, fun v hv => ⟨fun result => ?_, fun rest result => ?_⟩⟩
  · rw [exists_bindings_iff]
    cases v with
    | set members =>
      cases hv with | set hmembers _ =>
      rw [← and_assoc, ← Value.takeAll_eq_nil_iff hmembers]
      exact run_ofMembers_done_iff hes hvals
    | _ =>
      refine iff_of_false (fun h => ?_) fun h => ?_
      · cases h
      · obtain ⟨as, has⟩ := Value.exists_set_of_equal h.2.1
        cases has
  · rw [exists_bindings_iff]
    cases v with
    | set members =>
      cases hv with | set hmembers _ =>
      refine (run_ofMembers_extra_done_iff hes hvals).trans ?_
      simp only [Value.takeAll_eq_some_iff hmembers]
      constructor
      · rintro ⟨left, ⟨hdifferent, hmem, rfl⟩, hresult⟩
        exact ⟨hdifferent, members, rfl, hmem, hresult⟩
      · rintro ⟨hdifferent, _, ⟨⟩, hmem, hresult⟩
        exact ⟨_, ⟨hdifferent, hmem, rfl⟩, hresult⟩
    | _ =>
      refine iff_of_false (fun h => ?_) ?_
      · cases h
      · rintro ⟨-, members, hset, -⟩
        cases hset

/-- Literals have their values, one after the other. -/
theorem traverse_literals (scope : Scope) (next : Identity) (vals : List Value) :
    Run.traverse (unbounded.eval · scope) (vals.map (.literal · .unknown)) next =
      .done (vals, next) := by
  induction vals with
  | nil => rfl
  | cons v vals ih =>
    have hv : unbounded.eval (.literal v .unknown) scope next = .done (v, next) :=
      congrFun (unbounded_eval_literal _ _ _) next
    exact Run.bind_eq_done_iff.mpr ⟨v, next, hv, Run.bind_eq_done_iff.mpr ⟨vals, next, ih, rfl⟩⟩

/-- The pattern `{"a", true}` matches `{true, "a"}`, and `{true, ...rest}` binds `rest` to
`{"a"}`. -/
theorem set_agrees_with_expression_text :
    let yes : Expr := .literal (.bool true) .unknown
    let a : Expr := .literal (.string "a") .unknown
    let v : Value := .set [.bool true, .string "a"]
    v.Canonical ∧
    (∃ fuel, (Pattern.set ([a, yes].map .expr)).bindings fuel Scope.empty v 0 =
      .done (Scope.empty, 0)) ∧
    ∃ fuel, (Pattern.set ([yes].map .expr ++ [.extra (some "rest")])).bindings fuel Scope.empty v
      0 = .done ([("rest", .set [.string "a"])], 0) := by
  intro yes a v
  have hboth : Run.traverse (unbounded.eval · Scope.empty) [a, yes] 0 =
      .done ([.string "a", .bool true], 0) := traverse_literals _ _ [.string "a", .bool true]
  have hone : Run.traverse (unbounded.eval · Scope.empty) [yes] 0 = .done ([.bool true], 0) :=
    traverse_literals _ _ [.bool true]
  have hascending : OrderedSet.Ascending [Value.bool true, .string "a"] :=
    List.pairwise_pair.mpr rfl
  have hv : v.Canonical :=
    .set hascending (by simp [Value.Canonical.bool, Value.Canonical.string])
  obtain ⟨w, hw, hboth'⟩ := set_agrees_with_expression (by decide) hboth .unknown
  obtain ⟨_, -, hone'⟩ := set_agrees_with_expression (by decide) hone .unknown
  refine ⟨hv, ((hboth' v hv).1 _).mpr ⟨by decide, ?_, rfl⟩,
    ((hone' v hv).2 "rest" _).mpr ⟨by decide, _, rfl, by decide, rfl⟩⟩
  rw [Value.eval_set .unknown hboth] at hw
  obtain ⟨rfl, -⟩ := Prod.mk.inj (Outcome.done.inj hw)
  exact ((Value.takeAll_eq_nil_iff hascending).mp rfl).2

/-- The value of the set expression `{true, true}` is equal to `{true}`, which the pattern
`{true, true}` does not match. -/
theorem set_differs_from_expression :
    let yes : Expr := .literal (.bool true) .unknown
    (∃ w, unbounded.eval (.set [yes, yes] .unknown) Scope.empty 0 = .done (w, 0) ∧
      Value.Equal (.set [.bool true]) w) ∧
    (Pattern.set ([yes, yes].map .expr)).bindings 3 Scope.empty (.set [.bool true]) 0 =
      .failed ⟨none, .mismatch "{true}" "{true, true}"⟩ := by
  intro yes
  have hvals : Run.traverse (unbounded.eval · Scope.empty) [yes, yes] 0 =
      .done ([.bool true, .bool true], 0) := traverse_literals _ _ [.bool true, .bool true]
  have hmade := Value.madeOf_of_ascending (List.pairwise_singleton _ (Value.bool true))
  exact ⟨⟨_, Value.eval_set .unknown hvals, (hmade.equal_iff (.ofList _)).mpr (by decide)⟩, rfl⟩

end Pattern

end Relational
