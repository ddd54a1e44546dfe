import Relational.Proofs.Inclusions

/-!
# Power sets

The masks below `2 ^ n` select the sublists of a list of `n` members. The sublists can be listed in
the order of sets: first the empty one, then those with the first member, then the others. Each is
listed once, and up to equality an included set is a sublist. So the set of what the masks select is
this listing, which has nothing to be sorted and nothing twice.

> `OrderedSet.mem_subsets_iff`, `OrderedSet.length_subsets`, `Value.ascending_subsets`: all
> sublists, their number, and their order.

> `Value.powerSet_eq_subsets`: the listing is the set that is made of the masks, at once or by one
> insertion after another.

> `Expr.powerSet_exact`: the members of `^s` are exactly the sets that are included in `s`, and
> there are `2 ^ n` of them for the `n` members of `s`. Of a set with more than 16 members they are
> not listed.
-/

namespace Relational

open Std

namespace OrderedSet

variable {α : Type} {s xs : List α}

/-! ## What the masks select -/

/-- The lowest bit is for the first member, and the others are for the rest. -/
theorem selected_cons (x : α) (xs : List α) (mask : Nat) :
    selected (x :: xs) mask =
      if mask.testBit 0 then x :: selected xs (mask / 2) else selected xs (mask / 2) := by
  have hrest : ((xs.zipIdx 1).filter fun member => mask.testBit member.2).map Prod.fst =
      selected xs (mask / 2) := by
    rw [List.zipIdx_succ, List.filter_map, List.map_map, selected]
    show (xs.zipIdx.filter fun member => mask.testBit (member.2 + 1)).map Prod.fst = _
    simp only [Nat.testBit_succ]
  rw [selected, List.zipIdx_cons, List.filter_cons]
  split
  next => exact congrArg (x :: ·) hrest
  next => exact hrest

/-- Every sublist is selected by a mask. -/
theorem exists_selected_eq_iff :
    (∃ mask, mask < 2 ^ xs.length ∧ selected xs mask = s) ↔ s.Sublist xs := by
  constructor
  · rintro ⟨mask, -, rfl⟩
    exact selected_sublist xs mask
  · intro h
    induction h with
    | slnil => exact ⟨0, Nat.two_pow_pos _, rfl⟩
    | @cons s xs x _ ih =>
      obtain ⟨mask, hmask, rfl⟩ := ih
      refine ⟨2 * mask, ?_, ?_⟩
      · rw [List.length_cons, Nat.pow_succ]
        omega
      · rw [selected_cons, Nat.mul_div_cancel_left _ (by decide)]
        simp
    | @cons_cons s xs x _ ih =>
      obtain ⟨mask, hmask, rfl⟩ := ih
      refine ⟨2 * mask + 1, ?_, ?_⟩
      · rw [List.length_cons, Nat.pow_succ]
        omega
      · rw [selected_cons, show (2 * mask + 1) / 2 = mask by omega]
        simp

/-! ## The listing -/

/-- All the sublists of a list, in the lexicographic order of their members: the empty one, then
those that hold the first member, then the others. -/
def subsets : List α → List (List α)
  | [] => [[]]
  | x :: xs =>
    let rest := subsets xs
    [] :: (rest.map (x :: ·) ++ rest.tail)

theorem sublist_of_mem_subsets {s : List α} : ∀ {xs : List α}, s ∈ subsets xs → s.Sublist xs
  | [], h => by
    obtain rfl := List.mem_singleton.mp h
    exact List.Sublist.refl _
  | y :: ys, h => by
    unfold subsets at h
    rcases List.mem_cons.mp h with rfl | h
    · exact List.nil_sublist _
    · rcases List.mem_append.mp h with h | h
      · obtain ⟨s', hs', rfl⟩ := List.mem_map.mp h
        exact List.Sublist.cons_cons _ (sublist_of_mem_subsets hs')
      · exact List.Sublist.cons _ (sublist_of_mem_subsets (List.mem_of_mem_tail h))

/-- The empty set is listed first. -/
theorem subsets_eq_cons (xs : List α) : subsets xs = [] :: (subsets xs).tail := by
  cases xs <;> rfl

/-- The subsets of a list are its sublists. -/
theorem mem_subsets_iff : s ∈ subsets xs ↔ s.Sublist xs := by
  refine ⟨sublist_of_mem_subsets, fun h => ?_⟩
  induction h with
  | slnil => exact List.mem_singleton_self []
  | @cons s xs x _ ih =>
    rw [subsets_eq_cons, List.mem_cons] at ih
    rw [subsets, List.mem_cons, List.mem_append]
    exact ih.imp_right .inr
  | @cons_cons s xs x _ ih =>
    rw [subsets, List.mem_cons, List.mem_append]
    exact .inr (.inl (List.mem_map_of_mem ih))

theorem length_subsets (xs : List α) : (subsets xs).length = 2 ^ xs.length := by
  induction xs with
  | nil => rfl
  | cons x xs ih =>
    have hpos : 0 < 2 ^ xs.length := Nat.two_pow_pos _
    rw [subsets, List.length_cons, List.length_append, List.length_map, List.length_tail, ih,
      List.length_cons, Nat.pow_succ]
    omega

end OrderedSet

namespace Value

/-- The subsets of a set are listed in the order of sets. Those with the first member come before
those without it, which start with a later one. -/
theorem pairwise_subsets {members : List Value} (h : OrderedSet.Ascending members) :
    (OrderedSet.subsets members).Pairwise (compareMembers · · = .lt) := by
  induction members with
  | nil => exact List.pairwise_singleton _ _
  | cons m ms ih =>
    obtain ⟨hm, hms⟩ := List.pairwise_cons.mp h
    have hrest := ih hms
    -- all but the first of the subsets without `m` are not empty
    have hhead : ∀ s ∈ (OrderedSet.subsets ms).tail, ∃ x ∈ ms, ∃ xs, s = x :: xs := by
      intro s hs
      have hsub := OrderedSet.sublist_of_mem_subsets (List.mem_of_mem_tail hs)
      rw [OrderedSet.subsets_eq_cons] at hrest
      cases s with
      | nil => cases (List.pairwise_cons.mp hrest).1 [] hs
      | cons x xs => exact ⟨x, hsub.subset (List.mem_cons_self ..), xs, rfl⟩
    rw [OrderedSet.subsets]
    refine List.pairwise_cons.mpr ⟨fun s hs => ?_, List.pairwise_append.mpr ⟨?_, hrest.tail, ?_⟩⟩
    · rcases List.mem_append.mp hs with hs | hs
      · obtain ⟨s, -, rfl⟩ := List.mem_map.mp hs
        rfl
      · obtain ⟨x, -, xs, rfl⟩ := hhead s hs
        rfl
    · rw [List.pairwise_map]
      refine hrest.imp fun {s t} hst => ?_
      rw [compareMembers, compare_self]
      exact hst
    · intro s hs t ht
      obtain ⟨s, -, rfl⟩ := List.mem_map.mp hs
      obtain ⟨x, hx, xs, rfl⟩ := hhead t ht
      rw [compareMembers, show m.compare x = .lt from hm x hx]
      rfl

theorem ascending_subsets {members : List Value} (h : OrderedSet.Ascending members) :
    OrderedSet.Ascending ((OrderedSet.subsets members).map Value.set) :=
  List.pairwise_map.mpr (pairwise_subsets h)

/-- The subsets of the masks are those of the listing. -/
theorem mem_subsetAt_iff {members : List Value} (h : OrderedSet.Ascending members) (s : Value) :
    s ∈ (List.range (1 <<< members.length)).map (subsetAt members) ↔
      s ∈ (OrderedSet.subsets members).map Value.set := by
  have hsubset : ∀ mask, subsetAt members mask = .set (OrderedSet.selected members mask) := by
    intro mask
    rw [subsetAt, OrderedSet.ofList_of_ascending (h.sublist (OrderedSet.selected_sublist _ _))]
  simp only [Nat.one_shiftLeft, List.mem_map, List.mem_range, hsubset, OrderedSet.mem_subsets_iff]
  constructor
  · rintro ⟨mask, -, rfl⟩
    exact ⟨_, OrderedSet.selected_sublist members mask, rfl⟩
  · rintro ⟨s, hs, rfl⟩
    obtain ⟨mask, hmask, rfl⟩ := OrderedSet.exists_selected_eq_iff.mpr hs
    exact ⟨mask, hmask, rfl⟩

/-- The power set of a set that is not too large is the listing of its subsets. It is also what
comes of inserting the subsets of the masks one after the other. -/
theorem powerSet_eq_subsets {members : List Value} (h : OrderedSet.Ascending members)
    (hsize : members.length ≤ powerSetLimit) :
    (Value.set members).powerSet = .ok (.set ((OrderedSet.subsets members).map .set)) ∧
      (Value.set members).powerSet = .ok (.set ((List.range (1 <<< members.length)).foldl
        (fun out mask => OrderedSet.insert (subsetAt members mask) out) [])) := by
  have hascending := ascending_subsets h
  have hmasks : (Value.set members).powerSet = .ok (.set (OrderedSet.ofList
      ((List.range (1 <<< members.length)).map (subsetAt members)))) :=
    if_neg (Nat.not_lt.mpr hsize)
  have hlisted := OrderedSet.ofList_eq_of_mem_iff hascending (mem_subsetAt_iff h)
  have hinserted := OrderedSet.foldl_insert_eq_of_mem_iff hascending (mem_subsetAt_iff h)
  rw [List.foldl_map] at hinserted
  rw [hinserted, hmasks, hlisted]
  exact ⟨rfl, rfl⟩

/-- The members of a power set are the sets that are included. -/
theorem member_powerSet_iff {members : List Value} (h : OrderedSet.Ascending members) (t : Value) :
    CompareOp.member.holds t (.set ((OrderedSet.subsets members).map .set)) = .ok true ↔
      t.IsSet ∧ CompareOp.subsetEq.holds t (.set members) = .ok true := by
  rw [member_holds_iff (ascending_subsets h)]
  simp only [List.mem_map, exists_exists_and_eq_and]
  constructor
  · rintro ⟨s, hs, heq⟩
    obtain ⟨ts, rfl⟩ := exists_set_of_equal heq
    have hsub := OrderedSet.mem_subsets_iff.mp hs
    have hlikewise := set_equal_iff.mp heq
    have hts := hlikewise.ascending (h.sublist hsub)
    exact ⟨⟨ts, rfl, hts⟩,
      congrArg Except.ok ((OrderedSet.isSubset_iff_sublist hts h).mpr ⟨s, hsub, hlikewise⟩)⟩
  · rintro ⟨⟨ts, rfl, hts⟩, hincluded⟩
    obtain ⟨s, hsub, hlikewise⟩ :=
      (OrderedSet.isSubset_iff_sublist hts h).mp (Except.ok.inj hincluded)
    exact ⟨s, OrderedSet.mem_subsets_iff.mpr hsub, set_equal_iff.mpr hlikewise⟩

/-- The count of a power set is a power of two, which is not rounded. -/
theorem count_powerSet {members : List Value} (h : members.length ≤ powerSetLimit) :
    ∃ n, (Value.set ((OrderedSet.subsets members).map .set)).count = .ok (.number n) ∧
      n.toNat? = some (2 ^ members.length) := by
  have hexact : ∀ k ≤ 16, (Number.ofNat (2 ^ k)).toNat? = some (2 ^ k) := by decide
  refine ⟨_, rfl, ?_⟩
  rw [List.length_map, OrderedSet.length_subsets]
  exact hexact _ h

end Value

namespace Expr

theorem eval_powerSet {operand : Expr} {scope : Scope} {next last : Identity} {v : Value}
    (h : unbounded.eval operand scope next = .done (v, last)) (span : Span) :
    unbounded.eval (.unary .powerSet operand span) scope next =
      Run.within span (Run.ofExcept v.powerSet) last := by
  rw [unbounded_eval, Evaluator.evalStep, Run.bind_apply, h]
  rfl

/-- The power set is complete and exact. For an operand whose value is a set with at most 16
members, the value of `^` is a set whose members are exactly the sets that are included in it, and
it has as many as two to the number of its members. For a larger set it fails, for a cause that says
that this is not supported. -/
theorem powerSet_exact {operand : Expr} {scope : Scope} {next last : Identity}
    {members : List Value} (hmembers : OrderedSet.Ascending members)
    (h : unbounded.eval operand scope next = .done (.set members, last)) (span : Span) :
    (members.length ≤ 16 → ∃ p,
      unbounded.eval (.unary .powerSet operand span) scope next = .done (p, last) ∧ p.IsSet ∧
      (∀ t, CompareOp.member.holds t p = .ok true ↔
        t.IsSet ∧ CompareOp.subsetEq.holds t (.set members) = .ok true) ∧
      ∃ n, p.count = .ok (.number n) ∧ n.toNat? = some (2 ^ members.length)) ∧
    (16 < members.length → ∃ failure,
      unbounded.eval (.unary .powerSet operand span) scope next = .failed failure ∧
      failure.cause.kind = .unsupported) := by
  rw [eval_powerSet h]
  constructor
  · intro hsize
    refine ⟨_, ?_, ⟨_, rfl, Value.ascending_subsets hmembers⟩, Value.member_powerSet_iff hmembers,
      Value.count_powerSet hsize⟩
    rw [(Value.powerSet_eq_subsets hmembers hsize).1]
    rfl
  · intro hsize
    have hrefused : (Value.set members).powerSet =
        .error (.unsupportedPowerSet members.length) := if_pos hsize
    rw [hrefused]
    exact ⟨_, rfl, rfl⟩

/-- The power set of `{0, "a"}` has four members. The set `{-0}` is one of them and `{"b"}` is
not. -/
theorem powerSet_exact_zero :
    let s : Expr := .literal (.set [.number .zero, .string "a"]) .unknown
    ∃ p, unbounded.eval (.unary .powerSet s .unknown) Scope.empty 0 = .done (p, 0) ∧
      CompareOp.member.holds (.set [.number .negZero]) p = .ok true ∧
      ¬CompareOp.member.holds (.set [.string "b"]) p = .ok true ∧
      ∃ n, p.count = .ok (.number n) ∧ n.toNat? = some 4 := by
  intro s
  have hs : unbounded.eval s Scope.empty 0 = .done (.set [.number .zero, .string "a"], 0) :=
    congrFun (unbounded_eval_literal _ _ _) 0
  obtain ⟨p, hp, -, hmember, hcount⟩ := (powerSet_exact (by decide) hs .unknown).1 (by decide)
  refine ⟨p, hp, (hmember _).mpr ⟨⟨_, rfl, by decide⟩, by decide⟩, fun h => ?_, hcount⟩
  exact absurd ((hmember _).mp h).2 (by decide)

end Expr

end Relational
