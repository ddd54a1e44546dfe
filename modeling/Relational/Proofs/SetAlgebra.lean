import Relational.Proofs.Extensionality

/-!
# The algebra of sets

The operations on ordered sets walk along ascending lists. What they mean is told by membership: an
element is a member of the result exactly if a truth function of its memberships in the operands
says so. Since sets with the same members are equal, every law of the operators is a law of these
truth functions, and none of them is proved by looking at lists.

> `contains_union`, `contains_inter`, `contains_diff`, `contains_symmDiff`, `contains_insert`,
> `contains_erase`: the truth function of each operation. All results are ascending again.

> `Value.set_operators_mean`: the operators of the language mean the same on values, whose equality
> is not identity; so they obey the laws of an algebra of sets, and they fail on what is no set.
-/

namespace Relational

open Std

/-! ## Ordered sets -/

namespace OrderedSet

variable {α : Type} [Ord α] {x y : α} {xs ys : List α}

theorem Ascending.inter (h : Ascending xs) (ys : List α) : Ascending (inter xs ys) :=
  h.sublist List.filter_sublist

theorem Ascending.diff (h : Ascending xs) (ys : List α) : Ascending (diff xs ys) :=
  h.sublist List.filter_sublist

variable [TransOrd α]

/-- Equal elements are members of the same lists. -/
theorem contains_congr (h : compare x y = .eq) (xs : List α) : contains x xs = contains y xs := by
  induction xs with
  | nil => rfl
  | cons z zs ih => rw [contains, contains, TransCmp.congr_left h, ih]

theorem same_comm (x y : α) : same x y = same y x := by
  rw [same, same, OrientedOrd.eq_swap (a := x)]
  cases compare y x <;> rfl

theorem contains_insert (h : Ascending xs) :
    contains x (insert y xs) = (contains x xs || same x y) := by
  rw [Bool.eq_iff_iff, contains_iff (h.insert y), exists_mem_insert_iff, Bool.or_eq_true,
    contains_iff h, same, beq_iff_eq, or_comm]

/-- A test that does not tell equal elements apart leaves the members that pass it. -/
theorem contains_filter (h : Ascending xs) {test : α → Bool}
    (htest : ∀ y, compare x y = .eq → test y = test x) :
    contains x (xs.filter test) = (contains x xs && test x) := by
  rw [Bool.eq_iff_iff, contains_iff (h.sublist List.filter_sublist), Bool.and_eq_true,
    contains_iff h]
  constructor
  · rintro ⟨y, hy, hxy⟩
    obtain ⟨hy, hpasses⟩ := List.mem_filter.mp hy
    exact ⟨⟨y, hy, hxy⟩, (htest y hxy).symm.trans hpasses⟩
  · rintro ⟨⟨y, hy, hxy⟩, hpasses⟩
    exact ⟨y, List.mem_filter.mpr ⟨hy, (htest y hxy).trans hpasses⟩, hxy⟩

theorem contains_erase (h : Ascending xs) :
    contains x (erase y xs) = (contains x xs && !same x y) := by
  rw [erase_eq_filter h, contains_filter h, same_comm]
  intro z hxz
  rw [same, same, TransCmp.congr_right hxz]

theorem contains_inter (h : Ascending xs) :
    contains x (inter xs ys) = (contains x xs && contains x ys) :=
  contains_filter h fun _ hxy => contains_congr (OrientedCmp.eq_symm hxy) ys

theorem contains_diff (h : Ascending xs) :
    contains x (diff xs ys) = (contains x xs && !contains x ys) :=
  contains_filter h fun _ hxy => congrArg _ (contains_congr (OrientedCmp.eq_symm hxy) ys)

/-! ### Merged lists -/

/-- The merge of two ascending lists ascends, except that equal elements may be neighbours. -/
theorem pairwise_le_merge (hxs : Ascending xs) (hys : Ascending ys) :
    (List.merge xs ys le).Pairwise fun a b => le a b = true :=
  List.pairwise_merge (fun _ _ _ => TransCmp.isLE_trans) le_connex xs ys hxs.pairwise_le
    hys.pairwise_le

/-- Without equal elements the merge of two ascending lists is ascending. -/
theorem ascending_merge (hxs : Ascending xs) (hys : Ascending ys)
    (h : ∀ x ∈ xs, ∀ y ∈ ys, compare x y ≠ .eq) : Ascending (List.merge xs ys le) := by
  have hne : (xs ++ ys).Pairwise fun a b => compare a b ≠ .eq := by
    have hdistinct {zs : List α} (hzs : Ascending zs) : zs.Pairwise fun a b => compare a b ≠ .eq :=
      hzs.imp fun hlt heq => by rw [hlt] at heq; cases heq
    exact List.pairwise_append.mpr ⟨hdistinct hxs, hdistinct hys, h⟩
  have hmerged := (List.Perm.pairwise_iff (fun hab hba => hab (OrientedCmp.eq_symm hba))
    (List.merge_perm_append le)).mpr hne
  refine (List.pairwise_and_iff.mpr ⟨pairwise_le_merge hxs hys, hmerged⟩).imp ?_
  rintro a b ⟨hle, hne⟩
  exact (Ordering.isLE_iff_eq_lt_or_eq_eq.mp hle).resolve_right hne

/-- The lists have equal elements in the same places. -/
abbrev Likewise (xs ys : List α) : Prop := List.Forall₂ (compare · · = .eq) xs ys

/-- What has equal elements in the same places as an ascending list is ascending. -/
theorem Likewise.ascending (h : Likewise xs ys) (hys : Ascending ys) : Ascending xs := by
  induction h with
  | nil => exact .nil
  | @cons x y xs ys hxy hrest ih =>
    obtain ⟨hy, hys⟩ := List.pairwise_cons.mp hys
    refine List.pairwise_cons.mpr ⟨fun x' hx' => ?_, ih hys⟩
    obtain ⟨y', hy', heq⟩ := (matched_of_forall₂ hrest).1 x' hx'
    have hlt : compare x y' = .lt := TransCmp.lt_of_eq_of_lt hxy (hy y' hy')
    exact TransCmp.lt_of_lt_of_eq hlt (OrientedCmp.eq_symm heq)

/-- Of equal neighbours one is kept. Which one it is makes no difference up to equality. -/
theorem dedupFirst_likewise_dedupLast (xs : List α) : Likewise (dedupFirst xs) (dedupLast xs) := by
  induction xs with
  | nil => exact .nil
  | cons x xs ih =>
    unfold dedupFirst dedupLast at ih ⊢
    rw [List.foldr_cons, List.foldr_cons]
    generalize List.foldr _ _ xs = firsts at ih ⊢
    generalize List.foldr _ _ xs = lasts at ih ⊢
    cases ih with
    | nil => exact .cons compare_self .nil
    | @cons y z ys zs hyz hrest =>
      have hsame : same x y = same x z := by rw [same, same, TransCmp.congr_right hyz]
      dsimp only
      rw [hsame]
      split
      next hxz => exact .cons (beq_iff_eq.mp hxz) hrest
      next => exact .cons compare_self (.cons hyz hrest)

theorem exists_mem_dedupFirst_iff :
    (∃ z ∈ dedupFirst xs, compare x z = .eq) ↔ ∃ z ∈ xs, compare x z = .eq := by
  constructor
  · rintro ⟨z, hz, hxz⟩
    exact ⟨z, (dedupFirst_sublist xs).subset hz, hxz⟩
  · intro h
    obtain ⟨z, hz, hxz⟩ := exists_mem_dedupLast_iff.mpr h
    obtain ⟨y, hy, hyz⟩ := (matched_of_forall₂ (dedupFirst_likewise_dedupLast xs)).2 z hz
    exact ⟨y, hy, TransCmp.eq_trans hxz (OrientedCmp.eq_symm hyz)⟩

theorem Ascending.union (hxs : Ascending xs) (hys : Ascending ys) : Ascending (union xs ys) :=
  (dedupFirst_likewise_dedupLast _).ascending (ascending_dedupLast (pairwise_le_merge hxs hys))

theorem contains_union (hxs : Ascending xs) (hys : Ascending ys) :
    contains x (union xs ys) = (contains x xs || contains x ys) := by
  rw [Bool.eq_iff_iff, contains_iff (hxs.union hys), union, exists_mem_dedupFirst_iff,
    Bool.or_eq_true, contains_iff hxs, contains_iff hys]
  simp only [List.mem_merge, or_and_right, exists_or]

theorem Ascending.symmDiff (hxs : Ascending xs) (hys : Ascending ys) :
    Ascending (symmDiff xs ys) := by
  refine ascending_merge (hxs.diff ys) (hys.diff xs) fun x hx y hy hxy => ?_
  -- an element that is equal to `x` is a member of `xs`, and so not of what is left of `ys`
  have hin : contains y xs = true := (contains_iff hxs).mpr
    ⟨x, mem_of_mem_diff hx, OrientedCmp.eq_symm hxy⟩
  have hout : (!contains y xs) = true := (List.mem_filter.mp hy).2
  rw [hin] at hout
  cases hout

theorem contains_symmDiff (hxs : Ascending xs) (hys : Ascending ys) :
    contains x (symmDiff xs ys) = (contains x xs ^^ contains x ys) := by
  have hor : contains x (symmDiff xs ys) =
      (contains x (diff xs ys) || contains x (diff ys xs)) := by
    rw [Bool.eq_iff_iff, contains_iff (hxs.symmDiff hys), Bool.or_eq_true,
      contains_iff (hxs.diff ys), contains_iff (hys.diff xs)]
    simp only [symmDiff, List.mem_merge, or_and_right, exists_or]
  rw [hor, contains_diff hxs, contains_diff hys]
  cases contains x xs <;> cases contains x ys <;> rfl

end OrderedSet

/-! ## Sets and their members -/

namespace Value

/-- The value is a set, with its members in order. -/
def IsSet (v : Value) : Prop := ∃ members, v = .set members ∧ OrderedSet.Ascending members

/-- The value is of another kind than a set. -/
def NotSet (v : Value) : Prop := ∀ members, v ≠ .set members

/-- The value is a set, and its members are the values that pass a test. -/
structure HasMembers (v : Value) (test : Value → Bool) : Prop where
  isSet : v.IsSet
  member_holds (x : Value) : CompareOp.member.holds x v = .ok (test x)

theorem hasMembers_set {members : List Value} (h : OrderedSet.Ascending members) :
    (Value.set members).HasMembers (OrderedSet.contains · members) :=
  ⟨⟨members, rfl, h⟩, fun _ => rfl⟩

theorem IsSet.hasMembers {v : Value} (h : v.IsSet) : ∃ test, v.HasMembers test := by
  obtain ⟨members, rfl, hmembers⟩ := h
  exact ⟨_, hasMembers_set hmembers⟩

/-- Sets with the same members are equal. -/
theorem HasMembers.equal {v w : Value} {test test' : Value → Bool} (hv : v.HasMembers test)
    (hw : w.HasMembers test') (h : ∀ x, test x = test' x) : Equal v w := by
  obtain ⟨as, rfl, has⟩ := hv.isSet
  obtain ⟨bs, rfl, hbs⟩ := hw.isSet
  refine set_beq_of_members has hbs fun x => ?_
  rw [hv.member_holds, hw.member_holds, h]

/-- A value that is no set is not read as one. -/
theorem asSet_of_notSet {v : Value} (h : v.NotSet) : v.asSet = .error (.notSet v.shown) := by
  cases v with
  | set members => exact absurd rfl (h members)
  | _ => rfl

/-- What needs the members of two sets fails if one of the values is none. -/
theorem bind_asSet_of_notSet {α : Type} {a b : Value} (h : a.NotSet ∨ b.NotSet)
    (f : List Value → List Value → α) : ∃ got, (do
      let xs ← a.asSet
      let ys ← b.asSet
      Except.ok (f xs ys)) = .error (.notSet got) := by
  by_cases ha : a.NotSet
  · exact ⟨a.shown, by rw [asSet_of_notSet ha]; rfl⟩
  · obtain ⟨xs, rfl⟩ : ∃ xs, a = .set xs := by simpa [NotSet] using ha
    exact ⟨b.shown, by rw [asSet_of_notSet (h.resolve_left ha)]; rfl⟩

end Value

/-! ## Operators on sets -/

/-- The operator joins any two sets to a set. Whether a value is a member of that set is told by a
truth function of its memberships in the two. -/
def BinaryOp.Means (op : BinaryOp) (f : Bool → Bool → Bool) : Prop :=
  ∀ a b : Value, a.IsSet → b.IsSet → ∃ c, Value.combine op a b = .ok c ∧ c.IsSet ∧
    ∀ x, ∃ p q, CompareOp.member.holds x a = .ok p ∧ CompareOp.member.holds x b = .ok q ∧
      CompareOp.member.holds x c = .ok (f p q)

/-- The operator makes a set of any set and a value. Whether a value is a member of it is told by a
truth function of its membership in the first set and its equality with that one value. -/
def BinaryOp.Changes (op : BinaryOp) (f : Bool → Bool → Bool) : Prop :=
  ∀ a y : Value, a.IsSet → ∃ c, Value.combine op a y = .ok c ∧ c.IsSet ∧
    ∀ x, ∃ p, CompareOp.member.holds x a = .ok p ∧
      CompareOp.member.holds x c = .ok (f p (x == y))

namespace BinaryOp

theorem Means.of_contains {op : BinaryOp} {f : Bool → Bool → Bool}
    {operation : List Value → List Value → List Value}
    (hop : ∀ as bs, Value.combine op (.set as) (.set bs) = .ok (.set (operation as bs)))
    (hascending : ∀ {as bs : List Value}, OrderedSet.Ascending as → OrderedSet.Ascending bs →
      OrderedSet.Ascending (operation as bs))
    (hcontains : ∀ {x : Value} {as bs : List Value}, OrderedSet.Ascending as →
      OrderedSet.Ascending bs → OrderedSet.contains x (operation as bs) =
        f (OrderedSet.contains x as) (OrderedSet.contains x bs)) : op.Means f := by
  rintro _ _ ⟨as, rfl, has⟩ ⟨bs, rfl, hbs⟩
  refine ⟨_, hop as bs, ⟨_, rfl, hascending has hbs⟩, fun x => ⟨_, _, rfl, rfl, ?_⟩⟩
  exact congrArg Except.ok (hcontains has hbs)

theorem union_means : union.Means (· || ·) :=
  .of_contains (fun _ _ => rfl) .union OrderedSet.contains_union

theorem intersect_means : intersect.Means (· && ·) :=
  .of_contains (fun _ _ => rfl) (fun has _ => has.inter _)
    fun has _ => OrderedSet.contains_inter has

theorem difference_means : difference.Means fun p q => p && !q :=
  .of_contains (fun _ _ => rfl) (fun has _ => has.diff _) fun has _ => OrderedSet.contains_diff has

theorem symmetricDiff_means : symmetricDiff.Means xor :=
  .of_contains (fun _ _ => rfl) .symmDiff OrderedSet.contains_symmDiff

theorem with_changes : with_.Changes (· || ·) := by
  rintro _ y ⟨members, rfl, hmembers⟩
  refine ⟨_, rfl, ⟨_, rfl, hmembers.insert y⟩, fun x => ⟨_, rfl, ?_⟩⟩
  exact congrArg Except.ok (OrderedSet.contains_insert hmembers)

theorem without_changes : without.Changes fun p q => p && !q := by
  rintro _ y ⟨members, rfl, hmembers⟩
  refine ⟨_, rfl, ⟨_, rfl, hmembers.erase y⟩, fun x => ⟨_, rfl, ?_⟩⟩
  exact congrArg Except.ok (OrderedSet.contains_erase hmembers)

end BinaryOp

namespace Value

/-! ## Laws of the operators -/

/-- An operation gives a set, and its members are the values that pass a test. -/
def Gives (result : Except Cause Value) (test : Value → Bool) : Prop :=
  ∃ v, result = .ok v ∧ v.HasMembers test

/-- Two operations give values, and these are equal. -/
def GiveEqual (r s : Except Cause Value) : Prop := ∃ v w, r = .ok v ∧ s = .ok w ∧ Equal v w

theorem HasMembers.gives {v : Value} {test : Value → Bool} (h : v.HasMembers test) :
    Gives (.ok v) test := ⟨v, rfl, h⟩

/-- Operators nest as their truth functions do. -/
theorem Gives.combine {op : BinaryOp} {f : Bool → Bool → Bool} (hop : op.Means f)
    {r s : Except Cause Value} {p q : Value → Bool} (hr : Gives r p) (hs : Gives s q) :
    Gives (do Value.combine op (← r) (← s)) fun x => f (p x) (q x) := by
  obtain ⟨a, rfl, ha⟩ := hr
  obtain ⟨b, rfl, hb⟩ := hs
  obtain ⟨c, hc, hset, hmember⟩ := hop a b ha.isSet hb.isSet
  refine ⟨c, hc, hset, fun x => ?_⟩
  obtain ⟨p', q', hp, hq, hx⟩ := hmember x
  rw [ha.member_holds] at hp
  rw [hb.member_holds] at hq
  rw [hx, Except.ok.inj hp, Except.ok.inj hq]

theorem Gives.giveEqual {r s : Except Cause Value} {p q : Value → Bool} (hr : Gives r p)
    (hs : Gives s q) (h : ∀ x, p x = q x) : GiveEqual r s := by
  obtain ⟨v, rfl, hv⟩ := hr
  obtain ⟨w, rfl, hw⟩ := hs
  exact ⟨v, w, rfl, rfl, hv.equal hw h⟩

section

variable {a b c : Value} (ha : a.IsSet) (hb : b.IsSet) (hc : c.IsSet)

include ha hb

theorem symmetricDiff_giveEqual : GiveEqual (combine .symmetricDiff a b)
    (do combine .union (← combine .difference a b) (← combine .difference b a)) := by
  obtain ⟨p, ha⟩ := ha.hasMembers
  obtain ⟨q, hb⟩ := hb.hasMembers
  refine Gives.giveEqual (.combine BinaryOp.symmetricDiff_means ha.gives hb.gives)
    (.combine BinaryOp.union_means (.combine BinaryOp.difference_means ha.gives hb.gives)
      (.combine BinaryOp.difference_means hb.gives ha.gives)) fun x => ?_
  cases p x <;> cases q x <;> rfl

/-- An operator is commutative if its truth function is. -/
theorem combine_comm {op : BinaryOp} {f : Bool → Bool → Bool} (hop : op.Means f)
    (hf : ∀ p q, f p q = f q p) : GiveEqual (combine op a b) (combine op b a) := by
  obtain ⟨p, ha⟩ := ha.hasMembers
  obtain ⟨q, hb⟩ := hb.hasMembers
  exact Gives.giveEqual (.combine hop ha.gives hb.gives) (.combine hop hb.gives ha.gives)
    fun _ => hf _ _

include hc

/-- An operator is associative if its truth function is. -/
theorem combine_assoc {op : BinaryOp} {f : Bool → Bool → Bool} (hop : op.Means f)
    (hf : ∀ p q r, f (f p q) r = f p (f q r)) :
    GiveEqual (do combine op (← combine op a b) c) (do combine op a (← combine op b c)) := by
  obtain ⟨p, ha⟩ := ha.hasMembers
  obtain ⟨q, hb⟩ := hb.hasMembers
  obtain ⟨r, hc⟩ := hc.hasMembers
  exact Gives.giveEqual (.combine hop (.combine hop ha.gives hb.gives) hc.gives)
    (.combine hop ha.gives (.combine hop hb.gives hc.gives)) fun _ => hf _ _ _

/-- An operator distributes over another one if its truth function does over the other's. -/
theorem combine_distrib {op op' : BinaryOp} {f f' : Bool → Bool → Bool} (hop : op.Means f)
    (hop' : op'.Means f') (hf : ∀ p q r, f p (f' q r) = f' (f p q) (f p r)) :
    GiveEqual (do combine op a (← combine op' b c))
      (do combine op' (← combine op a b) (← combine op a c)) := by
  obtain ⟨p, ha⟩ := ha.hasMembers
  obtain ⟨q, hb⟩ := hb.hasMembers
  obtain ⟨r, hc⟩ := hc.hasMembers
  exact Gives.giveEqual (.combine hop ha.gives (.combine hop' hb.gives hc.gives))
    (.combine hop' (.combine hop ha.gives hb.gives) (.combine hop ha.gives hc.gives))
    fun _ => hf _ _ _

end

/-! ## Values of other kinds, and expressions -/

/-- An operator on two sets fails if one of its operands is none. -/
theorem combine_of_notSet {op : BinaryOp}
    (hop : op ∈ [BinaryOp.union, .intersect, .difference, .symmetricDiff]) {a b : Value}
    (h : a.NotSet ∨ b.NotSet) : ∃ got, combine op a b = .error (.notSet got) := by
  simp only [List.mem_cons, List.not_mem_nil, or_false] at hop
  rcases hop with rfl | rfl | rfl | rfl <;> exact bind_asSet_of_notSet h _

/-- Only a set can be given a member, and only from a set one can be taken away. -/
theorem combine_of_notSet_left {op : BinaryOp} (hop : op ∈ [BinaryOp.with_, .without]) {a : Value}
    (h : a.NotSet) (y : Value) :
    combine op a y = .error (.unexpected op.symbol "a set" a.shown) := by
  simp only [List.mem_cons, List.not_mem_nil, or_false] at hop
  cases a with
  | set members => exact absurd rfl (h members)
  | _ => rcases hop with rfl | rfl <;> rfl

/-- The value of an operator between expressions is what it makes of their values. -/
theorem eval_combine {op : BinaryOp}
    (hop : op ∈ [BinaryOp.union, .intersect, .difference, .symmetricDiff, .with_, .without])
    {lhs rhs : Expr} {scope : Scope} {next between last : Identity} {a b : Value}
    (hlhs : unbounded.eval lhs scope next = .done (a, between))
    (hrhs : unbounded.eval rhs scope between = .done (b, last)) (span : Span) :
    unbounded.eval (.binary op lhs rhs span) scope next =
      Run.within span (Run.ofExcept (combine op a b)) last := by
  have hbinary : unbounded.binary op lhs rhs scope = (do
      let l ← unbounded.eval lhs scope
      let r ← unbounded.eval rhs scope
      Run.ofExcept (combine op l r)) := by
    simp only [List.mem_cons, List.not_mem_nil, or_false] at hop
    rcases hop with rfl | rfl | rfl | rfl | rfl | rfl <;> rfl
  rw [unbounded_eval, Evaluator.evalStep, hbinary, Run.within_apply, Run.within_apply,
    Run.bind_apply, hlhs]
  dsimp only
  rw [Run.bind_apply, hrhs]

/-- The operators on sets mean what they say.

* Membership in `a | b`, `a & b`, `a &~ b` and `a ~~ b` is the disjunction, the conjunction, the
  conjunction with the negation and the exclusive disjunction of the memberships in `a` and in `b`;
  membership in `a with y` and `a without y` is the disjunction with equality to `y`, and the
  conjunction with its negation.
* So `a ~~ b` is equal to `(a &~ b) | (b &~ a)`, and `|` and `&` are commutative, associative and
  distribute over each other.
* Where a set is required and not given, an operator fails for a cause that says so.
* The value of such an expression is what its operator makes of the values of its operands. -/
theorem set_operators_mean :
    (BinaryOp.union.Means (· || ·) ∧ BinaryOp.intersect.Means (· && ·) ∧
      BinaryOp.difference.Means (fun p q => p && !q) ∧ BinaryOp.symmetricDiff.Means xor ∧
      BinaryOp.with_.Changes (· || ·) ∧ BinaryOp.without.Changes fun p q => p && !q) ∧
    (∀ a b : Value, a.IsSet → b.IsSet → GiveEqual (combine .symmetricDiff a b)
      (do combine .union (← combine .difference a b) (← combine .difference b a))) ∧
    (∀ op ∈ [BinaryOp.union, .intersect], ∀ a b c : Value, a.IsSet → b.IsSet → c.IsSet →
      GiveEqual (combine op a b) (combine op b a) ∧
      GiveEqual (do combine op (← combine op a b) c) (do combine op a (← combine op b c))) ∧
    (∀ a b c : Value, a.IsSet → b.IsSet → c.IsSet →
      GiveEqual (do combine .intersect a (← combine .union b c))
        (do combine .union (← combine .intersect a b) (← combine .intersect a c)) ∧
      GiveEqual (do combine .union a (← combine .intersect b c))
        (do combine .intersect (← combine .union a b) (← combine .union a c))) ∧
    ((∀ op ∈ [BinaryOp.union, .intersect, .difference, .symmetricDiff], ∀ a b : Value,
        a.NotSet ∨ b.NotSet → ∃ cause, combine op a b = .error cause ∧ cause.kind = .type) ∧
      ∀ op ∈ [BinaryOp.with_, .without], ∀ a y : Value, a.NotSet →
        ∃ cause, combine op a y = .error cause ∧ cause.kind = .type) ∧
    ∀ op ∈ [BinaryOp.union, .intersect, .difference, .symmetricDiff, .with_, .without],
      ∀ {lhs rhs : Expr} {scope : Scope} {next between last : Identity} {a b : Value},
        unbounded.eval lhs scope next = .done (a, between) →
        unbounded.eval rhs scope between = .done (b, last) → ∀ span : Span,
        unbounded.eval (.binary op lhs rhs span) scope next =
          Run.within span (Run.ofExcept (combine op a b)) last := by
  refine ⟨⟨BinaryOp.union_means, BinaryOp.intersect_means, BinaryOp.difference_means,
      BinaryOp.symmetricDiff_means, BinaryOp.with_changes, BinaryOp.without_changes⟩,
    fun a b => symmetricDiff_giveEqual, fun op hop a b c ha hb hc => ?_, fun a b c ha hb hc => ?_,
    ⟨fun op hop a b h => ?_, fun op hop a y h => ?_⟩, fun op hop => eval_combine hop⟩
  · simp only [List.mem_cons, List.not_mem_nil, or_false] at hop
    rcases hop with rfl | rfl
    · exact ⟨combine_comm ha hb BinaryOp.union_means Bool.or_comm,
        combine_assoc ha hb hc BinaryOp.union_means Bool.or_assoc⟩
    · exact ⟨combine_comm ha hb BinaryOp.intersect_means Bool.and_comm,
        combine_assoc ha hb hc BinaryOp.intersect_means Bool.and_assoc⟩
  · exact ⟨combine_distrib ha hb hc BinaryOp.intersect_means BinaryOp.union_means
        Bool.and_or_distrib_left,
      combine_distrib ha hb hc BinaryOp.union_means BinaryOp.intersect_means
        Bool.or_and_distrib_left⟩
  · obtain ⟨got, hgot⟩ := combine_of_notSet hop h
    exact ⟨_, hgot, rfl⟩
  · exact ⟨_, combine_of_notSet_left hop h y, rfl⟩

/-- The sets `{-0, "a"}` and `{true, 0}` share the zero, whichever of the two is asked for, and the
first one without `0` has lost its `-0`. A text is no set. -/
theorem set_operators_mean_zeros :
    let a : Value := .set [.number .negZero, .string "a"]
    let b : Value := .set [.bool true, .number .zero]
    a.IsSet ∧ b.IsSet ∧
    (∃ c, combine .intersect a b = .ok c ∧ CompareOp.member.holds (.number .zero) c = .ok true ∧
      CompareOp.member.holds (.string "a") c = .ok false) ∧
    (∃ c, combine .without a (.number .zero) = .ok c ∧
      CompareOp.member.holds (.number .negZero) c = .ok false) ∧
    GiveEqual (combine .symmetricDiff a b)
      (do combine .union (← combine .difference a b) (← combine .difference b a)) ∧
    GiveEqual (combine .union a b) (combine .union b a) ∧
    ∃ cause, combine .union a (.string "a") = .error cause ∧ cause.kind = .type := by
  intro a b
  have ha : a.IsSet := ⟨_, rfl, by decide⟩
  have hb : b.IsSet := ⟨_, rfl, by decide⟩
  obtain ⟨⟨-, hinter, -, -, -, hwithout⟩, hsymm, hlaws, -, ⟨herror, -⟩, -⟩ := set_operators_mean
  refine ⟨ha, hb, ?_, ?_, hsymm a b ha hb, (hlaws .union (by decide) a b a ha hb ha).1,
    herror .union (by decide) a _ (.inr fun _ h => by cases h)⟩
  · obtain ⟨c, hc, -, hmember⟩ := hinter a b ha hb
    refine ⟨c, hc, ?_, ?_⟩
    · obtain ⟨p, q, hp, hq, hx⟩ := hmember (.number .zero)
      cases hp
      cases hq
      exact hx
    · obtain ⟨p, q, hp, hq, hx⟩ := hmember (.string "a")
      cases hp
      cases hq
      exact hx
  · obtain ⟨c, hc, -, hmember⟩ := hwithout a (.number .zero) ha
    obtain ⟨p, hp, hx⟩ := hmember (.number .negZero)
    cases hp
    exact ⟨c, hc, hx⟩

end Value

end Relational
