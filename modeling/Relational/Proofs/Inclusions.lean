import Relational.Proofs.SetAlgebra

/-!
# Inclusions of sets

A set is included in another one if a search for each of its members succeeds there. Up to equality
an included set is a sublist of the other: its members stand there in the same order, with others
between them. So a set that is included and as long is equal, which is why proper inclusion can be
decided by counting.

> `OrderedSet.isSubset_iff_sublist`, `OrderedSet.isProperSubset_iff`: inclusion as a sublist up to
> equality, and proper inclusion as inclusion without equality.

> `CompareOp.set_comparisons_agree`: the set comparisons of the language are those of set theory,
> and they fail exactly on what is no set.
-/

namespace Relational

open Std

/-! ## Ordered sets -/

namespace OrderedSet

variable {α : Type} [Ord α] [TransOrd α] {xs ys zs : List α}

/-- A set is included in another one exactly if that has all of its members. -/
theorem isSubset_iff (hxs : Ascending xs) :
    isSubset xs ys = true ↔ ∀ x, contains x xs = true → contains x ys = true := by
  rw [isSubset, List.all_eq_true]
  constructor
  · intro h x hx
    obtain ⟨y, hy, hxy⟩ := (contains_iff hxs).mp hx
    rw [contains_congr hxy]
    exact h y hy
  · intro h x hx
    exact h x ((contains_iff hxs).mpr ⟨x, hx, compare_self⟩)

/-- The members that an included set takes in the other one. -/
theorem likewise_inter (hxs : Ascending xs) (hys : Ascending ys) (h : isSubset xs ys = true) :
    Likewise xs (inter ys xs) := by
  refine forall₂_of_matched id (fun _ _ heq => heq) hxs (hys.inter xs)
    ⟨fun x hx => ?_, fun y hy => ?_⟩
  · obtain ⟨y, hy, hxy⟩ := (contains_iff hys).mp (List.all_eq_true.mp h x hx)
    have hin : contains y xs = true := (contains_iff hxs).mpr ⟨x, hx, OrientedCmp.eq_symm hxy⟩
    exact ⟨y, List.mem_filter.mpr ⟨hy, hin⟩, hxy⟩
  · obtain ⟨x, hx, hyx⟩ := (contains_iff hxs).mp (List.mem_filter.mp hy).2
    exact ⟨x, hx, OrientedCmp.eq_symm hyx⟩

/-- A set is included in another one exactly if it is a sublist of that up to equality. -/
theorem isSubset_iff_sublist (hxs : Ascending xs) (hys : Ascending ys) :
    isSubset xs ys = true ↔ ∃ zs, zs.Sublist ys ∧ Likewise xs zs := by
  constructor
  · intro h
    exact ⟨inter ys xs, List.filter_sublist, likewise_inter hxs hys h⟩
  · rintro ⟨zs, hzs, h⟩
    refine List.all_eq_true.mpr fun x hx => ?_
    obtain ⟨z, hz, hxz⟩ := (matched_of_forall₂ h).1 x hx
    exact (contains_iff hys).mpr ⟨z, hzs.subset hz, hxz⟩

theorem length_le_of_isSubset (hxs : Ascending xs) (hys : Ascending ys)
    (h : isSubset xs ys = true) : xs.length ≤ ys.length :=
  (likewise_inter hxs hys h).length_eq ▸ List.filter_sublist.length_le

/-- A set is included in another one and smaller exactly if it is included and not equal. -/
theorem isProperSubset_iff (hxs : Ascending xs) (hys : Ascending ys) :
    isProperSubset xs ys = true ↔ isSubset xs ys = true ∧ ¬Likewise xs ys := by
  rw [isProperSubset, Bool.and_eq_true, decide_eq_true_iff, and_comm]
  refine and_congr_right fun h => ?_
  obtain ⟨zs, hzs, hlikewise⟩ := (isSubset_iff_sublist hxs hys).mp h
  constructor
  · intro hlt hequal
    exact absurd hequal.length_eq (Nat.ne_of_lt hlt)
  · intro hne
    refine Nat.lt_of_le_of_ne (length_le_of_isSubset hxs hys h) fun hlength => hne ?_
    have heq : zs = ys := hzs.eq_of_length (hlikewise.length_eq ▸ hlength)
    exact heq ▸ hlikewise

theorem isSubset_trans (hxs : Ascending xs) (hys : Ascending ys) (hxy : isSubset xs ys = true)
    (hyz : isSubset ys zs = true) : isSubset xs zs = true := by
  rw [isSubset_iff hxs] at hxy ⊢
  rw [isSubset_iff hys] at hyz
  exact fun x hx => hyz x (hxy x hx)

theorem isProperSubset_trans (hxs : Ascending xs) (hys : Ascending ys)
    (hxy : isProperSubset xs ys = true) (hyz : isProperSubset ys zs = true) :
    isProperSubset xs zs = true := by
  simp only [isProperSubset, Bool.and_eq_true, decide_eq_true_iff] at hxy hyz ⊢
  exact ⟨Nat.lt_trans hxy.1 hyz.1, isSubset_trans hxs hys hxy.2 hyz.2⟩

/-- Sets that are included in each other are equal: neither can be smaller. -/
theorem likewise_of_isSubset (hxs : Ascending xs) (hys : Ascending ys)
    (hxy : isSubset xs ys = true) (hyx : isSubset ys xs = true) : Likewise xs ys := by
  by_contra hne
  have hproper := (isProperSubset_iff hxs hys).mpr ⟨hxy, hne⟩
  rw [isProperSubset, Bool.and_eq_true, decide_eq_true_iff] at hproper
  exact absurd hproper.1 (Nat.not_lt.mpr (length_le_of_isSubset hys hxs hyx))

end OrderedSet

/-! ## Comparisons of sets -/

namespace Value

/-- Sets are equal exactly if they have equal members in the same places. -/
theorem set_equal_iff {as bs : List Value} :
    Equal (.set as) (.set bs) ↔ OrderedSet.Likewise as bs := by
  rw [set_beq_iff]
  exact ⟨fun h => h.imp fun _ _ => beq_iff.mp, fun h => h.imp fun _ _ => beq_iff.mpr⟩

theorem isSubset_of_notSet {a b : Value} (h : a.NotSet ∨ b.NotSet) :
    ∃ got, a.isSubset b = .error (.notSet got) :=
  bind_asSet_of_notSet h OrderedSet.isProperSubset

theorem isSubsetEq_of_notSet {a b : Value} (h : a.NotSet ∨ b.NotSet) :
    ∃ got, a.isSubsetEq b = .error (.notSet got) :=
  bind_asSet_of_notSet h OrderedSet.isSubset

end Value

namespace CompareOp

/-- The comparison has an answer, which is yes exactly if a statement is true. -/
def Decides (op : CompareOp) (a b : Value) (statement : Prop) : Prop :=
  ∃ answer, op.holds a b = .ok answer ∧ (answer = true ↔ statement)

section

variable {a b : Value}

/-- A set is included in another one exactly if all of its members are members of that. -/
theorem subsetEq_decides (ha : a.IsSet) (hb : b.IsSet) : subsetEq.Decides a b
    (∀ x, member.holds x a = .ok true → member.holds x b = .ok true) := by
  obtain ⟨as, rfl, has⟩ := ha
  obtain ⟨bs, rfl, -⟩ := hb
  refine ⟨_, rfl, (OrderedSet.isSubset_iff has).trans (forall_congr' fun x => ?_)⟩
  exact imp_congr ⟨congrArg _, Except.ok.inj⟩ ⟨congrArg _, Except.ok.inj⟩

/-- Inclusion of a smaller set is inclusion without equality. -/
theorem subset_decides (ha : a.IsSet) (hb : b.IsSet) : subset.Decides a b
    (subsetEq.holds a b = .ok true ∧ ¬CompareOp.eq.holds a b = .ok true) := by
  obtain ⟨as, rfl, has⟩ := ha
  obtain ⟨bs, rfl, hbs⟩ := hb
  refine ⟨_, rfl, (OrderedSet.isProperSubset_iff has hbs).trans ?_⟩
  refine and_congr ⟨congrArg _, Except.ok.inj⟩ (not_congr ?_)
  exact Value.set_equal_iff.symm.trans ⟨congrArg _, Except.ok.inj⟩

/-- One of two inclusions holds if the first one does or the second one. -/
theorem or_decides {op left right : CompareOp} {p q : Bool} (hop : op.holds a b = .ok (p || q))
    (hleft : left.holds a b = .ok p) (hright : right.holds a b = .ok q) :
    op.Decides a b (left.holds a b = .ok true ∨ right.holds a b = .ok true) := by
  refine ⟨_, hop, ?_⟩
  rw [hleft, hright, Bool.or_eq_true, Except.ok.injEq, Except.ok.injEq]

theorem comparable_decides (ha : a.IsSet) (hb : b.IsSet) : comparable.Decides a b
    (subset.holds a b = .ok true ∨ superset.holds a b = .ok true) := by
  obtain ⟨xs, rfl, -⟩ := ha
  obtain ⟨ys, rfl, -⟩ := hb
  refine or_decides (p := OrderedSet.isProperSubset xs ys) ?_ rfl rfl
  show Value.isComparable (.set xs) (.set ys) = _
  have hleft : (Value.set xs).isSubset (.set ys) = .ok (OrderedSet.isProperSubset xs ys) := rfl
  rw [Value.isComparable, hleft]
  cases OrderedSet.isProperSubset xs ys <;> rfl

theorem comparableEq_decides (ha : a.IsSet) (hb : b.IsSet) : comparableEq.Decides a b
    (subsetEq.holds a b = .ok true ∨ supersetEq.holds a b = .ok true) := by
  obtain ⟨xs, rfl, -⟩ := ha
  obtain ⟨ys, rfl, -⟩ := hb
  refine or_decides (p := OrderedSet.isSubset xs ys) ?_ rfl rfl
  -- the operands are looked at in the other order
  show Value.isComparableEq (.set ys) (.set xs) = _
  have hright : (Value.set ys).isSubsetEq (.set xs) = .ok (OrderedSet.isSubset ys xs) := rfl
  rw [Value.isComparableEq, hright, Bool.or_comm]
  cases OrderedSet.isSubset ys xs <;> rfl

end

/-! ### Negations and values of other kinds -/

/-- The inclusions, each with its negation. -/
def inclusions : List (CompareOp × CompareOp) :=
  [(subset, notSubset), (superset, notSuperset), (subsetEq, notSubsetEq),
   (supersetEq, notSupersetEq), (comparable, notComparable), (comparableEq, notComparableEq)]

theorem negation_holds {pair : CompareOp × CompareOp} (h : pair ∈ inclusions) (a b : Value) :
    pair.2.holds a b = (pair.1.holds a b).map (!·) := by
  simp only [inclusions, List.mem_cons, List.not_mem_nil, or_false] at h
  rcases h with rfl | rfl | rfl | rfl | rfl | rfl <;> rfl

/-- An inclusion fails on a value that is no set. The operand that is looked at last is looked at
too: no inclusion has an answer before. -/
theorem inclusion_of_notSet {pair : CompareOp × CompareOp} (hpair : pair ∈ inclusions) {a b : Value}
    (h : a.NotSet ∨ b.NotSet) : ∃ got, pair.1.holds a b = .error (.notSet got) := by
  obtain ⟨left, hleft⟩ := Value.isSubset_of_notSet h
  obtain ⟨right, hright⟩ := Value.isSubsetEq_of_notSet h.symm
  simp only [inclusions, List.mem_cons, List.not_mem_nil, or_false] at hpair
  rcases hpair with rfl | rfl | rfl | rfl | rfl | rfl
  · exact ⟨left, hleft⟩
  · exact Value.isSubset_of_notSet h.symm
  · exact Value.isSubsetEq_of_notSet h
  · exact ⟨right, hright⟩
  · refine ⟨left, ?_⟩
    show a.isComparable b = _
    rw [Value.isComparable, hleft]
    rfl
  · refine ⟨right, ?_⟩
    show b.isComparableEq a = _
    rw [Value.isComparableEq, hright]
    rfl

/-- Membership fails exactly in what is no set. -/
theorem member_error_iff (a b : Value) :
    (∃ cause, member.holds a b = .error cause) ↔ b.NotSet := by
  constructor
  · rintro ⟨cause, hcause⟩ members rfl
    cases hcause
  · intro h
    cases b with
    | set members => exact absurd rfl (h members)
    | _ => exact ⟨_, rfl⟩

theorem notMember_error_iff (a b : Value) :
    (∃ cause, notMember.holds a b = .error cause) ↔ b.NotSet := by
  rw [← member_error_iff a b]
  show (∃ cause, (member.holds a b).map (!·) = .error cause) ↔ _
  cases member.holds a b with
  | ok answer => constructor <;> rintro ⟨_, ⟨⟩⟩
  | error cause => exact ⟨fun _ => ⟨cause, rfl⟩, fun _ => ⟨cause, rfl⟩⟩

/-- The set comparisons agree with set theory.

* On sets each of them has an answer. `(<=)` says whether every member of the first set is a member
  of the second, `(<)` whether the first is included and not equal, `(>)` and `(>=)` are the
  converses, and `(<>)` and `(<>=)` say whether there is an inclusion in one of the directions.
* `(<)` and `(<=)` are transitive, and sets that are included in each other are equal.
* Each negated form, that of membership among them, answers the opposite and fails where the plain
  form does.
* An inclusion fails for a cause that says so if one of its operands is no set; membership fails
  exactly if its right operand is none. -/
theorem set_comparisons_agree :
    (∀ a b : Value, a.IsSet → b.IsSet →
      subsetEq.Decides a b (∀ x, member.holds x a = .ok true → member.holds x b = .ok true) ∧
      subset.Decides a b (subsetEq.holds a b = .ok true ∧ ¬CompareOp.eq.holds a b = .ok true) ∧
      superset.Decides a b (subset.holds b a = .ok true) ∧
      supersetEq.Decides a b (subsetEq.holds b a = .ok true) ∧
      comparable.Decides a b (subset.holds a b = .ok true ∨ superset.holds a b = .ok true) ∧
      comparableEq.Decides a b
        (subsetEq.holds a b = .ok true ∨ supersetEq.holds a b = .ok true)) ∧
    (∀ op ∈ [subset, subsetEq], ∀ a b c : Value, a.IsSet → b.IsSet → c.IsSet →
      op.holds a b = .ok true → op.holds b c = .ok true → op.holds a c = .ok true) ∧
    (∀ a b : Value, a.IsSet → b.IsSet → subsetEq.holds a b = .ok true →
      subsetEq.holds b a = .ok true → CompareOp.eq.holds a b = .ok true) ∧
    (∀ pair ∈ (member, notMember) :: inclusions, ∀ a b : Value,
      pair.2.holds a b = (pair.1.holds a b).map (!·)) ∧
    (∀ pair ∈ inclusions, ∀ op ∈ [pair.1, pair.2], ∀ a b : Value, a.NotSet ∨ b.NotSet →
      ∃ cause, op.holds a b = .error cause ∧ cause.kind = .type) ∧
    ∀ op ∈ [member, notMember], ∀ a b : Value,
      (∃ cause, op.holds a b = .error cause) ↔ b.NotSet := by
  refine ⟨fun a b ha hb => ⟨subsetEq_decides ha hb, subset_decides ha hb, ?_, ?_,
      comparable_decides ha hb, comparableEq_decides ha hb⟩, fun op hop a b c => ?_, ?_,
    List.forall_mem_cons.mpr ⟨fun _ _ => rfl, fun _ => negation_holds⟩, ?_, ?_⟩
  · obtain ⟨answer, hanswer, -⟩ := subset_decides hb ha
    exact ⟨answer, hanswer, by rw [hanswer, Except.ok.injEq]⟩
  · obtain ⟨answer, hanswer, -⟩ := subsetEq_decides hb ha
    exact ⟨answer, hanswer, by rw [hanswer, Except.ok.injEq]⟩
  · rintro ⟨xs, rfl, hxs⟩ ⟨ys, rfl, hys⟩ ⟨zs, rfl, -⟩ hab hbc
    simp only [List.mem_cons, List.not_mem_nil, or_false] at hop
    rcases hop with rfl | rfl
    · exact congrArg Except.ok
        (OrderedSet.isProperSubset_trans hxs hys (Except.ok.inj hab) (Except.ok.inj hbc))
    · exact congrArg Except.ok
        (OrderedSet.isSubset_trans hxs hys (Except.ok.inj hab) (Except.ok.inj hbc))
  · rintro _ _ ⟨xs, rfl, hxs⟩ ⟨ys, rfl, hys⟩ hab hba
    exact congrArg Except.ok (Value.set_equal_iff.mpr
      (OrderedSet.likewise_of_isSubset hxs hys (Except.ok.inj hab) (Except.ok.inj hba)))
  · intro pair hpair op hop a b h
    obtain ⟨got, hgot⟩ := inclusion_of_notSet hpair h
    simp only [List.mem_cons, List.not_mem_nil, or_false] at hop
    rcases hop with rfl | rfl
    · exact ⟨_, hgot, rfl⟩
    · exact ⟨.notSet got, by rw [negation_holds hpair, hgot]; rfl, rfl⟩
  · exact List.forall_mem_cons.mpr ⟨member_error_iff, List.forall_mem_singleton.mpr
      notMember_error_iff⟩

/-- The set `{-0}` is included in `{0, "a"}` and not equal to it, and so it is smaller. A text has
no subsets, and everything can be asked for in a set only. -/
theorem set_comparisons_agree_zeros :
    let a : Value := .set [.number .negZero]
    let b : Value := .set [.number .zero, .string "a"]
    a.IsSet ∧ b.IsSet ∧ subset.holds a b = .ok true ∧ comparable.holds b a = .ok true ∧
    notComparable.holds b a = .ok false ∧
    (∃ cause, comparableEq.holds a (.string "a") = .error cause ∧ cause.kind = .type) ∧
    ∃ cause, notMember.holds a (.string "a") = .error cause := by
  intro a b
  have ha : a.IsSet := ⟨_, rfl, by decide⟩
  have hb : b.IsSet := ⟨_, rfl, by decide⟩
  have htext : (Value.string "a").NotSet := fun _ h => by cases h
  obtain ⟨hdecides, -, -, hnegation, hkind, hmember⟩ := set_comparisons_agree
  obtain ⟨-, ⟨answer, hanswer, hiff⟩, -⟩ := hdecides a b ha hb
  obtain ⟨-, -, -, -, ⟨answer', hanswer', hiff'⟩, -⟩ := hdecides b a hb ha
  obtain rfl : answer = true := hiff.mpr ⟨by decide, by decide⟩
  obtain rfl : answer' = true := hiff'.mpr (.inr hanswer)
  have hopposite := hnegation (comparable, notComparable) (by decide) b a
  rw [hanswer'] at hopposite
  exact ⟨ha, hb, hanswer, hanswer', hopposite,
    hkind (comparableEq, notComparableEq) (by decide) _ (by decide) a _ (.inr htext),
    (hmember notMember (by decide) a _).mpr htext⟩

end CompareOp

end Relational
