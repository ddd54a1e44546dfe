import Relational.Proofs.Destructuring
import Relational.Proofs.Fuel
import Relational.Proofs.OrderedSet

/-!
# Collections are what they hold

The order of values compares collections place by place. Since the members of a set and the keys of
a map are in ascending order, there is just one place for each of them, and equality does not depend
on how a collection was made.

> `extensional`: two sets are equal exactly if the values that they were made of are the same up to
> equality, however these were put together and however often each one was; and a value is a member
> exactly if it is equal to one of those. Two dictionaries are equal exactly if they have the same
> keys with equal values, and two tuples exactly if they have the same names with equal values.
-/

namespace Relational

open Std

/-- Each element of either list is related to one of the other. -/
def Matched {α : Type} (R : α → α → Prop) (as bs : List α) : Prop :=
  (∀ a ∈ as, ∃ b ∈ bs, R a b) ∧ ∀ b ∈ bs, ∃ a ∈ as, R a b

instance {α : Type} (R : α → α → Prop) [DecidableRel R] (as bs : List α) :
    Decidable (Matched R as bs) := inferInstanceAs (Decidable (_ ∧ _))

/-! ## Lists in ascending order -/

section

variable {α κ : Type} [Ord κ] [TransOrd κ] {R : α → α → Prop} {as bs : List α}

omit [Ord κ] [TransOrd κ] in
theorem matched_of_forall₂ (h : List.Forall₂ R as bs) : Matched R as bs := by
  induction h with
  | nil => exact ⟨List.forall_mem_nil _, List.forall_mem_nil _⟩
  | @cons a b as bs hab _ ih =>
    constructor
    · refine List.forall_mem_cons.mpr ⟨⟨b, List.mem_cons_self .., hab⟩, fun a' ha' => ?_⟩
      obtain ⟨b', hb', hab'⟩ := ih.1 a' ha'
      exact ⟨b', List.mem_cons_of_mem _ hb', hab'⟩
    · refine List.forall_mem_cons.mpr ⟨⟨a, List.mem_cons_self .., hab⟩, fun b' hb' => ?_⟩
      obtain ⟨a', ha', hab'⟩ := ih.2 b' hb'
      exact ⟨a', List.mem_cons_of_mem _ ha', hab'⟩

/-- Lists in ascending order of a key are related in each place if their elements are matched, where
only elements with equal keys are related. The first elements belong to each other: each one is
related to one that does not come before the other, so that none of them can come first. -/
theorem forall₂_of_matched (key : α → κ) (hR : ∀ a b, R a b → compare (key a) (key b) = .eq)
    (has : as.Pairwise fun a a' => compare (key a) (key a') = .lt)
    (hbs : bs.Pairwise fun b b' => compare (key b) (key b') = .lt) (h : Matched R as bs) :
    List.Forall₂ R as bs := by
  induction as generalizing bs with
  | nil =>
    cases bs with
    | nil => exact .nil
    | cons b bs =>
      obtain ⟨a, ha, -⟩ := h.2 b (List.mem_cons_self ..)
      cases ha
  | cons a as ih =>
    cases bs with
    | nil =>
      obtain ⟨b, hb, -⟩ := h.1 a (List.mem_cons_self ..)
      cases hb
    | cons b bs =>
      obtain ⟨ha, has⟩ := List.pairwise_cons.mp has
      obtain ⟨hb, hbs⟩ := List.pairwise_cons.mp hbs
      have hab : R a b := by
        obtain ⟨b', hb', hab'⟩ := h.1 a (List.mem_cons_self ..)
        obtain ⟨a', ha', hab⟩ := h.2 b (List.mem_cons_self ..)
        rcases List.mem_cons.mp hb' with rfl | hb'
        · exact hab'
        · rcases List.mem_cons.mp ha' with rfl | ha'
          · exact hab
          · have hlt : compare (key b) (key a) = .lt :=
              TransCmp.lt_of_lt_of_eq (hb b' hb') (OrientedCmp.eq_symm (hR _ _ hab'))
            have hgt : compare (key a) (key b) = .lt :=
              TransCmp.lt_of_lt_of_eq (ha a' ha') (hR _ _ hab)
            exact absurd hgt (OrientedCmp.not_lt_of_lt hlt)
      refine .cons hab (ih has hbs ⟨fun a' ha' => ?_, fun b' hb' => ?_⟩)
      · obtain ⟨b', hb', hab'⟩ := h.1 a' (List.mem_cons_of_mem _ ha')
        rcases List.mem_cons.mp hb' with rfl | hb'
        · have heq := TransCmp.eq_trans (hR _ _ hab) (OrientedCmp.eq_symm (hR _ _ hab'))
          rw [ha a' ha'] at heq
          cases heq
        · exact ⟨b', hb', hab'⟩
      · obtain ⟨a', ha', hab'⟩ := h.2 b' (List.mem_cons_of_mem _ hb')
        rcases List.mem_cons.mp ha' with rfl | ha'
        · have heq := TransCmp.eq_trans (OrientedCmp.eq_symm (hR _ _ hab)) (hR _ _ hab')
          rw [hb b' hb'] at heq
          cases heq
        · exact ⟨a', ha', hab'⟩

theorem forall₂_iff_matched (key : α → κ) (hR : ∀ a b, R a b → compare (key a) (key b) = .eq)
    (has : as.Pairwise fun a a' => compare (key a) (key a') = .lt)
    (hbs : bs.Pairwise fun b b' => compare (key b) (key b') = .lt) :
    List.Forall₂ R as bs ↔ Matched R as bs :=
  ⟨matched_of_forall₂, forall₂_of_matched key hR has hbs⟩

/-- A map is the same as another one exactly if their entries are matched. -/
theorem OrderedMap.same_iff_matched {ν : Type} {S : ν → ν → Prop} {entries entries' : List (κ × ν)}
    (h : Ascending entries) (h' : Ascending entries') :
    Same S entries entries' ↔
      Matched (fun e e' => compare e.1 e'.1 = .eq ∧ S e.2 e'.2) entries entries' :=
  forall₂_iff_matched Prod.fst (fun _ _ h => h.1) h h'

end

namespace Value

/-! ## Equality of collections -/

theorem compareMembers_eq_iff (as bs : List Value) :
    compareMembers as bs = .eq ↔ List.Forall₂ Equal as bs := by
  induction as generalizing bs with
  | nil => cases bs <;> simp [compareMembers]
  | cons a as ih =>
    cases bs with
    | nil => simp [compareMembers]
    | cons b bs => simp [compareMembers, Ordering.then_eq_eq, ih bs, beq_iff]

theorem set_beq_iff {as bs : List Value} :
    Equal (.set as) (.set bs) ↔ List.Forall₂ Equal as bs := by
  rw [Equal, beq_iff, Value.compare, compareMembers_eq_iff]

/-- Only a set is equal to a set. -/
theorem exists_set_of_equal {v : Value} {bs : List Value} (h : Equal v (.set bs)) :
    ∃ as, v = .set as := by
  have hcompare := beq_iff.mp h
  cases v with
  | set as => exact ⟨as, rfl⟩
  | _ => cases hcompare

theorem set_beq_iff_matched {as bs : List Value} (has : OrderedSet.Ascending as)
    (hbs : OrderedSet.Ascending bs) : Equal (.set as) (.set bs) ↔ Matched Equal as bs :=
  set_beq_iff.trans (forall₂_iff_matched id (fun _ _ => beq_iff.mp) has hbs)

/-- The entries have equal keys and equal values. -/
def SameEntry (e e' : Value × Value) : Prop := Equal e.1 e'.1 ∧ Equal e.2 e'.2

/-- The attributes have the same name and equal values. -/
def SameAttr (e e' : String × Value) : Prop := e.1 = e'.1 ∧ Equal e.2 e'.2

instance : DecidableRel SameEntry := fun _ _ => inferInstanceAs (Decidable (_ ∧ _))

instance : DecidableRel SameAttr := fun _ _ => inferInstanceAs (Decidable (_ ∧ _))

theorem dict_beq_iff_matched {as bs : List (Value × Value)} (has : OrderedMap.Ascending as)
    (hbs : OrderedMap.Ascending bs) : Equal (.dict as) (.dict bs) ↔ Matched SameEntry as bs := by
  have hentry : (fun e e' : Value × Value => Ord.compare e.1 e'.1 = .eq ∧ Equal e.2 e'.2) =
      SameEntry := by
    funext e e'
    exact propext (and_congr_left' beq_iff.symm)
  rw [dict_beq_iff, OrderedMap.same_iff_matched has hbs, hentry]

theorem tuple_beq_iff_matched {as bs : List (String × Value)} (has : OrderedMap.Ascending as)
    (hbs : OrderedMap.Ascending bs) : Equal (.tuple as) (.tuple bs) ↔ Matched SameAttr as bs := by
  have hattr : (fun e e' : String × Value => Ord.compare e.1 e'.1 = .eq ∧ Equal e.2 e'.2) =
      SameAttr := by
    funext e e'
    exact propext (and_congr_left' Std.compare_eq_iff_eq)
  rw [tuple_beq_iff, OrderedMap.same_iff_matched has hbs, hattr]

/-- Lists are matched up to equality exactly if the same values are equal to one of their elements. -/
theorem matched_equal_iff {as bs : List Value} :
    Matched Equal as bs ↔ ∀ v, (∃ a ∈ as, Equal v a) ↔ ∃ b ∈ bs, Equal v b := by
  constructor
  · rintro ⟨hright, hleft⟩ v
    constructor
    · rintro ⟨a, ha, hva⟩
      obtain ⟨b, hb, hab⟩ := hright a ha
      exact ⟨b, hb, beq_equivalence.trans hva hab⟩
    · rintro ⟨b, hb, hvb⟩
      obtain ⟨a, ha, hab⟩ := hleft b hb
      exact ⟨a, ha, beq_equivalence.trans hvb (beq_equivalence.symm hab)⟩
  · intro h
    refine ⟨fun a ha => (h a).mp ⟨a, ha, beq_equivalence.refl a⟩, fun b hb => ?_⟩
    obtain ⟨a, ha, hba⟩ := (h b).mpr ⟨b, hb, beq_equivalence.refl b⟩
    exact ⟨a, ha, beq_equivalence.symm hba⟩

/-- Equal sets answer alike to every search, whether or not they are in order. -/
theorem contains_eq_of_forall₂ {as bs : List Value} (h : List.Forall₂ Equal as bs) (v : Value) :
    OrderedSet.contains v as = OrderedSet.contains v bs := by
  induction h with
  | nil => rfl
  | @cons a b as bs hab _ ih =>
    have heq : Ord.compare a b = .eq := beq_iff.mp hab
    rw [OrderedSet.contains, OrderedSet.contains, ih, TransCmp.congr_right heq]

/-! ## Sets made of given values -/

/-- A set is made of the values of a list: at once, as the value of a set expression whose elements
have them for values, or one by one with `with`, on values or in an expression. -/
inductive MadeOf : List Value → Value → Prop
  | ofList (xs : List Value) : MadeOf xs (.set (OrderedSet.ofList xs))
  | setExpr {elements : List Expr} {span : Span} {scope : Scope} {next after after' : Identity}
      {xs : List Value} {a : Value}
      (helements : Run.traverse (unbounded.eval · scope) elements next = .done (xs, after))
      (h : unbounded.eval (.set elements span) scope next = .done (a, after')) : MadeOf xs a
  | withMember {xs : List Value} {a x b : Value} (ha : MadeOf xs a)
      (h : combine .with_ a x = .ok b) : MadeOf (xs ++ [x]) b
  | withExpr {lhs rhs : Expr} {span : Span} {scope : Scope} {next between after after' : Identity}
      {xs : List Value} {a x b : Value} (ha : MadeOf xs a)
      (hlhs : unbounded.eval lhs scope next = .done (a, between))
      (hrhs : unbounded.eval rhs scope between = .done (x, after))
      (h : unbounded.eval (.binary .with_ lhs rhs span) scope next = .done (b, after')) :
      MadeOf (xs ++ [x]) b

/-- The members of a set are in order, and they are the values of the list up to equality. -/
structure Holds (xs members : List Value) : Prop where
  ascending : OrderedSet.Ascending members
  mem_iff (v : Value) : (∃ m ∈ members, Equal v m) ↔ ∃ x ∈ xs, Equal v x

theorem holds_ofList (xs : List Value) : Holds xs (OrderedSet.ofList xs) where
  ascending := OrderedSet.ascending_ofList xs
  mem_iff v := by
    simp only [Equal, beq_iff]
    exact OrderedSet.exists_mem_ofList_iff

theorem Holds.insert {xs members : List Value} (h : Holds xs members) (x : Value) :
    Holds (xs ++ [x]) (OrderedSet.insert x members) where
  ascending := h.ascending.insert x
  mem_iff v := by
    have hmem := h.mem_iff v
    simp only [Equal, beq_iff] at hmem ⊢
    refine OrderedSet.exists_mem_insert_iff.trans ⟨?_, ?_⟩
    · rintro (heq | hold)
      · exact ⟨x, List.mem_append_right _ (List.mem_singleton_self x), heq⟩
      · obtain ⟨y, hy, heq⟩ := hmem.mp hold
        exact ⟨y, List.mem_append_left _ hy, heq⟩
    · rintro ⟨y, hy, heq⟩
      rcases List.mem_append.mp hy with hy | hy
      · exact Or.inr (hmem.mpr ⟨y, hy, heq⟩)
      · rw [List.mem_singleton.mp hy] at heq
        exact Or.inl heq

/-- The value of a set expression holds the values of its elements. -/
theorem eval_set {elements : List Expr} (span : Span) {scope : Scope} {next after : Identity}
    {xs : List Value}
    (h : Run.traverse (unbounded.eval · scope) elements next = .done (xs, after)) :
    unbounded.eval (.set elements span) scope next = .done (.set (OrderedSet.ofList xs), after) := by
  rw [unbounded_eval]
  exact Run.bind_eq_done_iff.mpr ⟨xs, after, h, rfl⟩

theorem eval_with {lhs rhs : Expr} (span : Span) {scope : Scope} {next between after : Identity}
    {members : List Value} {x : Value}
    (hlhs : unbounded.eval lhs scope next = .done (.set members, between))
    (hrhs : unbounded.eval rhs scope between = .done (x, after)) :
    unbounded.eval (.binary .with_ lhs rhs span) scope next =
      .done (.set (OrderedSet.insert x members), after) := by
  have hbinary : unbounded.binary .with_ lhs rhs scope next =
      .done (.set (OrderedSet.insert x members), after) :=
    Run.bind_eq_done_iff.mpr ⟨_, between, hlhs, Run.bind_eq_done_iff.mpr ⟨x, after, hrhs, rfl⟩⟩
  rw [unbounded_eval, Evaluator.evalStep, Run.within_apply, hbinary]

theorem MadeOf.holds {xs : List Value} {a : Value} (h : MadeOf xs a) :
    ∃ members, a = .set members ∧ Holds xs members := by
  induction h with
  | ofList xs => exact ⟨_, rfl, holds_ofList xs⟩
  | setExpr helements h =>
    rw [eval_set _ helements] at h
    obtain ⟨rfl, -⟩ := Prod.mk.inj (Outcome.done.inj h)
    exact ⟨_, rfl, holds_ofList _⟩
  | @withMember _ _ x _ _ h ih =>
    obtain ⟨members, rfl, hmembers⟩ := ih
    exact ⟨_, (Except.ok.inj h).symm, hmembers.insert x⟩
  | @withExpr _ _ _ _ _ _ _ _ _ _ x _ _ hlhs hrhs h ih =>
    obtain ⟨members, rfl, hmembers⟩ := ih
    rw [eval_with _ hlhs hrhs] at h
    obtain ⟨rfl, -⟩ := Prod.mk.inj (Outcome.done.inj h)
    exact ⟨_, rfl, hmembers.insert x⟩

/-- Sets are equal exactly if the values that they are made of are the same up to equality. -/
theorem MadeOf.equal_iff {xs ys : List Value} {a b : Value} (ha : MadeOf xs a) (hb : MadeOf ys b) :
    Equal a b ↔ Matched Equal xs ys := by
  obtain ⟨as, rfl, has⟩ := ha.holds
  obtain ⟨bs, rfl, hbs⟩ := hb.holds
  rw [set_beq_iff_matched has.ascending hbs.ascending, matched_equal_iff, matched_equal_iff]
  simp only [has.mem_iff, hbs.mem_iff]

theorem member_holds_iff {members : List Value} (h : OrderedSet.Ascending members) (v : Value) :
    CompareOp.member.holds v (.set members) = .ok true ↔ ∃ m ∈ members, Equal v m := by
  simp only [Equal, beq_iff]
  refine Iff.trans ?_ (OrderedSet.contains_iff h)
  exact ⟨Except.ok.inj, congrArg _⟩

/-- The members of a set are what is equal to one of the values that it is made of. -/
theorem MadeOf.member_holds {xs : List Value} {a : Value} (h : MadeOf xs a) (v : Value) :
    CompareOp.member.holds v a = .ok (xs.any (v == ·)) := by
  obtain ⟨members, rfl, hmembers⟩ := h.holds
  have hcontains : OrderedSet.contains v members = true ↔ xs.any (v == ·) = true := by
    rw [OrderedSet.contains_iff hmembers.ascending, List.any_eq_true]
    refine Iff.trans ?_ (hmembers.mem_iff v)
    simp only [Equal, beq_iff]
    rfl
  exact congrArg _ (Bool.eq_iff_iff.mpr hcontains)

/-- Ordered sets with the same members are equal. -/
theorem set_beq_of_members {as bs : List Value} (has : OrderedSet.Ascending as)
    (hbs : OrderedSet.Ascending bs)
    (h : ∀ v, CompareOp.member.holds v (.set as) = CompareOp.member.holds v (.set bs)) :
    Equal (.set as) (.set bs) := by
  rw [set_beq_iff_matched has hbs, matched_equal_iff]
  intro v
  rw [← member_holds_iff has, ← member_holds_iff hbs, h v]

/-! ## Maps -/

/-- Dictionaries that are values of expressions are in order. -/
theorem ascending_of_eval_dict {entries : List DictEntry} {conditional : Bool} {span : Span}
    {scope : Scope} {next after : Identity} {d : Value}
    (h : unbounded.eval (.dict entries conditional span) scope next = .done (d, after)) :
    ∃ as, d = .dict as ∧ OrderedMap.Ascending as := by
  rw [unbounded_eval] at h
  obtain ⟨pairs, between, -, h⟩ := Run.bind_eq_done_iff.mp h
  obtain ⟨rfl, -⟩ := Prod.mk.inj (Outcome.done.inj h)
  exact ⟨_, rfl, OrderedMap.Ascending.insertAll pairs .nil⟩

/-- Tuples that are values of expressions are in order. -/
theorem ascending_of_eval_tuple {attrs : List (String × Expr)} {span : Span} {scope : Scope}
    {next after : Identity} {t : Value}
    (h : unbounded.eval (.tuple attrs span) scope next = .done (t, after)) :
    ∃ as, t = .tuple as ∧ OrderedMap.Ascending as := by
  rw [unbounded_eval] at h
  obtain ⟨values, between, -, h⟩ := Run.bind_eq_done_iff.mp h
  obtain ⟨rfl, -⟩ := Prod.mk.inj (Outcome.done.inj h)
  exact ⟨_, rfl, OrderedMap.Ascending.insertAll values .nil⟩

/-! ## Extensionality -/

/-- A set expression whose elements have values has a set of them for value. -/
theorem exists_eval_set {elements : List Expr} (span : Span) {scope : Scope} {next after : Identity}
    {xs : List Value}
    (h : Run.traverse (unbounded.eval · scope) elements next = .done (xs, after)) :
    ∃ a, unbounded.eval (.set elements span) scope next = .done (a, after) ∧ MadeOf xs a := by
  have heval := eval_set span h
  exact ⟨_, heval, .setExpr h heval⟩

theorem MadeOf.exists_with {xs : List Value} {a : Value} (h : MadeOf xs a) (x : Value) :
    ∃ b, combine .with_ a x = .ok b ∧ MadeOf (xs ++ [x]) b := by
  obtain ⟨members, rfl, -⟩ := h.holds
  exact ⟨_, rfl, .withMember h rfl⟩

theorem MadeOf.exists_eval_with {xs : List Value} {a x : Value} (h : MadeOf xs a) {lhs rhs : Expr}
    (span : Span) {scope : Scope} {next between after : Identity}
    (hlhs : unbounded.eval lhs scope next = .done (a, between))
    (hrhs : unbounded.eval rhs scope between = .done (x, after)) :
    ∃ b, unbounded.eval (.binary .with_ lhs rhs span) scope next = .done (b, after) ∧
      MadeOf (xs ++ [x]) b := by
  obtain ⟨members, rfl, -⟩ := h.holds
  have heval := eval_with span hlhs hrhs
  exact ⟨_, heval, .withExpr h hlhs hrhs heval⟩

/-- Collections are what they hold.

* Sets that are made of values are equal exactly if these are the same up to equality, and have for
  members what is equal to one of them. Making them never fails.
* Equal sets have the same members, and sets in order that have the same members are equal.
* Dictionaries and tuples in order are equal exactly if each entry of one has an equal one in the
  other, and those that are values of expressions are in order. -/
theorem extensional :
    ((∀ {xs ys : List Value} {a b : Value}, MadeOf xs a → MadeOf ys b →
        (Equal a b ↔ Matched Equal xs ys)) ∧
      (∀ {xs : List Value} {a : Value}, MadeOf xs a →
        ∀ v, CompareOp.member.holds v a = .ok (xs.any (v == ·))) ∧
      (∀ {elements : List Expr} (span : Span) {scope : Scope} {next after : Identity}
          {xs : List Value},
        Run.traverse (unbounded.eval · scope) elements next = .done (xs, after) →
        ∃ a, unbounded.eval (.set elements span) scope next = .done (a, after) ∧ MadeOf xs a) ∧
      (∀ {xs : List Value} {a : Value}, MadeOf xs a → ∀ x,
        ∃ b, combine .with_ a x = .ok b ∧ MadeOf (xs ++ [x]) b) ∧
      ∀ {xs : List Value} {a x : Value}, MadeOf xs a → ∀ {lhs rhs : Expr} (span : Span)
          {scope : Scope} {next between after : Identity},
        unbounded.eval lhs scope next = .done (a, between) →
        unbounded.eval rhs scope between = .done (x, after) →
        ∃ b, unbounded.eval (.binary .with_ lhs rhs span) scope next = .done (b, after) ∧
          MadeOf (xs ++ [x]) b) ∧
    ((∀ {as bs : List Value}, Equal (.set as) (.set bs) →
        ∀ v, CompareOp.member.holds v (.set as) = CompareOp.member.holds v (.set bs)) ∧
      ∀ {as bs : List Value}, OrderedSet.Ascending as → OrderedSet.Ascending bs →
        (∀ v, CompareOp.member.holds v (.set as) = CompareOp.member.holds v (.set bs)) →
        Equal (.set as) (.set bs)) ∧
    ((∀ {as bs : List (Value × Value)}, OrderedMap.Ascending as → OrderedMap.Ascending bs →
        (Equal (.dict as) (.dict bs) ↔ Matched SameEntry as bs)) ∧
      ∀ {entries : List DictEntry} {conditional : Bool} {span : Span} {scope : Scope}
          {next after : Identity} {d : Value},
        unbounded.eval (.dict entries conditional span) scope next = .done (d, after) →
        ∃ as, d = .dict as ∧ OrderedMap.Ascending as) ∧
    (∀ {as bs : List (String × Value)}, OrderedMap.Ascending as → OrderedMap.Ascending bs →
        (Equal (.tuple as) (.tuple bs) ↔ Matched SameAttr as bs)) ∧
      ∀ {attrs : List (String × Expr)} {span : Span} {scope : Scope} {next after : Identity}
          {t : Value},
        unbounded.eval (.tuple attrs span) scope next = .done (t, after) →
        ∃ as, t = .tuple as ∧ OrderedMap.Ascending as := by
  refine ⟨⟨MadeOf.equal_iff, MadeOf.member_holds, exists_eval_set, MadeOf.exists_with,
    MadeOf.exists_eval_with⟩, ⟨fun h v => ?_, set_beq_of_members⟩,
    ⟨dict_beq_iff_matched, ascending_of_eval_dict⟩, tuple_beq_iff_matched, ascending_of_eval_tuple⟩
  exact congrArg Except.ok (contains_eq_of_forall₂ (set_beq_iff.mp h) v)

/-- The two zeros and a text, put together one by one, make the set that the expression `{"a", -0}`
has for value. Dictionaries with one of the zeros are equal to those with the other, and tuples with
different names differ. -/
theorem extensional_zeros :
    (∃ a b, MadeOf [.number .zero, .string "a", .number .negZero] a ∧
      unbounded.eval (.set [.literal (.string "a") .unknown, .literal (.number .negZero) .unknown]
        .unknown) Scope.empty 0 = .done (b, 0) ∧
      Equal a b ∧ CompareOp.member.holds (.number .negZero) a = .ok true) ∧
    Equal (.dict [(.number .zero, .set []), (.string "a", .number .negZero)])
      (.dict [(.number .negZero, .set []), (.string "a", .number .zero)]) ∧
    ¬Equal (.tuple [("a", .number .zero)]) (.tuple [("b", .number .negZero)]) := by
  obtain ⟨⟨hequal, hmember, hset, hwith, -⟩, -, ⟨hdict, -⟩, htuple, -⟩ := extensional
  have helements : Run.traverse (unbounded.eval · Scope.empty)
      [.literal (.string "a") .unknown, .literal (.number .negZero) .unknown] 0 =
        .done ([.string "a", .number .negZero], 0) := by
    simp only [Run.traverse, unbounded_eval_literal, pure_bind, Run.pure_apply]
  obtain ⟨x, -, hx⟩ := hwith (.ofList []) (.number .zero)
  obtain ⟨y, -, hy⟩ := hwith hx (.string "a")
  obtain ⟨a, -, ha⟩ := hwith hy (.number .negZero)
  obtain ⟨b, heval, hb⟩ := hset .unknown helements
  refine ⟨⟨a, b, ha, heval, (hequal ha hb).mpr (by decide), hmember ha _⟩, ?_, ?_⟩
  · exact (hdict (by decide) (by decide)).mpr (by decide)
  · exact fun h => absurd ((htuple (by decide) (by decide)).mp h) (by decide)

end Value

end Relational
