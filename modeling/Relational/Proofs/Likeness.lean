import Mathlib.Data.List.Forall2
import Relational.Eval.Step

/-!
# Likeness of values

Two runs can be compared only if their values can. A likeness relates values of one run to values
of another so that no operation can tell them apart:

> Like values have the same shape, and a value that is no function is like another exactly if it is
> built alike from like parts. Like values compare alike. Their texts are related in a way that is
> given: only failures show texts, so that like failures may differ in what they show.

Nothing is said here of what makes two functions alike. So every operation on values, which can do
nothing with a function but compare it and show it, makes like results of like arguments.
-/

namespace Relational

/-- Both components of two pairs are related. -/
inductive Both {α α' β β' : Type} (R : α → α' → Prop) (S : β → β' → Prop) :
    α × β → α' × β' → Prop
  | mk {a : α} {a' : α'} {b : β} {b' : β'} (hfst : R a a') (hsnd : S b b') :
      Both R S (a, b) (a', b')

namespace Both

variable {α α' β β' : Type} {R : α → α' → Prop} {S : β → β' → Prop} {p : α × β} {q : α' × β'}

theorem fst (h : Both R S p q) : R p.1 q.1 := by
  cases h with
  | mk hfst _ => exact hfst

theorem snd (h : Both R S p q) : S p.2 q.2 := by
  cases h with
  | mk _ hsnd => exact hsnd

end Both

/-- Related elements are in the same order. -/
def KeepsOrder {α : Type} [Ord α] (R : α → α → Prop) : Prop :=
  ∀ ⦃a a' b b' : α⦄, R a a' → R b b' → compare a b = compare a' b'

theorem KeepsOrder.eq {α : Type} [Ord α] : KeepsOrder (Eq : α → α → Prop) := by
  rintro a _ b _ rfl rfl
  rfl

theorem optionRel_imp {α β : Type} {R S : α → β → Prop} {x : Option α} {y : Option β}
    (himp : ∀ a, x = some a → ∀ b, R a b → S a b) (h : Option.Rel R x y) : Option.Rel S x y := by
  cases h with
  | none => exact .none
  | some h => exact .some (himp _ rfl _ h)

/-- What relates the elements at the same places relates them still where more is known of those on
the left. -/
theorem forall₂_of_mem {α β : Type} {R S : α → β → Prop} {as : List α} {bs : List β}
    (h : List.Forall₂ R as bs) (himp : ∀ a ∈ as, ∀ b, R a b → S a b) : List.Forall₂ S as bs := by
  induction h with
  | nil => exact .nil
  | cons hab _ ih =>
    rw [List.forall_mem_cons] at himp
    exact .cons (himp.1 _ hab) (ih himp.2)

theorem forall₂_tail {α β : Type} {R : α → β → Prop} {as : List α} {bs : List β}
    (h : List.Forall₂ R as bs) : List.Forall₂ R as.tail bs.tail := by
  cases h with
  | nil => exact .nil
  | cons _ h => exact h

theorem getElem?_rel {α β : Type} {R : α → β → Prop} {as : List α} {bs : List β}
    (h : List.Forall₂ R as bs) : ∀ i : Nat, Option.Rel R as[i]? bs[i]? := by
  induction h with
  | nil => exact fun _ => .none
  | cons hab _ ih =>
    intro i
    cases i with
    | zero => exact .some hab
    | succ i => exact ih i

theorem findIdx?_eq_of_rel {α β : Type} {R : α → β → Prop} {p : α → Bool} {q : β → Bool}
    (hpq : ∀ a b, R a b → p a = q b) {as : List α} {bs : List β} (h : List.Forall₂ R as bs) :
    as.findIdx? p = bs.findIdx? q := by
  induction h with
  | nil => rfl
  | @cons a b _ _ hab _ ih => rw [List.findIdx?_cons, List.findIdx?_cons, hpq a b hab, ih]

theorem find?_rel {α β : Type} {R : α → β → Prop} {p : α → Bool} {q : β → Bool}
    (hpq : ∀ a b, R a b → p a = q b) {as : List α} {bs : List β} (h : List.Forall₂ R as bs) :
    Option.Rel R (as.find? p) (bs.find? q) := by
  induction h with
  | nil => exact .none
  | @cons a b _ _ hab _ ih =>
    rw [List.find?_cons, List.find?_cons, hpq a b hab]
    cases q b with
    | true => exact .some hab
    | false => exact ih

/-- Lists are equal if their elements are related one by one by what makes elements equal. -/
theorem eq_of_forall₂_imp {α : Type} {R : α → α → Prop} (hR : ∀ a b, R a b → a = b) {as bs : List α}
    (h : List.Forall₂ R as bs) : as = bs := by
  have heq : List.Forall₂ Eq as bs := h.imp hR
  rwa [List.forall₂_eq_eq_eq] at heq

/-! ## Ordered maps -/

namespace OrderedMap

variable {κ ν : Type} [Ord κ] {K : κ → κ → Prop} {R : ν → ν → Prop}
  {entries entries' new new' : List (κ × ν)} {k k' : κ} (hK : KeepsOrder K)

include hK

theorem find?_like (hk : K k k') (h : List.Forall₂ (Both K R) entries entries') :
    Option.Rel R (find? k entries) (find? k' entries') := by
  induction h with
  | nil => exact .none
  | @cons e e' _ _ he _ ih =>
    obtain ⟨j, v⟩ := e
    obtain ⟨j', v'⟩ := e'
    have hcompare : compare k j = compare k' j' := hK hk he.fst
    rw [find?, find?, hcompare]
    split
    next => exact .none
    next => exact .some he.snd
    next => exact ih

theorem insert_like (hk : K k k') {v v' : ν} (hv : R v v')
    (h : List.Forall₂ (Both K R) entries entries') :
    List.Forall₂ (Both K R) (insert k v entries) (insert k' v' entries') := by
  induction h with
  | nil => exact .cons ⟨hk, hv⟩ .nil
  | @cons e e' _ _ he hrest ih =>
    obtain ⟨j, w⟩ := e
    obtain ⟨j', w'⟩ := e'
    have hcompare : compare k j = compare k' j' := hK hk he.fst
    rw [insert, insert, hcompare]
    split
    next => exact .cons ⟨hk, hv⟩ (.cons he hrest)
    next => exact .cons ⟨he.fst, hv⟩ hrest
    next => exact .cons he ih

theorem erase_like (hk : K k k') (h : List.Forall₂ (Both K R) entries entries') :
    List.Forall₂ (Both K R) (erase k entries) (erase k' entries') := by
  induction h with
  | nil => exact .nil
  | @cons e e' _ _ he hrest ih =>
    obtain ⟨j, w⟩ := e
    obtain ⟨j', w'⟩ := e'
    have hcompare : compare k j = compare k' j' := hK hk he.fst
    rw [erase, erase, hcompare]
    split
    next => exact .cons he hrest
    next => exact hrest
    next => exact .cons he ih

theorem insertAll_like (hnew : List.Forall₂ (Both K R) new new') :
    ∀ {entries entries' : List (κ × ν)}, List.Forall₂ (Both K R) entries entries' →
    List.Forall₂ (Both K R) (insertAll entries new) (insertAll entries' new') := by
  induction hnew with
  | nil => exact fun h => h
  | cons he _ ih => exact fun h => ih (insert_like hK he.fst he.snd h)

theorem ofList_like (hnew : List.Forall₂ (Both K R) new new') :
    List.Forall₂ (Both K R) (ofList new) (ofList new') := insertAll_like hK hnew .nil

end OrderedMap

/-! ## Ordered sets -/

namespace OrderedSet

variable {α : Type} {R : α → α → Prop} {xs xs' ys ys' : List α} {x x' : α}

/-- Like lists have like members at the same places. -/
theorem selected_like (h : List.Forall₂ R xs xs') (mask : Nat) :
    List.Forall₂ R (selected xs mask) (selected xs' mask) := by
  have hplaced : ∀ place, List.Forall₂ (Both R Eq) (xs.zipIdx place) (xs'.zipIdx place) := by
    induction h with
    | nil => exact fun _ => .nil
    | cons hx _ ih =>
      intro place
      rw [List.zipIdx_cons, List.zipIdx_cons]
      exact .cons ⟨hx, rfl⟩ (ih (place + 1))
  refine List.rel_map (fun _ _ hmember => hmember.fst) (List.rel_filter ?_ (hplaced 0))
  exact fun _ _ hmember => Iff.of_eq (by beta_reduce; rw [hmember.snd])

variable [Ord α] (hR : KeepsOrder R)

include hR

theorem le_eq {y y' : α} (hx : R x x') (hy : R y y') : le x y = le x' y' := by
  unfold le
  rw [hR hx hy]

theorem same_eq {y y' : α} (hx : R x x') (hy : R y y') : same x y = same x' y' := by
  unfold same
  rw [hR hx hy]

theorem contains_eq (hx : R x x') (h : List.Forall₂ R xs xs') :
    contains x xs = contains x' xs' := by
  induction h with
  | nil => rfl
  | cons hy _ ih => rw [contains, contains, hR hx hy, ih]

theorem insert_like (hx : R x x') (h : List.Forall₂ R xs xs') :
    List.Forall₂ R (insert x xs) (insert x' xs') := by
  induction h with
  | nil => exact .cons hx .nil
  | cons hy hrest ih =>
    rw [insert, insert, hR hx hy]
    split
    next => exact .cons hx (.cons hy hrest)
    next => exact .cons hy hrest
    next => exact .cons hy ih

theorem erase_like (hx : R x x') (h : List.Forall₂ R xs xs') :
    List.Forall₂ R (erase x xs) (erase x' xs') := by
  induction h with
  | nil => exact .nil
  | cons hy hrest ih =>
    rw [erase, erase, hR hx hy]
    split
    next => exact .cons hy hrest
    next => exact hrest
    next => exact .cons hy ih

theorem dedupLast_like (h : List.Forall₂ R xs xs') :
    List.Forall₂ R (dedupLast xs) (dedupLast xs') := by
  refine List.rel_foldr (fun x x' hx kept kept' hkept => ?_) .nil h
  cases hkept with
  | nil => exact .cons hx .nil
  | cons hy hrest =>
    dsimp only
    rw [same_eq hR hx hy]
    split
    next => exact .cons hy hrest
    next => exact .cons hx (.cons hy hrest)

theorem dedupFirst_like (h : List.Forall₂ R xs xs') :
    List.Forall₂ R (dedupFirst xs) (dedupFirst xs') := by
  refine List.rel_foldr (fun x x' hx kept kept' hkept => ?_) .nil h
  cases hkept with
  | nil => exact .cons hx .nil
  | cons hy hrest =>
    dsimp only
    rw [same_eq hR hx hy]
    split
    next => exact .cons hx hrest
    next => exact .cons hx (.cons hy hrest)

omit [Ord α] hR in
/-- Lists that are related at each place are the two sides of one list of related pairs. -/
theorem exists_pairs (h : List.Forall₂ R xs xs') : ∃ pairs : List (α × α),
    (∀ p ∈ pairs, R p.1 p.2) ∧ pairs.map (·.1) = xs ∧ pairs.map (·.2) = xs' := by
  induction h with
  | nil => exact ⟨[], List.forall_mem_nil _, rfl, rfl⟩
  | @cons x x' _ _ hx _ ih =>
    obtain ⟨pairs, hpairs, rfl, rfl⟩ := ih
    exact ⟨(x, x') :: pairs, List.forall_mem_cons.mpr ⟨hx, hpairs⟩, rfl, rfl⟩

omit [Ord α] hR in
theorem forall₂_of_pairs {pairs : List (α × α)} (h : ∀ p ∈ pairs, R p.1 p.2) :
    List.Forall₂ R (pairs.map (·.1)) (pairs.map (·.2)) := by
  rw [List.forall₂_map_left_iff, List.forall₂_map_right_iff, List.forall₂_same]
  exact h

-- sorting and merging move elements by comparisons only, so that pairs of related elements are
-- moved together, whichever side is compared
theorem mergeSort_like (h : List.Forall₂ R xs xs') :
    List.Forall₂ R (xs.mergeSort le) (xs'.mergeSort le) := by
  obtain ⟨pairs, hpairs, rfl, rfl⟩ := exists_pairs h
  have hfst : (pairs.mergeSort fun p q => le p.1 q.1).map (·.1) = (pairs.map (·.1)).mergeSort le :=
    List.map_mergeSort fun _ _ _ _ => rfl
  have hsnd : (pairs.mergeSort fun p q => le p.1 q.1).map (·.2) = (pairs.map (·.2)).mergeSort le :=
    List.map_mergeSort fun p hp q hq => le_eq hR (hpairs p hp) (hpairs q hq)
  rw [← hfst, ← hsnd]
  exact forall₂_of_pairs fun p hp => hpairs p (List.mem_mergeSort.mp hp)

theorem merge_like (hx : List.Forall₂ R xs xs') (hy : List.Forall₂ R ys ys') :
    List.Forall₂ R (List.merge xs ys le) (List.merge xs' ys' le) := by
  obtain ⟨ps, hps, rfl, rfl⟩ := exists_pairs hx
  obtain ⟨qs, hqs, rfl, rfl⟩ := exists_pairs hy
  have hfst : (List.merge ps qs fun p q => le p.1 q.1).map (·.1) =
      List.merge (ps.map (·.1)) (qs.map (·.1)) le := List.map_merge fun _ _ _ _ => rfl
  have hsnd : (List.merge ps qs fun p q => le p.1 q.1).map (·.2) =
      List.merge (ps.map (·.2)) (qs.map (·.2)) le :=
    List.map_merge fun p hp q hq => le_eq hR (hps p hp) (hqs q hq)
  rw [← hfst, ← hsnd]
  exact forall₂_of_pairs fun p hp => (List.mem_merge.mp hp).elim (hps p) (hqs p)

theorem ofList_like (h : List.Forall₂ R xs xs') : List.Forall₂ R (ofList xs) (ofList xs') :=
  dedupLast_like hR (mergeSort_like hR h)

theorem union_like (hx : List.Forall₂ R xs xs') (hy : List.Forall₂ R ys ys') :
    List.Forall₂ R (union xs ys) (union xs' ys') := dedupFirst_like hR (merge_like hR hx hy)

theorem inter_like (hx : List.Forall₂ R xs xs') (hy : List.Forall₂ R ys ys') :
    List.Forall₂ R (inter xs ys) (inter xs' ys') :=
  List.rel_filter (fun _ _ h => Iff.of_eq (by beta_reduce; rw [contains_eq hR h hy])) hx

theorem diff_like (hx : List.Forall₂ R xs xs') (hy : List.Forall₂ R ys ys') :
    List.Forall₂ R (diff xs ys) (diff xs' ys') :=
  List.rel_filter (fun _ _ h => Iff.of_eq (by beta_reduce; rw [contains_eq hR h hy])) hx

theorem symmDiff_like (hx : List.Forall₂ R xs xs') (hy : List.Forall₂ R ys ys') :
    List.Forall₂ R (symmDiff xs ys) (symmDiff xs' ys') :=
  merge_like hR (diff_like hR hx hy) (diff_like hR hy hx)

theorem isSubset_eq (hx : List.Forall₂ R xs xs') (hy : List.Forall₂ R ys ys') :
    isSubset xs ys = isSubset xs' ys' := by
  unfold isSubset
  induction hx with
  | nil => rfl
  | cons h _ ih => rw [List.all_cons, List.all_cons, contains_eq hR h hy, ih]

theorem isProperSubset_eq (hx : List.Forall₂ R xs xs') (hy : List.Forall₂ R ys ys') :
    isProperSubset xs ys = isProperSubset xs' ys' := by
  unfold isProperSubset
  rw [hx.length_eq, hy.length_eq, isSubset_eq hR hx hy]

end OrderedSet

/-! ## Like failures -/

/-- Looks of the same kind with related texts. -/
structure Shown.Like (T : String → String → Prop) (s s' : Shown) : Prop where
  kind : s.kind = s'.kind
  text : T s.text s'.text

/-- The same cause, with related texts of what it shows. -/
inductive Cause.Like (T : String → String → Prop) : Cause → Cause → Prop
  | same (c : Cause) : Like T c c
  | missingAttr {attr : String} {available available' : List String}
      (h : List.Forall₂ T available available') :
      Like T (.missingAttr attr available) (.missingAttr attr available')
  | notNumber {got got' : Shown} (h : got.Like T got') : Like T (.notNumber got) (.notNumber got')
  | notSet {got got' : Shown} (h : got.Like T got') : Like T (.notSet got) (.notSet got')
  | unexpected {operation wanted : String} {got got' : Shown} (h : got.Like T got') :
      Like T (.unexpected operation wanted got) (.unexpected operation wanted got')
  | noAttrs {attr : String} {got got' : Shown} (h : got.Like T got') :
      Like T (.noAttrs attr got) (.noAttrs attr got')
  | notCallable {got got' : Shown} (h : got.Like T got') :
      Like T (.notCallable got) (.notCallable got')
  | manyResults {func func' arg arg' : String} (hfunc : T func func') (harg : T arg arg') :
      Like T (.manyResults func arg) (.manyResults func' arg')
  | memberOfNonSet {got got' : String} (h : T got got') :
      Like T (.memberOfNonSet got) (.memberOfNonSet got')
  | notSingle {got got' : String} (h : T got got') : Like T (.notSingle got) (.notSingle got')
  | recursionBase {base base' : String} (h : T base base') :
      Like T (.recursionBase base) (.recursionBase base')
  | recursionResult {got got' : Shown} (h : got.Like T got') :
      Like T (.recursionResult got) (.recursionResult got')
  | mismatch {value value' pattern pattern' : String} (hvalue : T value value')
      (hpattern : T pattern pattern') :
      Like T (.mismatch value pattern) (.mismatch value' pattern')
  | rebound {value value' bound bound' pattern pattern' : String} (hvalue : T value value')
      (hbound : T bound bound') (hpattern : T pattern pattern') :
      Like T (.rebound value bound pattern) (.rebound value' bound' pattern')
  | noBackend {loader arg arg' : String} (h : T arg arg') :
      Like T (.noBackend loader arg) (.noBackend loader arg')
  | unsupportedElement {pattern pattern' : String} (h : T pattern pattern') :
      Like T (.unsupportedElement pattern) (.unsupportedElement pattern')

namespace Cause.Like

variable {T : String → String → Prop} {c c' : Cause}

theorem kind_eq (h : c.Like T c') : c.kind = c'.kind := by
  cases h <;> rfl

theorem isMismatch_eq (h : c.Like T c') : c.isMismatch = c'.isMismatch := by
  unfold isMismatch
  rw [h.kind_eq]

theorem isAbsent_eq (h : c.Like T c') : c.isAbsent = c'.isAbsent := by
  unfold isAbsent
  rw [h.kind_eq]

/-- Causes that show the same texts are the same. -/
theorem eq (h : c.Like Eq c') : c = c' := by
  have hshown : ∀ {s s' : Shown}, s.Like Eq s' → s = s' := by
    rintro ⟨kind, text⟩ ⟨kind', text'⟩ ⟨hkind, htext⟩
    cases hkind
    cases htext
    rfl
  cases h with
  | same => rfl
  | missingAttr h => rw [eq_of_forall₂_imp (fun _ _ => id) h]
  | notNumber h | notSet h | unexpected h | noAttrs h | notCallable h | recursionResult h =>
    rw [hshown h]
  | manyResults hfunc harg => rw [hfunc, harg]
  | memberOfNonSet h | notSingle h | recursionBase h | noBackend h | unsupportedElement h => rw [h]
  | mismatch hvalue hpattern => rw [hvalue, hpattern]
  | rebound hvalue hbound hpattern => rw [hvalue, hbound, hpattern]

end Cause.Like

/-- Two operations have related results, or fail alike. -/
inductive Agree {α α' : Type} (T : String → String → Prop) (Q : α → α' → Prop) :
    Except Cause α → Except Cause α' → Prop
  | ok {a : α} {a' : α'} (h : Q a a') : Agree T Q (.ok a) (.ok a')
  | error {c c' : Cause} (h : c.Like T c') : Agree T Q (.error c) (.error c')

theorem Agree.bind {α α' β β' : Type} {T : String → String → Prop} {Q : α → α' → Prop}
    {S : β → β' → Prop} {x : Except Cause α} {x' : Except Cause α'} {f : α → Except Cause β}
    {f' : α' → Except Cause β'} (hx : Agree T Q x x')
    (hf : ∀ a a', Q a a' → Agree T S (f a) (f' a')) : Agree T S (x >>= f) (x' >>= f') := by
  cases hx with
  | ok h => exact hf _ _ h
  | error h => exact .error h

/-! ## Comparisons -/

/-- A relation `V` of values that no comparison can tell apart. What is compared of them, and of the
members of sets, is related by `M`. -/
structure Value.ComparedAlike (V M : Value → Value → Prop) (T : String → String → Prop) :
    Prop where
  compared {v v' : Value} (h : V v v') : M v v'
  order : KeepsOrder M
  asSet {v v' : Value} (h : V v v') : Agree T (List.Forall₂ M) v.asSet v'.asSet
  text {v v' : Value} (h : V v v') : T v.text v'.text

namespace Value

theorem isMember_eq (a b : Value) : a.isMember b = match b.asSet with
    | .ok members => .ok (OrderedSet.contains a members)
    | .error _ => .error (.memberOfNonSet b.text) := by
  cases b <;> rfl

theorem negated_agree {T : String → String → Prop} {holds holds' : Except Cause Bool}
    (h : Agree T Eq holds holds') : Agree T Eq (negated holds) (negated holds') := by
  cases h with
  | ok h => exact .ok (congrArg (!·) h)
  | error h => exact .error h

namespace ComparedAlike

variable {V M : Value → Value → Prop} {T : String → String → Prop} (C : ComparedAlike V M T)
  {a a' b b' : Value} (ha : V a a') (hb : V b b')

include C ha hb

theorem isMember_agree : Agree T Eq (a.isMember b) (a'.isMember b') := by
  have hset := C.asSet hb
  rw [isMember_eq, isMember_eq]
  generalize b.asSet = set at hset ⊢
  generalize b'.asSet = set' at hset ⊢
  cases hset with
  | ok hmembers => exact .ok (OrderedSet.contains_eq C.order (C.compared ha) hmembers)
  | error _ => exact .error (.memberOfNonSet (C.text hb))

theorem isSubset_agree : Agree T Eq (a.isSubset b) (a'.isSubset b') :=
  (C.asSet ha).bind fun _ _ hx => (C.asSet hb).bind fun _ _ hy =>
    .ok (OrderedSet.isProperSubset_eq C.order hx hy)

theorem isSubsetEq_agree : Agree T Eq (a.isSubsetEq b) (a'.isSubsetEq b') :=
  (C.asSet ha).bind fun _ _ hx => (C.asSet hb).bind fun _ _ hy =>
    .ok (OrderedSet.isSubset_eq C.order hx hy)

theorem isComparable_agree : Agree T Eq (a.isComparable b) (a'.isComparable b') := by
  refine (C.isSubset_agree ha hb).bind ?_
  rintro holds _ rfl
  split
  next => exact .ok rfl
  next => exact C.isSubset_agree hb ha

theorem isComparableEq_agree : Agree T Eq (a.isComparableEq b) (a'.isComparableEq b') := by
  refine (C.isSubsetEq_agree ha hb).bind ?_
  rintro holds _ rfl
  split
  next => exact .ok rfl
  next => exact C.isSubsetEq_agree hb ha

theorem holds_agree (op : CompareOp) : Agree T Eq (op.holds a b) (op.holds a' b') := by
  have horder : a.compare b = a'.compare b' := C.order (C.compared ha) (C.compared hb)
  have hback : b.compare a = b'.compare a' := C.order (C.compared hb) (C.compared ha)
  have hbeq : (a == b) = (a' == b') := congrArg (· == Ordering.eq) horder
  cases op with
  | member => exact C.isMember_agree ha hb
  | notMember => exact negated_agree (C.isMember_agree ha hb)
  | eq => exact .ok hbeq
  | ne => exact .ok (congrArg (!·) hbeq)
  | lt => exact .ok (congrArg Ordering.isLT horder)
  | gt => exact .ok (congrArg Ordering.isLT hback)
  | le => exact .ok (congrArg Ordering.isLE horder)
  | ge => exact .ok (congrArg Ordering.isGE horder)
  | subset => exact C.isSubset_agree ha hb
  | superset => exact C.isSubset_agree hb ha
  | subsetEq => exact C.isSubsetEq_agree ha hb
  | supersetEq => exact C.isSubsetEq_agree hb ha
  | comparable => exact C.isComparable_agree ha hb
  | comparableEq => exact C.isComparableEq_agree hb ha
  | notSubset => exact negated_agree (C.isSubset_agree ha hb)
  | notSuperset => exact negated_agree (C.isSubset_agree hb ha)
  | notSubsetEq => exact negated_agree (C.isSubsetEq_agree ha hb)
  | notSupersetEq => exact negated_agree (C.isSubsetEq_agree hb ha)
  | notComparable => exact negated_agree (C.isComparable_agree ha hb)
  | notComparableEq => exact negated_agree (C.isComparableEq_agree hb ha)

end ComparedAlike

end Value

/-! ## Likenesses -/

/-- Two values are built alike, from related parts. Of functions nothing is said but their kind and
the names of native ones. -/
inductive Value.SameShape (V : Value → Value → Prop) : Value → Value → Prop
  | bool (b : Bool) : SameShape V (.bool b) (.bool b)
  | number (x : Number) : SameShape V (.number x) (.number x)
  | string (s : String) : SameShape V (.string s) (.string s)
  | bytes (b : List UInt8) : SameShape V (.bytes b) (.bytes b)
  | array {items items' : List (Option Value)} (h : List.Forall₂ (Option.Rel V) items items') :
      SameShape V (.array items) (.array items')
  | tuple {attrs attrs' : List (String × Value)} (h : List.Forall₂ (Both Eq V) attrs attrs') :
      SameShape V (.tuple attrs) (.tuple attrs')
  | set {members members' : List Value} (h : List.Forall₂ V members members') :
      SameShape V (.set members) (.set members')
  | dict {entries entries' : List (Value × Value)} (h : List.Forall₂ (Both V V) entries entries') :
      SameShape V (.dict entries) (.dict entries')
  | closure {i i' : Identity} {param param' : Pattern} {body body' : Expr}
      {captured captured' : Scope} :
      SameShape V (.closure i param body captured) (.closure i' param' body' captured')
  | native {i i' : Identity} {f f' : Native} (h : f.name = f'.name) :
      SameShape V (.native i f) (.native i' f')

/-- A relation of values that no operation can tell apart, with a relation of their texts. -/
structure Value.Likeness (V : Value → Value → Prop) (T : String → String → Prop) : Prop where
  shape {v v' : Value} (h : V v v') : v.SameShape V v'
  build {v v' : Value} (h : v.SameShape V v') (hv : v.isFunction = false) : V v v'
  order : KeepsOrder V
  text {v v' : Value} (h : V v v') : T v.text v'.text

namespace Value

namespace Likeness

variable {V : Value → Value → Prop} {T : String → String → Prop} (L : Likeness V T)
  {v v' : Value}

include L

theorem bool (b : Bool) : V (.bool b) (.bool b) := L.build (.bool b) rfl

theorem number (x : Number) : V (.number x) (.number x) := L.build (.number x) rfl

theorem string (s : String) : V (.string s) (.string s) := L.build (.string s) rfl

theorem bytes (b : List UInt8) : V (.bytes b) (.bytes b) := L.build (.bytes b) rfl

theorem array {items items' : List (Option Value)} (h : List.Forall₂ (Option.Rel V) items items') :
    V (.array items) (.array items') := L.build (.array h) rfl

theorem tuple {attrs attrs' : List (String × Value)} (h : List.Forall₂ (Both Eq V) attrs attrs') :
    V (.tuple attrs) (.tuple attrs') := L.build (.tuple h) rfl

theorem set {members members' : List Value} (h : List.Forall₂ V members members') :
    V (.set members) (.set members') := L.build (.set h) rfl

theorem dict {entries entries' : List (Value × Value)}
    (h : List.Forall₂ (Both V V) entries entries') :
    V (.dict entries) (.dict entries') := L.build (.dict h) rfl

theorem nothing : V .nothing .nothing := L.set .nil

theorem pair {k k' : Value} (hk : V k k') (hv : V v v') : V (.pair k v) (.pair k' v') :=
  L.tuple (.cons ⟨rfl, hk⟩ (.cons ⟨rfl, hv⟩ .nil))

theorem typeName_eq (h : V v v') : v.typeName = v'.typeName := by
  cases L.shape h <;> rfl

theorem shown_like (h : V v v') : v.shown.Like T v'.shown := ⟨L.typeName_eq h, L.text h⟩

theorem isFunction_eq (h : V v v') : v.isFunction = v'.isFunction := by
  cases L.shape h <;> rfl

theorem truthy_eq (h : V v v') : v.truthy = v'.truthy := by
  cases L.shape h with
  | array hparts | tuple hparts | set hparts | dict hparts => cases hparts <;> rfl
  | _ => rfl

theorem isNothing_eq (h : V v v') : v.isNothing = v'.isNothing := by
  cases L.shape h with
  | set hmembers => cases hmembers <;> rfl
  | _ => rfl

theorem beq_eq {w w' : Value} (hv : V v v') (hw : V w w') : (v == w) = (v' == w') := by
  show (Ord.compare v w == .eq) = (Ord.compare v' w' == .eq)
  rw [L.order hv hw]

theorem wrongKind_agree {α α' : Type} {Q : α → α' → Prop} (operation wanted : String)
    (h : V v v') :
    Agree T Q (Relational.wrongKind operation wanted v)
      (Relational.wrongKind operation wanted v') :=
  .error (.unexpected (L.shown_like h))

/-! ## Access -/

theorem asNumber_agree (h : V v v') : Agree T Eq v.asNumber v'.asNumber := by
  cases L.shape h with
  | number x => exact .ok rfl
  | _ => exact .error (.notNumber (L.shown_like h))

theorem asSet_agree (h : V v v') : Agree T (List.Forall₂ V) v.asSet v'.asSet := by
  cases L.shape h with
  | set hmembers => exact .ok hmembers
  | _ => exact .error (.notSet (L.shown_like h))

omit L in
theorem attrNames_eq {attrs attrs' : List (String × Value)}
    (h : List.Forall₂ (Both Eq V) attrs attrs') :
    attrs.map (·.1) = attrs'.map (·.1) := by
  induction h with
  | nil => rfl
  | cons hattr _ ih => rw [List.map_cons, List.map_cons, hattr.fst, ih]

theorem getAttr_agree (h : V v v') (attr : String) :
    Agree T V (v.getAttr attr) (v'.getAttr attr) := by
  cases L.shape h with
  | @tuple attrs attrs' hattrs =>
    have hfind := OrderedMap.find?_like (k := attr) KeepsOrder.eq rfl hattrs
    simp only [getAttr]
    rw [attrNames_eq hattrs]
    generalize OrderedMap.find? attr attrs = found at hfind ⊢
    generalize OrderedMap.find? attr attrs' = found' at hfind ⊢
    cases hfind with
    | none => exact .error (.same _)
    | some hvalue => exact .ok hvalue
  | @dict entries entries' hentries =>
    have hfind := OrderedMap.find?_like L.order (L.string attr) hentries
    have hkeys : List.Forall₂ T (entries.map (·.1.text)) (entries'.map (·.1.text)) :=
      List.rel_map (fun _ _ he => L.text he.fst) hentries
    simp only [getAttr]
    generalize OrderedMap.find? (.string attr) entries = found at hfind ⊢
    generalize OrderedMap.find? (.string attr) entries' = found' at hfind ⊢
    cases hfind with
    | none => exact .error (.missingAttr hkeys)
    | some hvalue => exact .ok hvalue
  | _ => exact .error (.noAttrs (L.shown_like h))

theorem pairValue?_like {arg arg' : Value} (harg : V arg arg') (h : V v v') :
    Option.Rel V (pairValue? arg v) (pairValue? arg' v') := by
  cases L.shape h with
  | @tuple attrs attrs' hattrs =>
    have hkey := OrderedMap.find?_like (k := "@") KeepsOrder.eq rfl hattrs
    have hvalue := OrderedMap.find?_like (k := "@value") KeepsOrder.eq rfl hattrs
    simp only [pairValue?]
    generalize OrderedMap.find? "@" attrs = key at hkey ⊢
    generalize OrderedMap.find? "@" attrs' = key' at hkey ⊢
    cases hkey with
    | none => exact .none
    | some hkey =>
      dsimp only
      rw [L.beq_eq hkey harg]
      split
      next => exact hvalue
      next => exact .none
  | _ => exact .none

theorem lookup_agree {arg arg' : Value} (h : V v v') (harg : V arg arg') :
    Agree T V (v.lookup arg) (v'.lookup arg') := by
  cases L.shape h with
  | @array items items' hitems =>
    refine (L.asNumber_agree harg).bind ?_
    rintro index _ rfl
    split
    next => exact .error (.same _)
    next i _ =>
      have hitem := getElem?_rel hitems i
      generalize items[i]? = item at hitem ⊢
      generalize items'[i]? = item' at hitem ⊢
      cases hitem with
      | none => exact .error (.same _)
      | some hitem =>
        cases hitem with
        | none => exact .error (.same _)
        | some hvalue => exact .ok hvalue
  | @dict entries entries' hentries =>
    have hfind := OrderedMap.find?_like L.order harg hentries
    simp only [lookup]
    generalize OrderedMap.find? arg entries = found at hfind ⊢
    generalize OrderedMap.find? arg' entries' = found' at hfind ⊢
    cases hfind with
    | none => exact .error (.same _)
    | some hvalue => exact .ok hvalue
  | @set members members' hmembers =>
    have hanswers : List.Forall₂ V (members.filterMap (pairValue? arg))
        (members'.filterMap (pairValue? arg')) :=
      List.rel_filterMap (fun _ _ hm => L.pairValue?_like harg hm) hmembers
    have hmany := Cause.Like.manyResults (L.text h) (L.text harg)
    simp only [lookup]
    generalize members.filterMap (pairValue? arg) = answers at hanswers ⊢
    generalize members'.filterMap (pairValue? arg') = answers' at hanswers ⊢
    cases hanswers with
    | nil => exact .error (.same _)
    | cons hvalue hrest =>
      cases hrest with
      | nil => exact .ok hvalue
      | cons => exact .error hmany
  | _ => exact .error (.notCallable (L.shown_like h))

/-! ## Operators -/

theorem concat_agree {a a' b b' : Value} (ha : V a a') (hb : V b b') :
    Agree T V (concat a b) (concat a' b') := by
  -- the empty set on one side leaves the other as it is
  have hother : Agree T V
      (if a.isNothing then .ok b else if b.isNothing then .ok a
        else Relational.wrongKind "++" "an array, string or bytes" a)
      (if a'.isNothing then .ok b' else if b'.isNothing then .ok a'
        else Relational.wrongKind "++" "an array, string or bytes" a') := by
    rw [L.isNothing_eq ha, L.isNothing_eq hb]
    split
    next => exact .ok hb
    next =>
      split
      next => exact .ok ha
      next => exact L.wrongKind_agree _ _ ha
  cases L.shape ha with
  | array hitems =>
    cases L.shape hb with
    | array hitems' => exact .ok (L.array (List.rel_append hitems hitems'))
    | _ => exact hother
  | string s =>
    cases L.shape hb with
    | string t => exact .ok (L.string _)
    | _ => exact hother
  | bytes x =>
    cases L.shape hb with
    | bytes y => exact .ok (L.bytes _)
    | _ => exact hother
  | _ => exact hother

theorem withMember_agree {m m' : Value} (h : V v v') (hm : V m m') :
    Agree T V (withMember v m) (withMember v' m') := by
  cases L.shape h with
  | set hmembers => exact .ok (L.set (OrderedSet.insert_like L.order hm hmembers))
  | _ => exact L.wrongKind_agree _ _ h

theorem withoutMember_agree {m m' : Value} (h : V v v') (hm : V m m') :
    Agree T V (withoutMember v m) (withoutMember v' m') := by
  cases L.shape h with
  | set hmembers => exact .ok (L.set (OrderedSet.erase_like L.order hm hmembers))
  | _ => exact L.wrongKind_agree _ _ h

theorem setAlgebra?_like {op : BinaryOp} {operation : List Value → List Value → List Value}
    (h : setAlgebra? op = some operation) {xs xs' ys ys' : List Value}
    (hx : List.Forall₂ V xs xs') (hy : List.Forall₂ V ys ys') :
    List.Forall₂ V (operation xs ys) (operation xs' ys') := by
  cases op <;> cases h
  · exact OrderedSet.diff_like L.order hx hy
  · exact OrderedSet.symmDiff_like L.order hx hy
  · exact OrderedSet.inter_like L.order hx hy
  · exact OrderedSet.union_like L.order hx hy

theorem combine_agree (op : BinaryOp) {l l' r r' : Value} (hl : V l l') (hr : V r r') :
    Agree T V (combine op l r) (combine op l' r') := by
  unfold combine
  split
  next => exact L.concat_agree hl hr
  next => exact L.withMember_agree hl hr
  next => exact L.withoutMember_agree hl hr
  next =>
    split
    next operation _ =>
      refine (L.asNumber_agree hl).bind ?_
      rintro a _ rfl
      refine (L.asNumber_agree hr).bind ?_
      rintro b _ rfl
      exact .ok (L.number _)
    next =>
      refine (L.asSet_agree hl).bind fun xs xs' hx => (L.asSet_agree hr).bind fun ys ys' hy => ?_
      split
      next operation h => exact .ok (L.set (L.setAlgebra?_like h hx hy))
      next => exact .error (.same _)

theorem powerSet_agree (h : V v v') : Agree T V v.powerSet v'.powerSet := by
  refine (L.asSet_agree h).bind fun members members' hmembers => ?_
  rw [hmembers.length_eq]
  split
  next => exact .error (.same _)
  next =>
    have hsubset : ∀ mask, V (subsetAt members mask) (subsetAt members' mask) := fun mask =>
      L.set (OrderedSet.ofList_like L.order (OrderedSet.selected_like hmembers mask))
    refine .ok (L.set (OrderedSet.ofList_like L.order (List.forall₂_map_left_iff.mpr ?_)))
    exact List.forall₂_map_right_iff.mpr (List.forall₂_same.mpr fun mask _ => hsubset mask)

theorem prefixed_agree (op : UnaryOp) (h : V v v') :
    Agree T V (v.prefixed op) (v'.prefixed op) := by
  cases op with
  | pos | neg =>
    refine (L.asNumber_agree h).bind ?_
    rintro x _ rfl
    exact .ok (L.number _)
  | not =>
    refine .ok ?_
    rw [L.truthy_eq h]
    exact L.bool _
  | powerSet => exact L.powerSet_agree h
  | eval => exact .error (.same _)

omit L in
theorem present_like {items items' : List (Option Value)}
    (h : List.Forall₂ (Option.Rel V) items items') :
    List.Forall₂ V (present items) (present items') :=
  List.rel_filterMap (fun _ _ hitem => hitem) h

theorem count_agree (h : V v v') : Agree T V v.count v'.count := by
  -- like collections have the same length
  have hnumber : ∀ {m n : Nat}, m = n → V (.number (.ofNat m)) (.number (.ofNat n)) := by
    rintro m _ rfl
    exact L.number _
  cases L.shape h with
  | set hparts | tuple hparts | dict hparts => exact .ok (hnumber hparts.length_eq)
  | array hitems => exact .ok (hnumber (present_like hitems).length_eq)
  | string s | bytes b => exact .ok (L.number _)
  | _ => exact L.wrongKind_agree _ _ h

theorem single_agree (h : V v v') : Agree T V v.single v'.single := by
  have hmany := Cause.Like.notSingle (L.text h)
  cases L.shape h with
  | set hmembers =>
    cases hmembers with
    | nil => exact .error hmany
    | cons hvalue hrest =>
      cases hrest with
      | nil => exact .ok hvalue
      | cons => exact .error hmany
  | @array items items' hitems =>
    have hpresent := present_like hitems
    simp only [single]
    generalize present items = elements at hpresent ⊢
    generalize present items' = elements' at hpresent ⊢
    cases hpresent with
    | nil => exact .error hmany
    | cons hvalue hrest =>
      cases hrest with
      | nil => exact .ok hvalue
      | cons => exact .error hmany
  | _ => exact L.wrongKind_agree _ _ h

theorem aggregated_agree (op : BinaryOp) (h : V v v') :
    Agree T (List.Forall₂ V) (v.aggregated op) (v'.aggregated op) := by
  cases L.shape h with
  | set hmembers => exact .ok hmembers
  | array hitems => exact .ok (present_like hitems)
  | _ => exact L.wrongKind_agree _ _ h

theorem aggregate_agree (op : BinaryOp) (numbers : List Number) :
    Agree T V (aggregate op numbers) (aggregate op numbers) := by
  unfold aggregate
  split
  next =>
    split
    next => exact .ok (L.number _)
    next => exact .error (.same _)
  next => split <;> exact .ok (L.number _)

/-! ## Projection and nesting -/

omit L in
theorem filter_attrs_like (p : String → Bool) {attrs attrs' : List (String × Value)}
    (h : List.Forall₂ (Both Eq V) attrs attrs') :
    List.Forall₂ (Both Eq V) (attrs.filter fun attr => p attr.1)
      (attrs'.filter fun attr => p attr.1) :=
  List.rel_filter (fun _ _ hattr => Iff.of_eq (by beta_reduce; rw [hattr.fst])) h

omit L in
theorem contains_attr_eq (name : String) {attrs attrs' : List (String × Value)}
    (h : List.Forall₂ (Both Eq V) attrs attrs') :
    OrderedMap.contains name attrs = OrderedMap.contains name attrs' := by
  have hfind := OrderedMap.find?_like (k := name) KeepsOrder.eq rfl h
  unfold OrderedMap.contains
  generalize OrderedMap.find? name attrs = found at hfind ⊢
  generalize OrderedMap.find? name attrs' = found' at hfind ⊢
  cases hfind <;> rfl

theorem projectAttrs_agree (inverse : Bool) (names : List String)
    {attrs attrs' : List (String × Value)} (h : List.Forall₂ (Both Eq V) attrs attrs') :
    Agree T V (projectAttrs inverse names attrs) (projectAttrs inverse names attrs') := by
  unfold projectAttrs
  simp only [contains_attr_eq _ h, attrNames_eq h]
  split
  next => exact .error (.same _)
  next => exact .ok (L.tuple (filter_attrs_like _ h))

end Likeness

mutual

theorem Likeness.project_agree {V : Value → Value → Prop} {T : String → String → Prop}
    (L : Likeness V T) (inverse : Bool) (names : List String) :
    ∀ v v' : Value, V v v' → Agree T V (v.project inverse names) (v'.project inverse names)
  | .tuple attrs, _, h => by
    cases L.shape h with
    | tuple hattrs => exact L.projectAttrs_agree inverse names hattrs
  | .set members, _, h => by
    cases L.shape h with
    | set hmembers =>
      refine (L.projectAll_agree inverse names members _ hmembers).bind fun _ _ hprojected => ?_
      exact .ok (L.set (OrderedSet.ofList_like L.order hprojected))
  | .bool _, _, h | .number _, _, h | .string _, _, h | .bytes _, _, h | .array _, _, h
  | .dict _, _, h | .closure _ _ _ _, _, h | .native _ _, _, h => by
    cases L.shape h
    exact L.wrongKind_agree _ _ h
termination_by structural x => x

theorem Likeness.projectAll_agree {V : Value → Value → Prop} {T : String → String → Prop}
    (L : Likeness V T) (inverse : Bool) (names : List String) :
    ∀ vs vs' : List Value, List.Forall₂ V vs vs' →
      Agree T (List.Forall₂ V) (projectAll inverse names vs) (projectAll inverse names vs')
  | [], _, .nil => .ok .nil
  | v :: vs, _, .cons hv hvs => by
    refine (L.project_agree inverse names v _ hv).bind fun _ _ hfirst => ?_
    refine (L.projectAll_agree inverse names vs _ hvs).bind fun _ _ hothers => ?_
    exact .ok (.cons hfirst hothers)
termination_by structural x => x

end

namespace Likeness

variable {V : Value → Value → Prop} {T : String → String → Prop} (L : Likeness V T)
  {v v' : Value}

include L

theorem rowAttrs_agree (h : V v v') :
    Agree T (List.Forall₂ (Both Eq V)) v.rowAttrs v'.rowAttrs := by
  cases L.shape h with
  | tuple hattrs => exact .ok hattrs
  | _ => exact L.wrongKind_agree _ _ h

theorem addToGroup_like (inverse : Bool) (names : List String)
    {groups groups' : List (Value × List Value)}
    (hgroups : List.Forall₂ (Both V (List.Forall₂ V)) groups groups')
    {attrs attrs' : List (String × Value)} (hattrs : List.Forall₂ (Both Eq V) attrs attrs') :
    List.Forall₂ (Both V (List.Forall₂ V)) (addToGroup inverse names groups attrs)
      (addToGroup inverse names groups' attrs') := by
  have hpart : ∀ p : String → Bool, V (.tuple (attrs.filter fun attr => p attr.1))
      (.tuple (attrs'.filter fun attr => p attr.1)) := fun p => L.tuple (filter_attrs_like p hattrs)
  have hgroup : ∀ {outer outer' : Value}, V outer outer' →
      List.Forall₂ V ((OrderedMap.find? outer groups).getD [])
        ((OrderedMap.find? outer' groups').getD []) := by
    intro outer outer' houter
    have hfind := OrderedMap.find?_like L.order houter hgroups
    generalize OrderedMap.find? outer groups = found at hfind ⊢
    generalize OrderedMap.find? outer' groups' = found' at hfind ⊢
    cases hfind with
    | none => exact .nil
    | some h => exact h
  have houter := hpart fun name => !selected inverse names name
  have hinner := hpart fun name => selected inverse names name
  exact OrderedMap.insert_like L.order houter
    (OrderedSet.insert_like L.order hinner (hgroup houter)) hgroups

theorem groupRows_agree (inverse : Bool) (names : List String) {vs vs' : List Value}
    (h : List.Forall₂ V vs vs') :
    ∀ {groups groups' : List (Value × List Value)},
    List.Forall₂ (Both V (List.Forall₂ V)) groups groups' →
    Agree T (List.Forall₂ (Both V (List.Forall₂ V))) (groupRows inverse names groups vs)
      (groupRows inverse names groups' vs') := by
  induction h with
  | nil => exact fun hgroups => .ok hgroups
  | cons hv _ ih =>
    intro groups groups' hgroups
    exact (L.rowAttrs_agree hv).bind fun _ _ hattrs =>
      ih (L.addToGroup_like inverse names hgroups hattrs)

theorem groupRow_like (name : String) {group group' : Value × List Value}
    (h : Both V (List.Forall₂ V) group group') :
    V (groupRow name group) (groupRow name group') := by
  obtain ⟨key, members⟩ := group
  obtain ⟨key', members'⟩ := group'
  have hkey : V key key' := h.fst
  cases L.shape hkey with
  | tuple houter =>
    exact L.tuple (OrderedMap.insert_like KeepsOrder.eq rfl (L.set h.snd) houter)
  | _ => exact hkey

theorem nest_agree (inverse : Bool) (names : List String) (name : String) (h : V v v') :
    Agree T V (v.nest inverse names name) (v'.nest inverse names name) := by
  refine (L.asSet_agree h).bind fun members members' hmembers => ?_
  refine (L.groupRows_agree inverse names hmembers .nil).bind fun groups groups' hgroups => ?_
  have hrows : List.Forall₂ V (groups.map (groupRow name)) (groups'.map (groupRow name)) :=
    List.rel_map (fun _ _ hgroup => L.groupRow_like name hgroup) hgroups
  exact .ok (L.set (OrderedSet.ofList_like L.order hrows))

/-! ## Comparisons -/

theorem compared : ComparedAlike V V T := ⟨id, L.order, L.asSet_agree, L.text⟩

/-! ## Conditions and bytes -/

theorem firstTruthy_agree (h : V v v') :
    Agree T V (Evaluator.firstTruthy v) (Evaluator.firstTruthy v') := by
  cases L.shape h with
  | @dict entries entries' hentries =>
    have hfind : Option.Rel (Both V V) (entries.find? (·.1.truthy)) (entries'.find? (·.1.truthy)) :=
      find?_rel (fun _ _ he => L.truthy_eq he.fst) hentries
    simp only [Evaluator.firstTruthy]
    generalize entries.find? (·.1.truthy) = found at hfind ⊢
    generalize entries'.find? (·.1.truthy) = found' at hfind ⊢
    cases hfind with
    | none => exact .ok L.nothing
    | some he => exact .ok he.snd
  | _ => exact L.wrongKind_agree _ _ h

theorem byte_agree (h : V v v') : Agree T Eq (Evaluator.byte v) (Evaluator.byte v') := by
  refine (L.asNumber_agree h).bind ?_
  rintro x _ rfl
  split
  next =>
    split
    next => exact .ok rfl
    next => exact .error (.same _)
  next => exact .error (.same _)

end Likeness

end Value

end Relational
