import Mathlib.Data.List.Basic
import Relational.Ordered.Set

/-!
# Members of ordered sets

No operation on ordered sets makes up a member: what is in a result was in one of the arguments,
whether or not these are ascending. So every property of all members passes from the arguments to
the result.

Of members that compare equal one stands for all, and nothing else is lost.

> `exists_mem_insert_iff`, `exists_mem_ofList_iff`: what is equal to a member of the result is equal
> to what was put in.

> `contains_iff`: in an ascending list a search finds what is equal to a member, and the lists that
> are made by `insert` and `ofList` are ascending.
-/

namespace Relational.OrderedSet

variable {α : Type} [Ord α] {x : α}

theorem mem_of_mem_insert {y : α} {xs : List α} (h : x ∈ insert y xs) : x = y ∨ x ∈ xs := by
  induction xs with
  | nil => exact Or.inl (List.mem_singleton.mp h)
  | cons z zs ih =>
    rw [insert] at h
    split at h
    next => exact List.mem_cons.mp h
    next => exact Or.inr h
    next =>
      rcases List.mem_cons.mp h with rfl | h
      · exact Or.inr (List.mem_cons_self ..)
      · exact (ih h).imp_right (List.mem_cons_of_mem _)

theorem erase_sublist (y : α) (xs : List α) : (erase y xs).Sublist xs := by
  induction xs with
  | nil => exact List.Sublist.refl _
  | cons z zs ih =>
    rw [erase]
    split
    next => exact List.Sublist.refl _
    next => exact List.sublist_cons_self ..
    next => exact List.Sublist.cons_cons _ ih

theorem dedupLast_sublist (xs : List α) : (dedupLast xs).Sublist xs := by
  induction xs with
  | nil => exact List.Sublist.refl _
  | cons z zs ih =>
    unfold dedupLast at ih ⊢
    rw [List.foldr_cons]
    split
    next h =>
      rw [h] at ih
      exact List.Sublist.cons_cons _ ih
    next y ys h =>
      rw [h] at ih
      split
      next => exact List.Sublist.cons _ ih
      next => exact List.Sublist.cons_cons _ ih

theorem dedupFirst_sublist (xs : List α) : (dedupFirst xs).Sublist xs := by
  induction xs with
  | nil => exact List.Sublist.refl _
  | cons z zs ih =>
    unfold dedupFirst at ih ⊢
    rw [List.foldr_cons]
    split
    next h =>
      rw [h] at ih
      exact List.Sublist.cons_cons _ ih
    next y ys h =>
      rw [h] at ih
      split
      next => exact List.Sublist.cons_cons _ ((List.sublist_cons_self ..).trans ih)
      next => exact List.Sublist.cons_cons _ ih

theorem mem_of_mem_ofList {xs : List α} (h : x ∈ ofList xs) : x ∈ xs :=
  List.mem_mergeSort.mp ((dedupLast_sublist _).subset h)

theorem mem_of_mem_union {xs ys : List α} (h : x ∈ union xs ys) : x ∈ xs ∨ x ∈ ys :=
  List.mem_merge.mp ((dedupFirst_sublist _).subset h)

theorem mem_of_mem_inter {xs ys : List α} (h : x ∈ inter xs ys) : x ∈ xs :=
  (List.mem_filter.mp h).1

theorem mem_of_mem_diff {xs ys : List α} (h : x ∈ diff xs ys) : x ∈ xs :=
  (List.mem_filter.mp h).1

theorem mem_of_mem_symmDiff {xs ys : List α} (h : x ∈ symmDiff xs ys) : x ∈ xs ∨ x ∈ ys :=
  (List.mem_merge.mp h).imp mem_of_mem_diff mem_of_mem_diff

omit [Ord α] in
theorem selected_sublist (xs : List α) (mask : Nat) : (selected xs mask).Sublist xs := by
  have hkept := List.filter_sublist (p := fun x : α × Nat => mask.testBit x.2) (l := xs.zipIdx)
  simpa only [selected, List.zipIdx_map_fst] using hkept.map Prod.fst

/-! ## Ascending lists -/

/-- The members are in strictly ascending order. -/
def Ascending (xs : List α) : Prop := xs.Pairwise fun a b => compare a b = .lt

instance (xs : List α) : Decidable (Ascending xs) :=
  inferInstanceAs (Decidable (List.Pairwise _ _))

section

open Std

variable [TransOrd α] {y : α} {xs : List α}

/-- A search in an ascending list passes all that is smaller and ends at the first member that is
not. -/
theorem contains_iff (h : Ascending xs) :
    contains x xs = true ↔ ∃ y ∈ xs, compare x y = .eq := by
  induction xs with
  | nil => simp [contains]
  | cons z zs ih =>
    obtain ⟨hz, hzs⟩ := List.pairwise_cons.mp h
    rw [contains, List.exists_mem_cons_iff]
    cases hxz : compare x z with
    | lt =>
      -- all that follows is greater still
      have hgreater : ¬∃ y ∈ zs, compare x y = .eq := by
        rintro ⟨y, hy, heq⟩
        rw [TransCmp.lt_trans hxz (hz y hy)] at heq
        cases heq
      simp [hgreater]
    | eq => simp
    | gt => simp [ih hzs]

theorem Ascending.insert (h : Ascending xs) (x : α) : Ascending (insert x xs) := by
  induction xs with
  | nil => exact List.pairwise_singleton _ _
  | cons z zs ih =>
    obtain ⟨hz, hzs⟩ := List.pairwise_cons.mp h
    rw [OrderedSet.insert]
    split
    next hlt =>
      refine List.pairwise_cons.mpr ⟨fun y hy => ?_, h⟩
      rcases List.mem_cons.mp hy with rfl | hy
      · exact hlt
      · exact TransCmp.lt_trans hlt (hz y hy)
    next => exact h
    next hgt =>
      refine List.pairwise_cons.mpr ⟨fun y hy => ?_, ih hzs⟩
      rcases mem_of_mem_insert hy with rfl | hy
      · exact OrientedCmp.gt_iff_lt.mp hgt
      · exact hz y hy

/-- What is equal to a member after an insertion is equal to the new element or to an old member. -/
theorem exists_mem_insert_iff : (∃ z ∈ insert y xs, compare x z = .eq) ↔
    compare x y = .eq ∨ ∃ z ∈ xs, compare x z = .eq := by
  induction xs with
  | nil => simp [insert]
  | cons z zs ih =>
    rw [insert]
    split
    next => simp
    next heq =>
      have hxz : compare x z = compare x y := (TransCmp.congr_right heq).symm
      simp [hxz]
    next => rw [List.exists_mem_cons_iff, List.exists_mem_cons_iff, ih, or_left_comm]

/-- Equal neighbours are joined and nothing else is lost. -/
theorem exists_mem_dedupLast_iff :
    (∃ z ∈ dedupLast xs, compare x z = .eq) ↔ ∃ z ∈ xs, compare x z = .eq := by
  induction xs with
  | nil => rfl
  | cons y ys ih =>
    unfold dedupLast at ih ⊢
    rw [List.foldr_cons, List.exists_mem_cons_iff, ← ih]
    split
    next h => simp [h]
    next z zs h =>
      rw [h]
      split
      next hsame =>
        have hxy : compare x y = compare x z := TransCmp.congr_right (eq_of_beq hsame)
        simp [hxy]
      next => rw [List.exists_mem_cons_iff]

theorem ascending_dedupLast (h : xs.Pairwise fun a b => le a b = true) :
    Ascending (dedupLast xs) := by
  induction xs with
  | nil => exact List.Pairwise.nil
  | cons y ys ih =>
    obtain ⟨hy, hys⟩ := List.pairwise_cons.mp h
    have hkept : ∀ z ∈ dedupLast ys, le y z = true := fun z hz =>
      hy z ((dedupLast_sublist ys).subset hz)
    have hascending := ih hys
    unfold dedupLast at hkept hascending ⊢
    rw [List.foldr_cons]
    split
    next => exact List.pairwise_singleton _ _
    next z zs hcons =>
      rw [hcons] at hkept hascending
      split
      next => exact hascending
      next hne =>
        have hlt : compare y z = .lt := by
          have hle : (compare y z).isLE = true := hkept z (List.mem_cons_self ..)
          rcases Ordering.isLE_iff_eq_lt_or_eq_eq.mp hle with hlt | heq
          · exact hlt
          · exact absurd (beq_iff_eq.mpr heq) hne
        refine List.pairwise_cons.mpr ⟨fun w hw => ?_, hascending⟩
        rcases List.mem_cons.mp hw with rfl | hw
        · exact hlt
        · exact TransCmp.lt_trans hlt ((List.pairwise_cons.mp hascending).1 w hw)

/-- Of two elements one stands at or before the other. -/
theorem le_connex (a b : α) : (le a b || le b a) = true := by
  rw [Bool.or_eq_true, le, le]
  cases hab : compare a b with
  | lt | eq => exact Or.inl rfl
  | gt => exact Or.inr (by rw [OrientedCmp.gt_iff_lt.mp hab]; rfl)

theorem ascending_ofList (xs : List α) : Ascending (ofList xs) :=
  ascending_dedupLast (List.pairwise_mergeSort (fun _ _ _ => TransCmp.isLE_trans) le_connex xs)

omit [TransOrd α] in
theorem Ascending.pairwise_le (h : Ascending xs) : xs.Pairwise fun a b => le a b = true :=
  h.imp fun hlt => by rw [le, hlt]; rfl

omit [TransOrd α] in
theorem dedupLast_of_ascending (h : Ascending xs) : dedupLast xs = xs := by
  induction xs with
  | nil => rfl
  | cons y ys ih =>
    obtain ⟨hy, hys⟩ := List.pairwise_cons.mp h
    have hkept := ih hys
    unfold dedupLast at hkept ⊢
    rw [List.foldr_cons, hkept]
    cases ys with
    | nil => rfl
    | cons z zs =>
      have hne : same y z = false := by rw [same, hy z (List.mem_cons_self ..)]; rfl
      show (if same y z then _ else _) = _
      rw [hne]
      rfl

omit [TransOrd α] in
/-- The set of the members of an ascending list is the list. -/
theorem ofList_of_ascending (h : Ascending xs) : ofList xs = xs := by
  rw [ofList, List.mergeSort_of_pairwise h.pairwise_le, dedupLast_of_ascending h]

/-- What is left without an element is what is not equal to it. -/
theorem erase_eq_filter (h : Ascending xs) (x : α) :
    erase x xs = xs.filter (!same x ·) := by
  induction xs with
  | nil => rfl
  | cons y ys ih =>
    obtain ⟨hy, hys⟩ := List.pairwise_cons.mp h
    -- all that follows a member that is not smaller is greater
    have hgreater : (compare x y).isLE = true → ys.filter (!same x ·) = ys := by
      intro hle
      rw [List.filter_eq_self]
      intro z hz
      rw [same, TransCmp.lt_of_isLE_of_lt hle (hy z hz)]
      rfl
    rw [erase, List.filter_cons]
    cases hxy : compare x y with
    | lt | eq =>
      rw [hgreater (by rw [hxy]; rfl), same, hxy]
      rfl
    | gt =>
      rw [ih hys, same, hxy]
      rfl

omit [TransOrd α] in
theorem Ascending.erase (h : Ascending xs) (x : α) : Ascending (erase x xs) :=
  h.sublist (erase_sublist x xs)

theorem exists_mem_ofList_iff : (∃ y ∈ ofList xs, compare x y = .eq) ↔
    ∃ y ∈ xs, compare x y = .eq := by
  rw [ofList, exists_mem_dedupLast_iff]
  simp only [List.mem_mergeSort]

/-! ## One list for every set -/

/-- Of the members of an ascending list no two compare equal. -/
theorem Ascending.eq_of_same (h : Ascending xs) (hx : x ∈ xs) (hy : y ∈ xs)
    (heq : compare x y = .eq) : x = y := by
  induction xs with
  | nil => cases hx
  | cons z zs ih =>
    obtain ⟨hz, hzs⟩ := List.pairwise_cons.mp h
    rcases List.mem_cons.mp hx with rfl | hxs
    · rcases List.mem_cons.mp hy with rfl | hys
      · rfl
      · cases (hz y hys).symm.trans heq
    · rcases List.mem_cons.mp hy with rfl | hys
      · cases (hz x hxs).symm.trans (OrientedCmp.eq_symm heq)
      · exact ih hzs hxs hys

theorem Ascending.nodup (h : Ascending xs) : xs.Nodup := by
  refine h.imp fun {a b} hlt heq => ?_
  rw [heq, ReflOrd.compare_self] at hlt
  cases hlt

/-- Ascending lists with the same members are the same. -/
theorem Ascending.ext {ys : List α} (hxs : Ascending xs) (hys : Ascending ys)
    (h : ∀ z, z ∈ xs ↔ z ∈ ys) : xs = ys := by
  have hperm : xs.Perm ys := (List.perm_ext_iff_of_nodup hxs.nodup hys.nodup).mpr h
  refine hperm.eq_of_pairwise (fun a b _ _ hab hba => ?_) hxs hys
  rw [OrientedCmp.gt_of_lt hab] at hba
  cases hba

/-- A list of which an ascending one has the members is made into that one, if nothing but its
members is kept and each is kept up to equality. -/
theorem Ascending.eq_of_kept {ys given : List α} (hxs : Ascending xs) (hys : Ascending ys)
    (hgiven : ∀ z, z ∈ given ↔ z ∈ ys) (hmem : ∀ z ∈ xs, z ∈ given)
    (hkept : ∀ z ∈ given, ∃ w ∈ xs, compare z w = .eq) : xs = ys := by
  refine hxs.ext hys fun z => ⟨fun hz => (hgiven z).mp (hmem z hz), fun hz => ?_⟩
  obtain ⟨w, hw, heq⟩ := hkept z ((hgiven z).mpr hz)
  rwa [hys.eq_of_same hz ((hgiven w).mp (hmem w hw)) heq]

theorem ofList_eq_of_mem_iff {ys given : List α} (hys : Ascending ys)
    (hgiven : ∀ z, z ∈ given ↔ z ∈ ys) : ofList given = ys :=
  (ascending_ofList given).eq_of_kept hys hgiven (fun _ => mem_of_mem_ofList)
    fun z hz => exists_mem_ofList_iff.mpr ⟨z, hz, ReflOrd.compare_self⟩

/-- What the insertion of one element after another keeps. -/
theorem foldl_insert_keeps (given : List α) : ∀ {out : List α}, Ascending out →
    Ascending (given.foldl (fun out z => insert z out) out) ∧
      (∀ z ∈ given.foldl (fun out z => insert z out) out, z ∈ given ∨ z ∈ out) ∧
      ∀ z, (∃ w ∈ given, compare z w = .eq) ∨ (∃ w ∈ out, compare z w = .eq) →
        ∃ w ∈ given.foldl (fun out z => insert z out) out, compare z w = .eq := by
  induction given with
  | nil => exact fun hout => ⟨hout, fun _ hz => Or.inr hz, fun _ => by simp⟩
  | cons x given ih =>
    intro out hout
    obtain ⟨hascending, hmem, hkept⟩ := ih (hout.insert x)
    refine ⟨hascending, fun z hz => ?_, fun z hz => hkept z ?_⟩
    · rcases hmem z hz with hz | hz
      · exact Or.inl (List.mem_cons_of_mem _ hz)
      · rcases mem_of_mem_insert hz with rfl | hz
        · exact Or.inl (List.mem_cons_self ..)
        · exact Or.inr hz
    · rw [exists_mem_insert_iff]
      rwa [List.exists_mem_cons_iff, or_assoc, or_left_comm] at hz

/-- Inserting elements one after another makes the same set of them. -/
theorem foldl_insert_eq_of_mem_iff {ys given : List α} (hys : Ascending ys)
    (hgiven : ∀ z, z ∈ given ↔ z ∈ ys) : given.foldl (fun out z => insert z out) [] = ys := by
  obtain ⟨hascending, hmem, hkept⟩ := foldl_insert_keeps given (List.Pairwise.nil : Ascending [])
  refine hascending.eq_of_kept hys hgiven (fun z hz => ?_) fun z hz => ?_
  · exact (hmem z hz).resolve_right List.not_mem_nil
  · exact hkept z (Or.inl ⟨z, hz, ReflOrd.compare_self⟩)

end

end Relational.OrderedSet
