import Mathlib.Data.List.Forall2
import Relational.Ordered.Map

/-!
# Laws of ordered maps

What is found in a map after a change, in terms of what was found before.

> `find?_insert`: the new value under the key, and the old one under every other key. This holds of
> any list, ascending or not: a search passes the place of insertion exactly when the insertion did.
>
> `find?_erase`: nothing under the key, and the old value under every other key of an ascending
> list.
>
> `same_of_find?`: two ascending lists hold the same entries, in the same places, when they answer
> alike to every key.
>
> `same_insertAll_iff`: a map is another one with new entries put in exactly when it answers to the
> new keys as they say and is the other one without them. Taking apart inverts putting together.
-/

namespace Relational.OrderedMap

open Std

variable {κ ν : Type} [Ord κ]

/-! ## Members -/

theorem exists_mem_of_find? {k : κ} {v : ν} {entries : List (κ × ν)}
    (h : find? k entries = some v) : ∃ k', (k', v) ∈ entries ∧ compare k k' = .eq := by
  induction entries with
  | nil => cases h
  | cons entry entries ih =>
    obtain ⟨k', v'⟩ := entry
    rw [find?] at h
    split at h
    next => cases h
    next heq =>
      obtain rfl := Option.some.inj h
      exact ⟨k', List.mem_cons_self .., heq⟩
    next =>
      obtain ⟨k'', hmem, hk⟩ := ih h
      exact ⟨k'', List.mem_cons_of_mem _ hmem, hk⟩

/-- An entry of a map after an insertion has a key and a value of before, or the new ones. -/
theorem forall_mem_insert {P : κ → Prop} {Q : ν → Prop} {k : κ} {v : ν}
    {entries : List (κ × ν)} (h : ∀ e ∈ entries, P e.1 ∧ Q e.2) (hk : P k) (hv : Q v) :
    ∀ e ∈ insert k v entries, P e.1 ∧ Q e.2 := by
  induction entries with
  | nil => simpa [insert] using ⟨hk, hv⟩
  | cons entry entries ih =>
    obtain ⟨k', v'⟩ := entry
    rw [List.forall_mem_cons] at h
    rw [insert]
    split
    next => simpa [hk, hv] using h
    next => simpa [hv, h.1.1] using h.2
    next => simpa using ⟨h.1, by simpa using ih h.2⟩

theorem forall_mem_insertAll {P : κ → Prop} {Q : ν → Prop} (new : List (κ × ν)) :
    ∀ {entries : List (κ × ν)}, (∀ e ∈ entries, P e.1 ∧ Q e.2) →
    (∀ e ∈ new, P e.1 ∧ Q e.2) → ∀ e ∈ insertAll entries new, P e.1 ∧ Q e.2 := by
  induction new with
  | nil => exact fun h _ => h
  | cons entry new ih =>
    intro entries h hnew
    rw [List.forall_mem_cons] at hnew
    exact ih (forall_mem_insert h hnew.1.1 hnew.1.2) hnew.2

theorem erase_sublist (k : κ) (entries : List (κ × ν)) :
    (erase k entries).Sublist entries := by
  induction entries with
  | nil => exact List.Sublist.refl _
  | cons entry entries ih =>
    rw [erase]
    split
    next => exact List.Sublist.refl _
    next => exact List.sublist_cons_self ..
    next => exact List.Sublist.cons_cons _ ih

/-- The map without some keys and their values. -/
def eraseAll (entries : List (κ × ν)) (keys : List κ) : List (κ × ν) :=
  keys.foldl (fun acc k => erase k acc) entries

/-! ## Ascending lists -/

/-- The keys are in strictly ascending order. -/
def Ascending (entries : List (κ × ν)) : Prop :=
  entries.Pairwise fun a b => compare a.1 b.1 = .lt

instance (entries : List (κ × ν)) : Decidable (Ascending entries) :=
  inferInstanceAs (Decidable (List.Pairwise _ _))

theorem Ascending.erase {entries : List (κ × ν)} (h : Ascending entries) (k : κ) :
    Ascending (erase k entries) :=
  h.sublist (erase_sublist k entries)

theorem Ascending.eraseAll (keys : List κ) : ∀ {entries : List (κ × ν)}, Ascending entries →
    Ascending (eraseAll entries keys) := by
  induction keys with
  | nil => exact fun h => h
  | cons k keys ih => exact fun h => ih (h.erase k)

/-- An insertion moves no key. -/
theorem keys_sublist_insert (k : κ) (v : ν) (entries : List (κ × ν)) :
    (entries.map (·.1)).Sublist ((insert k v entries).map (·.1)) := by
  induction entries with
  | nil => exact List.nil_sublist _
  | cons entry entries ih =>
    rw [insert]
    split
    next => exact List.sublist_cons_self _ _
    next => exact List.Sublist.refl _
    next => exact List.Sublist.cons_cons _ ih

/-- A map that is ascending with some entries put in is ascending without them. -/
theorem Ascending.of_insertAll (new : List (κ × ν)) : ∀ {entries : List (κ × ν)},
    Ascending (OrderedMap.insertAll entries new) → Ascending entries := by
  induction new with
  | nil => exact fun h => h
  | cons entry new ih =>
    intro entries h
    have hkeys : ((OrderedMap.insert entry.1 entry.2 entries).map (·.1)).Pairwise
        fun a b => compare a b = .lt := List.pairwise_map.mpr (ih h)
    exact List.pairwise_map.mp (hkeys.sublist (keys_sublist_insert entry.1 entry.2 entries))

theorem Ascending.pairwise_ne {entries : List (κ × ν)} (h : Ascending entries) :
    entries.Pairwise fun a b => compare a.1 b.1 ≠ .eq :=
  h.imp fun hlt heq => by rw [hlt] at heq; cases heq

theorem find?_eq_none_of_lt {k : κ} {entries : List (κ × ν)}
    (h : ∀ e ∈ entries, compare k e.1 = .lt) : find? k entries = none := by
  cases entries with
  | nil => rfl
  | cons entry entries => rw [find?, h entry (List.mem_cons_self ..)]

theorem insert_of_forall_gt {k : κ} {entries : List (κ × ν)}
    (h : ∀ e ∈ entries, compare k e.1 = .gt) (v : ν) :
    insert k v entries = entries ++ [(k, v)] := by
  induction entries with
  | nil => rfl
  | cons e entries ih =>
    rw [insert, h e List.mem_cons_self, ih fun e' he' => h e' (List.mem_cons_of_mem e he')]
    rfl

variable [TransOrd κ]

theorem Ascending.insert {entries : List (κ × ν)} (h : Ascending entries) (k : κ) (v : ν) :
    Ascending (insert k v entries) := by
  induction entries with
  | nil => exact List.pairwise_singleton _ _
  | cons entry entries ih =>
    obtain ⟨k', v'⟩ := entry
    obtain ⟨hk', hentries⟩ := List.pairwise_cons.mp h
    rw [OrderedMap.insert]
    split
    next hlt =>
      refine List.pairwise_cons.mpr ⟨?_, h⟩
      intro e he
      rcases List.mem_cons.mp he with rfl | he
      · exact hlt
      · exact TransCmp.lt_trans hlt (hk' e he)
    next => exact List.pairwise_cons.mpr ⟨hk', hentries⟩
    next hgt =>
      refine List.pairwise_cons.mpr ⟨?_, ih hentries⟩
      have hlt : compare k' k = .lt := OrientedCmp.gt_iff_lt.mp hgt
      have hall := forall_mem_insert (P := fun j => compare k' j = .lt) (Q := fun _ => True)
        (v := v) (fun e he => ⟨hk' e he, trivial⟩) hlt trivial
      exact fun e he => (hall e he).1

theorem Ascending.insertAll (new : List (κ × ν)) : ∀ {entries : List (κ × ν)},
    Ascending entries → Ascending (insertAll entries new) := by
  induction new with
  | nil => exact fun h => h
  | cons entry new ih => exact fun h => ih (h.insert entry.1 entry.2)

theorem insertAll_of_ascending {entries new : List (κ × ν)} (h : Ascending (entries ++ new)) :
    insertAll entries new = entries ++ new := by
  induction new generalizing entries with
  | nil => exact (List.append_nil entries).symm
  | cons e new ih =>
    have hgt : ∀ e' ∈ entries, compare e.1 e'.1 = .gt := fun e' he' =>
      OrientedCmp.gt_of_lt ((List.pairwise_append.mp h).2.2 e' he' e List.mem_cons_self)
    rw [List.append_cons] at h
    rw [List.append_cons, ← ih h, ← insert_of_forall_gt hgt e.2]
    rfl

/-- A list in ascending order is the map of its entries. -/
theorem ofList_of_ascending {entries : List (κ × ν)} (h : Ascending entries) :
    ofList entries = entries :=
  insertAll_of_ascending h

/-! ## Searching -/

theorem find?_congr {j k : κ} (h : compare j k = .eq) (entries : List (κ × ν)) :
    find? j entries = find? k entries := by
  induction entries with
  | nil => rfl
  | cons entry entries ih => rw [find?, find?, TransCmp.congr_left h, ih]

theorem find?_insert (j k : κ) (v : ν) (entries : List (κ × ν)) :
    find? j (insert k v entries) =
      if compare j k = .eq then some v else find? j entries := by
  induction entries with
  | nil => cases h : compare j k <;> simp [insert, find?, h]
  | cons entry entries ih =>
    obtain ⟨k', v'⟩ := entry
    rw [insert]
    split
    next hlt =>
      cases h : compare j k with
      | lt =>
        have hj : compare j k' = .lt := TransCmp.lt_trans h hlt
        simp [find?, h, hj]
      | eq => simp [find?, h]
      | gt => rw [find?, h]; rfl
    next heq =>
      have hj : compare j k = compare j k' := TransCmp.congr_right heq
      rw [hj]
      cases h : compare j k' <;> simp [find?, h]
    next hgt =>
      rw [find?, ih]
      cases h : compare j k' with
      | lt =>
        have hj : compare j k = .lt := TransCmp.lt_trans h (OrientedCmp.gt_iff_lt.mp hgt)
        simp [find?, h, hj]
      | eq =>
        have hj : compare j k = .lt :=
          TransCmp.lt_of_eq_of_lt h (OrientedCmp.gt_iff_lt.mp hgt)
        simp [find?, h, hj]
      | gt => simp [find?, h]

/-- Putting entries into a map takes no key away, and adds all of theirs. -/
theorem isSome_find?_insertAll (k : κ) (new : List (κ × ν)) : ∀ {entries : List (κ × ν)},
    (find? k entries).isSome = true ∨ (∃ e ∈ new, compare k e.1 = .eq) →
    (find? k (insertAll entries new)).isSome = true := by
  induction new with
  | nil =>
    rintro entries (h | ⟨e, he, -⟩)
    · exact h
    · cases he
  | cons entry new ih =>
    intro entries h
    refine ih ?_
    rw [find?_insert]
    by_cases hk : compare k entry.1 = .eq
    · exact Or.inl (by rw [if_pos hk]; rfl)
    · rw [if_neg hk]
      refine h.imp_right ?_
      rintro ⟨e, he, heq⟩
      rcases List.mem_cons.mp he with rfl | he
      · exact absurd heq hk
      · exact ⟨e, he, heq⟩

theorem find?_insertAll_of_forall_ne {j : κ} (new : List (κ × ν)) :
    ∀ {entries : List (κ × ν)}, (∀ e ∈ new, compare j e.1 ≠ .eq) →
    find? j (insertAll entries new) = find? j entries := by
  induction new with
  | nil => exact fun _ => rfl
  | cons entry new ih =>
    intro entries h
    rw [List.forall_mem_cons] at h
    have hstep : find? j (insertAll (insert entry.1 entry.2 entries) new) =
        find? j (insert entry.1 entry.2 entries) := ih h.2
    rwa [find?_insert, if_neg h.1] at hstep

/-- Of entries with distinct keys each one is found after all have been put in. -/
theorem find?_insertAll_of_mem {j : κ} {e : κ × ν} (new : List (κ × ν)) :
    ∀ {entries : List (κ × ν)}, new.Pairwise (fun a b => compare a.1 b.1 ≠ .eq) → e ∈ new →
    compare j e.1 = .eq → find? j (insertAll entries new) = some e.2 := by
  induction new with
  | nil => exact fun _ he => nomatch he
  | cons entry new ih =>
    intro entries hnew he hj
    obtain ⟨hentry, hnew⟩ := List.pairwise_cons.mp hnew
    rcases List.mem_cons.mp he with rfl | he
    · have hne : ∀ e' ∈ new, compare j e'.1 ≠ .eq := fun e' he' heq =>
        hentry e' he' (TransCmp.eq_trans (OrientedCmp.eq_symm hj) heq)
      have hrest : find? j (insertAll (insert e.1 e.2 entries) new) =
          find? j (insert e.1 e.2 entries) := find?_insertAll_of_forall_ne new hne
      rwa [find?_insert, if_pos hj] at hrest
    · exact ih hnew he hj

/-- Each entry of an ascending list is found. -/
theorem Ascending.find?_of_mem {entries : List (κ × ν)} (h : Ascending entries) {j : κ}
    {e : κ × ν} (he : e ∈ entries) (hj : compare j e.1 = .eq) : find? j entries = some e.2 := by
  induction entries with
  | nil => cases he
  | cons entry entries ih =>
    obtain ⟨hentry, hentries⟩ := List.pairwise_cons.mp h
    rw [find?]
    rcases List.mem_cons.mp he with rfl | he
    · rw [hj]
    · have hgt : compare j entry.1 = .gt :=
        OrientedCmp.gt_iff_lt.mpr (TransCmp.lt_of_lt_of_eq (hentry e he) (OrientedCmp.eq_symm hj))
      rw [hgt]
      exact ih hentries he

theorem find?_eq_none_iff {k : κ} {entries : List (κ × ν)} (h : Ascending entries) :
    find? k entries = none ↔ ∀ e ∈ entries, compare k e.1 ≠ .eq := by
  constructor
  · intro hnone e he heq
    rw [h.find?_of_mem he heq] at hnone
    cases hnone
  · intro hne
    cases hk : find? k entries with
    | none => rfl
    | some v =>
      obtain ⟨k', hmem, heq⟩ := exists_mem_of_find? hk
      exact absurd heq (hne _ hmem)

/-- At most one entry of an ascending list has the key that is searched for. -/
theorem Ascending.filterMap_eq_find? {entries : List (κ × ν)} (h : Ascending entries) (k : κ) :
    entries.filterMap (fun e => if compare e.1 k = .eq then some e.2 else none) =
      (find? k entries).toList := by
  induction entries with
  | nil => rfl
  | cons entry entries ih =>
    obtain ⟨hentry, hentries⟩ := List.pairwise_cons.mp h
    rw [List.filterMap_cons, ih hentries, find?]
    cases hk : compare k entry.1 with
    | lt =>
      have hgt : compare entry.1 k = .gt := OrientedCmp.gt_iff_lt.mpr hk
      rw [hgt, find?_eq_none_of_lt fun e he => TransCmp.lt_trans hk (hentry e he)]
      rfl
    | eq =>
      rw [OrientedCmp.eq_symm hk,
        find?_eq_none_of_lt fun e he => TransCmp.lt_of_eq_of_lt hk (hentry e he)]
      rfl
    | gt =>
      rw [OrientedCmp.gt_iff_lt.mp hk]
      rfl

theorem find?_erase {entries : List (κ × ν)} (h : Ascending entries) (j k : κ) :
    find? j (erase k entries) = if compare j k = .eq then none else find? j entries := by
  induction entries with
  | nil => simp [erase, find?]
  | cons entry entries ih =>
    obtain ⟨k', v'⟩ := entry
    obtain ⟨hk', hentries⟩ := List.pairwise_cons.mp h
    rw [erase]
    split
    next hlt =>
      split
      next heq => rw [find?, TransCmp.lt_of_eq_of_lt heq hlt]
      next => rfl
    next heq =>
      have hj : compare j k = compare j k' := TransCmp.congr_right heq
      rw [hj, find?]
      cases hjk : compare j k' with
      | lt =>
        simp only [reduceCtorEq, if_false]
        exact find?_eq_none_of_lt fun e he => TransCmp.lt_trans hjk (hk' e he)
      | eq =>
        simp only [if_true]
        exact find?_eq_none_of_lt fun e he => TransCmp.lt_of_eq_of_lt hjk (hk' e he)
      | gt => rfl
    next hgt =>
      have hlt : compare k' k = .lt := OrientedCmp.gt_iff_lt.mp hgt
      rw [find?, find?, ih hentries]
      cases hjk : compare j k' with
      | lt => rw [TransCmp.lt_trans hjk hlt]; rfl
      | eq => rw [TransCmp.lt_of_eq_of_lt hjk hlt]; rfl
      | gt => rfl

theorem find?_eraseAll (j : κ) (keys : List κ) : ∀ {entries : List (κ × ν)}, Ascending entries →
    find? j (eraseAll entries keys) =
      if ∃ k ∈ keys, compare j k = .eq then none else find? j entries := by
  induction keys with
  | nil => exact fun _ => by simp [eraseAll]
  | cons k keys ih =>
    intro entries h
    have hstep := ih (h.erase k)
    rw [find?_erase h] at hstep
    refine hstep.trans ?_
    by_cases hk : compare j k = .eq
    · simp [hk]
    · simp [hk]

/-! ## Maps with the same entries -/

/-- The entries of two maps in the same places have equal keys and related values. -/
def Same (R : ν → ν → Prop) (entries entries' : List (κ × ν)) : Prop :=
  List.Forall₂ (fun a b => compare a.1 b.1 = .eq ∧ R a.2 b.2) entries entries'

variable {R : ν → ν → Prop} {entries entries' : List (κ × ν)}

omit [TransOrd κ] in
theorem Same.exists_mem_left (h : Same R entries entries') {b : κ × ν} (hb : b ∈ entries') :
    ∃ a ∈ entries, compare a.1 b.1 = .eq := by
  induction h with
  | nil => cases hb
  | @cons a b' as bs hab _ ih =>
    rcases List.mem_cons.mp hb with rfl | hb
    · exact ⟨a, List.mem_cons_self .., hab.1⟩
    · obtain ⟨a', ha', heq⟩ := ih hb
      exact ⟨a', List.mem_cons_of_mem _ ha', heq⟩

theorem Same.ascending (h : Same R entries entries') (hasc : Ascending entries) :
    Ascending entries' := by
  induction h with
  | nil => exact List.Pairwise.nil
  | @cons a b as bs hab hrest ih =>
    obtain ⟨ha, has⟩ := List.pairwise_cons.mp hasc
    refine List.pairwise_cons.mpr ⟨?_, ih has⟩
    intro b' hb'
    obtain ⟨a', ha', heq⟩ := Same.exists_mem_left hrest hb'
    have hlt := TransCmp.lt_of_lt_of_eq (ha a' ha') heq
    exact TransCmp.lt_of_eq_of_lt (OrientedCmp.eq_symm hab.1) hlt

theorem Same.find? (h : Same R entries entries') (k : κ) :
    Option.Rel R (find? k entries) (find? k entries') := by
  induction h with
  | nil => exact Option.Rel.none
  | @cons a b as bs hab _ ih =>
    rw [OrderedMap.find?, OrderedMap.find?, TransCmp.congr_right hab.1]
    cases compare k b.1 with
    | lt => exact Option.Rel.none
    | eq => exact Option.Rel.some hab.2
    | gt => exact ih

/-- Ascending lists hold the same entries when they answer alike to every key. -/
theorem same_of_find? (hasc : Ascending entries) (hasc' : Ascending entries')
    (h : ∀ k, Option.Rel R (find? k entries) (find? k entries')) : Same R entries entries' := by
  induction entries generalizing entries' with
  | nil =>
    cases entries' with
    | nil => exact List.Forall₂.nil
    | cons b bs =>
      have hb := h b.1
      rw [find?, find?, compare_self] at hb
      cases hb
  | cons a as ih =>
    obtain ⟨ha, has⟩ := List.pairwise_cons.mp hasc
    have hhead := h a.1
    rw [find?, compare_self] at hhead
    cases entries' with
    | nil => cases hhead
    | cons b bs =>
      obtain ⟨hb, hbs⟩ := List.pairwise_cons.mp hasc'
      -- the first keys are equal: the lesser one would be missing on the other side
      rw [find?] at hhead
      cases hab : compare a.1 b.1 with
      | lt => rw [hab] at hhead; cases hhead
      | gt =>
        have hb' := h b.1
        have hba : compare b.1 a.1 = .lt := OrientedCmp.gt_iff_lt.mp hab
        rw [find?, find?, hba, compare_self] at hb'
        cases hb'
      | eq =>
        rw [hab] at hhead
        cases hhead with
        | some hR =>
          refine List.Forall₂.cons ⟨hab, hR⟩ (ih has hbs ?_)
          intro k
          cases hk : compare k b.1 with
          | gt =>
            have hk' := h k
            rwa [find?, find?, TransCmp.congr_right hab, hk] at hk'
          | lt =>
            have hka : compare k a.1 = .lt := (TransCmp.congr_right hab).trans hk
            rw [find?_eq_none_of_lt fun e he => TransCmp.lt_trans hka (ha e he),
              find?_eq_none_of_lt fun e he => TransCmp.lt_trans hk (hb e he)]
            exact Option.Rel.none
          | eq =>
            have hka : compare k a.1 = .eq := (TransCmp.congr_right hab).trans hk
            rw [find?_eq_none_of_lt fun e he => TransCmp.lt_of_eq_of_lt hka (ha e he),
              find?_eq_none_of_lt fun e he => TransCmp.lt_of_eq_of_lt hk (hb e he)]
            exact Option.Rel.none

/-- Ascending lists with lawful keys that answer alike to every key are the same list. -/
theorem eq_of_find? [LawfulEqOrd κ] (hasc : Ascending entries) (hasc' : Ascending entries')
    (h : ∀ k, find? k entries = find? k entries') : entries = entries' := by
  have hsame : Same Eq entries entries' := by
    refine same_of_find? hasc hasc' fun k => ?_
    rw [h k]
    cases find? k entries' with
    | none => exact .none
    | some v => exact .some rfl
  refine List.forall₂_eq_eq_eq ▸ hsame.imp fun a b hab => ?_
  exact Prod.ext (LawfulEqOrd.eq_of_compare hab.1) hab.2

/-- A map made of entries in order and one more is the list of them with that one put in. -/
theorem ofList_cons [LawfulEqOrd κ] (hasc : Ascending entries) {k : κ}
    (hk : ∀ e ∈ entries, compare k e.1 ≠ .eq) (v : ν) :
    ofList ((k, v) :: entries) = insert k v entries := by
  refine eq_of_find? (Ascending.insertAll _ .nil) (hasc.insert k v) fun j => ?_
  rw [find?_insert]
  by_cases hj : ∃ e ∈ entries, compare j e.1 = .eq
  · obtain ⟨e, he, hje⟩ := hj
    have hdistinct : ((k, v) :: entries).Pairwise fun a b => compare a.1 b.1 ≠ .eq :=
      List.pairwise_cons.mpr ⟨hk, hasc.pairwise_ne⟩
    have hne : compare j k ≠ .eq :=
      fun hjk => hk e he (TransCmp.eq_trans (OrientedCmp.eq_symm hjk) hje)
    rw [if_neg hne, hasc.find?_of_mem he hje]
    exact find?_insertAll_of_mem _ hdistinct (List.mem_cons_of_mem _ he) hje
  · have hmiss : ∀ e ∈ entries, compare j e.1 ≠ .eq := fun e he heq => hj ⟨e, he, heq⟩
    have hfirst : find? j (insertAll (insert k v []) entries) = find? j (insert k v []) :=
      find?_insertAll_of_forall_ne entries hmiss
    rw [(find?_eq_none_iff hasc).mpr hmiss]
    exact hfirst.trans (find?_insert j k v [])

/-- A map is `rest` with new entries put in exactly when it answers to the new keys as they say
and is `rest` without them. The new keys are distinct, and `rest` has none of them. -/
theorem same_insertAll_iff {rest new : List (κ × ν)} (hasc : Ascending entries)
    (hnew : new.Pairwise fun a b => compare a.1 b.1 ≠ .eq) :
    ((∀ e ∈ new, find? e.1 rest = none) ∧ Same R entries (insertAll rest new)) ↔
      (∀ e ∈ new, Option.Rel R (find? e.1 entries) (some e.2)) ∧
        Same R (eraseAll entries (new.map (·.1))) rest := by
  have herase : ∀ j, find? j (eraseAll entries (new.map (·.1))) =
      if ∃ e ∈ new, compare j e.1 = .eq then none else find? j entries := by
    intro j
    rw [find?_eraseAll j _ hasc]
    simp only [List.mem_map, exists_exists_and_eq_and]
  have hmiss : ∀ j, (¬∃ e ∈ new, compare j e.1 = .eq) →
      find? j (insertAll rest new) = find? j rest :=
    fun j h => find?_insertAll_of_forall_ne new fun e he heq => h ⟨e, he, heq⟩
  -- each side is compared by its answers: to a key of `new`, or to any other
  constructor
  · rintro ⟨hfree, hsame⟩
    have hrest : Ascending rest := Ascending.of_insertAll new (hsame.ascending hasc)
    refine ⟨?_, same_of_find? (hasc.eraseAll _) hrest ?_⟩
    · intro e he
      rw [← find?_insertAll_of_mem new hnew he compare_self]
      exact hsame.find? e.1
    · intro j
      rw [herase]
      split
      next h =>
        obtain ⟨e, he, hj⟩ := h
        rw [find?_congr hj, hfree e he]
        exact Option.Rel.none
      next h => rw [← hmiss j h]; exact hsame.find? j
  · rintro ⟨hfound, hsame⟩
    have hrest : Ascending rest := hsame.ascending (hasc.eraseAll _)
    refine ⟨?_, same_of_find? hasc (hrest.insertAll new) ?_⟩
    · intro e he
      have hnone := hsame.find? e.1
      rw [herase, if_pos ⟨e, he, compare_self⟩] at hnone
      cases hr : OrderedMap.find? e.1 rest with
      | none => rfl
      | some w => rw [hr] at hnone; cases hnone
    · intro j
      by_cases h : ∃ e ∈ new, compare j e.1 = .eq
      · obtain ⟨e, he, hj⟩ := h
        rw [find?_insertAll_of_mem new hnew he hj, find?_congr hj]
        exact hfound e he
      · have hj := hsame.find? j
        rwa [herase, if_neg h, ← hmiss j h] at hj

end Relational.OrderedMap
