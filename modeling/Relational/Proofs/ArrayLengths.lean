import Relational.Proofs.Inquiry

/-!
# The lengths of arrays that fit a pattern

A pattern of an array without an extra element looks at each place that it does not leave out. So
the array has to be as long as the last of these places requires, and it must not be longer than
the pattern. Places left out at the end of the pattern are never looked at, and may be missing.

> `Pattern.array_fixes_length`: without fallbacks and without an extra element, a pattern that fits
> some array fits arrays of its own length only, unless it leaves its last place out. With an extra
> element there is an item for each other place.
-/

namespace Relational

/-! ## Success does not depend on what is left out -/

section

variable {eval : Expr → Run Value} {refusal refusal' : Cause} {bound : Scope} {next : Identity}
  {result : Scope × Identity}

theorem run_ofSlot_done_congr {matcher : Option Matcher} {fallback : Option Expr}
    {part part' : Option Value} (hpart : matcher ≠ none → part = part')
    (h : (Inquiry.ofSlot refusal matcher fallback part bound).run eval next = .done result) :
    (Inquiry.ofSlot refusal' matcher fallback part' bound).run eval next = .done result := by
  cases matcher with
  | none => exact h
  | some matcher =>
    obtain rfl := hpart nofun
    cases part with
    | some part => exact h
    | none =>
      cases fallback with
      | some fallback => exact h
      | none => cases h

/-- Slots that take their parts take all parts that are the same where a slot is not left out. -/
theorem run_inquireSlots_done_congr {slots : List Slot} {parts parts' : List (Option Value)}
    (hparts : ∀ (i : Nat) (slot : Slot), slots[i]? = some slot → slot.pattern ≠ none →
      parts[i]?.join = parts'[i]?.join)
    (h : (Pattern.inquireSlots refusal slots parts bound).run eval next = .done result) :
    (Pattern.inquireSlots refusal' slots parts' bound).run eval next = .done result := by
  induction slots generalizing parts parts' bound next with
  | nil => exact h
  | cons slot slots ih =>
    rw [Pattern.inquireSlots, Inquiry.run_bind, Run.bind_eq_done_iff] at h ⊢
    obtain ⟨first, between, hfirst, hrest⟩ := h
    have hhead : slot.matcher ≠ none → parts.head?.join = parts'.head?.join := by
      rw [Slot.matcher_eq, ne_eq, Option.map_eq_none_iff, List.head?_eq_getElem?,
        List.head?_eq_getElem?]
      exact hparts 0 slot rfl
    refine ⟨first, between, run_ofSlot_done_congr hhead hfirst, ih (fun i s hs hne => ?_) hrest⟩
    rw [List.getElem?_tail, List.getElem?_tail]
    exact hparts (i + 1) s hs hne

end

/-! ## Slots without a part -/

/-- A slot without a part and without a fallback is left out if it does not refuse. -/
theorem ofSlot_keeps_elided {refusal : Cause} {slot : Slot} (hfallback : slot.fallback = none)
    (bound : Scope) :
    (Inquiry.ofSlot refusal slot.matcher slot.fallback none bound).Keeps (fun _ => True)
      (fun _ => True) fun _ => slot.pattern = none := by
  obtain ⟨_ | q, fallback⟩ := slot
  · exact rfl
  · obtain rfl : fallback = none := hfallback
    trivial

/-- Without fallbacks, the slots beyond the parts are left out if none of them refuses. -/
theorem inquireSlots_keeps_elided {refusal : Cause} {slots : List Slot}
    (hfallback : ∀ slot ∈ slots, slot.fallback = none) (parts : List (Option Value))
    (bound : Scope) :
    (Pattern.inquireSlots refusal slots parts bound).Keeps (fun _ => True) (fun _ => True)
      fun _ => ∀ slot ∈ slots.drop parts.length, slot.pattern = none := by
  induction slots generalizing parts bound with
  | nil => exact fun slot hslot => by simp at hslot
  | cons slot slots ih =>
    rw [List.forall_mem_cons] at hfallback
    cases parts with
    | nil =>
      -- from here on no slot has a part
      refine (ofSlot_keeps_elided hfallback.1 bound).bind fun first hslot => ?_
      refine (ih hfallback.2 [] first).imp fun _ hslots => ?_
      exact List.forall_mem_cons.mpr ⟨hslot, hslots⟩
    | cons part parts =>
      refine Inquiry.Keeps.bind (A := fun _ => True) (Inquiry.keeps_true _) fun first _ => ?_
      exact ih hfallback.2 parts first

namespace Pattern

/-- The pattern matches the value in the scope. -/
def Matches (p : Pattern) (scope : Scope) (v : Value) : Prop :=
  ∃ fuel next result, p.bindings fuel scope v next = .done result

theorem matches_iff {p : Pattern} {scope : Scope} {v : Value} :
    p.Matches scope v ↔ ∃ next result,
      (p.inquire v Scope.empty).run (unbounded.eval · scope) next = .done result := by
  unfold Matches
  rw [exists_comm]
  refine exists_congr fun next => ?_
  rw [exists_comm]
  exact exists_congr fun result => exists_bindings_iff

section

variable {slots : List Slot} {scope : Scope} {v : Value} {items : List (Option Value)}

/-- An array that is matched has room for the pattern, and its slots take the items. -/
theorem array_matches_iff (hitems : v.items? = some items) :
    (Pattern.array slots).Matches scope v ↔ roomFor slots items.length = true ∧ ∃ next result,
      (inquireItems (.mismatch v.text (Pattern.array slots).text) slots items Scope.empty).run
        (unbounded.eval · scope) next = .done result := by
  rw [matches_iff]
  simp only [Pattern.inquire, hitems]
  split
  next hroom => rw [and_iff_right hroom]
  next hroom =>
    refine iff_of_false ?_ fun h => hroom h.1
    rintro ⟨next, result, h⟩
    cases h

/-- A pattern of an array matches only arrays. -/
theorem exists_items_of_matches (h : (Pattern.array slots).Matches scope v) :
    ∃ items, v.items? = some items := by
  obtain ⟨next, result, hrun⟩ := matches_iff.mp h
  rw [Pattern.inquire] at hrun
  cases hitems : v.items? with
  | some items => exact ⟨items, rfl⟩
  | none =>
    rw [hitems] at hrun
    cases hrun

theorem roomFor_iff_le (hextra : ∀ slot ∈ slots, slot.isExtra = false) :
    roomFor slots items.length = true ↔ items.length ≤ slots.length := by
  have hany : slots.any Slot.isExtra = false := by
    rw [List.any_eq_false]
    intro slot hslot
    rw [hextra slot hslot]
    exact Bool.false_ne_true
  rw [roomFor, hany, if_neg Bool.false_ne_true, decide_eq_true_iff]

/-- Without fallbacks and without an extra element, the places beyond a matched array are left
out. -/
theorem elided_of_matches (hextra : ∀ slot ∈ slots, slot.isExtra = false)
    (hfallback : ∀ slot ∈ slots, slot.fallback = none) (hitems : v.items? = some items)
    (h : (Pattern.array slots).Matches scope v) :
    items.length ≤ slots.length ∧ ∀ slot ∈ slots.drop items.length, slot.pattern = none := by
  obtain ⟨hroom, next, result, hrun⟩ := (array_matches_iff hitems).mp h
  rw [inquireItems_eq_inquireSlots hextra] at hrun
  exact ⟨(roomFor_iff_le hextra).mp hroom,
    (inquireSlots_keeps_elided hfallback items Scope.empty).of_done hrun⟩

/-- If the last place is left out, then the last item may be missing. -/
theorem matches_dropLast (hextra : ∀ slot ∈ slots, slot.isExtra = false) {slot : Slot}
    (hlast : slots.getLast? = some slot) (hslot : slot.pattern = none)
    (hitems : v.items? = some items) (hlength : items.length = slots.length)
    (h : (Pattern.array slots).Matches scope v) :
    (Pattern.array slots).Matches scope (.array items.dropLast) := by
  obtain ⟨-, next, result, hrun⟩ := (array_matches_iff hitems).mp h
  rw [inquireItems_eq_inquireSlots hextra] at hrun
  refine (array_matches_iff rfl).mpr ⟨(roomFor_iff_le hextra).mpr ?_, next, result, ?_⟩
  · rw [List.length_dropLast]
    omega
  · rw [inquireItems_eq_inquireSlots hextra]
    refine run_inquireSlots_done_congr (fun i s hs hne => ?_) hrun
    have hi : i < slots.length := (List.getElem?_eq_some_iff.mp hs).1
    -- a place that is looked at is not the last one
    have hlt : i ≠ slots.length - 1 := by
      rintro rfl
      rw [List.getLast?_eq_getElem?, hs] at hlast
      obtain rfl := Option.some.inj hlast
      exact hne hslot
    rw [List.getElem?_dropLast, if_pos (by omega)]

end

/-- A pattern of an array fixes the length of the arrays that fit. Without an extra element and
without fallbacks, these are not longer than the pattern, and shorter only by places that the
pattern leaves out. If the pattern fits at all, then all these arrays have its length exactly if it
does not leave its last place out. With an extra element they have an item for each other place. -/
theorem array_fixes_length (slots : List Slot) (scope : Scope) :
    ((∀ slot ∈ slots, slot.isExtra = false) → (∀ slot ∈ slots, slot.fallback = none) →
      (∀ v items, v.items? = some items → (Pattern.array slots).Matches scope v →
        items.length ≤ slots.length ∧ ∀ slot ∈ slots.drop items.length, slot.pattern = none) ∧
      ((∃ v, (Pattern.array slots).Matches scope v) →
        ((∀ v items, v.items? = some items → (Pattern.array slots).Matches scope v →
          items.length = slots.length) ↔
        ∀ slot, slots.getLast? = some slot → slot.pattern ≠ none))) ∧
    (slots.countP Slot.isExtra = 1 →
      ∀ v items, v.items? = some items → (Pattern.array slots).Matches scope v →
        slots.countP (!·.isExtra) ≤ items.length) := by
  refine ⟨fun hextra hfallback => ⟨fun v items hitems => elided_of_matches hextra hfallback hitems,
    fun ⟨v, hv⟩ => ⟨fun hall slot hlast hslot => ?_, fun hlast v items hitems hm => ?_⟩⟩,
    fun hone v items hitems hm => ?_⟩
  · -- a match of the full length stays a match without its last item
    obtain ⟨items, hitems⟩ := exists_items_of_matches hv
    have hlength := hall v items hitems hv
    have hshort := hall _ items.dropLast rfl
      (matches_dropLast hextra hlast hslot hitems hlength hv)
    have hpos : 0 < slots.length := List.length_pos_of_mem (List.mem_of_getLast? hlast)
    rw [List.length_dropLast] at hshort
    omega
  · -- if the array were shorter, the last place would be beyond it
    obtain ⟨hle, helided⟩ := elided_of_matches hextra hfallback hitems hm
    refine Nat.le_antisymm hle (Nat.le_of_not_lt fun hlt => ?_)
    have hne : slots ≠ [] := List.ne_nil_of_length_pos (by omega)
    have hmem : slots.getLast hne ∈ slots.drop items.length := by
      refine List.mem_of_getLast? ?_
      rw [List.getLast?_drop, if_neg (by omega), List.getLast?_eq_some_getLast hne]
    exact hlast _ (List.getLast?_eq_some_getLast hne) (helided _ hmem)
  · have hany : slots.any Slot.isExtra = true := by
      rw [List.any_eq_true]
      exact List.countP_pos_iff.mp (by omega)
    have hroom := ((array_matches_iff hitems).mp hm).1
    rw [roomFor, hany, if_pos rfl, decide_eq_true_iff] at hroom
    have hcount : slots.length = slots.countP Slot.isExtra + slots.countP (!·.isExtra) := by
      simpa using List.length_eq_countP_add_countP Slot.isExtra (l := slots)
    omega

/-- The pattern `[, x]` fits `[true, false]`, so it fits arrays with two places only. The pattern
`[..., x]` fits `[true]`, which has a place for `x`. -/
theorem array_fixes_length_two :
    let x : Slot := .mk (some (.expr (.ident "x" .unknown))) none
    let rest : Slot := .mk (some (.extra none)) none
    (∃ v, (Pattern.array [.elided, x]).Matches Scope.empty v) ∧
    (∀ v items, v.items? = some items → (Pattern.array [.elided, x]).Matches Scope.empty v →
      items.length = 2) ∧
    (Pattern.array [rest, x]).Matches Scope.empty (.array [some (.bool true)]) ∧
    [rest, x].countP (!·.isExtra) ≤ 1 := by
  intro x rest
  have hfits : ∃ v, (Pattern.array [.elided, x]).Matches Scope.empty v :=
    ⟨.array [some (.bool true), some (.bool false)], 9, 0, _, rfl⟩
  have hrest : (Pattern.array [rest, x]).Matches Scope.empty (.array [some (.bool true)]) :=
    ⟨9, 0, _, rfl⟩
  refine ⟨hfits, ?_, hrest,
    (array_fixes_length [rest, x] Scope.empty).2 rfl _ [some (.bool true)] rfl hrest⟩
  refine (((array_fixes_length [.elided, x] Scope.empty).1 (by decide) (by decide)).2 hfits).mpr ?_
  rintro slot ⟨⟩ hnone
  cases hnone

/-- The pattern `[x, ]` has two places, no extra element and no fallbacks, and fits `[true]`. -/
theorem array_fits_shorter :
    let slots : List Slot := [.mk (some (.expr (.ident "x" .unknown))) none, .elided]
    (∀ slot ∈ slots, slot.isExtra = false ∧ slot.fallback = none) ∧
    (Pattern.array slots).bindings 3 Scope.empty (.array [some (.bool true)]) 0 =
      .done ([("x", .bool true)], 0) ∧ [some (Value.bool true)].length ≠ slots.length :=
  ⟨by decide, rfl, by decide⟩

end Pattern

end Relational
