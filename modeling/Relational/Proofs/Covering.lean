import Mathlib.Order.Bounds.Basic
import Relational.Proofs.Slices

/-!
# The order of spans

A span is below another one of the same source that covers it. Spans of different sources are not
comparable, so that some spans have an upper bound only if they are all over one source.

> `Span.merge_eq_ok_iff`: the merge of some spans is their least upper bound, and there is none if
> the merge fails.

An upper bound does not see in which order the spans come, how often or in what groups. So neither
does the merge:

> `Span.merge_leastUpperBound`: spans can be merged exactly if there are any and they are over one
> source, and what comes out does not change if they are put in another order, repeated, or merged
> group by group.
-/

namespace Relational

namespace Span

/-! ## Covering -/

/-- A span is below the spans of its source that cover it. -/
instance : PartialOrder Span where
  le a b := a.source = b.source ∧ b.start ≤ a.start ∧ a.stop ≤ b.stop
  le_refl _ := ⟨rfl, Nat.le_refl _, Nat.le_refl _⟩
  le_trans _ _ _ hab hbc :=
    ⟨hab.1.trans hbc.1, Nat.le_trans hbc.2.1 hab.2.1, Nat.le_trans hab.2.2 hbc.2.2⟩
  le_antisymm a b hab hba := by
    obtain ⟨source, start, stop⟩ := a
    obtain ⟨hsource, hstart, hstop⟩ := hab
    obtain ⟨-, hstart', hstop'⟩ := hba
    rw [mk.injEq]
    exact ⟨hsource, Nat.le_antisymm hstart' hstart, Nat.le_antisymm hstop hstop'⟩

variable {a b span first acc merged bound : Span} {spans : List Span}

theorem le_iff : a ≤ b ↔ a.source = b.source ∧ b.start ≤ a.start ∧ a.stop ≤ b.stop := Iff.rfl

instance : Decidable (a ≤ b) := decidable_of_iff _ le_iff.symm

/-- The spans are all over one source, that is, over the same name and the same text. -/
def OneSource (spans : List Span) : Prop := ∀ a ∈ spans, ∀ b ∈ spans, a.source = b.source

instance : Decidable (OneSource spans) :=
  inferInstanceAs (Decidable (∀ a ∈ spans, ∀ b ∈ spans, a.source = b.source))

theorem OneSource.subset {others : List Span} (h : OneSource spans)
    (hsubset : ∀ span ∈ others, span ∈ spans) : OneSource others :=
  fun a ha b hb => h a (hsubset a ha) b (hsubset b hb)

/-- Groups of spans over one source are over one source each. -/
theorem OneSource.groups {groups : List (List Span)} (h : OneSource groups.flatten)
    (hne : ∀ group ∈ groups, group ≠ []) : ∀ group ∈ groups, group ≠ [] ∧ OneSource group := by
  intro group hgroup
  exact ⟨hne group hgroup, h.subset fun s hs => List.mem_flatten_of_mem hgroup hs⟩

theorem oneSource_cons_iff :
    OneSource (first :: spans) ↔ ∀ span ∈ spans, span.source = first.source := by
  constructor
  · intro h span hspan
    exact h span (List.mem_cons_of_mem _ hspan) first List.mem_cons_self
  · intro h
    have hall : ∀ span ∈ first :: spans, span.source = first.source :=
      List.forall_mem_cons.mpr ⟨rfl, h⟩
    exact fun a ha b hb => (hall a ha).trans (hall b hb).symm

/-- Spans with an upper bound are all over its source. -/
theorem oneSource_of_le (h : ∀ span ∈ spans, span ≤ bound) : OneSource spans :=
  fun a ha b hb => (h a ha).1.trans (h b hb).1.symm

/-! ## Merging -/

theorem mem_upperBounds_cons :
    bound ∈ upperBounds {s | s ∈ span :: spans} ↔
      span ≤ bound ∧ bound ∈ upperBounds {s | s ∈ spans} :=
  List.forall_mem_cons

/-- One step of a merge: what covers the widened span is what covers both. -/
theorem widened_le_iff (hsource : span.source = acc.source) :
    { acc with start := min acc.start span.start, stop := max acc.stop span.stop } ≤ bound ↔
      acc ≤ bound ∧ span ≤ bound := by
  simp only [le_iff, hsource, Nat.le_min, Nat.max_le]
  tauto

/-- Widening a span by others gives the least upper bound of them all, and fails if there is
none. -/
theorem mergeFrom_eq_ok_iff (hsource : acc.source = first.source) :
    mergeFrom first acc spans = .ok merged ↔ IsLUB {s | s ∈ acc :: spans} merged := by
  induction spans generalizing acc with
  | nil =>
    have hsingle : {s | s ∈ [acc]} = {acc} := Set.ext fun _ => List.mem_singleton
    rw [mergeFrom, Except.ok.injEq, hsingle]
    exact ⟨fun h => h ▸ isLUB_singleton, isLUB_singleton.unique⟩
  | cons span spans ih =>
    rw [mergeFrom]
    split
    next hsame =>
      have hspan : span.source = acc.source := (eq_of_beq hsame).symm.trans hsource.symm
      refine Iff.trans (ih hsource) ?_
      -- the widened span and the two that it is made of have the same upper bounds
      refine iff_of_eq (congrArg (IsLeast · merged) (Set.ext fun bound => ?_))
      rw [mem_upperBounds_cons, mem_upperBounds_cons, mem_upperBounds_cons, widened_le_iff hspan,
        and_assoc]
    next hsame =>
      constructor
      · intro h
        cases h
      · intro h
        have hacc := (h.1 List.mem_cons_self).1
        have hspan := (h.1 (List.mem_cons_of_mem _ List.mem_cons_self)).1
        exact absurd (beq_iff_eq.mpr ((hsource.symm.trans hacc).trans hspan.symm)) hsame

/-- No span is below all others, which are over other sources. -/
theorem not_isLUB_nil : ¬IsLUB {s | s ∈ ([] : List Span)} merged := by
  intro h
  have hbelow (bound : Span) : merged.source = bound.source :=
    (h.2 (List.forall_mem_nil (· ≤ bound))).1
  have hsame : unknown.source = (detached "" "").source :=
    (hbelow unknown).symm.trans (hbelow (detached "" ""))
  exact absurd hsame (by decide)

/-- The merge of some spans is their least upper bound. -/
theorem merge_eq_ok_iff : merge spans = .ok merged ↔ IsLUB {s | s ∈ spans} merged := by
  cases spans with
  | nil =>
    constructor
    · intro h
      cases h
    · exact fun h => absurd h not_isLUB_nil
  | cons first rest => exact mergeFrom_eq_ok_iff rfl

theorem exists_mergeFrom (h : ∀ span ∈ spans, span.source = first.source) :
    ∃ merged, mergeFrom first acc spans = .ok merged := by
  induction spans generalizing acc with
  | nil => exact ⟨acc, rfl⟩
  | cons span spans ih =>
    rw [List.forall_mem_cons] at h
    have hsame : first.sameSource span = true := beq_iff_eq.mpr h.1.symm
    rw [mergeFrom, if_pos hsame]
    exact ih h.2

theorem exists_merge_iff : (∃ merged, merge spans = .ok merged) ↔ spans ≠ [] ∧ OneSource spans := by
  constructor
  · rintro ⟨merged, h⟩
    refine ⟨?_, oneSource_of_le (merge_eq_ok_iff.mp h).1⟩
    rintro rfl
    cases h
  · rintro ⟨hne, hsource⟩
    cases spans with
    | nil => exact absurd rfl hne
    | cons first rest => exact exists_mergeFrom (oneSource_cons_iff.mp hsource)

/-! ## The common place of some spans -/

/-- The least span that covers the given ones, or the first of them if there is none. -/
def common : List Span → Span
  | [] => unknown
  | first :: rest => mergeOr first (first :: rest)

theorem mergeOr_eq_of_not_oneSource {fallback : Span} (h : ¬OneSource spans) :
    mergeOr fallback spans = fallback := by
  unfold mergeOr
  split
  next merged hmerge => exact absurd (exists_merge_iff.mp ⟨merged, hmerge⟩).2 h
  next => rfl

theorem common_eq_of_not_oneSource (h : ¬OneSource (first :: spans)) :
    common (first :: spans) = first :=
  mergeOr_eq_of_not_oneSource h

theorem merge_eq_common (hne : spans ≠ []) (hsource : OneSource spans) :
    merge spans = .ok (common spans) := by
  obtain ⟨merged, hmerge⟩ := exists_merge_iff.mpr ⟨hne, hsource⟩
  cases spans with
  | nil => exact absurd rfl hne
  | cons first rest => rw [common, mergeOr, hmerge]

theorem isLUB_common (hne : spans ≠ []) (hsource : OneSource spans) :
    IsLUB {s | s ∈ spans} (common spans) :=
  merge_eq_ok_iff.mp (merge_eq_common hne hsource)

theorem common_eq_of_isLUB (h : IsLUB {s | s ∈ spans} merged) : common spans = merged := by
  obtain ⟨hne, hsource⟩ := exists_merge_iff.mp ⟨merged, merge_eq_ok_iff.mpr h⟩
  exact (isLUB_common hne hsource).unique h

/-- What covers the common places of some groups covers all the spans in them. -/
theorem upperBounds_map_common {groups : List (List Span)}
    (h : ∀ group ∈ groups, group ≠ [] ∧ OneSource group) :
    upperBounds {m | m ∈ groups.map common} = upperBounds {s | s ∈ groups.flatten} := by
  induction groups with
  | nil => rfl
  | cons group groups ih =>
    rw [List.forall_mem_cons] at h
    have hgroup := isLUB_common h.1.1 h.1.2
    ext bound
    rw [List.map_cons, mem_upperBounds_cons, ih h.2, isLUB_le_iff hgroup, List.flatten_cons]
    exact List.forall_mem_append.symm

theorem isLUB_map_common_iff {groups : List (List Span)}
    (h : ∀ group ∈ groups, group ≠ [] ∧ OneSource group) :
    IsLUB {m | m ∈ groups.map common} merged ↔ IsLUB {s | s ∈ groups.flatten} merged :=
  iff_of_eq (congrArg (IsLeast · merged) (upperBounds_map_common h))

theorem mapM_merge {groups : List (List Span)}
    (h : ∀ group ∈ groups, group ≠ [] ∧ OneSource group) :
    groups.mapM merge = .ok (groups.map common) := by
  induction groups with
  | nil => rfl
  | cons group groups ih =>
    rw [List.forall_mem_cons] at h
    rw [List.mapM_cons, merge_eq_common h.1.1 h.1.2, ih h.2]
    rfl

/-- Merging takes the least upper bound. Some spans have a merge exactly if there are any and they
are all over one source. The merge covers them all and is covered by every span that does. It is
that of any other list with the same members, and also the merge of the merges of any groups into
which the spans are divided. -/
theorem merge_leastUpperBound (spans : List Span) :
    ((∃ merged, merge spans = .ok merged) ↔ spans ≠ [] ∧ OneSource spans) ∧
      ∀ merged, merge spans = .ok merged →
        IsLUB {s | s ∈ spans} merged ∧
          (∀ others, (∀ s, s ∈ others ↔ s ∈ spans) → merge others = .ok merged) ∧
          ∀ groups : List (List Span), (∀ group ∈ groups, group ≠ []) →
            (∀ s, s ∈ groups.flatten ↔ s ∈ spans) →
              (groups.mapM merge >>= merge) = .ok merged := by
  refine ⟨exists_merge_iff, fun merged h => ?_⟩
  have hlub : IsLUB {s | s ∈ spans} merged := merge_eq_ok_iff.mp h
  have hsource : OneSource spans := oneSource_of_le hlub.1
  refine ⟨hlub, fun others hothers => ?_, fun groups hne hgroups => ?_⟩
  · have hset : {s | s ∈ others} = {s | s ∈ spans} := Set.ext hothers
    exact merge_eq_ok_iff.mpr (hset ▸ hlub)
  · have hmergeable := (hsource.subset fun s hs => (hgroups s).mp hs).groups hne
    have hset : {s | s ∈ groups.flatten} = {s | s ∈ spans} := Set.ext hgroups
    rw [mapM_merge hmergeable]
    exact merge_eq_ok_iff.mpr ((isLUB_map_common_iff hmergeable).mpr (hset ▸ hlub))

end Span

namespace Samples

/-- A sum of three operands. -/
def operands : Source := { name := "sum", text := "1 + 2 + 3" }

/-- The second operator with the first and the last operand: as they come, in another order with one
of them repeated, and in two groups. -/
theorem merge_leastUpperBound_operands :
    Span.merge [⟨operands, 6, 7⟩, ⟨operands, 0, 1⟩, ⟨operands, 8, 9⟩] = .ok (Span.whole operands) ∧
      Span.merge [⟨operands, 8, 9⟩, ⟨operands, 0, 1⟩, ⟨operands, 8, 9⟩, ⟨operands, 6, 7⟩] =
        .ok (Span.whole operands) ∧
      ([[⟨operands, 8, 9⟩, ⟨operands, 6, 7⟩], [⟨operands, 0, 1⟩]].mapM Span.merge >>= Span.merge) =
        .ok (Span.whole operands) := by
  have hmerge : Span.merge [⟨operands, 6, 7⟩, ⟨operands, 0, 1⟩, ⟨operands, 8, 9⟩] =
      .ok (Span.whole operands) := rfl
  obtain ⟨-, hothers, hgroups⟩ := (Span.merge_leastUpperBound _).2 _ hmerge
  refine ⟨hmerge, hothers _ fun s => ?_, hgroups _ (by decide) fun s => ?_⟩
  · simp only [List.mem_cons, List.not_mem_nil, or_false]
    tauto
  · simp only [List.flatten_cons, List.flatten_nil, List.cons_append, List.nil_append,
      List.mem_cons, List.not_mem_nil, or_false]
    tauto

end Samples

end Relational
