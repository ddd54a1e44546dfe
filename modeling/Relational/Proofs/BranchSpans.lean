import Relational.Proofs.Covering
import Relational.Tree.Node

/-!
# The place of a branch

A branch that is given no place takes one from its children. This is done twice over: the children
under each tag have a common place, and these have one in turn. Places have a common one that covers
them all if they are over one source, and otherwise it is just the first of them:

> `Node.spanOfChildren_eq`: the place of a branch is the common place of those of its tags.

> `Node.ofChildren_span`: it covers all children, and nothing more than it has to, if they are over
> one source. If a tag begins in another source than the first one, it is the place of the first
> tag.

So the place of a branch over several sources need not be that of one of its children
(`Node.coversSome_twoFiles`).
-/

namespace Relational

namespace Span

variable {first bound : Span} {rest : List Span}

/-- The common place covers the first of the spans. -/
theorem le_common : first ≤ common (first :: rest) := by
  by_cases hsource : OneSource (first :: rest)
  · exact (isLUB_common (List.cons_ne_nil _ _) hsource).1 List.mem_cons_self
  · exact le_of_eq (common_eq_of_not_oneSource hsource).symm

/-- The common place goes no further than the spans over the source of the first one. -/
theorem common_le (h : ∀ s ∈ first :: rest, s.source = first.source → s ≤ bound) :
    common (first :: rest) ≤ bound := by
  by_cases hsource : OneSource (first :: rest)
  · refine (isLUB_common (List.cons_ne_nil _ _) hsource).2 fun s hs => ?_
    exact h s hs (hsource s hs first List.mem_cons_self)
  · rw [common_eq_of_not_oneSource hsource]
    exact h first List.mem_cons_self rfl

theorem common_singleton : common [first] = first := by
  refine le_antisymm (common_le ?_) le_common
  intro s hs _
  exact le_of_eq (List.mem_singleton.mp hs)

end Span

namespace Node

variable {children : List (String × Children)}

/-! ## Tags and their places -/

/-- The places of the children under each tag that has any, tag by tag. -/
def spanGroups (children : List (String × Children)) : List (List Span) :=
  (children.map fun c => c.2.nodes.map Node.span).filter (· ≠ [])

theorem ne_nil_of_mem_spanGroups {group : List Span} (h : group ∈ spanGroups children) :
    group ≠ [] :=
  of_decide_eq_true (List.mem_filter.mp h).2

theorem spanGroups_ne_nil (h : ∃ c ∈ children, c.2.nodes ≠ []) : spanGroups children ≠ [] := by
  obtain ⟨c, hc, hnodes⟩ := h
  have hgroup : c.2.nodes.map Node.span ∈ spanGroups children := by
    refine List.mem_filter.mpr ⟨List.mem_map_of_mem hc, decide_eq_true ?_⟩
    rwa [ne_eq, List.map_eq_nil_iff]
  exact List.ne_nil_of_mem hgroup

theorem span?_eq_common (c : Children) :
    c.span? = if c.nodes.map Node.span ≠ [] then some (Span.common (c.nodes.map Node.span))
      else none := by
  unfold Children.span?
  split
  next hnil => rw [hnil]; rfl
  next first rest hcons => rw [hcons]; rfl

theorem filterMap_span? (children : List (String × Children)) :
    children.filterMap (fun c => c.2.span?) = (spanGroups children).map Span.common := by
  induction children with
  | nil => rfl
  | cons c children ih =>
    rw [List.filterMap_cons, ih, span?_eq_common, spanGroups, spanGroups, List.map_cons,
      List.filter_cons]
    by_cases hgroup : c.2.nodes.map Node.span = []
    · simp [hgroup]
    · simp [hgroup]

/-- The place of a branch is the common place of the common places of its tags. -/
theorem spanOfChildren_eq :
    spanOfChildren children = Span.common ((spanGroups children).map Span.common) := by
  rw [← filterMap_span?]
  rfl

/-! ## Covering the children -/

/-- The place of a branch is the least one to cover all children, if these are over one source. -/
theorem isLUB_common_groups {groups : List (List Span)} (hne : groups ≠ [])
    (hgroups : ∀ group ∈ groups, group ≠ []) (hsource : Span.OneSource groups.flatten) :
    IsLUB {s | s ∈ groups.flatten} (Span.common (groups.map Span.common)) := by
  have hflatten : groups.flatten ≠ [] := by
    obtain ⟨group, hgroup⟩ := List.exists_mem_of_ne_nil _ hne
    obtain ⟨s, hs⟩ := List.exists_mem_of_ne_nil _ (hgroups group hgroup)
    exact List.ne_nil_of_mem (List.mem_flatten_of_mem hgroup hs)
  have hlub := Span.isLUB_common hflatten hsource
  rwa [Span.common_eq_of_isLUB ((Span.isLUB_map_common_iff (hsource.groups hgroups)).mpr hlub)]

/-- The place of a branch is that of the first tag, if a tag begins in another source or if there is
no other tag. -/
theorem common_groups_eq_first {first : Span} {rest : List Span} {others : List (List Span)}
    (h : (∃ lead ∈ others.filterMap List.head?, lead.source ≠ first.source) ∨ others = []) :
    Span.common (((first :: rest) :: others).map Span.common) = Span.common (first :: rest) := by
  rw [List.map_cons]
  rcases h with ⟨lead, hlead, hother⟩ | rfl
  · refine Span.common_eq_of_not_oneSource fun hsource => hother ?_
    obtain ⟨group, hgroup, hhead⟩ := List.mem_filterMap.mp hlead
    obtain ⟨tail, rfl⟩ := List.head?_eq_some_iff.mp hhead
    -- the common place of a group is over the source of its first span
    have hplace := Span.oneSource_cons_iff.mp hsource _ (List.mem_map_of_mem hgroup)
    exact (Span.le_common.1.trans hplace).trans Span.le_common.1.symm
  · exact Span.common_singleton

/-- The place of a branch goes no further than the children over the source of the first one. -/
theorem common_groups_le {first bound : Span} {rest : List Span} {others : List (List Span)}
    (hgroups : ∀ group ∈ others, group ≠ [])
    (h : ∀ s ∈ ((first :: rest) :: others).flatten, s.source = first.source → s ≤ bound) :
    Span.common (((first :: rest) :: others).map Span.common) ≤ bound := by
  refine Span.common_le fun place hplace hsource => ?_
  obtain ⟨group, hgroup, rfl⟩ := (List.mem_map (l := (first :: rest) :: others)).mp hplace
  have hne : group ≠ [] := by
    rcases List.mem_cons.mp hgroup with rfl | hgroup
    · exact List.cons_ne_nil _ _
    · exact hgroups group hgroup
  obtain ⟨lead, tail, rfl⟩ := List.exists_cons_of_ne_nil hne
  have hlead : lead.source = first.source :=
    (Span.le_common.1.trans hsource).trans Span.le_common.1.symm
  exact Span.common_le fun s hs hs' =>
    h s (List.mem_flatten_of_mem hgroup hs) (hs'.trans hlead)

/-- The place that a branch with children takes from them. If all children are over one source, it
is the least place to cover them all. If another tag begins in another source than the first one, or
if there is no other tag, it is the place of the first tag: the least one to cover the children
under it if these are over one source, and otherwise the place of the first child. In any case it
covers the first child, and goes no further than the children over the source of the first one. -/
theorem ofChildren_span (h : ∃ c ∈ children, c.2.nodes ≠ []) :
    ∃ first rest others, spanGroups children = (first :: rest) :: others ∧
      (Span.OneSource (spanGroups children).flatten →
        IsLUB {s | s ∈ (spanGroups children).flatten} (ofChildren children none).span) ∧
      ((∃ lead ∈ others.filterMap List.head?, lead.source ≠ first.source) ∨ others = [] →
        (Span.OneSource (first :: rest) →
          IsLUB {s | s ∈ first :: rest} (ofChildren children none).span) ∧
        (¬Span.OneSource (first :: rest) → (ofChildren children none).span = first)) ∧
      first ≤ (ofChildren children none).span ∧
      ∀ bound, (∀ s ∈ (spanGroups children).flatten, s.source = first.source → s ≤ bound) →
        (ofChildren children none).span ≤ bound := by
  obtain ⟨group, others, hgroups⟩ := List.exists_cons_of_ne_nil (spanGroups_ne_nil h)
  have hne : ∀ group' ∈ group :: others, group' ≠ [] := fun group' hgroup' =>
    ne_nil_of_mem_spanGroups (hgroups ▸ hgroup')
  obtain ⟨first, rest, rfl⟩ := List.exists_cons_of_ne_nil (hne group List.mem_cons_self)
  have hspan : (ofChildren children none).span =
      Span.common (((first :: rest) :: others).map Span.common) := by
    rw [← hgroups]
    exact spanOfChildren_eq
  refine ⟨first, rest, others, hgroups, ?_⟩
  rw [hspan, hgroups]
  refine ⟨isLUB_common_groups (List.cons_ne_nil _ _) hne, fun hfirst => ?_, ?_, ?_⟩
  · rw [common_groups_eq_first hfirst]
    exact ⟨Span.isLUB_common (List.cons_ne_nil _ _), Span.common_eq_of_not_oneSource⟩
  · exact Span.le_common.trans Span.le_common
  · intro bound hbound
    exact common_groups_le (List.forall_mem_cons.mp hne).2 hbound

/-- The place of a branch covers some of its children only, and is the place of none of them. -/
def CoversSome (children : List (String × Children)) : Prop :=
  (ofChildren children none).span ∉ (spanGroups children).flatten ∧
    (∃ s ∈ (spanGroups children).flatten, s ≤ (ofChildren children none).span) ∧
    ∃ s ∈ (spanGroups children).flatten, ¬s ≤ (ofChildren children none).span

instance : Decidable (CoversSome children) :=
  inferInstanceAs (Decidable (_ ∧ _ ∧ _))

end Node

namespace Samples

def sumFile : Source := { name := "sum", text := "1 + 2" }

def macroFile : Source := { name := "macro", text := "3" }

/-- Two operands of one file under a tag, and one of another file under the next. -/
def twoFiles : List (String × Children) :=
  [("expr", .many [.leaf ⟨sumFile, 0, 1⟩, .leaf ⟨sumFile, 4, 5⟩]),
    ("tail", .one (.leaf ⟨macroFile, 0, 1⟩))]

theorem ofChildren_span_twoFiles :
    (Node.ofChildren twoFiles none).span = ⟨sumFile, 0, 5⟩ ∧
      IsLUB {s | s ∈ [⟨sumFile, 0, 1⟩, ⟨sumFile, 4, 5⟩]} (Node.ofChildren twoFiles none).span := by
  obtain ⟨first, rest, others, hgroups, -, htag, -⟩ :=
    @Node.ofChildren_span twoFiles ⟨_, List.mem_cons_self, List.cons_ne_nil _ _⟩
  have htwo : Node.spanGroups twoFiles =
      [[⟨sumFile, 0, 1⟩, ⟨sumFile, 4, 5⟩], [⟨macroFile, 0, 1⟩]] := rfl
  rw [htwo, List.cons.injEq, List.cons.injEq] at hgroups
  obtain ⟨⟨rfl, rfl⟩, rfl⟩ := hgroups
  refine ⟨by decide, (htag (.inl ⟨⟨macroFile, 0, 1⟩, List.mem_singleton_self _, ?_⟩)).1 ?_⟩
  · decide
  · decide

/-- The files of a branch may part between two tags or inside of one. -/
theorem coversSome_twoFiles :
    Node.CoversSome twoFiles ∧
      Node.CoversSome
        [("expr", .many [.leaf ⟨sumFile, 0, 1⟩, .leaf ⟨macroFile, 0, 1⟩]),
          ("tail", .one (.leaf ⟨sumFile, 4, 5⟩))] := by
  decide

end Samples

end Relational
