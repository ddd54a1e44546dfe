import Relational.Proofs.FreeNames
import Relational.Proofs.Lowered

/-!
# Loose names in what is lowered

A name is loose in an expression when a function inside one of its literals lacks it. Lowering makes
no literal of a function but the two of recursion, which lack nothing.

> `lower_tight`: the expression of a tree has no loose names but those that the tree and the
> resolver bring along.
-/

namespace Relational

namespace Names

@[simp]
theorem loose_none : none.loose = [] := rfl

@[simp]
theorem loose_append (m n : Names) : (m ++ n).loose = m.loose ++ n.loose := rfl

@[simp]
theorem loose_without (n : Names) (bound : List String) : (n.without bound).loose = n.loose := rfl

end Names

/-- Nothing in a literal of the expression lacks a name. -/
def Expr.Tight (e : Expr) : Prop := e.names.loose = []

/-- Nothing in a literal of the pattern lacks a name. -/
def Pattern.Tight (p : Pattern) : Prop := p.names.loose = []

namespace Expr

theorem loose_namesAll {es : List Expr} (h : ∀ e ∈ es, e.Tight) : (namesAll es).loose = [] := by
  induction es with
  | nil => rfl
  | cons e es ih => simp_all [namesAll, Tight]

theorem loose_namesRows {rows : List (List Expr)} (h : ∀ row ∈ rows, ∀ e ∈ row, e.Tight) :
    (namesRows rows).loose = [] := by
  induction rows with
  | nil => rfl
  | cons row rows ih =>
    rw [List.forall_mem_cons] at h
    simp [namesRows, loose_namesAll h.1, ih h.2]

theorem loose_namesItems {items : List (Option Expr)} (h : ∀ e, some e ∈ items → e.Tight) :
    (namesItems items).loose = [] := by
  induction items with
  | nil => rfl
  | cons item items ih => cases item <;> simp_all [namesItems, Tight]

theorem loose_namesAttrs {attrs : List (String × Expr)} (h : ∀ attr ∈ attrs, attr.2.Tight) :
    (namesAttrs attrs).loose = [] := by
  induction attrs with
  | nil => rfl
  | cons attr attrs ih =>
    rw [List.forall_mem_cons] at h
    have hattr : attr.2.names.loose = [] := h.1
    simp [namesAttrs, hattr, ih h.2]

theorem loose_namesEntries {entries : List DictEntry}
    (h : ∀ entry ∈ entries, entry.key.Tight ∧ entry.value.Tight) :
    (namesEntries entries).loose = [] := by
  induction entries with
  | nil => rfl
  | cons entry entries ih =>
    rw [List.forall_mem_cons] at h
    cases entry with | mk key value span =>
    have hkey : key.names.loose = [] := h.1.1
    have hvalue : value.names.loose = [] := h.1.2
    simp [namesEntries, hkey, hvalue, ih h.2]

theorem loose_namesCases {entries : List DictEntry} (h : (namesEntries entries).loose = []) :
    (namesCases entries).loose = [] := by
  induction entries with
  | nil => rfl
  | cons entry entries ih =>
    cases entry with | mk key value span =>
    simp only [namesEntries, Names.loose_append, List.append_eq_nil_iff] at h
    rw [namesCases]
    split <;> simp [h, ih h.2]

theorem loose_namesArms {arms : List (Pattern × Expr)}
    (h : ∀ arm ∈ arms, arm.1.Tight ∧ arm.2.Tight) : (namesArms arms).loose = [] := by
  induction arms with
  | nil => rfl
  | cons arm arms ih =>
    rw [List.forall_mem_cons] at h
    have hpattern : arm.1.names.loose = [] := h.1.1
    have hbody : arm.2.names.loose = [] := h.1.2
    simp [namesArms, hpattern, hbody, ih h.2]

theorem loose_namesSteps {steps : List SafeStep}
    (h : ∀ step ∈ steps, ∀ e ∈ step.arguments, e.Tight) : (namesSteps steps).loose = [] := by
  induction steps with
  | nil => rfl
  | cons step steps ih =>
    rw [List.forall_mem_cons] at h
    rcases step with ⟨safe, _ | ⟨args, span⟩, attr⟩
    · exact ih h.2
    · have hargs : (namesAll args).loose = [] := loose_namesAll h.1
      simp [namesSteps, hargs, ih h.2]

theorem loose_namesParts {parts : List TextPart}
    (h : ∀ e format, .expr e format ∈ parts → e.Tight) : (namesParts parts).loose = [] := by
  induction parts with
  | nil => rfl
  | cons part parts ih =>
    have hrest := ih fun e format hmem => h e format (List.mem_cons_of_mem _ hmem)
    cases part with
    | text => exact hrest
    | expr e format =>
      have he : e.names.loose = [] := h e format (List.mem_cons_self ..)
      simp [namesParts, he, hrest]

end Expr

namespace Pattern

theorem loose_slot {slot : Slot} (h : slot.Has Expr.Tight Tight) :
    slot.names.loose = [] := by
  rcases slot with ⟨_ | pattern, _ | fallback⟩
  · rfl
  · exact h.2 fallback rfl
  · exact h.1 pattern rfl
  · have hpattern : pattern.names.loose = [] := h.1 pattern rfl
    have hfallback : fallback.names.loose = [] := h.2 fallback rfl
    simp [Slot.names, hpattern, hfallback]

theorem loose_namesSlots {slots : List Slot}
    (h : ∀ slot ∈ slots, slot.Has Expr.Tight Tight) :
    (namesSlots slots).loose = [] := by
  induction slots with
  | nil => rfl
  | cons slot slots ih =>
    rw [List.forall_mem_cons] at h
    simp [namesSlots, loose_slot h.1, ih h.2]

theorem loose_namesAttrs {slots : List (String × Slot)}
    (h : ∀ slot ∈ slots, slot.2.Has Expr.Tight Tight) :
    (namesAttrs slots).loose = [] := by
  induction slots with
  | nil => rfl
  | cons slot slots ih =>
    rw [List.forall_mem_cons] at h
    simp [namesAttrs, loose_slot h.1, ih h.2]

theorem loose_namesEntries {slots : List (Option Expr × Slot)}
    (h : ∀ slot ∈ slots, slot.2.Has Expr.Tight Tight)
    (hkeys : ∀ slot ∈ slots, ∀ key, slot.1 = some key → key.Tight) :
    (namesEntries slots).loose = [] := by
  induction slots with
  | nil => rfl
  | cons slot slots ih =>
    rw [List.forall_mem_cons] at h hkeys
    rcases slot with ⟨_ | key, slot⟩
    · simp [namesEntries, loose_slot h.1, ih h.2 hkeys.2]
    · have hkey : key.names.loose = [] := hkeys.1 key rfl
      simp [namesEntries, loose_slot h.1, hkey, ih h.2 hkeys.2]

theorem loose_namesAll {patterns : List Pattern} (h : ∀ p ∈ patterns, p.Tight) :
    (namesAll patterns).loose = [] := by
  induction patterns with
  | nil => rfl
  | cons p patterns ih => simp_all [namesAll, Tight]

end Pattern

theorem Value.hereditary_closed : Value.Hereditary Value.Closed where
  bool _ := rfl
  number _ := rfl
  string _ := rfl
  bytes _ := rfl
  array := closed_array
  tuple := closed_tuple
  set := closed_set
  dict := closed_dict

/-- Lowering adds no loose names: it makes no literal of a function but those of recursion. -/
theorem Lowering.rules_tight : Rules Expr.Tight Pattern.Tight fun _ => True where
  literal _ hv := hv.isData _ Value.hereditary_closed
  ident _ := rfl
  dot _ hbase := hbase
  project _ hbase := hbase
  call _ hfunc harg := by simp_all [Expr.Tight, Expr.names]
  binary _ hlhs hrhs := by
    unfold Expr.Tight at *
    rw [Expr.names]
    split <;> simp [hlhs, hrhs]
  unary _ hoperand := hoperand
  package _ hinner := hinner
  compare _ hargs _ := Expr.loose_namesAll hargs
  ifElse _ hifTrue hcondition hifFalse := by simp_all [Expr.Tight, Expr.names]
  condControl _ hcontrol harms := by
    unfold Expr.Tight at hcontrol ⊢
    simp [Expr.names, hcontrol, Expr.loose_namesArms harms]
  cond _ hconditions hform := by
    rcases hform with ⟨span, rfl⟩ | ⟨entries, span, -, rfl⟩
    · exact hconditions
    · exact Expr.loose_namesCases hconditions
  count _ hoperand := hoperand
  single _ hoperand := hoperand
  safeTail _ hfallback hbase hsteps _ := by
    unfold Expr.Tight at hfallback hbase ⊢
    have hargs := Expr.loose_namesSteps fun step hstep => (hsteps step hstep).1
    simp [Expr.names, hfallback, hbase, hargs]
  relation _ _ hrows := Expr.loose_namesRows fun row hrow => (hrows row hrow).2
  set _ helements := Expr.loose_namesAll helements
  dict _ hentries := Expr.loose_namesEntries fun entry hentry =>
    ⟨(hentries entry hentry).1, (hentries entry hentry).2.1⟩
  array _ hitems := Expr.loose_namesItems hitems
  bytes _ hitems := Expr.loose_namesAll hitems
  tuple _ hattrs := Expr.loose_namesAttrs hattrs
  function _ hparam hbody := by
    unfold Expr.Tight Pattern.Tight at *
    simp [Expr.names, hparam, hbody]
  recursion _ hbase := by
    unfold Expr.Tight at hbase ⊢
    simp [recursion, Expr.names, Value.loose, Native.loose, hbase]
  paren _ hinner := hinner
  xstr _ hparts := Expr.loose_namesParts hparts
  nest _ hlhs := hlhs
  exprPattern {e} he := by
    cases hident : e.ident? with
    | none => rw [Pattern.Tight, Pattern.names_expr hident]; exact he
    | some name => cases e <;> first | rfl | cases hident
  exprsPattern hes := Expr.loose_namesAll hes
  arrayPattern hslots _ := Pattern.loose_namesSlots hslots
  tuplePattern hslots _ := Pattern.loose_namesAttrs hslots
  dictPattern hslots _ :=
    Pattern.loose_namesEntries (fun slot hslot => (hslots slot hslot).1)
      fun slot hslot => (hslots slot hslot).2.1
  setPattern helements _ := Pattern.loose_namesAll helements
  extraPattern := rfl
  exprSpan _ := True.intro
  mergeOr _ _ := True.intro
  extendLeft _ := True.intro

/-- An expression that lowering returns has no loose names but those that the tree and the resolver
bring along. -/
theorem Lowering.lower_tight {node : Node} {setting : Setting} (hnode : node.Embeds Expr.Tight)
    (hmodules : Answers Expr.Tight setting.modules) : Ensures setting node.lower Expr.Tight :=
  lower_has rules_tight hnode hmodules

end Relational
