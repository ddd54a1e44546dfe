import Relational.Proofs.Correspondence
import Relational.Proofs.Lowered

/-!
# What has to relate two lowerings

Two lowerings may differ in their trees, in the states that they start from, or in what they do at
some nodes. What has to relate them, whatever it is that differs, so that they go on side by side:

> Related nodes have the same place and related children under the same tags. Related expressions
> look the same from outside: they have the same place, the same text and the same name. Steps that
> are related can be put one after the other.

`Sides` holds such relations and `Lawful` says what is needed of them. Nothing is said about the
report of the old form of conditions: it is related to itself only where a node has that form.
-/

namespace Relational

/-! ## Relations -/

/-- Whether a node is lowered as the old form of conditions. -/
def Node.isIf (node : Node) : Bool :=
  match node.embedded?, node.exprForm with
  | none, .ok (some form) => form.kind == .if_
  | _, _ => false

/-- What a request asks a resolver for. -/
def Request.ask : Request → Modules → Identity → Except String Expr
  | .standardLibrary name span, modules, identity => modules.standardLibrary identity name span
  | .localFile fromRoot span, modules, identity => modules.localFile identity fromRoot span
  | .externalContent span, modules, identity => modules.externalContent identity span

section Relations

variable (R : Node → Node → Prop)

/-- What stands under two tags, related node by node. -/
inductive Children.Rel : Children → Children → Prop
  | one {n n' : Node} (h : R n n') : Rel (.one n) (.one n')
  | many {ns ns' : List Node} (h : List.Forall₂ R ns ns') : Rel (.many ns) (.many ns')

/-- Nodes of the same kind. -/
inductive ExprForm.Rel : ExprForm → ExprForm → Prop
  | mk {kind : ExprKind} {children children' : Children} {subject subject' : Node}
      (hchildren : Children.Rel R children children') (hsubject : R subject subject') :
      Rel ⟨kind, children, subject⟩ ⟨kind, children', subject'⟩

/-- Patterns of the same kind. -/
inductive PatternForm.Rel : PatternForm → PatternForm → Prop
  | wrapper {n n' : Node} (h : R n n') : Rel (.wrapper n) (.wrapper n')
  | array {n n' : Node} (h : R n n') : Rel (.array n) (.array n')
  | tuple {n n' : Node} (h : R n n') : Rel (.tuple n) (.tuple n')
  | dict {n n' : Node} (h : R n n') : Rel (.dict n) (.dict n')
  | set {n n' : Node} (h : R n n') : Rel (.set n) (.set n')
  | extra {n n' : Node} (h : R n n') : Rel (.extra n) (.extra n')
  | exprs {ns ns' : List Node} (h : List.Forall₂ R ns ns') : Rel (.exprs ns) (.exprs ns')
  | expr : Rel .expr .expr

/-- Steps of a chain of arrows of the same kind. -/
inductive ArrowStep.Rel : ArrowStep → ArrowStep → Prop
  | nest {n n' : Node} (h : R n n') : Rel (.nest n) (.nest n')
  | unnest {n n' : Node} (h : R n n') : Rel (.unnest n) (.unnest n')
  | op {n n' : Node} (h : R n n') : Rel (.op n) (.op n')
  | binding : Rel .binding .binding
  | filter : Rel .filter .filter

end Relations

/-- Entries at the same place with related keys and values. -/
inductive DictEntry.Beside (E : Expr → Expr → Prop) : DictEntry → DictEntry → Prop
  | mk {k k' v v' : Expr} {span : Span} (hkey : E k k') (hvalue : E v v') :
      Beside E (.mk k v span) (.mk k' v' span)

section Equal

theorem Both.eq {α β : Type} {p q : α × β} (h : Both Eq Eq p q) : p = q := Prod.ext h.fst h.snd

theorem optionRel_refl {α : Type} {R : α → α → Prop} (h : ∀ a, R a a) (x : Option α) :
    Option.Rel R x x := by
  cases x with
  | none => exact .none
  | some a => exact .some (h a)

theorem optionRel_eq {α : Type} {x y : Option α} (h : Option.Rel Eq x y) : x = y := by
  cases h with
  | none => rfl
  | some h => rw [h]

theorem SafeStep.Like.eq {step step' : SafeStep} (h : step.Like Eq step') : step = step' := by
  cases h with
  | get => rfl
  | call h => rw [eq_of_forall₂_imp (fun _ _ => id) h]

theorem TextPart.Like.eq {part part' : TextPart} (h : part.Like Eq part') : part = part' := by
  cases h with
  | text s => rfl
  | expr h => rw [h]

theorem Slot.Like.eq {slot slot' : Slot} (h : slot.Like Eq Eq slot') : slot = slot' := by
  cases h with
  | mk hpattern hfallback => rw [optionRel_eq hpattern, optionRel_eq hfallback]

theorem DictEntry.Beside.eq {entry entry' : DictEntry} (h : entry.Beside Eq entry') :
    entry = entry' := by
  cases h with
  | mk hkey hvalue => rw [hkey, hvalue]

end Equal

/-- What the nodes, the results and the steps of two lowerings have to do with each other. -/
structure Sides where
  node : Node → Node → Prop
  expr : Expr → Expr → Prop
  pattern : Pattern → Pattern → Prop
  beside : {α α' : Type} → (α → α' → Prop) → Lowering α → Lowering α' → Prop

namespace Sides

/-- Related nodes have the same place, and related children under the same tags. -/
structure Nodes (C : Sides) : Prop where
  span {n n' : Node} (h : C.node n n') : n.span = n'.span
  embedded? {n n' : Node} (h : C.node n n') : Option.Rel C.expr n.embedded? n'.embedded?
  get? {n n' : Node} (h : C.node n n') (tag : String) :
    Option.Rel (Children.Rel C.node) (n.get? tag) (n'.get? tag)
  toValue {n n' : Node} (h : C.node n n') : n.toValue = n'.toValue

/-- What can be done in a step can be done on both sides. -/
structure Steps (C : Sides) : Prop where
  pure {α α' : Type} {Q : α → α' → Prop} {a : α} {a' : α'} (h : Q a a') :
    C.beside Q (Pure.pure a) (Pure.pure a')
  bind {α α' β β' : Type} {Q : α → α' → Prop} {R : β → β' → Prop} {l : Lowering α}
    {l' : Lowering α'} {f : α → Lowering β} {f' : α' → Lowering β'} (hl : C.beside Q l l')
    (hf : ∀ a a', Q a a' → C.beside R (f a) (f' a')) : C.beside R (l >>= f) (l' >>= f')
  reject {α α' : Type} {Q : α → α' → Prop} (error : CompileError) :
    C.beside Q (Lowering.reject error) (Lowering.reject error)
  /-- A defect may name the node. -/
  defect {α α' : Type} {Q : α → α' → Prop} {n n' : Node} (h : C.node n n') (span : Span)
    (defect : String → TreeDefect) :
    C.beside Q (Lowering.malformed span (defect n.describe))
      (Lowering.malformed span (defect n'.describe))
  exhausted {α α' : Type} {Q : α → α' → Prop} :
    C.beside Q (Lowering.exhausted : Lowering α) (Lowering.exhausted : Lowering α')
  directory : C.beside Eq Lowering.directory Lowering.directory
  request (asked : Request) (span : Span) :
    C.beside C.expr (Lowering.request asked span asked.ask)
      (Lowering.request asked span asked.ask)

/-- What is built alike of related parts is related. -/
structure Congruent (E : Expr → Expr → Prop) (P : Pattern → Pattern → Prop) : Prop where
  literal {v : Value} {span : Span} (h : v.MadeAt span) : E (.literal v span) (.literal v span)
  ident (name : String) (span : Span) : E (.ident name span) (.ident name span)
  dot {lhs lhs' : Expr} (h : E lhs lhs') (attr : String) (span : Span) :
    E (.dot lhs attr span) (.dot lhs' attr span)
  project {lhs lhs' : Expr} (h : E lhs lhs') (inverse : Bool) (attrs : List String)
    (span : Span) : E (.project lhs inverse attrs span) (.project lhs' inverse attrs span)
  call {func func' arg arg' : Expr} (hfunc : E func func') (harg : E arg arg') (span : Span) :
    E (.call func arg span) (.call func' arg' span)
  binary {lhs lhs' rhs rhs' : Expr} (op : BinaryOp) (hlhs : E lhs lhs') (hrhs : E rhs rhs')
    (span : Span) : E (.binary op lhs rhs span) (.binary op lhs' rhs' span)
  unary {operand operand' : Expr} (op : UnaryOp) (h : E operand operand') (span : Span) :
    E (.unary op operand span) (.unary op operand' span)
  package {inner inner' : Expr} (h : E inner inner') (span : Span) :
    E (.package inner span) (.package inner' span)
  compare {args args' : List Expr} (h : List.Forall₂ E args args') (ops : List CompareOp)
    (span : Span) : E (.compare args ops span) (.compare args' ops span)
  ifElse {ifTrue ifTrue' condition condition' ifFalse ifFalse' : Expr}
    (htrue : E ifTrue ifTrue') (hcondition : E condition condition') (hfalse : E ifFalse ifFalse')
    (span : Span) :
    E (.ifElse ifTrue condition ifFalse span) (.ifElse ifTrue' condition' ifFalse' span)
  condControl {control control' : Expr} {arms arms' : List (Pattern × Expr)}
    (hcontrol : E control control') (harms : List.Forall₂ (Both P E) arms arms') (span : Span) :
    E (.condControl control arms span) (.condControl control' arms' span)
  cond {dict dict' : Expr} (h : E dict dict') (span : Span) :
    E (.cond dict span) (.cond dict' span)
  count {operand operand' : Expr} (h : E operand operand') (span : Span) :
    E (.count operand span) (.count operand' span)
  single {operand operand' : Expr} (h : E operand operand') (span : Span) :
    E (.single operand span) (.single operand' span)
  safeTail {fallback fallback' base base' : Expr} {steps steps' : List SafeStep}
    (hfallback : E fallback fallback') (hbase : E base base')
    (hsteps : List.Forall₂ (SafeStep.Like E) steps steps') (span : Span) :
    E (.safeTail fallback base steps span) (.safeTail fallback' base' steps' span)
  relation {rows rows' : List (List Expr)} (names : List String)
    (h : List.Forall₂ (List.Forall₂ E) rows rows') (span : Span) :
    E (.relation names rows span) (.relation names rows' span)
  set {elements elements' : List Expr} (h : List.Forall₂ E elements elements') (span : Span) :
    E (.set elements span) (.set elements' span)
  dict {entries entries' : List DictEntry}
    (h : List.Forall₂ (DictEntry.Beside E) entries entries') (conditional : Bool) (span : Span) :
    E (.dict entries conditional span) (.dict entries' conditional span)
  array {items items' : List (Option Expr)} (h : List.Forall₂ (Option.Rel E) items items')
    (span : Span) : E (.array items span) (.array items' span)
  bytes {items items' : List Expr} (h : List.Forall₂ E items items') (span : Span) :
    E (.bytes items span) (.bytes items' span)
  tuple {attrs attrs' : List (String × Expr)} (h : List.Forall₂ (Both Eq E) attrs attrs')
    (span : Span) : E (.tuple attrs span) (.tuple attrs' span)
  function {param param' : Pattern} {body body' : Expr} (hparam : P param param')
    (hbody : E body body') (span : Span) :
    E (.function param body span) (.function param' body' span)
  recursion {base base' : Expr} (name : String) (h : E base base') (span : Span) :
    E (Lowering.recursion name base span) (Lowering.recursion name base' span)
  paren {inner inner' : Expr} (h : E inner inner') (span : Span) :
    E (.paren inner span) (.paren inner' span)
  xstr {parts parts' : List TextPart} (h : List.Forall₂ (TextPart.Like E) parts parts')
    (span : Span) : E (.xstr parts span) (.xstr parts' span)
  nest {lhs lhs' : Expr} (h : E lhs lhs') (inverse : Bool) (attrs : List String) (name : String)
    (span : Span) :
    E (.nest lhs inverse attrs name span) (.nest lhs' inverse attrs name span)
  exprPattern {e e' : Expr} (h : E e e') : P (.expr e) (.expr e')
  exprsPattern {es es' : List Expr} (h : List.Forall₂ E es es') : P (.exprs es) (.exprs es')
  arrayPattern {slots slots' : List Slot} (h : List.Forall₂ (Slot.Like E P) slots slots') :
    P (.array slots) (.array slots')
  tuplePattern {slots slots' : List (String × Slot)}
    (h : List.Forall₂ (Both Eq (Slot.Like E P)) slots slots') :
    P (.tuple slots) (.tuple slots')
  dictPattern {slots slots' : List (Option Expr × Slot)}
    (h : List.Forall₂ (Both (Option.Rel E) (Slot.Like E P)) slots slots') :
    P (.dict slots) (.dict slots')
  setPattern {elements elements' : List Pattern} (h : List.Forall₂ P elements elements') :
    P (.set elements) (.set elements')
  extraPattern (name : Option String) : P (.extra name) (.extra name)

/-- Related results look the same to the lowering that goes on with them. -/
structure Observed (E : Expr → Expr → Prop) (P : Pattern → Pattern → Prop) : Prop where
  exprSpan {e e' : Expr} (h : E e e') : e.span = e'.span
  exprText {e e' : Expr} (h : E e e') : e.text = e'.text
  impliedName? {e e' : Expr} (h : E e e') : Lowering.impliedName? e = Lowering.impliedName? e'
  patternText {p p' : Pattern} (h : P p p') : p.text = p'.text
  patternName? {p p' : Pattern} (h : P p p') :
    Lowering.patternName? p = Lowering.patternName? p'
  isExtra {p p' : Pattern} (h : P p p') : Lowering.isExtraPattern p = Lowering.isExtraPattern p'

/-- Equality is such a relation. -/
theorem congruent_eq : Congruent Eq Eq where
  literal _ := rfl
  ident _ _ := rfl
  dot h _ _ := by rw [h]
  project h _ _ _ := by rw [h]
  call hfunc harg _ := by rw [hfunc, harg]
  binary _ hlhs hrhs _ := by rw [hlhs, hrhs]
  unary _ h _ := by rw [h]
  package h _ := by rw [h]
  compare h _ _ := by rw [eq_of_forall₂_imp (fun _ _ => id) h]
  ifElse htrue hcondition hfalse _ := by rw [htrue, hcondition, hfalse]
  condControl hcontrol harms _ := by
    rw [hcontrol, eq_of_forall₂_imp (fun _ _ => Both.eq) harms]
  cond h _ := by rw [h]
  count h _ := by rw [h]
  single h _ := by rw [h]
  safeTail hfallback hbase hsteps _ := by
    rw [hfallback, hbase, eq_of_forall₂_imp (fun _ _ => SafeStep.Like.eq) hsteps]
  relation _ h _ := by rw [eq_of_forall₂_imp (fun _ _ => eq_of_forall₂_imp fun _ _ => id) h]
  set h _ := by rw [eq_of_forall₂_imp (fun _ _ => id) h]
  dict h _ _ := by rw [eq_of_forall₂_imp (fun _ _ => DictEntry.Beside.eq) h]
  array h _ := by rw [eq_of_forall₂_imp (fun _ _ => optionRel_eq) h]
  bytes h _ := by rw [eq_of_forall₂_imp (fun _ _ => id) h]
  tuple h _ := by rw [eq_of_forall₂_imp (fun _ _ => Both.eq) h]
  function hparam hbody _ := by rw [hparam, hbody]
  recursion _ h _ := by rw [h]
  paren h _ := by rw [h]
  xstr h _ := by rw [eq_of_forall₂_imp (fun _ _ => TextPart.Like.eq) h]
  nest h _ _ _ _ := by rw [h]
  exprPattern h := by rw [h]
  exprsPattern h := by rw [eq_of_forall₂_imp (fun _ _ => id) h]
  arrayPattern h := by rw [eq_of_forall₂_imp (fun _ _ => Slot.Like.eq) h]
  tuplePattern h := by
    rw [eq_of_forall₂_imp (fun _ _ hslot => Both.eq ⟨hslot.fst, hslot.snd.eq⟩) h]
  dictPattern h := by
    rw [eq_of_forall₂_imp (fun _ _ hslot => Both.eq ⟨optionRel_eq hslot.fst, hslot.snd.eq⟩) h]
  setPattern h := by rw [eq_of_forall₂_imp (fun _ _ => id) h]
  extraPattern _ := rfl

theorem observed_eq : Observed Eq Eq where
  exprSpan h := by rw [h]
  exprText h := by rw [h]
  impliedName? h := by rw [h]
  patternText h := by rw [h]
  patternName? h := by rw [h]
  isExtra h := by rw [h]

/-- Equal nodes have equal children. -/
theorem nodes_eq {C : Sides} (hnode : C.node = Eq) (hexpr : ∀ e, C.expr e e) : C.Nodes := by
  have hrefl : ∀ n : Node, C.node n n := fun n => hnode ▸ rfl
  have heq : ∀ {n n' : Node}, C.node n n' → n = n' := fun h => by rwa [hnode] at h
  refine ⟨fun h => by rw [heq h], fun h => ?_, fun h tag => ?_, fun h => by rw [heq h]⟩
  · rw [heq h]
    exact optionRel_refl hexpr _
  · rw [heq h]
    refine optionRel_refl (fun children => ?_) _
    cases children with
    | one n => exact .one (hrefl n)
    | many ns => exact .many (List.forall₂_same.mpr fun n _ => hrefl n)

/-- All that is needed for two lowerings to go on side by side. -/
structure Lawful (C : Sides) : Prop
    extends Nodes C, Steps C, Congruent C.expr C.pattern, Observed C.expr C.pattern

/-- The parts are lowered side by side. -/
structure Lowerers (C : Sides) (lo lo' : Lowerer) : Prop where
  expr {n n' : Node} (h : C.node n n') : C.beside C.expr (lo.expr n) (lo'.expr n')
  pattern {n n' : Node} (h : C.node n n') : C.beside C.pattern (lo.pattern n) (lo'.pattern n')

end Sides

/-! ## Nodes -/

/-- Searches that find related things at each place find related things. -/
theorem findSome?_rel {α β β' : Type} {R : β → β' → Prop} {f : α → Option β} {f' : α → Option β'}
    {as : List α} (h : ∀ a ∈ as, Option.Rel R (f a) (f' a)) :
    Option.Rel R (as.findSome? f) (as.findSome? f') := by
  induction as with
  | nil => exact .none
  | cons a as ih =>
    obtain ⟨hfirst, hrest⟩ := List.forall_mem_cons.mp h
    rw [List.findSome?_cons, List.findSome?_cons]
    generalize f a = found at hfirst ⊢
    generalize f' a = found' at hfirst ⊢
    cases hfirst with
    | none => exact ih hrest
    | some hfound => exact .some hfound

theorem forall₂_zip_both {α α' β β' : Type} {R : α → α' → Prop} {S : β → β' → Prop} {as : List α}
    {as' : List α'} {bs : List β} {bs' : List β'} (ha : List.Forall₂ R as as')
    (hb : List.Forall₂ S bs bs') : List.Forall₂ (Both R S) (as.zip bs) (as'.zip bs') := by
  induction ha generalizing bs bs' with
  | nil => exact .nil
  | cons ha _ ih =>
    cases hb with
    | nil => exact .nil
    | cons hb hbs => exact .cons ⟨ha, hb⟩ (ih hbs)

theorem forall₂_getLast {α α' : Type} {R : α → α' → Prop} {as : List α} {as' : List α'}
    (h : List.Forall₂ R as as') :
    ∀ (hne : as ≠ []) (hne' : as' ≠ []), R (as.getLast hne) (as'.getLast hne') := by
  induction h with
  | nil => exact fun hne => absurd rfl hne
  | cons hfirst hrest ih =>
    intro _ _
    cases hrest with
    | nil => exact hfirst
    | cons hsecond hrest =>
      rw [List.getLast_cons_cons, List.getLast_cons_cons]
      exact ih _ _

theorem countP_eq_of_forall₂ {α α' : Type} {R : α → α' → Prop} {p : α → Bool} {p' : α' → Bool}
    {as : List α} {as' : List α'} (h : List.Forall₂ R as as')
    (hp : ∀ a a', R a a' → p a = p' a') : as.countP p = as'.countP p' := by
  induction h with
  | nil => rfl
  | cons ha _ ih => rw [List.countP_cons, List.countP_cons, ih, hp _ _ ha]

namespace Sides.Nodes

variable {C : Sides} (N : C.Nodes) {n n' : Node} (hn : C.node n n')

include N hn

theorem text_eq : n.text = n'.text := congrArg Span.text (N.span hn)

theorem has_eq (tag : String) : n.has tag = n'.has tag := by
  have hget := N.get? hn tag
  unfold Node.has
  generalize n.get? tag = found at hget ⊢
  generalize n'.get? tag = found' at hget ⊢
  cases hget <;> rfl

theorem one? (tag : String) : Option.Rel C.node (n.one? tag) (n'.one? tag) := by
  have hget := N.get? hn tag
  unfold Node.one?
  generalize n.get? tag = found at hget ⊢
  generalize n'.get? tag = found' at hget ⊢
  cases hget with
  | none => exact .none
  | some hchildren =>
    cases hchildren with
    | one h => exact .some h
    | many h =>
      cases h with
      | nil => exact .none
      | cons h hrest =>
        cases hrest with
        | nil => exact .some h
        | cons => exact .none

theorem many (tag : String) : List.Forall₂ C.node (n.many tag) (n'.many tag) := by
  have hget := N.get? hn tag
  unfold Node.many
  generalize n.get? tag = found at hget ⊢
  generalize n'.get? tag = found' at hget ⊢
  cases hget with
  | none => exact .nil
  | some hchildren =>
    cases hchildren with
    | one h => exact .cons h .nil
    | many h => exact h

theorem token : C.node n.token n'.token := by
  have hone := N.one? hn ""
  unfold Node.token
  generalize n.one? "" = found at hone ⊢
  generalize n'.one? "" = found' at hone ⊢
  cases hone with
  | none => exact hn
  | some h => exact h

theorem tokenText_eq : n.tokenText = n'.tokenText := N.text_eq (N.token hn)

theorem delimitedSpan_eq : n.delimitedSpan = n'.delimitedSpan := by
  have hopening := N.one? hn "odelim"
  have hclosing := N.one? hn "cdelim"
  unfold Node.delimitedSpan
  rw [N.span hn]
  generalize n.one? "odelim" = opening at hopening ⊢
  generalize n'.one? "odelim" = opening' at hopening ⊢
  generalize n.one? "cdelim" = closing at hclosing ⊢
  generalize n'.one? "cdelim" = closing' at hclosing ⊢
  cases hopening with
  | none => rfl
  | some hopening =>
    cases hclosing with
    | none => rfl
    | some hclosing =>
      dsimp only
      rw [N.span hopening, N.span hclosing]

theorem names_eq : n.names = n'.names := by
  have hidents := N.many hn "IDENT"
  unfold Node.names
  refine List.forall₂_eq_eq_eq ▸ List.rel_map (R := C.node) (P := Eq) ?_ hidents
  exact fun _ _ hident => N.tokenText_eq hident

theorem name_eq : n.name = n'.name := by
  have hident := N.one? hn "IDENT"
  have hstr := N.one? hn "STR"
  unfold Node.name
  rw [N.tokenText_eq hn]
  generalize n.one? "IDENT" = ident at hident ⊢
  generalize n'.one? "IDENT" = ident' at hident ⊢
  generalize n.one? "STR" = s at hstr ⊢
  generalize n'.one? "STR" = s' at hstr ⊢
  cases hident with
  | some hident => exact N.tokenText_eq hident
  | none =>
    cases hstr with
    | none => rfl
    | some hstr => exact congrArg Text.readLiteral (N.tokenText_eq hstr)

/-- Related nodes are expressions of the same kind, or none of them is one. -/
theorem exprForm_cases :
    (n.exprForm = .ok none ∧ n'.exprForm = .ok none) ∨
    (∃ form form', n.exprForm = .ok (some form) ∧ n'.exprForm = .ok (some form') ∧
      ExprForm.Rel C.node form form') ∨
    ∃ tag, n.exprForm = .error (.malformed n.span (.emptySequence tag n.describe)) ∧
      n'.exprForm = .error (.malformed n'.span (.emptySequence tag n'.describe)) := by
  have hfound : Option.Rel (Both Eq (Both Eq (Children.Rel C.node)))
      (ExprKind.table.findSome? fun entry =>
        (n.get? entry.1).map fun children => (entry.1, entry.2, children))
      (ExprKind.table.findSome? fun entry =>
        (n'.get? entry.1).map fun children => (entry.1, entry.2, children)) := by
    refine findSome?_rel fun entry _ => ?_
    have hget := N.get? hn entry.1
    generalize n.get? entry.1 = found at hget ⊢
    generalize n'.get? entry.1 = found' at hget ⊢
    cases hget with
    | none => exact .none
    | some hchildren => exact .some ⟨rfl, rfl, hchildren⟩
  unfold Node.exprForm
  dsimp only
  generalize List.findSome? _ ExprKind.table = found at hfound ⊢
  generalize List.findSome? _ ExprKind.table = found' at hfound ⊢
  cases hfound with
  | none => exact Or.inl ⟨rfl, rfl⟩
  | @some entry entry' hentry =>
    obtain ⟨tag, kind, children⟩ := entry
    obtain ⟨tag', kind', children'⟩ := entry'
    obtain ⟨rfl, rfl, hchildren⟩ : tag = tag' ∧ kind = kind' ∧
      Children.Rel C.node children children' := ⟨hentry.fst, hentry.snd.fst, hentry.snd.snd⟩
    have hnodes : List.Forall₂ C.node children.nodes children'.nodes := by
      cases hchildren with
      | one h => exact .cons h .nil
      | many h => exact h
    dsimp only
    split
    next =>
      generalize children.nodes = nodes at hnodes ⊢
      generalize children'.nodes = nodes' at hnodes ⊢
      cases hnodes with
      | nil => exact Or.inr (Or.inr ⟨tag, rfl, rfl⟩)
      | cons hfirst _ => exact Or.inr (Or.inl ⟨_, _, rfl, rfl, .mk hchildren hfirst⟩)
    next => exact Or.inr (Or.inl ⟨_, _, rfl, rfl, .mk hchildren hn⟩)

/-- Related nodes are patterns of the same kind. -/
theorem patternForm : PatternForm.Rel C.node n.patternForm n'.patternForm := by
  have hform : Option.Rel (PatternForm.Rel C.node)
      (PatternForm.table.findSome? fun entry => (n.one? entry.1).map entry.2)
      (PatternForm.table.findSome? fun entry => (n'.one? entry.1).map entry.2) := by
    refine findSome?_rel fun entry hmem => ?_
    have hentry : ∀ {m m' : Node}, C.node m m' →
        PatternForm.Rel C.node (entry.2 m) (entry.2 m') := by
      intro m m' h
      simp only [PatternForm.table, List.mem_cons, List.not_mem_nil, or_false] at hmem
      rcases hmem with rfl | rfl | rfl | rfl | rfl | rfl
      · exact .wrapper h
      · exact .array h
      · exact .tuple h
      · exact .dict h
      · exact .set h
      · exact .extra h
    have hone := N.one? hn entry.1
    generalize n.one? entry.1 = found at hone ⊢
    generalize n'.one? entry.1 = found' at hone ⊢
    cases hone with
    | none => exact .none
    | some h => exact .some (hentry h)
  have halternatives := N.many hn "exprpattern"
  unfold Node.patternForm
  dsimp only
  generalize List.findSome? _ PatternForm.table = form at hform ⊢
  generalize List.findSome? _ PatternForm.table = form' at hform ⊢
  generalize n.many "exprpattern" = alternatives at halternatives ⊢
  generalize n'.many "exprpattern" = alternatives' at halternatives ⊢
  cases hform with
  | some hform => exact hform
  | none =>
    cases halternatives with
    | nil => exact .expr
    | cons h hrest => exact .exprs (.cons h hrest)

/-- Related nodes are steps of a chain of arrows of the same kind. -/
theorem arrowStep? : Option.Rel (ArrowStep.Rel C.node) n.arrowStep? n'.arrowStep? := by
  have hnest := N.one? hn "nest"
  have hunnest := N.one? hn "unnest"
  have harrow := N.one? hn "ARROW"
  have hfilter := N.one? hn "FILTER"
  unfold Node.arrowStep?
  rw [N.has_eq hn]
  generalize n.one? "nest" = nest at hnest ⊢
  generalize n'.one? "nest" = nest' at hnest ⊢
  generalize n.one? "unnest" = unnest at hunnest ⊢
  generalize n'.one? "unnest" = unnest' at hunnest ⊢
  generalize n.one? "ARROW" = arrow at harrow ⊢
  generalize n'.one? "ARROW" = arrow' at harrow ⊢
  generalize n.one? "FILTER" = filter at hfilter ⊢
  generalize n'.one? "FILTER" = filter' at hfilter ⊢
  cases hnest with
  | some h => exact .some (.nest h)
  | none =>
    cases hunnest with
    | some h => exact .some (.unnest h)
    | none =>
      cases harrow with
      | some h => exact .some (.op h)
      | none =>
        dsimp only
        split
        next => exact .some .binding
        next =>
          cases hfilter with
          | some => exact .some .filter
          | none => exact .none

end Sides.Nodes

end Relational
