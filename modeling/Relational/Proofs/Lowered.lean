import Relational.Lowering.Expr
import Relational.Proofs.Hereditary
import Relational.Proofs.Parts

/-!
# What lowering makes

Lowering makes the expression of a node from the expressions and patterns of its parts. `Rules` says
once what it can make: one rule for each form, with what lowering has checked by then and where the
form is placed. Properties of expressions, of patterns and of places that keep to the rules hold of
all that lowering returns.

> `exprStep_meets` and `patternStep_meets`: one level of lowering keeps to the rules, places its
> errors, fails with the sink only and runs out of fuel only with its parts, if the lowering of the
> parts does. It asks for the expression or the pattern of the node itself in two cases only: for
> the pattern of a function, and for an expression in place of a pattern.

> `lower_keeps`: if the properties keep to the rules, and hold of the expressions that stand in a
> tree and of those that the resolver answers with, they hold of what the tree is lowered to.

The statements are about families of steps, one for each index, that all end in the same way. With
amounts of fuel for the indices they say that the result does not depend on the fuel.
-/

namespace Relational

/-! ## The nodes of a tree -/

namespace Node

mutual

/-- Every expression that stands in the tree has the property. -/
def Embeds (E : Expr → Prop) : Node → Prop
  | .branch children _ => EmbedsTags E children
  | .leaf _ => True
  | .embedded expr _ => E expr

def EmbedsTags (E : Expr → Prop) : List (String × Children) → Prop
  | [] => True
  | (_, .one node) :: rest => node.Embeds E ∧ EmbedsTags E rest
  | (_, .many nodes) :: rest => EmbedsAll E nodes ∧ EmbedsTags E rest

def EmbedsAll (E : Expr → Prop) : List Node → Prop
  | [] => True
  | node :: rest => node.Embeds E ∧ EmbedsAll E rest

end

section Embeds

variable {E : Expr → Prop} {node : Node} {tag : String}

theorem embedsAll_iff {nodes : List Node} : EmbedsAll E nodes ↔ ∀ n ∈ nodes, n.Embeds E := by
  induction nodes with
  | nil => simp [EmbedsAll]
  | cons n nodes ih => simp [EmbedsAll, ih]

theorem embedsTags_iff {children : List (String × Children)} :
    EmbedsTags E children ↔ ∀ c ∈ children, ∀ n ∈ c.2.nodes, n.Embeds E := by
  induction children with
  | nil => simp [EmbedsTags]
  | cons c children ih =>
    rcases c with ⟨tag, n | nodes⟩
    · simp [EmbedsTags, Children.nodes, ih]
    · simp [EmbedsTags, Children.nodes, ih, embedsAll_iff]

theorem Embeds.get? (h : node.Embeds E) {children : Children}
    (hget : node.get? tag = some children) : ∀ n ∈ children.nodes, n.Embeds E := by
  cases node with
  | branch tagged span =>
    obtain ⟨c, hfind, rfl⟩ := Option.map_eq_some_iff.mp hget
    exact embedsTags_iff.mp h c (List.mem_of_find?_eq_some hfind)
  | leaf => cases hget
  | embedded => cases hget

theorem Embeds.embedded? (h : node.Embeds E) {e : Expr} (he : node.embedded? = some e) : E e := by
  cases node with
  | branch => cases he
  | leaf => cases he
  | embedded => exact Option.some.inj he ▸ h

end Embeds

/-- Whether a node is lowered as a function. -/
def isFunction (node : Node) : Bool :=
  match node.exprForm with
  | .ok (some form) => form.kind == .function
  | _ => false

end Node

/-- The nodes that describe a pattern. -/
def PatternForm.nodes : PatternForm → List Node
  | .wrapper node | .array node | .tuple node | .dict node | .set node | .extra node => [node]
  | .exprs alternatives => alternatives
  | .expr => []

/-- The nodes that describe a step of a chain of arrows. -/
def ArrowStep.nodes : ArrowStep → List Node
  | .nest node | .unnest node | .op node => [node]
  | .binding | .filter => []

namespace Node

/-- A node over nodes of a domain: its children are in the domain, and its place and the expression
that it may stand for have the properties. -/
structure Above (D : Node → Prop) (E : Expr → Prop) (S : Span → Prop) (node : Node) : Prop where
  span : S node.span
  embedded? {e : Expr} (h : node.embedded? = some e) : E e
  get? {tag : String} {children : Children} (h : node.get? tag = some children) :
    ∀ n ∈ children.nodes, D n

namespace Above

variable {D : Node → Prop} {E : Expr → Prop} {S : Span → Prop} {node : Node} {tag : String}

theorem many (h : node.Above D E S) : ∀ n ∈ node.many tag, D n := by
  unfold Node.many
  split
  next children hget => exact h.get? hget
  next => exact List.forall_mem_nil _

theorem one? (h : node.Above D E S) {n : Node} (hone : node.one? tag = some n) : D n := by
  unfold Node.one? at hone
  split at hone
  next child hget =>
    obtain rfl := Option.some.inj hone
    exact h.get? hget _ (List.mem_singleton_self _)
  next child hget =>
    obtain rfl := Option.some.inj hone
    exact h.get? hget _ (List.mem_singleton_self _)
  next => cases hone

theorem token_span (h : node.Above D E S) (hD : ∀ n, D n → n.Above D E S) :
    S node.token.span := by
  unfold Node.token
  cases hone : node.one? "" with
  | none => exact h.span
  | some n => exact (hD n (h.one? hone)).span

/-- What stands under the tag of a recognised expression is in the domain. -/
theorem exprForm (h : node.Above D E S) {form : ExprForm}
    (hform : node.exprForm = .ok (some form)) :
    (form.kind.hasSubject = true → D form.subject) ∧ ∀ n ∈ form.children.nodes, D n := by
  unfold Node.exprForm at hform
  dsimp only at hform
  split at hform
  next => cases hform
  next tag kind children hsome =>
    obtain ⟨entry, -, hentry⟩ := List.exists_of_findSome?_eq_some hsome
    obtain ⟨children', hget, heq⟩ := Option.map_eq_some_iff.mp hentry
    obtain ⟨rfl, rfl, rfl⟩ : entry.1 = tag ∧ entry.2 = kind ∧ children' = children := by
      simpa using heq
    have hchildren := h.get? hget
    split at hform
    next =>
      split at hform
      next => cases hform
      next subject rest hnodes =>
        obtain rfl := Option.some.inj (Except.ok.inj hform)
        exact ⟨fun _ => hchildren subject (hnodes ▸ List.mem_cons_self ..), hchildren⟩
    next hnone =>
      obtain rfl := Option.some.inj (Except.ok.inj hform)
      exact ⟨fun hsubject => absurd hsubject hnone, hchildren⟩

/-- A node that is no recognised expression is refused at its own place. -/
theorem exprForm_error (h : node.Above D E S) {error : CompileError}
    (herror : node.exprForm = .error error) : ∃ span, error.span? = some span ∧ S span := by
  unfold Node.exprForm at herror
  dsimp only at herror
  split at herror
  next => cases herror
  next =>
    split at herror
    next =>
      split at herror
      next =>
        obtain rfl := Except.error.inj herror
        exact ⟨node.span, rfl, h.span⟩
      next => cases herror
    next => cases herror

/-- The nodes that describe a pattern are in the domain. -/
theorem patternForm (h : node.Above D E S) : ∀ n ∈ node.patternForm.nodes, D n := by
  have halternatives : ∀ n ∈ node.many "exprpattern", D n := h.many
  unfold Node.patternForm
  dsimp only
  split
  next form _ hfound =>
    obtain ⟨entry, hmem, hentry⟩ := List.exists_of_findSome?_eq_some hfound
    obtain ⟨n, hone, rfl⟩ := Option.map_eq_some_iff.mp hentry
    have hnodes : (entry.2 n).nodes = [n] := by
      simp only [PatternForm.table, List.mem_cons, List.not_mem_nil, or_false] at hmem
      rcases hmem with rfl | rfl | rfl | rfl | rfl | rfl <;> rfl
    rw [hnodes]
    exact List.forall_mem_singleton.mpr (h.one? hone)
  next => exact List.forall_mem_nil _
  next => exact halternatives

theorem arrowStep (h : node.Above D E S) {step : ArrowStep} (hstep : node.arrowStep? = some step) :
    ∀ n ∈ step.nodes, D n := by
  unfold Node.arrowStep? at hstep
  split at hstep
  next n hone =>
    obtain rfl := Option.some.inj hstep
    exact List.forall_mem_singleton.mpr (h.one? hone)
  next n _ hone =>
    obtain rfl := Option.some.inj hstep
    exact List.forall_mem_singleton.mpr (h.one? hone)
  next n _ _ hone =>
    obtain rfl := Option.some.inj hstep
    exact List.forall_mem_singleton.mpr (h.one? hone)
  next =>
    split at hstep
    next =>
      obtain rfl := Option.some.inj hstep
      exact List.forall_mem_nil _
    next =>
      split at hstep
      next =>
        obtain rfl := Option.some.inj hstep
        exact List.forall_mem_nil _
      next => cases hstep

end Above

/-- A property that strings have, and with their parts arrays and tuples. -/
structure ClosedInTrees (V : Value → Prop) : Prop where
  string (s : String) : V (.string s)
  array {items : List (Option Value)} (h : ∀ v, some v ∈ items → V v) : V (.array items)
  tuple {attrs : List (String × Value)} (h : ∀ attr ∈ attrs, V attr.2) : V (.tuple attrs)

mutual

/-- A tree as a value is made of strings, arrays and tuples. -/
theorem toValue_has {V : Value → Prop} (hV : ClosedInTrees V) : ∀ node : Node, V node.toValue
  | .branch children _ => by
    have hall : ∀ attr ∈ OrderedMap.ofList (tagValues children), True ∧ V attr.2 :=
      OrderedMap.forall_mem_insertAll (P := fun _ => True) (Q := V) _ (List.forall_mem_nil _)
        fun attr hattr => ⟨True.intro, tagValues_has hV children attr hattr⟩
    rw [toValue]
    exact hV.tuple fun attr hattr => (hall attr hattr).2
  | .leaf _ => hV.string _
  | .embedded _ _ => hV.string _

theorem tagValues_has {V : Value → Prop} (hV : ClosedInTrees V) :
    ∀ children : List (String × Children), ∀ e ∈ tagValues children, V e.2
  | [] => List.forall_mem_nil _
  | (_, .one node) :: rest => by
    rw [tagValues]
    exact List.forall_mem_cons.mpr ⟨toValue_has hV node, tagValues_has hV rest⟩
  | (_, .many nodes) :: rest => by
    rw [tagValues]
    refine List.forall_mem_cons.mpr ⟨hV.array fun v hv => ?_, tagValues_has hV rest⟩
    obtain ⟨u, hu, heq⟩ := List.mem_map.mp hv
    exact Option.some.inj heq ▸ valuesOf_has hV nodes u hu

theorem valuesOf_has {V : Value → Prop} (hV : ClosedInTrees V) :
    ∀ nodes : List Node, ∀ v ∈ valuesOf nodes, V v
  | [] => List.forall_mem_nil _
  | node :: rest => by
    rw [valuesOf]
    exact List.forall_mem_cons.mpr ⟨toValue_has hV node, valuesOf_has hV rest⟩

end

end Node

/-- The values that lowering makes literals of at a place. Numbers and characters are read off the
text of the place. -/
inductive Value.MadeAt (span : Span) : Value → Prop
  | bool (b : Bool) : MadeAt span (.bool b)
  | string (s : String) : MadeAt span (.string s)
  | number {x : Number} (h : Number.read span.text = .ok x) : MadeAt span (.number x)
  | char {c : Char} {rest : List Char}
      (h : Text.unescapeFrom 0 (Lowering.afterMark span.text.toList) = c :: rest) :
      MadeAt span (.number (Number.ofNat c.toNat))
  | bytes : MadeAt span (.bytes [])
  | array : MadeAt span (.array [])
  | tuple : MadeAt span (.tuple [])
  | set : MadeAt span .nothing
  | dict : MadeAt span (.dict [])
  | tree {v : Value} (node : Node) (h : v = node.toValue) : MadeAt span v

/-- Lowering makes no literal of a function but those of recursion. -/
theorem Value.MadeAt.isData {span : Span} {v : Value} (h : v.MadeAt span) : v.IsData := by
  intro V hV
  cases h with
  | bool => exact hV.bool _
  | string => exact hV.string _
  | number => exact hV.number _
  | char => exact hV.number _
  | bytes => exact hV.bytes _
  | array => exact hV.array.mpr fun _ hmem => absurd hmem List.not_mem_nil
  | tuple => exact hV.tuple.mpr (List.forall_mem_nil _)
  | set => exact hV.nothing
  | dict => exact hV.dict.mpr (List.forall_mem_nil _)
  | tree node h =>
    rw [h]
    exact node.toValue_has ⟨hV.string, hV.array.mpr, hV.tuple.mpr⟩

/-! ## Steps that meet a condition -/

/-- How a step of lowering may end: with a result that has the property, with an error at a place
that has the other one, because the sink fails, or, if that is allowed, out of fuel. -/
def Ending.Meets {α : Type} (sink : Sink) (S : Span → Prop) (X : Prop) (A : α → Prop) :
    Ending α → Prop
  | .done a => A a
  | .rejected error => ∃ span, error.span? = some span ∧ S span
  | .sinkFailed reason => sink = .failing reason
  | .exhausted => X

namespace Lowering

/-- The steps of a family all end in the same way, which is one that is allowed. -/
def Meets {I α : Type} (setting : Setting) (S : Span → Prop) (X : Prop) (l : I → Lowering α)
    (A : α → Prop) : Prop :=
  ∀ state, ∃ ending state', (∀ i, l i setting state = (ending, state')) ∧
    ending.Meets setting.sink S X A

/-- The results of a step that meets a condition have the property. -/
theorem Meets.ensures {I α : Type} {setting : Setting} {S : Span → Prop} {X : Prop}
    {l : I → Lowering α} {A : α → Prop} (h : Meets setting S X l A) (i : I) :
    Ensures setting (l i) A := by
  intro state state' a ha
  obtain ⟨ending, state'', hl, hending⟩ := h state
  rw [hl i] at ha
  obtain ⟨rfl, -⟩ := Prod.mk.inj ha
  exact hending

variable {I α β : Type} {setting : Setting} {S : Span → Prop} {X : Prop} {A : α → Prop}
  {B : β → Prop}

namespace Meets

theorem pure {a : α} (h : A a) : Meets setting S X (fun _ : I => Pure.pure a) A :=
  fun state => ⟨.done a, state, fun _ => rfl, h⟩

theorem bind {l : I → Lowering α} {f : I → α → Lowering β} (hl : Meets setting S X l A)
    (hf : ∀ a, A a → Meets setting S X (fun i => f i a) B) :
    Meets setting S X (fun i => l i >>= f i) B := by
  intro state
  obtain ⟨ending, state', heq, hending⟩ := hl state
  cases ending with
  | done a =>
    obtain ⟨ending, state'', heq', hending⟩ := hf a hending state'
    refine ⟨ending, state'', fun i => (bind_apply (l i) (f i) setting state).trans ?_, hending⟩
    rw [heq i]
    exact heq' i
  -- the other endings are those of the first step, and the second one is not reached
  | rejected error =>
    refine ⟨.rejected error, state', fun i => ?_, hending⟩
    exact (bind_apply (l i) (f i) setting state).trans (by rw [heq i])
  | sinkFailed reason =>
    refine ⟨.sinkFailed reason, state', fun i => ?_, hending⟩
    exact (bind_apply (l i) (f i) setting state).trans (by rw [heq i])
  | exhausted =>
    refine ⟨.exhausted, state', fun i => ?_, hending⟩
    exact (bind_apply (l i) (f i) setting state).trans (by rw [heq i])

theorem mono {l : I → Lowering α} {A' : α → Prop} (h : Meets setting S X l A)
    (hA : ∀ a, A a → A' a) : Meets setting S X l A' := by
  intro state
  obtain ⟨ending, state', heq, hending⟩ := h state
  refine ⟨ending, state', heq, ?_⟩
  cases ending with
  | done a => exact hA a hending
  | rejected | sinkFailed | exhausted => exact hending

theorem reject {error : CompileError} (h : ∃ span, error.span? = some span ∧ S span) :
    Meets setting S X (fun _ : I => Lowering.reject error) A :=
  fun state => ⟨.rejected error, state, fun _ => rfl, h⟩

theorem malformed {span : Span} {defect : TreeDefect} (h : S span) :
    Meets setting S X (fun _ : I => Lowering.malformed span defect) A :=
  reject ⟨span, rfl, h⟩

theorem ite {p : Prop} [Decidable p] {l m : I → Lowering α} (hl : p → Meets setting S X l A)
    (hm : ¬p → Meets setting S X m A) :
    Meets setting S X (fun i => if p then l i else m i) A := by
  split
  next h => exact hl h
  next h => exact hm h

/-- A row of steps keeps what each step does, and leaves nothing out. -/
theorem traverse {f : I → α → Lowering β} {as : List α}
    (h : ∀ a ∈ as, Meets setting S X (fun i => f i a) B) :
    Meets setting S X (fun i => Lowering.traverse (f i) as) fun bs =>
      bs.length = as.length ∧ ∀ b ∈ bs, B b := by
  induction as with
  | nil => exact Meets.pure ⟨rfl, List.forall_mem_nil _⟩
  | cons a as ih =>
    rw [List.forall_mem_cons] at h
    refine (h.1).bind fun b hb => (ih h.2).bind fun bs hbs => Meets.pure ⟨?_, ?_⟩
    · rw [List.length_cons, List.length_cons, hbs.1]
    · exact List.forall_mem_cons.mpr ⟨hb, hbs.2⟩

theorem foldl {f : I → β → α → Lowering β} {as : List α}
    (h : ∀ a ∈ as, ∀ b, B b → Meets setting S X (fun i => f i b a) B) {b : β} (hb : B b) :
    Meets setting S X (fun i => Lowering.foldl (f i) b as) B := by
  induction as generalizing b with
  | nil => exact Meets.pure hb
  | cons a as ih =>
    rw [List.forall_mem_cons] at h
    exact (h.1 b hb).bind fun b' hb' => ih h.2 hb'

end Meets

theorem warnDeprecated_meets :
    Meets setting S X (fun _ : I => warnDeprecated) fun _ => True := by
  intro state
  refine ⟨_, _, fun _ => rfl, ?_⟩
  split
  next => exact True.intro
  next reason diagnostics hwarn => exact Diagnostics.sink_eq_failing hwarn

/-! ## The rules -/

/-- The arguments and the places of a step have the properties. -/
def StepHas (E : Expr → Prop) (S : Span → Prop) (step : SafeStep) : Prop :=
  (∀ a ∈ step.arguments, E a) ∧ ∀ span ∈ step.spans, S span

/-- What lowering makes of parts with the properties has them again. -/
structure Rules (E : Expr → Prop) (P : Pattern → Prop) (S : Span → Prop) : Prop where
  literal {v : Value} {span : Span} (hspan : S span) (hv : v.MadeAt span) : E (.literal v span)
  ident {name : String} {span : Span} (hspan : S span) : E (.ident name span)
  dot {base : Expr} {attr : String} {span : Span} (hspan : S span) (hbase : E base) :
    E (.dot base attr span)
  project {base : Expr} {inverse : Bool} {attrs : List String} {span : Span} (hspan : S span)
    (hbase : E base) : E (.project base inverse attrs span)
  call {func arg : Expr} {span : Span} (hspan : S span) (hfunc : E func) (harg : E arg) :
    E (.call func arg span)
  binary {op : BinaryOp} {lhs rhs : Expr} {span : Span} (hspan : S span) (hlhs : E lhs)
    (hrhs : E rhs) : E (.binary op lhs rhs span)
  unary {op : UnaryOp} {operand : Expr} {span : Span} (hspan : S span) (hoperand : E operand) :
    E (.unary op operand span)
  package {inner : Expr} {span : Span} (hspan : S span) (hinner : E inner) :
    E (.package inner span)
  compare {args : List Expr} {ops : List CompareOp} {span : Span} (hspan : S span)
    (hargs : ∀ a ∈ args, E a) (hlength : args.length = ops.length + 1) : E (.compare args ops span)
  ifElse {ifTrue condition ifFalse : Expr} {span : Span} (hspan : S span) (hifTrue : E ifTrue)
    (hcondition : E condition) (hifFalse : E ifFalse) : E (.ifElse ifTrue condition ifFalse span)
  condControl {control : Expr} {arms : List (Pattern × Expr)} {span : Span} (hspan : S span)
    (hcontrol : E control) (harms : ∀ arm ∈ arms, P arm.1 ∧ E arm.2) :
    E (.condControl control arms span)
  cond {conditions : Expr} {span : Span} (hspan : S span) (hconditions : E conditions)
    (hform : conditions.IsConditions) : E (.cond conditions span)
  count {operand : Expr} {span : Span} (hspan : S span) (hoperand : E operand) :
    E (.count operand span)
  single {operand : Expr} {span : Span} (hspan : S span) (hoperand : E operand) :
    E (.single operand span)
  safeTail {fallback base : Expr} {first : SafeStep} {rest : List SafeStep} {span : Span}
    (hspan : S span) (hfallback : E fallback) (hbase : E base)
    (hsteps : ∀ step ∈ first :: rest, StepHas E S step) (hfirst : first.safe = true) :
    E (.safeTail fallback base (first :: rest) span)
  relation {names : List String} {rows : List (List Expr)} {span : Span} (hspan : S span)
    (hnames : names.Nodup) (hrows : ∀ row ∈ rows, row.length = names.length ∧ ∀ a ∈ row, E a) :
    E (.relation names rows span)
  set {elements : List Expr} {span : Span} (hspan : S span) (helements : ∀ a ∈ elements, E a) :
    E (.set elements span)
  dict {entries : List DictEntry} {conditional : Bool} {span : Span} (hspan : S span)
    (hentries : ∀ entry ∈ entries, E entry.key ∧ E entry.value ∧ S entry.span) :
    E (.dict entries conditional span)
  array {items : List (Option Expr)} {span : Span} (hspan : S span)
    (hitems : ∀ a, some a ∈ items → E a) : E (.array items span)
  bytes {items : List Expr} {span : Span} (hspan : S span) (hitems : ∀ a ∈ items, E a) :
    E (.bytes items span)
  tuple {attrs : List (String × Expr)} {span : Span} (hspan : S span)
    (hattrs : ∀ attr ∈ attrs, E attr.2) : E (.tuple attrs span)
  function {param : Pattern} {body : Expr} {span : Span} (hspan : S span) (hparam : P param)
    (hbody : E body) : E (.function param body span)
  recursion {name : String} {base : Expr} {span : Span} (hspan : S span) (hbase : E base) :
    E (recursion name base span)
  paren {inner : Expr} {span : Span} (hspan : S span) (hinner : E inner) : E (.paren inner span)
  xstr {parts : List TextPart} {span : Span} (hspan : S span)
    (hparts : ∀ e format, .expr e format ∈ parts → E e) : E (.xstr parts span)
  nest {lhs : Expr} {inverse : Bool} {attrs : List String} {name : String} {span : Span}
    (hspan : S span) (hlhs : E lhs) : E (.nest lhs inverse attrs name span)
  exprPattern {e : Expr} (he : E e) : P (.expr e)
  exprsPattern {es : List Expr} (hes : ∀ e ∈ es, E e) : P (.exprs es)
  arrayPattern {slots : List Slot} (hslots : ∀ slot ∈ slots, slot.Has E P)
    (hextra : slots.countP Slot.isExtra ≤ 1) : P (.array slots)
  tuplePattern {slots : List (String × Slot)} (hslots : ∀ slot ∈ slots, slot.2.Has E P)
    (hextra : slots.countP (·.2.isExtra) ≤ 1) : P (.tuple slots)
  dictPattern {slots : List (Option Expr × Slot)}
    (hslots : ∀ slot ∈ slots, slot.2.Has E P ∧ (∀ key, slot.1 = some key → E key) ∧
      (slot.1 = none → slot.2.isExtra = true))
    (hextra : slots.countP (·.2.isExtra) ≤ 1) : P (.dict slots)
  setPattern {elements : List Pattern} (helements : ∀ p ∈ elements, P p)
    (hextra : elements.countP isExtraPattern ≤ 1) : P (.set elements)
  extraPattern {name : Option String} : P (.extra name)
  exprSpan {e : Expr} (he : E e) : S e.span
  mergeOr {fallback : Span} {spans : List Span} (hfallback : S fallback)
    (hspans : ∀ span ∈ spans, S span) : S (Span.mergeOr fallback spans)
  extendLeft {span : Span} (hspan : S span) : S (span.extendLeft 1)

/-- The answers of a resolver have the property. -/
structure Answers (E : Expr → Prop) (modules : Modules) : Prop where
  standardLibrary {identity : Identity} {name : String} {span : Span} {e : Expr}
    (h : modules.standardLibrary identity name span = .ok e) : E e
  localFile {identity : Identity} {fromRoot : Bool} {span : Span} {e : Expr}
    (h : modules.localFile identity fromRoot span = .ok e) : E e
  externalContent {identity : Identity} {span : Span} {e : Expr}
    (h : modules.externalContent identity span = .ok e) : E e

/-- The answers of a resolver to requests from places with one property have the other. -/
structure AnswersFrom (S : Span → Prop) (E : Expr → Prop) (modules : Modules) : Prop where
  standardLibrary {identity : Identity} {name : String} {span : Span} {e : Expr} (hspan : S span)
    (h : modules.standardLibrary identity name span = .ok e) : E e
  localFile {identity : Identity} {fromRoot : Bool} {span : Span} {e : Expr} (hspan : S span)
    (h : modules.localFile identity fromRoot span = .ok e) : E e
  externalContent {identity : Identity} {span : Span} {e : Expr} (hspan : S span)
    (h : modules.externalContent identity span = .ok e) : E e

theorem answersFrom_true {E : Expr → Prop} {modules : Modules} :
    AnswersFrom (fun _ => True) E modules ↔ Answers E modules :=
  ⟨fun h => ⟨h.standardLibrary True.intro, h.localFile True.intro, h.externalContent True.intro⟩,
    fun h => ⟨fun _ => h.standardLibrary, fun _ => h.localFile, fun _ => h.externalContent⟩⟩

/-- What lowering is held to: the rules, a domain of trees, and the answers of the resolver. -/
structure Terms (D : Node → Prop) (E : Expr → Prop) (P : Pattern → Prop) (S : Span → Prop)
    (modules : Modules) : Prop where
  rules : Rules E P S
  above (n : Node) (h : D n) : n.Above D E S
  answers : AnswersFrom S E modules

/-- A family that lowers the parts as it has to. -/
structure Keeps (D : Node → Prop) (E : Expr → Prop) (P : Pattern → Prop) (S : Span → Prop)
    (X : Prop) (setting : Setting) (lo : I → Lowerer) : Prop
    extends Terms D E P S setting.modules where
  expr {node : Node} (h : D node) : Meets setting S X (fun i => (lo i).expr node) E
  pattern {node : Node} (h : D node) : Meets setting S X (fun i => (lo i).pattern node) P

section

variable {D : Node → Prop} {E : Expr → Prop} {P : Pattern → Prop} {lo : I → Lowerer}
  (hlo : Keeps D E P S X setting lo) {node subject : Node}

/-! ## Places -/

theorem child_meets (h : node.Above D E S) (tag : String) :
    Meets setting S X (fun _ : I => node.child tag) D := by
  unfold Node.child
  split
  next child hone => exact Meets.pure (h.one? hone)
  next => exact Meets.malformed h.span

theorem Rules.delimitedSpan (rules : Rules E P S) (hD : ∀ n, D n → n.Above D E S)
    (h : node.Above D E S) : S node.delimitedSpan := by
  unfold Node.delimitedSpan
  split
  next opening closing hopening hclosing =>
    refine rules.mergeOr h.span (List.forall_mem_cons.mpr ⟨?_, List.forall_mem_singleton.mpr ?_⟩)
    · exact (hD _ (h.one? hopening)).span
    · exact (hD _ (h.one? hclosing)).span
  next => exact h.span

theorem Rules.accessSpan (rules : Rules E P S) {base access : Span} (hbase : S base)
    (haccess : S access) : S (accessSpan base access) := by
  unfold Relational.accessSpan
  split
  next => exact haccess
  next =>
    split
    next => exact rules.extendLeft haccess
    next =>
      refine rules.mergeOr haccess ?_
      exact List.forall_mem_cons.mpr ⟨hbase, List.forall_mem_singleton.mpr haccess⟩

/-! ## Atoms -/

theorem ident_has (rules : Rules E P S) {token : Node} (h : S token.span) : E (ident token) := by
  unfold ident
  split
  · exact rules.literal h (.bool true)
  · exact rules.literal h (.bool false)
  · exact rules.ident h

theorem num_meets (rules : Rules E P S) {token : Node} (h : S token.span) :
    Meets setting S X (fun _ : I => num token) E := by
  unfold num
  split
  next hread => exact Meets.pure (rules.literal h (.number hread))
  next => exact Meets.malformed h

theorem char_meets (rules : Rules E P S) {token : Node} (h : S token.span) :
    Meets setting S X (fun _ : I => char token) E := by
  unfold char
  split
  next hread => exact Meets.pure (rules.literal h (.char hread))
  next => exact Meets.malformed h

theorem request_meets {asked : Request} {span : Span}
    {ask : Modules → Identity → Except String Expr} (hspan : S span)
    (h : ∀ identity e, ask setting.modules identity = .ok e → E e) :
    Meets setting S X (fun _ : I => request asked span ask) E := by
  intro state
  refine ⟨_, _, fun _ => rfl, ?_⟩
  split
  next e hask => exact h _ e hask
  next => exact ⟨span, rfl, hspan⟩

theorem loaded_has (rules : Rules E P S) {span : Span} {loader : Expr} {name : String}
    (hspan : S span) (h : E loader) : E (loaded span loader name) :=
  rules.call hspan (rules.package hspan h) (rules.literal hspan (.string name))

include hlo

theorem exprs_meets {nodes : List Node} (h : ∀ n ∈ nodes, D n) :
    Meets setting S X (fun i => (lo i).exprs nodes) fun es =>
      es.length = nodes.length ∧ ∀ e ∈ es, E e :=
  Meets.traverse fun n hn => hlo.expr (h n hn)

theorem xstr_meets (hspan : S node.span) (h : subject.Above D E S) :
    Meets setting S X (fun i => xstr (lo i) node subject) E := by
  have hpart : ∀ part : Node, D part →
      Meets setting S X (fun i => textPart (lo i) part) fun p =>
        ∀ e format, p = .expr e format → E e := by
    intro part hpart
    unfold textPart
    split
    next => exact Meets.pure nofun
    next =>
      refine (child_meets (hlo.above _ hpart) _).bind fun sexpr hsexpr => ?_
      refine (child_meets (hlo.above _ hsexpr) _).bind fun expr hexpr => ?_
      refine (hlo.expr hexpr).bind fun e he => Meets.pure ?_
      rintro _ _ ⟨⟩
      exact he
  refine (Meets.traverse fun part hmem => hpart part (h.many part hmem)).bind
    fun parts hparts => Meets.pure (hlo.rules.xstr hspan fun e format hmem => ?_)
  exact hparts.2 _ hmem e format rfl

theorem embed_meets (h : node.Above D E S) :
    Meets setting S X (fun _ : I => embed node) E := by
  refine (child_meets h _).bind fun embed hembed => ?_
  refine (child_meets (hlo.above _ hembed) _).bind fun grammar hgrammar => ?_
  refine (child_meets (hlo.above _ hgrammar) _).bind fun tree htree => ?_
  have htree := hlo.above _ htree
  split
  next =>
    exact Meets.pure (hlo.rules.literal htree.span (.tree tree rfl))
  next value hvalue =>
    have hvalue := hlo.above _ (htree.one? hvalue)
    split
    next e he => exact Meets.pure (hvalue.embedded? he)
    next => exact Meets.malformed hvalue.span

theorem localImport_meets {path : Node} {fromRoot : Bool} (h : S path.span) :
    Meets setting S X (fun _ : I => localImport path fromRoot) E := by
  have hdirectory : Meets setting S X (fun _ : I => directory) fun _ => True :=
    fun state => ⟨.done setting.directory, state, fun _ => rfl, True.intro⟩
  refine hdirectory.bind fun dir _ => ?_
  cases dir with
  | none => exact Meets.reject ⟨_, rfl, h⟩
  | some dir =>
    exact (request_meets h fun _ _ => hlo.answers.localFile h).bind fun loader hloader =>
      Meets.pure (loaded_has hlo.rules h hloader)

theorem package_meets (hnode : node.Above D E S) (h : subject.Above D E S) :
    Meets setting S X (fun _ : I => package node subject) E := by
  unfold package
  split
  next std _ hstd =>
    refine (child_meets hnode _).bind fun marker hmarker => ?_
    refine (child_meets (hlo.above _ (h.one? hstd)) _).bind fun name hname => ?_
    have hname := (hlo.above _ hname).token_span hlo.above
    have hspan := hlo.rules.mergeOr hname
      (List.forall_mem_cons.mpr ⟨(hlo.above _ hmarker).span, List.forall_mem_singleton.mpr hname⟩)
    exact (request_meets hspan fun _ _ => hlo.answers.standardLibrary hspan).bind
      fun inner hinner => Meets.pure (hlo.rules.package hname hinner)
  next path _ hpath =>
    have hpath := (hlo.above _ (h.one? hpath)).token_span hlo.above
    split
    next => exact localImport_meets hlo hpath
    next =>
      exact (request_meets hpath fun _ _ => hlo.answers.externalContent hpath).bind
        fun loader hloader => Meets.pure (loaded_has hlo.rules hpath hloader)
  next => exact Meets.malformed h.span

/-! ## Access -/

theorem attrName_meets {get : Node} (h : get.Above D E S) :
    Meets setting S X (fun _ : I => attrName get) fun attr => S attr.2 := by
  unfold attrName
  split
  next ident _ hident =>
    exact Meets.pure ((hlo.above _ (h.one? hident)).token_span hlo.above)
  next s _ hs => exact Meets.pure ((hlo.above _ (h.one? hs)).token_span hlo.above)
  next => exact Meets.malformed h.span

theorem getAttr_meets {base : Expr} {get : Node} (hbase : E base) (h : get.Above D E S) :
    Meets setting S X (fun _ : I => getAttr base get) E := by
  have hspan := hlo.rules.exprSpan hbase
  unfold getAttr
  split
  next names hnames =>
    have hnames := (hlo.above _ (h.one? hnames)).span
    exact Meets.pure (hlo.rules.project (hlo.rules.accessSpan hspan hnames) hbase)
  next =>
    exact (attrName_meets hlo h).bind fun attr hattr =>
      Meets.pure (hlo.rules.dot (hlo.rules.accessSpan hspan hattr) hbase)

theorem arguments_meets {call : Node} (h : call.Above D E S) :
    Meets setting S X (fun i => arguments (lo i) call) fun args => ∀ a ∈ args, E a := by
  have harg : ∀ arg ∈ call.many "arg",
      Meets setting S X (fun i => do (lo i).expr (← Node.child arg "expr")) E :=
    fun arg hmem => (child_meets (hlo.above _ (h.many arg hmem)) _).bind fun _ => hlo.expr
  exact (Meets.traverse harg).mono fun _ hargs => hargs.2

omit hlo in
theorem calls_has (rules : Rules E P S) {span : Span} (hspan : S span) {args : List Expr}
    (hargs : ∀ a ∈ args, E a) {base : Expr} (hbase : E base) : E (calls span base args) := by
  induction args generalizing base with
  | nil => exact hbase
  | cons arg args ih =>
    rw [List.forall_mem_cons] at hargs
    have hcall := rules.accessSpan (rules.exprSpan hbase) hspan
    exact ih hargs.2 (rules.call hcall hbase hargs.1)

theorem tail_meets {base : Expr} {tail : Node} (hbase : E base) (h : tail.Above D E S) :
    Meets setting S X (fun i => Lowering.tail (lo i) base tail) E := by
  have hget : ∀ called, E called →
      Meets setting S X (fun _ : I => getAttr? called (tail.one? "get")) E := by
    intro called hcalled
    cases hone : tail.one? "get" with
    | none => exact Meets.pure hcalled
    | some get => exact getAttr_meets hlo hcalled (hlo.above _ (h.one? hone))
  unfold Lowering.tail
  split
  next call hcall =>
    have hcall := hlo.above _ (h.one? hcall)
    exact (arguments_meets hlo hcall).bind fun args hargs =>
      (Meets.pure (calls_has hlo.rules hcall.span hargs hbase)).bind hget
  next => exact (Meets.pure hbase).bind hget

theorem safeStep_meets {safe : Bool} {tail : Node} (h : tail.Above D E S) :
    Meets setting S X (fun i => safeStep (lo i) safe tail) fun step =>
      StepHas E S step ∧ step.safe = safe := by
  have hargs : Meets setting S X (fun i => tailArgs (lo i) tail) fun args =>
      ∀ call, args = some call → S call.2 ∧ ∀ e ∈ call.1, E e := by
    unfold tailArgs
    split
    next call hcall =>
      have hcall := hlo.above _ (h.one? hcall)
      refine (arguments_meets hlo hcall).bind fun args hargs => Meets.pure ?_
      rintro _ ⟨⟩
      exact ⟨hcall.span, hargs⟩
    next => exact Meets.pure nofun
  have hattr : Meets setting S X (fun _ : I => tailAttr tail) fun attr =>
      ∀ a, attr = some a → S a.2 := by
    unfold tailAttr
    split
    next get hget =>
      refine (attrName_meets hlo (hlo.above _ (h.one? hget))).bind fun attr hattr => Meets.pure ?_
      rintro _ ⟨⟩
      exact hattr
    next => exact Meets.pure nofun
  refine hargs.bind fun args hargs => hattr.bind fun attr hattr => ?_
  refine Meets.ite (fun _ => Meets.malformed h.span) fun _ => Meets.pure ⟨⟨?_, ?_⟩, rfl⟩
  · cases args with
    | none => exact List.forall_mem_nil _
    | some call => exact (hargs call rfl).2
  · refine List.forall_mem_append.mpr ⟨fun span hspan => ?_, fun span hspan => ?_⟩
    · obtain ⟨call, rfl, rfl⟩ := Option.map_eq_some_iff.mp (Option.mem_toList.mp hspan)
      exact (hargs call rfl).1
    · obtain ⟨a, rfl, rfl⟩ := Option.map_eq_some_iff.mp (Option.mem_toList.mp hspan)
      exact hattr a rfl

theorem safeOp_meets {op : Node} (h : op.Above D E S) :
    Meets setting S X (fun i => safeOp (lo i) op) (StepHas E S) := by
  unfold safeOp
  split
  next safe _ hsafe =>
    refine (child_meets (hlo.above _ (h.one? hsafe)) _).bind fun tail htail => ?_
    exact (safeStep_meets hlo (hlo.above _ htail)).mono fun _ hstep => hstep.1
  next tail _ htail =>
    exact (safeStep_meets hlo (hlo.above _ (h.one? htail))).mono fun _ hstep => hstep.1
  next => exact Meets.malformed h.span

theorem safeTail_meets {base : Expr} {chain : Node} (hbase : E base) (h : chain.Above D E S) :
    Meets setting S X (fun i => safeTail (lo i) base chain) E := by
  refine (child_meets h _).bind fun head hhead => ?_
  refine (child_meets (hlo.above _ hhead) _).bind fun tail htail => ?_
  refine (safeStep_meets hlo (hlo.above _ htail)).bind fun first hfirst => ?_
  refine (child_meets h _).bind fun fall hfall => ?_
  refine (hlo.expr hfall).bind fun fallback hfallback => ?_
  refine (Meets.traverse fun op hop => safeOp_meets hlo (hlo.above _ (h.many op hop))).bind
    fun rest hrest => Meets.pure ?_
  exact hlo.rules.safeTail h.span hfallback hbase
    (List.forall_mem_cons.mpr ⟨hfirst.1, hrest.2⟩) hfirst.2

theorem access_meets (h : node.Above D E S) :
    Meets setting S X (fun i => access (lo i) node) E := by
  have hbase : Meets setting S X (fun i => accessBase (lo i) node) E := by
    unfold accessBase
    split
    next expr hexpr => exact hlo.expr (h.one? hexpr)
    next =>
      refine (child_meets h _).bind fun get hget => ?_
      have hget := hlo.above _ hget
      refine (child_meets hget _).bind fun dot hdot => ?_
      exact getAttr_meets hlo (hlo.rules.ident (hlo.above _ hdot).span) hget
  refine hbase.bind fun base hbase => Meets.foldl (fun part hpart base hbase => ?_) hbase
  have hpart := hlo.above _ (h.many part hpart)
  split
  next chain _ hchain => exact safeTail_meets hlo hbase (hlo.above _ (hpart.one? hchain))
  next tail _ htail => exact tail_meets hlo hbase (hlo.above _ (hpart.one? htail))
  next => exact Meets.pure hbase

/-! ## Collections -/

omit hlo in
theorem nodup_of_repeated? {names seen : List String} (h : repeated? seen names = none) :
    names.Nodup ∧ ∀ name ∈ names, name ∉ seen := by
  induction names generalizing seen with
  | nil => exact ⟨List.nodup_nil, List.forall_mem_nil _⟩
  | cons name names ih =>
    rw [repeated?] at h
    split at h
    next => cases h
    next hseen =>
      obtain ⟨hnodup, hfresh⟩ := ih h
      refine ⟨List.nodup_cons.mpr ⟨fun hmem => ?_, hnodup⟩, List.forall_mem_cons.mpr ⟨?_, ?_⟩⟩
      · exact hfresh name hmem (List.mem_cons_self ..)
      · simpa using hseen
      · exact fun n hn hmem => hfresh n hn (List.mem_cons_of_mem _ hmem)

theorem relation_meets (hspan : S node.delimitedSpan) (h : subject.Above D E S) :
    Meets setting S X (fun i => relation (lo i) node subject) E := by
  refine (child_meets h _).bind fun names _ => ?_
  dsimp only
  split
  next => exact Meets.reject ⟨_, rfl, hspan⟩
  next hnames =>
    refine (Meets.traverse (B := fun row => row.length = names.names.length ∧ ∀ a ∈ row, E a)
      fun row hrow => ?_).bind fun rows hrows =>
        Meets.pure (hlo.rules.relation hspan (nodup_of_repeated? hnames).1 hrows.2)
    have hrow := hlo.above _ (h.many row hrow)
    refine (exprs_meets hlo hrow.many).bind fun values hvalues => ?_
    exact Meets.ite (fun hlength => Meets.pure ⟨hlength, hvalues.2⟩) fun _ =>
      Meets.reject ⟨_, rfl, hrow.span⟩

theorem set_meets (hspan : S node.delimitedSpan) (h : subject.Above D E S) :
    Meets setting S X (fun i => set (lo i) node subject) E := by
  refine Meets.ite (fun _ => ?_) fun _ =>
    Meets.pure (hlo.rules.literal hspan .set)
  exact (exprs_meets hlo h.many).bind fun elements helements =>
    Meets.pure (hlo.rules.set hspan helements.2)

theorem dictOf_meets {conditional : Bool} {span : Span} (hspan : S span)
    (h : subject.Above D E S) :
    Meets setting S X (fun i => dictOf (lo i) subject conditional span) fun e =>
      E e ∧ (conditional = true → e.IsConditions) := by
  have hentry : ∀ pair : Node, D pair →
      Meets setting S X (fun i => dictEntry (lo i) pair) fun entry =>
        E entry.key ∧ E entry.value ∧ S entry.span := by
    intro pair hpair
    have hpair := hlo.above _ hpair
    unfold dictEntry
    split
    next key value hkey hvalue =>
      refine (hlo.expr (hpair.one? hkey)).bind fun k hk => ?_
      exact (hlo.expr (hpair.one? hvalue)).bind fun v hv => Meets.pure ⟨hk, hv, hpair.span⟩
    next => exact Meets.reject ⟨_, rfl, hpair.span⟩
  have hpairs : ∀ pair ∈ subject.many "pairs", D pair := h.many
  unfold dictOf
  split
  next =>
    exact Meets.pure ⟨hlo.rules.literal hspan .dict, fun _ => Or.inl ⟨_, rfl⟩⟩
  next hne =>
    refine (Meets.traverse fun pair hmem => hentry pair (hpairs pair hmem)).bind
      fun entries hentries => Meets.pure ⟨hlo.rules.dict hspan hentries.2, ?_⟩
    rintro rfl
    -- a row of steps leaves nothing out, so there are entries as there were pairs
    refine Or.inr ⟨entries, span, fun hnil => hne ?_, rfl⟩
    exact List.eq_nil_of_length_eq_zero (hentries.1.symm.trans (hnil ▸ rfl))

theorem array_meets (hspan : S node.delimitedSpan) (h : subject.Above D E S) :
    Meets setting S X (fun i => array (lo i) node subject) E := by
  have hitems : ∀ item ∈ arrayItems subject, D item := by
    unfold arrayItems
    split
    next => exact List.forall_mem_nil _
    next first hfirst => exact List.forall_mem_cons.mpr ⟨h.one? hfirst, h.many⟩
  have hitem : ∀ item : Node, D item →
      Meets setting S X (fun i => arrayItem (lo i) item) fun x => ∀ e, x = some e → E e := by
    intro item hitem
    refine Meets.ite (fun _ => Meets.pure nofun) fun _ => ?_
    refine (hlo.expr hitem).bind fun e he => Meets.pure ?_
    rintro _ ⟨⟩
    exact he
  unfold array
  split
  next => exact Meets.pure (hlo.rules.literal hspan .array)
  next =>
    refine (Meets.traverse fun item hmem => hitem item (hitems item hmem)).bind
      fun items hitems => Meets.pure (hlo.rules.array hspan fun e he => ?_)
    exact hitems.2 _ he e rfl

theorem bytes_meets (hspan : S node.delimitedSpan) (h : subject.Above D E S) :
    Meets setting S X (fun i => bytes (lo i) node subject) E := by
  refine Meets.ite (fun _ => ?_) fun _ =>
    Meets.pure (hlo.rules.literal hspan .bytes)
  exact (exprs_meets hlo h.many).bind fun items hitems =>
    Meets.pure (hlo.rules.bytes hspan hitems.2)

theorem tupleAttr_meets {pair : Node} (h : pair.Above D E S) :
    Meets setting S X (fun i => tupleAttr (lo i) pair) fun attr => E attr.2 := by
  refine (child_meets h _).bind fun v hv => (hlo.expr hv).bind fun value hvalue => ?_
  have hspan := (hlo.above _ hv).span
  have hnamed : ∀ name, E (if pair.has "rec" then recursion name value v.span else value) := by
    intro name
    split
    next => exact hlo.rules.recursion hspan hvalue
    next => exact hvalue
  dsimp only
  split
  next name _ => exact Meets.pure (hnamed name)
  next => exact Meets.reject ⟨_, rfl, hspan⟩

theorem tuple_meets (hspan : S node.delimitedSpan) (h : subject.Above D E S) :
    Meets setting S X (fun i => tuple (lo i) node subject) E := by
  have hpairs : ∀ pair ∈ subject.many "pairs", D pair := h.many
  unfold tuple
  split
  next => exact Meets.pure (hlo.rules.literal hspan .tuple)
  next =>
    exact (Meets.traverse fun pair hmem =>
      tupleAttr_meets hlo (hlo.above _ (hpairs pair hmem))).bind
        fun attrs hattrs => Meets.pure (hlo.rules.tuple hspan hattrs.2)

/-! ## Operations -/

omit hlo in
theorem resolve_meets {γ : Type} {table : OperatorTable} {ofSymbol? : String → Option γ}
    {token : String} {span : Span} (hspan : S span) :
    Meets setting S X (fun _ : I => resolve table ofSymbol? token span) fun _ => True := by
  unfold resolve
  split
  next => exact Meets.pure True.intro
  next => exact Meets.reject ⟨_, rfl, hspan⟩

omit hlo in
theorem leading_has (rules : Rules E P S) {op : LeadingOp} {operand : Expr} {span : Span}
    (hspan : S span) (h : E operand) : E (leading op operand span) := by
  cases op with
  | unary op => exact rules.unary hspan h
  | package => exact rules.package hspan h
  | current op => exact rules.binary hspan (rules.ident hspan) h

theorem unaryChain_meets (h : node.Above D E S) :
    Meets setting S X (fun i => unaryChain (lo i) node) E := by
  refine (child_meets h _).bind fun expr hexpr => (hlo.expr hexpr).bind fun first hfirst => ?_
  refine Meets.foldl (fun op hop operand hoperand => ?_) hfirst
  have htoken := (hlo.above _ (h.many op (List.mem_reverse.mp hop))).token_span hlo.above
  have hspan := hlo.rules.mergeOr htoken (List.forall_mem_cons.mpr
    ⟨htoken, List.forall_mem_singleton.mpr (hlo.rules.exprSpan hoperand)⟩)
  exact (resolve_meets hspan).bind fun op _ => Meets.pure (leading_has hlo.rules hspan hoperand)

omit hlo in
/-- A chain has one operand more than operators. -/
theorem operands_meets (h : node.Above D E S) (ops : List Node) :
    Meets setting S X (fun _ : I => operands node ops) fun nodes =>
      node.many "expr" = nodes.1 :: nodes.2 ∧ nodes.2.length = ops.length := by
  unfold operands
  split
  next first rest heq =>
    exact Meets.ite (fun hlength => Meets.pure ⟨heq, hlength⟩) fun _ =>
      Meets.reject ⟨_, rfl, h.span⟩
  next => exact Meets.reject ⟨_, rfl, h.span⟩

theorem leftChain_meets (h : node.Above D E S) :
    Meets setting S X (fun i => leftChain (lo i) node) E := by
  refine (operands_meets h _).bind fun nodes hnodes => ?_
  obtain ⟨hfirst, hrest⟩ := List.forall_mem_cons.mp (hnodes.1 ▸ h.many)
  refine (hlo.expr hfirst).bind fun first hfirst =>
    Meets.foldl (fun step hstep lhs hlhs => ?_) hfirst
  obtain ⟨hop, harg⟩ := List.of_mem_zip hstep
  have htoken := (hlo.above _ (h.many _ hop)).token_span hlo.above
  refine (resolve_meets htoken).bind fun op _ => ?_
  refine (hlo.expr (hrest _ harg)).bind fun rhs hrhs => ?_
  have hspans := List.forall_mem_cons.mpr ⟨htoken, List.forall_mem_cons.mpr
    ⟨hlo.rules.exprSpan hlhs, List.forall_mem_singleton.mpr (hlo.rules.exprSpan hrhs)⟩⟩
  exact Meets.pure (hlo.rules.binary (hlo.rules.mergeOr htoken hspans) hlhs hrhs)

theorem rightChain_meets (h : node.Above D E S) :
    Meets setting S X (fun i => rightChain (lo i) node) E := by
  refine (operands_meets h _).bind fun nodes hnodes => ?_
  have hexprs : ∀ n ∈ nodes.1 :: nodes.2, D n := hnodes.1 ▸ h.many
  refine (hlo.expr (hexprs _ (List.getLast_mem _))).bind fun last hlast =>
    Meets.foldl (fun step hstep rhs hrhs => ?_) hlast
  obtain ⟨hop, harg⟩ := List.of_mem_zip (List.mem_reverse.mp hstep)
  have htoken := (hlo.above _ (h.many _ hop)).token_span hlo.above
  refine (resolve_meets htoken).bind fun op _ => ?_
  refine (hlo.expr (hexprs _ harg)).bind fun lhs hlhs => ?_
  exact Meets.pure (hlo.rules.binary htoken hlhs hrhs)

omit hlo in
theorem Rules.operandsSpan (rules : Rules E P S) {first : Expr} {rest : List Expr}
    (h : ∀ e ∈ first :: rest, E e) : S (operandsSpan first rest) := by
  have hfirst := rules.exprSpan (h first (List.mem_cons_self ..))
  have hlast := rules.exprSpan (h _ (List.getLast_mem (List.cons_ne_nil first rest)))
  exact rules.mergeOr hfirst
    (List.forall_mem_cons.mpr ⟨hfirst, List.forall_mem_singleton.mpr hlast⟩)

theorem compareChain_meets (h : node.Above D E S) :
    Meets setting S X (fun i => compareChain (lo i) node) E := by
  refine (operands_meets h _).bind fun nodes hnodes => ?_
  obtain ⟨hfirst, hrest⟩ := List.forall_mem_cons.mp (hnodes.1 ▸ h.many)
  refine (hlo.expr hfirst).bind fun first hfirst => ?_
  refine (exprs_meets hlo hrest).bind fun rest hrest => ?_
  refine (Meets.traverse fun op hop =>
    resolve_meets ((hlo.above _ (h.many op hop)).token_span hlo.above)).bind
      fun ops hops => Meets.pure ?_
  have hargs := List.forall_mem_cons.mpr ⟨hfirst, hrest.2⟩
  refine hlo.rules.compare (hlo.rules.operandsSpan hargs) hargs ?_
  rw [List.length_cons, hrest.1, hnodes.2, hops.1]

theorem postfixOp_meets (h : node.Above D E S) :
    Meets setting S X (fun i => postfixOp (lo i) node) E := by
  refine Meets.ite (fun _ => Meets.reject ⟨_, rfl, h.span⟩) fun _ => ?_
  refine (child_meets h _).bind fun op hop => (child_meets h _).bind fun expr hexpr => ?_
  refine (hlo.expr hexpr).bind fun operand hoperand => ?_
  split
  next => exact Meets.pure (hlo.rules.count h.span hoperand)
  next => exact Meets.pure (hlo.rules.single h.span hoperand)
  next => exact Meets.reject ⟨_, rfl, (hlo.above _ hop).token_span hlo.above⟩

/-! ## Functions, bindings and choices -/

theorem function_meets (h : node.Above D E S)
    (hpattern : Meets setting S X (fun i => (lo i).pattern node) P) :
    Meets setting S X (fun i => function (lo i) node) E := by
  refine hpattern.bind fun pattern hpattern => ?_
  refine (child_meets h _).bind fun expr hexpr => (hlo.expr hexpr).bind fun body hbody => ?_
  exact Meets.pure (hlo.rules.function h.span hpattern hbody)

theorem let_meets (hnode : D node) : Meets setting S X (fun i => let_ (lo i) node) E := by
  have h := hlo.above _ hnode
  have hexprs : ∀ expr ∈ node.many "expr", D expr := h.many
  unfold let_
  dsimp only
  split
  next value body heq =>
    rw [heq] at hexprs
    obtain ⟨hvalue, hbody⟩ : D value ∧ D body := by simpa using hexprs
    refine (hlo.expr hvalue).bind fun value hvalue => (hlo.expr hbody).bind fun body hbody => ?_
    refine (hlo.pattern hnode).bind fun pattern hpattern => ?_
    -- a recursive let goes on like any other once its value is wrapped
    have hlet : ∀ value, E value → Meets setting S X (fun _ : I =>
        pure (.binary .arrow value (.function pattern body node.span) node.span)) E :=
      fun value hvalue => Meets.pure
        (hlo.rules.binary h.span hvalue (hlo.rules.function h.span hpattern hbody))
    split
    next =>
      split
      next name _ => exact hlet _ (hlo.rules.recursion h.span hvalue)
      next => exact Meets.reject ⟨_, rfl, h.span⟩
    next => exact hlet value hvalue
  next => exact Meets.malformed h.span

theorem arrowStep_meets {span : Span} (hspan : S span) {lhs : Expr} {step : Node} (hlhs : E lhs)
    (hstep : D step) : Meets setting S X (fun i => arrowStep (lo i) span lhs step) E := by
  have h := hlo.above _ hstep
  unfold arrowStep
  split
  next => exact Meets.malformed h.span
  next node heq =>
    have hnode := hlo.above _ (h.arrowStep heq node (List.mem_singleton_self _))
    refine (child_meets hnode _).bind fun names _ => (child_meets hnode _).bind fun name _ => ?_
    exact Meets.pure (hlo.rules.nest hspan hlhs)
  next node heq =>
    have hnode := hlo.above _ (h.arrowStep heq node (List.mem_singleton_self _))
    exact Meets.reject ⟨_, rfl, hnode.span⟩
  next op heq =>
    have hop := hlo.above _ (h.arrowStep heq op (List.mem_singleton_self _))
    refine (resolve_meets hop.span).bind fun op _ => (child_meets h _).bind fun expr hexpr => ?_
    exact (hlo.expr hexpr).bind fun rhs hrhs => Meets.pure (hlo.rules.binary hspan hlhs hrhs)
  next =>
    refine (child_meets h _).bind fun expr hexpr => (hlo.expr hexpr).bind fun rhs hrhs => ?_
    refine Meets.ite (fun _ => ?_) fun _ => Meets.pure (hlo.rules.binary hspan hlhs hrhs)
    exact (hlo.pattern hstep).bind fun pattern hpattern =>
      Meets.pure (hlo.rules.binary hspan hlhs (hlo.rules.function hspan hpattern hrhs))
  next =>
    exact (hlo.expr hstep).bind fun test htest =>
      Meets.pure (hlo.rules.binary hspan (hlo.rules.binary hspan hlhs htest) htest)

omit hlo in
theorem sections_has (rules : Rules E P S) {span : Span} (hspan : S span) (marks : List Node)
    {e : Expr} (h : E e) : E (sections span e marks) := by
  induction marks generalizing e with
  | nil => exact h
  | cons mark marks ih =>
    exact ih (rules.function hspan (rules.exprPattern (rules.ident hspan)) h)

theorem arrows_meets {amp : Bool} (h : node.Above D E S) :
    Meets setting S X (fun i => arrows (lo i) node amp) E := by
  refine (child_meets h _).bind fun expr hexpr => (hlo.expr hexpr).bind fun first hfirst => ?_
  refine (Meets.foldl (fun step hstep lhs hlhs =>
    arrowStep_meets hlo h.span hlhs (h.many step hstep)) hfirst).bind
      fun result hresult => Meets.pure ?_
  split
  next => exact sections_has hlo.rules h.span _ hresult
  next => exact hresult

theorem if_meets (h : node.Above D E S) : Meets setting S X (fun i => if_ (lo i) node) E := by
  refine warnDeprecated_meets.bind fun _ _ => (child_meets h _).bind fun expr hexpr => ?_
  refine (hlo.expr hexpr).bind fun result hresult =>
    Meets.foldl (fun branch hbranch ifTrue hifTrue => ?_) hresult
  have hspan := hlo.rules.exprSpan hresult
  have hbranch := hlo.above _ (h.many branch hbranch)
  refine (child_meets hbranch _).bind fun t ht =>
    (hlo.expr ht).bind fun condition hcondition => ?_
  dsimp only
  split
  next f hf =>
    exact (hlo.expr (hbranch.one? hf)).bind fun ifFalse hifFalse =>
      Meets.pure (hlo.rules.ifElse hspan hifTrue hcondition hifFalse)
  next =>
    have hnothing := hlo.rules.literal hspan .set
    exact Meets.pure (hlo.rules.ifElse hspan hifTrue hcondition hnothing)

theorem armPattern_meets {condition : Node} (h : D condition) :
    Meets setting S X (fun i => armPattern (lo i) condition) P :=
  Meets.ite (fun _ => hlo.pattern h) fun _ => Meets.malformed (hlo.above _ h).span

theorem armValue_meets {value : Node} (h : value.Above D E S) :
    Meets setting S X (fun i => armValue (lo i) value) E := by
  have hexprs : ∀ expr ∈ value.many "expr", D expr := h.many
  unfold armValue
  split
  next => exact Meets.reject ⟨_, rfl, h.span⟩
  next expr heq => exact hlo.expr (hexprs expr (heq ▸ List.mem_singleton_self _))
  next =>
    refine (exprs_meets hlo hexprs).bind fun items hitems => Meets.pure ?_
    refine hlo.rules.array h.span fun e he => ?_
    obtain ⟨e', he', heq⟩ := List.mem_map.mp he
    exact Option.some.inj heq ▸ hitems.2 e' he'

theorem cond_meets (h : subject.Above D E S) :
    Meets setting S X (fun i => cond (lo i) subject) E := by
  unfold cond
  dsimp only
  split
  next =>
    exact (dictOf_meets hlo h.span h).bind fun entries hentries =>
      Meets.pure (hlo.rules.cond h.span hentries.1 (hentries.2 rfl))
  next control hcontrol =>
    refine (Meets.traverse fun n hn => armPattern_meets hlo (h.many n hn)).bind
      fun patterns hpatterns => ?_
    refine (Meets.traverse fun n hn => armValue_meets hlo (hlo.above _ (h.many n hn))).bind
      fun values hvalues => ?_
    refine Meets.ite (fun _ => ?_) fun _ => Meets.reject ⟨_, rfl, h.span⟩
    refine (hlo.expr (h.one? hcontrol)).bind fun control hcontrol => Meets.pure ?_
    refine hlo.rules.condControl h.span hcontrol fun arm harm => ?_
    obtain ⟨hpattern, hvalue⟩ := List.of_mem_zip harm
    exact ⟨hpatterns.2 _ hpattern, hvalues.2 _ hvalue⟩

/-! ## Patterns -/

omit hlo in
theorem extra_has (rules : Rules E P S) (node : Node) : P (extra node) := by
  unfold extra
  split <;> exact rules.extraPattern

omit hlo in
theorem checkExtra_meets {kind : Structure} {extras : Nat} (h : S node.span) :
    Meets setting S X (fun _ : I => checkExtra node kind extras) fun _ => extras ≤ 1 :=
  Meets.ite (fun h => Meets.pure h) fun _ => Meets.reject ⟨_, rfl, h⟩

theorem fallback_meets {holder : Node} (h : holder.Above D E S) :
    Meets setting S X (fun i => fallback (lo i) holder) fun fall =>
      ∀ e, fall = some e → E e := by
  unfold fallback
  split
  next => exact Meets.pure nofun
  next fall hfall =>
    refine (hlo.expr (h.one? hfall)).bind fun e he => Meets.pure ?_
    rintro _ ⟨⟩
    exact he

theorem markedFallback_meets {marked : Bool} {holder : Node} (h : holder.Above D E S) :
    Meets setting S X (fun i => markedFallback (lo i) marked holder) fun fall =>
      ∀ e, fall = some e → E e := by
  unfold markedFallback
  split
  next => exact Meets.pure nofun
  next fall hfall =>
    exact Meets.ite (fun _ => fallback_meets hlo h) fun _ =>
      Meets.reject ⟨_, rfl, (hlo.above _ (h.one? hfall)).span⟩

omit hlo in
theorem slot_has {p : Pattern} {fall : Option Expr} (hp : P p) (hfall : ∀ e, fall = some e → E e) :
    (Slot.mk (some p) fall).Has E P :=
  ⟨fun _ h => Option.some.inj h ▸ hp, hfall⟩

theorem arrayPattern_meets (h : node.Above D E S) :
    Meets setting S X (fun i => arrayPattern (lo i) node) P := by
  have hslot : ∀ item : Node, D item →
      Meets setting S X (fun i => arraySlot (lo i) item) fun slot => slot.Has E P := by
    intro item hitem
    refine Meets.ite (fun _ => Meets.pure ⟨nofun, nofun⟩) fun _ => ?_
    refine (hlo.pattern hitem).bind fun pattern hpattern => ?_
    exact (fallback_meets hlo (hlo.above _ hitem)).bind fun fall hfall =>
      Meets.pure (slot_has hpattern hfall)
  have hitems : ∀ item ∈ (node.one? "first_item").toList ++ node.many "item", D item := by
    refine List.forall_mem_append.mpr ⟨fun item hitem => ?_, h.many⟩
    exact h.one? (Option.mem_toList.mp hitem)
  refine (Meets.traverse fun item hmem => hslot item (hitems item hmem)).bind
    fun slots hslots => (checkExtra_meets h.span).bind fun _ hextra => ?_
  exact Meets.pure (hlo.rules.arrayPattern hslots.2 hextra)

theorem tuplePattern_meets (h : node.Above D E S) :
    Meets setting S X (fun i => tuplePattern (lo i) node) P := by
  have hslot : ∀ pair : Node, D pair →
      Meets setting S X (fun i => tupleSlot (lo i) pair) fun slot => slot.2.Has E P := by
    intro pair hpair
    refine Meets.ite (fun _ => ?_) fun _ => ?_
    · exact (hlo.pattern hpair).bind fun pattern hpattern =>
        Meets.pure (slot_has hpattern nofun)
    · refine (child_meets (hlo.above _ hpair) _).bind fun v hv =>
        (hlo.pattern hv).bind fun pattern hpattern => ?_
      exact (markedFallback_meets hlo (hlo.above _ hv)).bind fun fall hfall =>
        Meets.pure (slot_has hpattern hfall)
  refine (Meets.traverse fun pair hmem => hslot pair (h.many pair hmem)).bind
    fun slots hslots => (checkExtra_meets h.span).bind fun _ hextra => ?_
  exact Meets.pure (hlo.rules.tuplePattern hslots.2 hextra)

theorem dictPattern_meets (h : node.Above D E S) :
    Meets setting S X (fun i => dictPattern (lo i) node) P := by
  have hslot : ∀ pair : Node, D pair →
      Meets setting S X (fun i => dictSlot (lo i) pair) fun slot => slot.2.Has E P ∧
        (∀ key, slot.1 = some key → E key) ∧ (slot.1 = none → slot.2.isExtra = true) := by
    intro pair hpair
    unfold dictSlot
    split
    next extra _ =>
      refine Meets.pure ⟨slot_has (extra_has hlo.rules _) nofun, nofun, fun _ => ?_⟩
      unfold Lowering.extra
      split <;> rfl
    next =>
      have hpair := hlo.above _ hpair
      refine (child_meets hpair _).bind fun key hkey => ?_
      refine (child_meets hpair _).bind fun value hvalue => ?_
      refine (hlo.expr hkey).bind fun keyExpr hkeyExpr => ?_
      refine (hlo.pattern hvalue).bind fun pattern hpattern => ?_
      refine (markedFallback_meets hlo (hlo.above _ hvalue)).bind fun fall hfall => Meets.pure ?_
      exact ⟨slot_has hpattern hfall, fun _ heq => Option.some.inj heq ▸ hkeyExpr, nofun⟩
  refine (Meets.traverse fun pair hmem => hslot pair (h.many pair hmem)).bind
    fun slots hslots => (checkExtra_meets h.span).bind fun _ hextra => ?_
  exact Meets.pure (hlo.rules.dictPattern hslots.2 hextra)

theorem setPattern_meets (h : node.Above D E S) :
    Meets setting S X (fun i => setPattern (lo i) node) P := by
  refine (Meets.traverse fun n hn => hlo.pattern (h.many n hn)).bind
    fun elements helements => (checkExtra_meets h.span).bind fun _ hextra => ?_
  exact Meets.pure (hlo.rules.setPattern helements.2 hextra)

/-! ## Trees -/

/-- One level of the lowering of patterns keeps to the rules. The node itself is lowered as an
expression only when it is no pattern of its own. -/
theorem patternStep_meets (h : node.Above D E S)
    (hexpr : node.patternForm = .expr → Meets setting S X (fun i => (lo i).expr node) E) :
    Meets setting S X (fun i => patternStep (lo i) node) P := by
  have hform := h.patternForm
  unfold patternStep
  generalize node.patternForm = form at hform hexpr
  cases form with
  | wrapper inner => exact hlo.pattern (hform inner (List.mem_singleton_self _))
  | array array =>
    exact arrayPattern_meets hlo (hlo.above _ (hform array (List.mem_singleton_self _)))
  | tuple tuple =>
    exact tuplePattern_meets hlo (hlo.above _ (hform tuple (List.mem_singleton_self _)))
  | dict dict =>
    exact dictPattern_meets hlo (hlo.above _ (hform dict (List.mem_singleton_self _)))
  | set set => exact setPattern_meets hlo (hlo.above _ (hform set (List.mem_singleton_self _)))
  | extra extra => exact Meets.pure (extra_has hlo.rules extra)
  | exprs alternatives =>
    exact (exprs_meets hlo hform).bind fun es hes => Meets.pure (hlo.rules.exprsPattern hes.2)
  | expr => exact (hexpr rfl).bind fun e he => Meets.pure (hlo.rules.exprPattern he)

theorem paren_meets (h : node.Above D E S) {children : Children}
    (hnodes : ∀ n ∈ children.nodes, D n) :
    Meets setting S X (fun i => paren (lo i) node children) E := by
  unfold paren
  split
  next inner =>
    refine (hlo.expr (hnodes inner (List.mem_singleton_self _))).bind fun e he => Meets.pure ?_
    split
    next => exact hlo.rules.paren (hlo.rules.delimitedSpan hlo.above h) he
    next => exact he
  next inner => exact hlo.expr (hnodes inner (List.mem_singleton_self _))
  next => exact Meets.malformed h.span

theorem formStep_meets {form : ExprForm} (h : node.Above D E S)
    (hform : (form.kind.hasSubject = true → D form.subject) ∧ ∀ n ∈ form.children.nodes, D n)
    (hfunction : form.kind = .function → Meets setting S X (fun i => (lo i).pattern node) P) :
    Meets setting S X (fun i => formStep (lo i) node form) E := by
  obtain ⟨hsubject, hchildren⟩ := hform
  have hspan := hlo.rules.delimitedSpan hlo.above h
  have habove : form.kind.hasSubject = true → form.subject.Above D E S :=
    fun hkind => hlo.above _ (hsubject hkind)
  unfold formStep
  cases hkind : form.kind <;> rw [hkind] at hsubject habove <;> dsimp only
  case arrow amp => exact arrows_meets hlo h
  case let_ => exact let_meets hlo (hsubject rfl)
  case unop => exact unaryChain_meets hlo h
  case binop => exact leftChain_meets hlo h
  case compare => exact compareChain_meets hlo h
  case rbinop => exact rightChain_meets hlo h
  case if_ => exact if_meets hlo h
  case callGet => exact access_meets hlo h
  case postfixOp => exact postfixOp_meets hlo h
  case relation => exact relation_meets hlo hspan (habove rfl)
  case set => exact set_meets hlo hspan (habove rfl)
  case dict => exact (dictOf_meets hlo hspan (habove rfl)).mono fun _ hdict => hdict.1
  case array => exact array_meets hlo hspan (habove rfl)
  case bytes => exact bytes_meets hlo hspan (habove rfl)
  case embed => exact embed_meets hlo h
  case function => exact function_meets hlo h (hfunction hkind)
  case package => exact package_meets hlo h (habove rfl)
  case tuple => exact tuple_meets hlo hspan (habove rfl)
  case xstr => exact xstr_meets hlo h.span (habove rfl)
  case ident => exact Meets.pure (ident_has hlo.rules ((habove rfl).token_span hlo.above))
  case str =>
    exact Meets.pure (hlo.rules.literal ((habove rfl).token_span hlo.above) (.string _))
  case num => exact num_meets hlo.rules ((habove rfl).token_span hlo.above)
  case char => exact char_meets hlo.rules ((habove rfl).token_span hlo.above)
  case cond => exact cond_meets hlo (habove rfl)
  case paren => exact paren_meets hlo h hchildren

/-- One level of the lowering of expressions keeps to the rules. The node itself is lowered as a
pattern only when it is a function. -/
theorem exprStep_meets (h : node.Above D E S)
    (hfunction : node.isFunction = true → Meets setting S X (fun i => (lo i).pattern node) P) :
    Meets setting S X (fun i => exprStep (lo i) node) E := by
  have hform : Meets setting S X (fun _ : I => ofExcept node.exprForm) fun form =>
      node.exprForm = .ok form := by
    cases heq : node.exprForm with
    | ok form => exact Meets.pure rfl
    | error error => exact Meets.reject (h.exprForm_error heq)
  unfold exprStep
  split
  next e he => exact Meets.pure (h.embedded? he)
  next =>
    refine hform.bind fun form hform => ?_
    cases form with
    | none => exact Meets.malformed h.span
    | some form =>
      refine formStep_meets hlo h (h.exprForm hform) fun hkind => hfunction ?_
      simp [Node.isFunction, hform, hkind]

end

/-- Lowering with any fuel keeps to the rules, if it may run out of it: one level does if the levels
below do. -/
theorem lower_keeps {D : Node → Prop} {E : Expr → Prop} {P : Pattern → Prop}
    (terms : Terms D E P S setting.modules) (fuel : Nat) :
    Keeps D E P S True setting fun _ : Unit => ⟨lowerExpr fuel, lowerPattern fuel⟩ := by
  induction fuel with
  -- without fuel there is no result to speak of
  | zero =>
    exact ⟨terms, fun _ state => ⟨.exhausted, state, fun _ => rfl, True.intro⟩,
      fun _ state => ⟨.exhausted, state, fun _ => rfl, True.intro⟩⟩
  | succ fuel ih =>
    exact ⟨terms, fun h => exprStep_meets ih (terms.above _ h) fun _ => ih.pattern h,
      fun h => patternStep_meets ih (terms.above _ h) fun _ => ih.expr h⟩

/-- The terms for all trees whose expressions have a property, with no regard to places. -/
theorem terms_of_answers {E : Expr → Prop} {P : Pattern → Prop} {modules : Modules}
    (rules : Rules E P fun _ => True) (hmodules : Answers E modules) :
    Terms (Node.Embeds E) E P (fun _ => True) modules where
  rules := rules
  above _ h := ⟨True.intro, h.embedded?, h.get?⟩
  answers := answersFrom_true.mpr hmodules

/-- A tree is lowered to an expression with a property that keeps to the rules. -/
theorem lower_has {E : Expr → Prop} {P : Pattern → Prop} (rules : Rules E P fun _ => True)
    {node : Node} (hnode : node.Embeds E) (hmodules : Answers E setting.modules) :
    Ensures setting node.lower E :=
  ((lower_keeps (terms_of_answers rules hmodules) (fuelFor node)).expr hnode).ensures ()

end Lowering

end Relational
