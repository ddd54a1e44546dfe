import Relational.Proofs.FreeNames
import Relational.Proofs.Lockstep
import Relational.Proofs.Steps

/-!
# Correspondence of two evaluations

What has to relate two evaluations, whatever it is that relates them, so that they go on in
lockstep:

> Expressions that are alike at the top have related parts. Scopes have to give related values only
> to the names that an expression is free to read. Functions are related if their patterns, their
> bodies and what they captured are.

`Correspondence` holds such relations and `Lawful` says what is needed of them. Nothing is said
about how two expressions come to be related, so that one may be the other, or a variant of it that
evaluates in the same way.
-/

namespace Relational

/-! ## Scopes that agree on names -/

/-- Two scopes give related values to the free names, or both give none. -/
def Scope.Like (V : Value → Value → Prop) (names : Names) (scope scope' : Scope) : Prop :=
  ∀ x ∈ names.free, Option.Rel V (scope.get? x) (scope'.get? x)

namespace Scope

variable {V : Value → Value → Prop} {m n : Names} {scope scope' bound bound' : Scope}
  {name x : String} {v v' : Value}

@[simp]
theorem like_append :
    scope.Like V (m ++ n) scope' ↔ scope.Like V m scope' ∧ scope.Like V n scope' :=
  List.forall_mem_append

/-- Scopes that agree on the names of a row of things agree on the names of each of them. -/
theorem Like.forall₂ {α β : Type} {R : α → β → Prop} {f : α → Names} {all : List α → Names}
    (hall : ∀ a as, all (a :: as) = f a ++ all as) {as : List α} {bs : List β}
    (h : List.Forall₂ R as bs) (hscope : scope.Like V (all as) scope') :
    List.Forall₂ (fun a b => R a b ∧ scope.Like V (f a) scope') as bs := by
  induction h with
  | nil => exact .nil
  | cons hab _ ih =>
    rw [hall] at hscope
    obtain ⟨ha, has⟩ := like_append.mp hscope
    exact .cons ⟨hab, ha⟩ (ih has)

theorem get?_bind_like (hv : V v v')
    (h : x ≠ name → Option.Rel V (scope.get? x) (scope'.get? x)) :
    Option.Rel V ((scope.bind name v).get? x) ((scope'.bind name v').get? x) := by
  unfold Scope.bind Scope.get?
  rw [OrderedMap.find?_insert, OrderedMap.find?_insert]
  simp only [Std.compare_eq_iff_eq]
  split
  next => exact .some hv
  next hne => exact h hne

theorem Like.bind (h : scope.Like V (n.without [name]) scope') (hv : V v v') :
    (scope.bind name v).Like V n (scope'.bind name v') := by
  intro x hx
  refine get?_bind_like hv fun hne => h x ?_
  exact List.mem_filter.mpr ⟨hx, by simpa using hne⟩

theorem get?_update_like (hbound : List.Forall₂ (Both Eq V) bound bound') :
    ∀ {scope scope' : Scope},
    (Option.Rel V (scope.get? x) (scope'.get? x) ∨ ∃ binding ∈ bound, binding.1 = x) →
    Option.Rel V ((scope.update bound).get? x) ((scope'.update bound').get? x) := by
  induction hbound with
  | nil =>
    rintro scope scope' (h | ⟨binding, hmem, -⟩)
    · exact h
    · cases hmem
  | @cons binding binding' _ _ hbinding _ ih =>
    obtain ⟨name, v⟩ := binding
    obtain ⟨name', v'⟩ := binding'
    obtain ⟨rfl, hv⟩ : name = name' ∧ V v v' := ⟨hbinding.fst, hbinding.snd⟩
    intro scope scope' h
    refine @ih (scope.bind name v) (scope'.bind name v') ?_
    by_cases hx : x = name
    · exact Or.inl (get?_bind_like hv fun hne => absurd hx hne)
    · rcases h with h | ⟨binding, hmem, rfl⟩
      · exact Or.inl (get?_bind_like hv fun _ => h)
      · exact Or.inr ⟨binding, (List.mem_cons.mp hmem).resolve_left (fun h => hx (by rw [h])), rfl⟩

/-- Under a pattern, scopes have to agree only on the names that the pattern does not bind. -/
theorem Like.update {names : List String} (h : scope.Like V (n.without names) scope')
    (hbound : List.Forall₂ (Both Eq V) bound bound') (hbinds : ∀ x ∈ names, bound.Has x) :
    (scope.update bound).Like V n (scope'.update bound') := by
  intro x hx
  refine get?_update_like hbound ?_
  by_cases hvariable : x ∈ names
  · obtain ⟨v, hv⟩ := Option.isSome_iff_exists.mp (hbinds x hvariable)
    obtain ⟨name, hmem, hname⟩ := OrderedMap.exists_mem_of_find? hv
    exact Or.inr ⟨(name, v), hmem, (Std.compare_eq_iff_eq.mp hname).symm⟩
  · exact Or.inl (h x (List.mem_filter.mpr ⟨hx, by simpa using hvariable⟩))

end Scope

/-! ## Expressions that are alike at the top -/

section Alike

variable (E : Expr → Expr → Prop) (P : Pattern → Pattern → Prop) (V : Value → Value → Prop)

/-- Steps of safe navigation that differ in their arguments at most. -/
inductive SafeStep.Like : SafeStep → SafeStep → Prop
  | get {safe : Bool} {attr : Option (String × Span)} :
      Like (.mk safe none attr) (.mk safe none attr)
  | call {safe : Bool} {args args' : List Expr} {span : Span} {attr : Option (String × Span)}
      (h : List.Forall₂ E args args') :
      Like (.mk safe (some (args, span)) attr) (.mk safe (some (args', span)) attr)

/-- Parts of a text that differ in their expressions at most. -/
inductive TextPart.Like : TextPart → TextPart → Prop
  | text (s : String) : Like (.text s) (.text s)
  | expr {e e' : Expr} {format : Option String} (h : E e e') :
      Like (.expr e format) (.expr e' format)

/-- Entries with related keys and values. -/
inductive DictEntry.Like : DictEntry → DictEntry → Prop
  | mk {k k' v v' : Expr} {span span' : Span} (hkey : E k k') (hvalue : E v v') :
      Like (.mk k v span) (.mk k' v' span')

/-- Entries of a choice: besides, both or none are taken without a look at the key. -/
inductive DictEntry.LikeCase : DictEntry → DictEntry → Prop
  | mk {k k' v v' : Expr} {span span' : Span} (hkey : E k k') (hvalue : E v v')
      (hwild : k.ident? = some "_" ↔ k'.ident? = some "_") :
      LikeCase (.mk k v span) (.mk k' v' span')

/-- Slots with related patterns and fallbacks. -/
inductive Slot.Like : Slot → Slot → Prop
  | mk {p p' : Option Pattern} {fall fall' : Option Expr} (hpattern : Option.Rel P p p')
      (hfallback : Option.Rel E fall fall') : Like (.mk p fall) (.mk p' fall')

/-- The right sides of an arrow: two function literals, or two other expressions. -/
inductive Expr.LikeRight : Expr → Expr → Prop
  | function {param param' : Pattern} {body body' : Expr} {span span' : Span}
      (hparam : P param param') (hbody : E body body') :
      LikeRight (.function param body span) (.function param' body' span')
  | current {e e' : Expr} (he : e.isFunction = false) (he' : e'.isFunction = false) (h : E e e') :
      LikeRight e e'

/-- Whether an expression is a tuple. -/
def Expr.isTuple : Expr → Bool
  | .tuple _ _ => true
  | _ => false

/-- Whether an expression is a dictionary. -/
def Expr.isDict : Expr → Bool
  | .dict _ _ _ => true
  | _ => false

/-- Two expressions of the same construct at the same place, with related parts. Where a construct
looks at the form of a part, the parts have the same form. -/
inductive Expr.Like : Expr → Expr → Prop
  | literal {v v' : Value} {span : Span} (h : V v v') : Like (.literal v span) (.literal v' span)
  | ident (name : String) (span : Span) : Like (.ident name span) (.ident name span)
  | dot {lhs lhs' : Expr} {attr : String} {span : Span} (h : E lhs lhs') :
      Like (.dot lhs attr span) (.dot lhs' attr span)
  | project {lhs lhs' : Expr} {inverse : Bool} {attrs : List String} {span : Span}
      (h : E lhs lhs') : Like (.project lhs inverse attrs span) (.project lhs' inverse attrs span)
  | call {func func' arg arg' : Expr} {span : Span} (hfunc : E func func') (harg : E arg arg') :
      Like (.call func arg span) (.call func' arg' span)
  | binary {op : BinaryOp} {lhs lhs' rhs rhs' : Expr} {span : Span}
      (hop : op.bindsCurrent = false) (hlhs : E lhs lhs') (hrhs : E rhs rhs') :
      Like (.binary op lhs rhs span) (.binary op lhs' rhs' span)
  | arrow {op : BinaryOp} {lhs lhs' rhs rhs' : Expr} {span : Span}
      (hop : op.bindsCurrent = true) (hlhs : E lhs lhs') (hrhs : Expr.LikeRight E P rhs rhs') :
      Like (.binary op lhs rhs span) (.binary op lhs' rhs' span)
  | unary {op : UnaryOp} {operand operand' : Expr} {span : Span} (h : E operand operand') :
      Like (.unary op operand span) (.unary op operand' span)
  | package {inner inner' : Expr} {span : Span} (h : E inner inner') :
      Like (.package inner span) (.package inner' span)
  | paren {inner inner' : Expr} {span : Span} (h : E inner inner') :
      Like (.paren inner span) (.paren inner' span)
  | compare {args args' : List Expr} {ops : List CompareOp} {span : Span}
      (h : List.Forall₂ E args args') : Like (.compare args ops span) (.compare args' ops span)
  | ifElse {ifTrue ifTrue' condition condition' ifFalse ifFalse' : Expr} {span : Span}
      (htrue : E ifTrue ifTrue') (hcondition : E condition condition')
      (hfalse : E ifFalse ifFalse') :
      Like (.ifElse ifTrue condition ifFalse span) (.ifElse ifTrue' condition' ifFalse' span)
  | condControl {control control' : Expr} {arms arms' : List (Pattern × Expr)} {span : Span}
      (hcontrol : E control control') (harms : List.Forall₂ (Both P E) arms arms') :
      Like (.condControl control arms span) (.condControl control' arms' span)
  | condDict {entries entries' : List DictEntry} {conditional : Bool} {place place' span : Span}
      (h : List.Forall₂ (DictEntry.LikeCase E) entries entries') :
      Like (.cond (.dict entries conditional place) span)
        (.cond (.dict entries' conditional place') span)
  | cond {dict dict' : Expr} {span : Span} (hdict : dict.isDict = false)
      (hdict' : dict'.isDict = false) (h : E dict dict') : Like (.cond dict span) (.cond dict' span)
  | count {operand operand' : Expr} {span : Span} (h : E operand operand') :
      Like (.count operand span) (.count operand' span)
  | single {operand operand' : Expr} {span : Span} (h : E operand operand') :
      Like (.single operand span) (.single operand' span)
  | safeTail {fallback fallback' base base' : Expr} {steps steps' : List SafeStep} {span : Span}
      (hfallback : E fallback fallback') (hbase : E base base')
      (hsteps : List.Forall₂ (SafeStep.Like E) steps steps') :
      Like (.safeTail fallback base steps span) (.safeTail fallback' base' steps' span)
  | relation {names : List String} {rows rows' : List (List Expr)} {span : Span}
      (h : List.Forall₂ (List.Forall₂ E) rows rows') :
      Like (.relation names rows span) (.relation names rows' span)
  | set {elements elements' : List Expr} {span : Span} (h : List.Forall₂ E elements elements') :
      Like (.set elements span) (.set elements' span)
  | dict {entries entries' : List DictEntry} {conditional : Bool} {span : Span}
      (h : List.Forall₂ (DictEntry.Like E) entries entries') :
      Like (.dict entries conditional span) (.dict entries' conditional span)
  | array {items items' : List (Option Expr)} {span : Span}
      (h : List.Forall₂ (Option.Rel E) items items') : Like (.array items span) (.array items' span)
  | bytes {items items' : List Expr} {span : Span} (h : List.Forall₂ E items items') :
      Like (.bytes items span) (.bytes items' span)
  | tuple {attrs attrs' : List (String × Expr)} {span : Span}
      (h : List.Forall₂ (Both Eq E) attrs attrs') : Like (.tuple attrs span) (.tuple attrs' span)
  | function {param param' : Pattern} {body body' : Expr} {span : Span} (hparam : P param param')
      (hbody : E body body') : Like (.function param body span) (.function param' body' span)
  | recursion {name : String} {base base' fix fix' fixt fixt' : Expr} {span : Span}
      (hfunction : base.isFunction = base'.isFunction) (htuple : base.isTuple = base'.isTuple)
      (hbase : E base base') (hfix : E fix fix') (hfixt : E fixt fixt') :
      Like (.recursion name base fix fixt span) (.recursion name base' fix' fixt' span)
  | xstr {parts parts' : List TextPart} {span : Span}
      (h : List.Forall₂ (TextPart.Like E) parts parts') :
      Like (.xstr parts span) (.xstr parts' span)
  | nest {lhs lhs' : Expr} {inverse : Bool} {attrs : List String} {name : String} {span : Span}
      (h : E lhs lhs') :
      Like (.nest lhs inverse attrs name span) (.nest lhs' inverse attrs name span)

/-- Two patterns of the same form with related parts. -/
inductive Pattern.Like : Pattern → Pattern → Prop
  | name (name : String) (span span' : Span) :
      Like (.expr (.ident name span)) (.expr (.ident name span'))
  | expr {e e' : Expr} (he : e.isIdent = false) (he' : e'.isIdent = false) (h : E e e') :
      Like (.expr e) (.expr e')
  | exprs {es es' : List Expr} (h : List.Forall₂ E es es') : Like (.exprs es) (.exprs es')
  | array {slots slots' : List Slot} (h : List.Forall₂ (Slot.Like E P) slots slots') :
      Like (.array slots) (.array slots')
  | tuple {slots slots' : List (String × Slot)}
      (h : List.Forall₂ (Both Eq (Slot.Like E P)) slots slots') :
      Like (.tuple slots) (.tuple slots')
  | dict {slots slots' : List (Option Expr × Slot)}
      (h : List.Forall₂ (Both (Option.Rel E) (Slot.Like E P)) slots slots') :
      Like (.dict slots) (.dict slots')
  | set {elements elements' : List Pattern} (h : List.Forall₂ P elements elements') :
      Like (.set elements) (.set elements')
  | extra (name : Option String) : Like (.extra name) (.extra name)

/-- Native functions that do the same with related functions. -/
inductive Native.Like : Native → Native → Prop
  | fix : Like .fix .fix
  | fixt : Like .fixt .fixt
  | unfold {f f' : Value} (h : V f f') : Like (.unfold f) (.unfold f')
  | unfoldAttr {f f' : Value} {attr : String} (h : V f f') :
      Like (.unfoldAttr f attr) (.unfoldAttr f' attr)
  | loader (name : String) : Like (.loader name) (.loader name)
  | hosted {f f' : Value} (name : String) (h : V f f') : Like (.hosted name f) (.hosted name f')

end Alike

section Parts

variable {E : Expr → Expr → Prop} {P : Pattern → Pattern → Prop} {entry entry' : DictEntry}

theorem DictEntry.Like.key (h : entry.Like E entry') : E entry.key entry'.key := by
  cases h
  assumption

theorem DictEntry.Like.value (h : entry.Like E entry') : E entry.value entry'.value := by
  cases h
  assumption

theorem DictEntry.LikeCase.like (h : entry.LikeCase E entry') : entry.Like E entry' := by
  cases h with
  | mk hkey hvalue => exact .mk hkey hvalue

theorem DictEntry.LikeCase.wild (h : entry.LikeCase E entry') :
    entry.key.ident? = some "_" ↔ entry'.key.ident? = some "_" := by
  cases h
  assumption

theorem Slot.Like.pattern {slot slot' : Slot} (h : slot.Like E P slot') :
    Option.Rel P slot.pattern slot'.pattern := by
  cases h
  assumption

end Parts

/-! ## What is alike to itself -/

/-- The expressions that a construct is made of, where the dictionary of a choice is taken apart,
and so is a function literal on the right of an operator. -/
def Expr.subexprs : Expr → List Expr
  | .literal _ _ | .ident _ _ => []
  | .dot lhs _ _ | .project lhs _ _ _ | .nest lhs _ _ _ _ => [lhs]
  | .unary _ operand _ | .count operand _ | .single operand _ => [operand]
  | .package inner _ | .paren inner _ => [inner]
  | .call func arg _ => [func, arg]
  | .binary _ lhs (.function param body span) _ => [lhs, .function param body span, body]
  | .binary _ lhs rhs _ => [lhs, rhs]
  | .compare args _ _ | .set args _ | .bytes args _ => args
  | .ifElse ifTrue condition ifFalse _ => [ifTrue, condition, ifFalse]
  | .condControl control arms _ => control :: arms.map (·.2)
  | .cond (.dict entries _ _) _ => entries.flatMap fun entry => [entry.key, entry.value]
  | .cond conditions _ => [conditions]
  | .safeTail fallback base steps _ => fallback :: base :: steps.flatMap SafeStep.arguments
  | .relation _ rows _ => rows.flatten
  | .dict entries _ _ => entries.flatMap fun entry => [entry.key, entry.value]
  | .array items _ => items.filterMap id
  | .tuple attrs _ => attrs.map (·.2)
  | .function _ body _ => [body]
  | .recursion _ base fix fixt _ => [base, fix, fixt]
  | .xstr parts _ => parts.filterMap TextPart.expr?

/-- The patterns that a construct is made of. -/
def Expr.subpatterns : Expr → List Pattern
  | .binary _ _ (.function param _ _) _ | .function param _ _ => [param]
  | .condControl _ arms _ => arms.map (·.1)
  | _ => []

section Self

variable {E : Expr → Expr → Prop} {P : Pattern → Pattern → Prop} {V : Value → Value → Prop}

theorem DictEntry.related_self {entries : List DictEntry}
    (h : ∀ e ∈ entries.flatMap fun entry => [entry.key, entry.value], E e e) :
    ∀ entry ∈ entries, E entry.key entry.key ∧ E entry.value entry.value := by
  intro entry hmem
  have hparts : ∀ e ∈ [entry.key, entry.value], E e e := fun e he =>
    h e (List.mem_flatMap.mpr ⟨entry, hmem, he⟩)
  exact ⟨hparts _ (by simp), hparts _ (by simp)⟩

theorem Expr.likeRight_self {lhs rhs : Expr} {op : BinaryOp} {span : Span}
    (hE : ∀ e ∈ (Expr.binary op lhs rhs span).subexprs, E e e)
    (hP : ∀ p ∈ (Expr.binary op lhs rhs span).subpatterns, P p p) :
    E lhs lhs ∧ E rhs rhs ∧ rhs.LikeRight E P rhs := by
  cases rhs with
  | function param body place =>
    obtain ⟨hlhs, hrest⟩ := List.forall_mem_cons.mp hE
    obtain ⟨hrhs, hbody⟩ := List.forall_mem_cons.mp hrest
    exact ⟨hlhs, hrhs, .function (hP param (List.mem_singleton_self _))
      (hbody body (List.mem_singleton_self _))⟩
  | _ =>
    obtain ⟨hlhs, hrhs⟩ := List.forall_mem_cons.mp hE
    have hrhs := hrhs _ (List.mem_singleton_self _)
    exact ⟨hlhs, hrhs, .current rfl rfl hrhs⟩

/-- An expression is alike to itself if its parts are related to themselves. -/
theorem Expr.like_self {e : Expr} (hE : ∀ c ∈ e.subexprs, E c c) (hP : ∀ p ∈ e.subpatterns, P p p)
    (hV : ∀ v span, e = .literal v span → V v v) : e.Like E P V e := by
  cases e with
  | literal v span => exact .literal (hV v span rfl)
  | ident name span => exact .ident name span
  | dot lhs => exact .dot (hE lhs (List.mem_singleton_self _))
  | project lhs => exact .project (hE lhs (List.mem_singleton_self _))
  | nest lhs => exact .nest (hE lhs (List.mem_singleton_self _))
  | unary op operand => exact .unary (hE operand (List.mem_singleton_self _))
  | count operand => exact .count (hE operand (List.mem_singleton_self _))
  | single operand => exact .single (hE operand (List.mem_singleton_self _))
  | package inner => exact .package (hE inner (List.mem_singleton_self _))
  | paren inner => exact .paren (hE inner (List.mem_singleton_self _))
  | call func arg =>
    obtain ⟨hfunc, harg⟩ := List.forall_mem_cons.mp hE
    exact .call hfunc (harg arg (List.mem_singleton_self _))
  | binary op lhs rhs span =>
    obtain ⟨hlhs, hrhs, hright⟩ := likeRight_self hE hP
    cases hop : op.bindsCurrent with
    | true => exact .arrow hop hlhs hright
    | false => exact .binary hop hlhs hrhs
  | compare args => exact .compare (List.forall₂_same.mpr hE)
  | set elements => exact .set (List.forall₂_same.mpr hE)
  | bytes items => exact .bytes (List.forall₂_same.mpr hE)
  | ifElse ifTrue condition ifFalse =>
    obtain ⟨htrue, hrest⟩ := List.forall_mem_cons.mp hE
    obtain ⟨hcondition, hfalse⟩ := List.forall_mem_cons.mp hrest
    exact .ifElse htrue hcondition (hfalse ifFalse (List.mem_singleton_self _))
  | condControl control arms =>
    obtain ⟨hcontrol, hbodies⟩ := List.forall_mem_cons.mp hE
    refine .condControl hcontrol (List.forall₂_same.mpr fun arm hmem => ?_)
    exact ⟨hP _ (List.mem_map_of_mem hmem), hbodies _ (List.mem_map_of_mem hmem)⟩
  | cond dict span =>
    cases dict with
    | dict entries conditional place =>
      refine .condDict (List.forall₂_same.mpr fun entry hmem => ?_)
      obtain ⟨hkey, hvalue⟩ := DictEntry.related_self hE entry hmem
      cases entry
      exact .mk hkey hvalue Iff.rfl
    | _ => exact .cond rfl rfl (hE _ (List.mem_singleton_self _))
  | safeTail fallback base steps =>
    obtain ⟨hfallback, hrest⟩ := List.forall_mem_cons.mp hE
    obtain ⟨hbase, hargs⟩ := List.forall_mem_cons.mp hrest
    refine .safeTail hfallback hbase (List.forall₂_same.mpr fun step hmem => ?_)
    obtain ⟨safe, _ | ⟨args, place⟩, attr⟩ := step
    · exact .get
    · exact .call (List.forall₂_same.mpr fun arg harg =>
        hargs arg (List.mem_flatMap.mpr ⟨_, hmem, harg⟩))
  | relation names rows =>
    refine .relation (List.forall₂_same.mpr fun row hrow => List.forall₂_same.mpr fun e he => ?_)
    exact hE e (List.mem_flatten.mpr ⟨row, hrow, he⟩)
  | dict entries =>
    refine .dict (List.forall₂_same.mpr fun entry hmem => ?_)
    obtain ⟨hkey, hvalue⟩ := DictEntry.related_self hE entry hmem
    cases entry
    exact .mk hkey hvalue
  | array items =>
    refine .array (List.forall₂_same.mpr fun item hmem => ?_)
    cases item with
    | none => exact .none
    | some c => exact .some (hE c (List.mem_filterMap.mpr ⟨_, hmem, rfl⟩))
  | tuple attrs =>
    exact .tuple (List.forall₂_same.mpr fun attr hmem => ⟨rfl, hE _ (List.mem_map_of_mem hmem)⟩)
  | function param body =>
    exact .function (hP param (List.mem_singleton_self _)) (hE body (List.mem_singleton_self _))
  | recursion name base fix fixt =>
    obtain ⟨hbase, hrest⟩ := List.forall_mem_cons.mp hE
    obtain ⟨hfix, hfixt⟩ := List.forall_mem_cons.mp hrest
    exact .recursion rfl rfl hbase hfix (hfixt fixt (List.mem_singleton_self _))
  | xstr parts =>
    refine .xstr (List.forall₂_same.mpr fun part hmem => ?_)
    cases part with
    | text s => exact .text s
    | expr c format => exact .expr (hE c (List.mem_filterMap.mpr ⟨_, hmem, rfl⟩))

/-- A pattern is alike to itself if what it reads and matches is related to itself. -/
theorem Pattern.like_self {p : Pattern} (hE : ∀ e ∈ p.reads, E e e) (hP : ∀ q ∈ p.parts, P q q) :
    p.Like E P p := by
  have hslots : ∀ slot ∈ p.slots, Slot.Like E P slot slot := by
    intro slot hmem
    obtain ⟨hpattern, hfallback⟩ :=
      Pattern.slot_has (E := fun e => E e e) (P := fun q => P q q) hE hP slot hmem
    obtain ⟨pattern, fallback⟩ := slot
    constructor
    · cases pattern with
      | none => exact .none
      | some q => exact .some (hpattern q rfl)
    · cases fallback with
      | none => exact .none
      | some e => exact .some (hfallback e rfl)
  cases p with
  | expr e =>
    cases hident : e.isIdent with
    | false =>
      have hmem : e ∈ (Pattern.expr e).literals := by simp [literals, hident]
      exact .expr hident hident (hE e (mem_reads_of_mem_literals hmem))
    | true =>
      cases e with
      | ident name span => exact .name name span span
      | _ => cases hident
  | exprs es => exact .exprs (List.forall₂_same.mpr fun e he => hE e (mem_reads_of_mem_literals he))
  | array slots => exact .array (List.forall₂_same.mpr hslots)
  | tuple slots =>
    exact .tuple (List.forall₂_same.mpr fun slot hmem =>
      ⟨rfl, hslots slot.2 (List.mem_map_of_mem hmem)⟩)
  | dict slots =>
    refine .dict (List.forall₂_same.mpr fun slot hmem =>
      ⟨?_, hslots slot.2 (List.mem_map_of_mem hmem)⟩)
    obtain ⟨_ | key, slot⟩ := slot
    · exact .none
    · exact .some (hE key (mem_reads_of_mem_keys (List.mem_filterMap.mpr ⟨_, hmem, rfl⟩)))
  | set elements => exact .set (List.forall₂_same.mpr hP)
  | extra name => exact .extra name

end Self

/-- The names that a function takes from the scope it captured. -/
def Pattern.namesUnder (param : Pattern) (body : Expr) : Names :=
  param.names ++ body.names.without param.variables

/-! ## Correspondences -/

/-- What the values, expressions and patterns of two evaluations have to do with each other, and the
texts and the next identities. -/
structure Correspondence where
  value : Value → Value → Prop
  expr : Expr → Expr → Prop
  pattern : Pattern → Pattern → Prop
  text : String → String → Prop
  next : Identity → Identity → Prop

namespace Correspondence

/-- Runs in lockstep, with the relations of a correspondence. -/
abbrev Sim (C : Correspondence) {α α' : Type} (r : Run α) (r' : Run α') (Q : α → α' → Prop) :
    Prop := Run.Sim C.next C.text r r' Q

/-- Bindings of the same names to related values. -/
abbrev bindings (C : Correspondence) : Scope → Scope → Prop := List.Forall₂ (Both Eq C.value)

/-- Related expressions in scopes that agree on what they read. -/
abbrev exprIn (C : Correspondence) (scope scope' : Scope) (e e' : Expr) : Prop :=
  C.expr e e' ∧ scope.Like C.value e.names scope'

/-- Related patterns in scopes that agree on what they read. -/
abbrev patternIn (C : Correspondence) (scope scope' : Scope) (p p' : Pattern) : Prop :=
  C.pattern p p' ∧ scope.Like C.value p.names scope'

/-- Slots of related patterns in scopes that agree on what they read. -/
abbrev slotIn (C : Correspondence) (scope scope' : Scope) (slot slot' : Slot) : Prop :=
  slot.Like C.expr C.pattern slot' ∧ scope.Like C.value slot.names scope'

/-- The relations of a correspondence go on to the parts. -/
structure Lawful (C : Correspondence) : Prop where
  likeness : Value.Likeness C.value C.text
  next {n n' : Identity} (h : C.next n n') : C.next (n + 1) (n' + 1)
  closure {i i' : Identity} {param param' : Pattern} {body body' : Expr} {scope scope' : Scope}
    (hi : C.next i i') (hparam : C.pattern param param') (hbody : C.expr body body')
    (hscope : scope.Like C.value (param.namesUnder body) scope') :
    C.value (.closure i param body scope) (.closure i' param' body' scope')
  enter {i i' : Identity} {param param' : Pattern} {body body' : Expr} {scope scope' : Scope}
    (h : C.value (.closure i param body scope) (.closure i' param' body' scope')) :
    C.pattern param param' ∧ C.expr body body' ∧
      scope.Like C.value (param.namesUnder body) scope'
  native {i i' : Identity} {f f' : Native} (h : C.value (.native i f) (.native i' f')) :
    f.Like C.value f'
  unfold {i i' : Identity} {f f' : Value} (hi : C.next i i') (hf : C.value f f') :
    C.value (.native i (.unfold f)) (.native i' (.unfold f'))
  unfoldAttr {i i' : Identity} {f f' : Value} (hi : C.next i i') (hf : C.value f f')
    (attr : String) : C.value (.native i (.unfoldAttr f attr)) (.native i' (.unfoldAttr f' attr))
  name (name : String) (span : Span) :
    C.pattern (.expr (.ident name span)) (.expr (.ident name span))
  matched {p p' : Pattern} (h : C.pattern p p') : p.Like C.expr C.pattern p'
  exprText {e e' : Expr} (h : C.expr e e') : C.text e.text e'.text
  patternText {p p' : Pattern} (h : C.pattern p p') : C.text p.text p'.text

end Correspondence

/-- One evaluator is simulated by another: it evaluates, calls and matches in lockstep with it. A
match of a pattern binds the variables of the pattern. -/
structure Evaluator.Sim (C : Correspondence) (ev ev' : Evaluator) : Prop where
  eval {e e' : Expr} {scope scope' : Scope} (he : C.exprIn scope scope' e e') :
    C.Sim (ev.eval e scope) (ev'.eval e' scope') C.value
  call {f f' arg arg' : Value} (hf : C.value f f') (harg : C.value arg arg') :
    C.Sim (ev.call f arg) (ev'.call f' arg') C.value
  bind {p p' : Pattern} {scope scope' bound bound' : Scope} {v v' : Value}
    (hp : C.patternIn scope scope' p p') (hv : C.value v v') (hbound : C.bindings bound bound') :
    C.Sim (ev.bind p scope v bound) (ev'.bind p' scope' v' bound') C.bindings
  binds (p : Pattern) (scope : Scope) (v : Value) :
    (ev.bindings p scope v).Safe (fun _ => True) fun bound => ∀ x ∈ p.variables, bound.Has x

end Relational
