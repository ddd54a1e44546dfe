import Relational.Compiler.Basic
import Relational.Proofs.Invariant
import Relational.Proofs.Lowered

/-!
# Well-formed expressions

The type of expressions leaves room for some that no program has: a chain of comparisons with too
few operands, a relation with rows of different lengths, a choice over something that is no
dictionary. Well-formed expressions have none of these at any depth, and neither have the functions
that stand in their literals.

> `rules_formed`: lowering makes well-formed expressions of well-formed parts.

> `formed_invariant`: evaluation hands on well-formed expressions and values, so that it never finds
> one of the errors that are left for the others.
-/

namespace Relational

/-! ## Well-formedness -/

mutual

/-- An expression is well formed, and its places and those of all its parts have a property. -/
inductive Expr.Formed (S : Span → Prop) : Expr → Prop
  | literal {v : Value} {span : Span} (hspan : S span) (hv : Value.Formed S v) :
    Expr.Formed S (.literal v span)
  | ident {name : String} {span : Span} (hspan : S span) : Expr.Formed S (.ident name span)
  | dot {base : Expr} {attr : String} {span : Span} (hspan : S span)
    (hbase : Expr.Formed S base) : Expr.Formed S (.dot base attr span)
  | project {base : Expr} {inverse : Bool} {attrs : List String} {span : Span} (hspan : S span)
    (hbase : Expr.Formed S base) : Expr.Formed S (.project base inverse attrs span)
  | call {func arg : Expr} {span : Span} (hspan : S span) (hfunc : Expr.Formed S func)
    (harg : Expr.Formed S arg) : Expr.Formed S (.call func arg span)
  | binary {op : BinaryOp} {lhs rhs : Expr} {span : Span} (hspan : S span)
    (hlhs : Expr.Formed S lhs) (hrhs : Expr.Formed S rhs) : Expr.Formed S (.binary op lhs rhs span)
  | unary {op : UnaryOp} {operand : Expr} {span : Span} (hspan : S span)
    (hoperand : Expr.Formed S operand) : Expr.Formed S (.unary op operand span)
  | package {inner : Expr} {span : Span} (hspan : S span) (hinner : Expr.Formed S inner) :
    Expr.Formed S (.package inner span)
  /-- There is one operand more than operators. -/
  | compare {args : List Expr} {ops : List CompareOp} {span : Span} (hspan : S span)
    (hargs : ∀ a ∈ args, Expr.Formed S a) (hlength : args.length = ops.length + 1) :
    Expr.Formed S (.compare args ops span)
  | ifElse {ifTrue condition ifFalse : Expr} {span : Span} (hspan : S span)
    (hifTrue : Expr.Formed S ifTrue) (hcondition : Expr.Formed S condition)
    (hifFalse : Expr.Formed S ifFalse) : Expr.Formed S (.ifElse ifTrue condition ifFalse span)
  | condControl {control : Expr} {arms : List (Pattern × Expr)} {span : Span} (hspan : S span)
    (hcontrol : Expr.Formed S control) (hpatterns : ∀ arm ∈ arms, Pattern.Formed S arm.1)
    (hbodies : ∀ arm ∈ arms, Expr.Formed S arm.2) : Expr.Formed S (.condControl control arms span)
  /-- A choice is over a conditional dictionary with entries, or over an empty one. -/
  | cond {conditions : Expr} {span : Span} (hspan : S span)
    (hconditions : Expr.Formed S conditions) (hform : conditions.IsConditions) :
    Expr.Formed S (.cond conditions span)
  | count {operand : Expr} {span : Span} (hspan : S span) (hoperand : Expr.Formed S operand) :
    Expr.Formed S (.count operand span)
  | single {operand : Expr} {span : Span} (hspan : S span) (hoperand : Expr.Formed S operand) :
    Expr.Formed S (.single operand span)
  /-- There is a first step, and it is safe. -/
  | safeTail {fallback base : Expr} {first : SafeStep} {rest : List SafeStep} {span : Span}
    (hspan : S span) (hfallback : Expr.Formed S fallback) (hbase : Expr.Formed S base)
    (hargs : ∀ step ∈ first :: rest, ∀ a ∈ step.arguments, Expr.Formed S a)
    (hspans : ∀ step ∈ first :: rest, ∀ span ∈ step.spans, S span) (hfirst : first.safe = true) :
    Expr.Formed S (.safeTail fallback base (first :: rest) span)
  /-- The names differ from each other, and every row has a value for each of them. -/
  | relation {names : List String} {rows : List (List Expr)} {span : Span} (hspan : S span)
    (hnames : names.Nodup) (hlengths : ∀ row ∈ rows, row.length = names.length)
    (hrows : ∀ row ∈ rows, ∀ a ∈ row, Expr.Formed S a) : Expr.Formed S (.relation names rows span)
  | set {elements : List Expr} {span : Span} (hspan : S span)
    (helements : ∀ a ∈ elements, Expr.Formed S a) : Expr.Formed S (.set elements span)
  | dict {entries : List DictEntry} {conditional : Bool} {span : Span} (hspan : S span)
    (hkeys : ∀ entry ∈ entries, Expr.Formed S entry.key)
    (hvalues : ∀ entry ∈ entries, Expr.Formed S entry.value)
    (hspans : ∀ entry ∈ entries, S entry.span) : Expr.Formed S (.dict entries conditional span)
  | array {items : List (Option Expr)} {span : Span} (hspan : S span)
    (hitems : ∀ a, some a ∈ items → Expr.Formed S a) : Expr.Formed S (.array items span)
  | bytes {items : List Expr} {span : Span} (hspan : S span)
    (hitems : ∀ a ∈ items, Expr.Formed S a) : Expr.Formed S (.bytes items span)
  | tuple {attrs : List (String × Expr)} {span : Span} (hspan : S span)
    (hattrs : ∀ attr ∈ attrs, Expr.Formed S attr.2) : Expr.Formed S (.tuple attrs span)
  | function {param : Pattern} {body : Expr} {span : Span} (hspan : S span)
    (hparam : Pattern.Formed S param) (hbody : Expr.Formed S body) :
    Expr.Formed S (.function param body span)
  | recursion {name : String} {base fix fixt : Expr} {span : Span} (hspan : S span)
    (hbase : Expr.Formed S base) (hfix : Expr.Formed S fix) (hfixt : Expr.Formed S fixt) :
    Expr.Formed S (.recursion name base fix fixt span)
  | paren {inner : Expr} {span : Span} (hspan : S span) (hinner : Expr.Formed S inner) :
    Expr.Formed S (.paren inner span)
  | xstr {parts : List TextPart} {span : Span} (hspan : S span)
    (hparts : ∀ e format, .expr e format ∈ parts → Expr.Formed S e) :
    Expr.Formed S (.xstr parts span)
  | nest {lhs : Expr} {inverse : Bool} {attrs : List String} {name : String} {span : Span}
    (hspan : S span) (hlhs : Expr.Formed S lhs) : Expr.Formed S (.nest lhs inverse attrs name span)

/-- The keys, literals and fallbacks of a pattern are well formed, and nowhere in it do two elements
take what the others leave. -/
inductive Pattern.Formed (S : Span → Prop) : Pattern → Prop
  | expr {e : Expr} (he : Expr.Formed S e) : Pattern.Formed S (.expr e)
  | exprs {es : List Expr} (hes : ∀ e ∈ es, Expr.Formed S e) : Pattern.Formed S (.exprs es)
  | array {slots : List Slot}
    (hpatterns : ∀ slot ∈ slots, ∀ p, slot.pattern = some p → Pattern.Formed S p)
    (hfallbacks : ∀ slot ∈ slots, ∀ e, slot.fallback = some e → Expr.Formed S e)
    (hextra : slots.countP Slot.isExtra ≤ 1) : Pattern.Formed S (.array slots)
  | tuple {slots : List (String × Slot)}
    (hpatterns : ∀ slot ∈ slots, ∀ p, slot.2.pattern = some p → Pattern.Formed S p)
    (hfallbacks : ∀ slot ∈ slots, ∀ e, slot.2.fallback = some e → Expr.Formed S e)
    (hextra : slots.countP (·.2.isExtra) ≤ 1) : Pattern.Formed S (.tuple slots)
  /-- Only an element that takes what the others leave has no key. -/
  | dict {slots : List (Option Expr × Slot)}
    (hkeys : ∀ slot ∈ slots, ∀ key, slot.1 = some key → Expr.Formed S key)
    (hpatterns : ∀ slot ∈ slots, ∀ p, slot.2.pattern = some p → Pattern.Formed S p)
    (hfallbacks : ∀ slot ∈ slots, ∀ e, slot.2.fallback = some e → Expr.Formed S e)
    (hnone : ∀ slot ∈ slots, slot.1 = none → slot.2.isExtra = true)
    (hextra : slots.countP (·.2.isExtra) ≤ 1) : Pattern.Formed S (.dict slots)
  | set {elements : List Pattern} (helements : ∀ p ∈ elements, Pattern.Formed S p)
    (hextra : elements.countP Lowering.isExtraPattern ≤ 1) : Pattern.Formed S (.set elements)
  | extra {name : Option String} : Pattern.Formed S (.extra name)

/-- The functions in a value are well formed. -/
inductive Value.Formed (S : Span → Prop) : Value → Prop
  | bool {b : Bool} : Value.Formed S (.bool b)
  | number {x : Number} : Value.Formed S (.number x)
  | string {s : String} : Value.Formed S (.string s)
  | bytes {b : List UInt8} : Value.Formed S (.bytes b)
  | array {items : List (Option Value)} (hitems : ∀ v, some v ∈ items → Value.Formed S v) :
    Value.Formed S (.array items)
  | tuple {attrs : List (String × Value)} (hattrs : ∀ attr ∈ attrs, Value.Formed S attr.2) :
    Value.Formed S (.tuple attrs)
  | set {members : List Value} (hmembers : ∀ v ∈ members, Value.Formed S v) :
    Value.Formed S (.set members)
  | dict {entries : List (Value × Value)} (hkeys : ∀ entry ∈ entries, Value.Formed S entry.1)
    (hvalues : ∀ entry ∈ entries, Value.Formed S entry.2) : Value.Formed S (.dict entries)
  | closure {identity : Identity} {param : Pattern} {body : Expr}
    {captured : List (String × Value)} (hparam : Pattern.Formed S param)
    (hbody : Expr.Formed S body) (hcaptured : ∀ binding ∈ captured, Value.Formed S binding.2) :
    Value.Formed S (.closure identity param body captured)
  | fix {identity : Identity} : Value.Formed S (.native identity .fix)
  | fixt {identity : Identity} : Value.Formed S (.native identity .fixt)
  | unfold {identity : Identity} {f : Value} (hf : Value.Formed S f) :
    Value.Formed S (.native identity (.unfold f))
  | unfoldAttr {identity : Identity} {f : Value} {attr : String} (hf : Value.Formed S f) :
    Value.Formed S (.native identity (.unfoldAttr f attr))
  | loader {identity : Identity} {name : String} :
    Value.Formed S (.native identity (.loader name))
  | hosted {identity : Identity} {name : String} {f : Value} (hf : Value.Formed S f) :
    Value.Formed S (.native identity (.hosted name f))

end

variable {S : Span → Prop}

theorem Expr.Formed.span_has {e : Expr} (h : e.Formed S) : S e.span := by
  cases h <;> assumption

theorem Value.hereditary_formed : Value.Hereditary (Value.Formed S) where
  bool _ := .bool
  number _ := .number
  string _ := .string
  bytes _ := .bytes
  array := ⟨fun | .array hitems => hitems, .array⟩
  tuple := ⟨fun | .tuple hattrs => hattrs, .tuple⟩
  set := ⟨fun | .set hmembers => hmembers, .set⟩
  dict := by
    refine ⟨fun h entry hentry => ?_, fun h => ?_⟩
    · cases h with
      | dict hkeys hvalues => exact ⟨hkeys entry hentry, hvalues entry hentry⟩
    · exact .dict (fun entry hentry => (h entry hentry).1) fun entry hentry => (h entry hentry).2

/-! ## Lowering -/

/-- What lowering makes of well-formed parts is well formed, with the places that it makes of
theirs. Recursion takes in two functions that stand in no source. -/
theorem Lowering.rules_formed (hunknown : S .unknown)
    (hmergeOr : ∀ {fallback spans}, S fallback → (∀ span ∈ spans, S span) →
      S (Span.mergeOr fallback spans))
    (hextendLeft : ∀ {span : Span}, S span → S (span.extendLeft 1)) :
    Rules (Expr.Formed S) (Pattern.Formed S) S where
  literal hspan hv := .literal hspan (hv.isData _ Value.hereditary_formed)
  ident := .ident
  dot := .dot
  project := .project
  call := .call
  binary := .binary
  unary := .unary
  package := .package
  compare := .compare
  ifElse := .ifElse
  condControl hspan hcontrol harms :=
    .condControl hspan hcontrol (fun arm harm => (harms arm harm).1) fun arm harm =>
      (harms arm harm).2
  cond := .cond
  count := .count
  single := .single
  safeTail hspan hfallback hbase hsteps hfirst :=
    .safeTail hspan hfallback hbase (fun step hstep => (hsteps step hstep).1)
      (fun step hstep => (hsteps step hstep).2) hfirst
  relation hspan hnames hrows :=
    .relation hspan hnames (fun row hrow => (hrows row hrow).1) fun row hrow => (hrows row hrow).2
  set := .set
  dict hspan hentries :=
    .dict hspan (fun entry hentry => (hentries entry hentry).1)
      (fun entry hentry => (hentries entry hentry).2.1) fun entry hentry =>
        (hentries entry hentry).2.2
  array := .array
  bytes := .bytes
  tuple := .tuple
  function := .function
  recursion hspan hbase := .recursion hspan hbase (.literal hunknown .fix) (.literal hunknown .fixt)
  paren := .paren
  xstr := .xstr
  nest := .nest
  exprPattern := .expr
  exprsPattern := .exprs
  arrayPattern hslots hextra :=
    .array (fun slot hslot => (hslots slot hslot).1) (fun slot hslot => (hslots slot hslot).2)
      hextra
  tuplePattern hslots hextra :=
    .tuple (fun slot hslot => (hslots slot hslot).1) (fun slot hslot => (hslots slot hslot).2)
      hextra
  dictPattern hslots hextra :=
    .dict (fun slot hslot => (hslots slot hslot).2.1) (fun slot hslot => (hslots slot hslot).1.1)
      (fun slot hslot => (hslots slot hslot).1.2) (fun slot hslot => (hslots slot hslot).2.2) hextra
  setPattern := .set
  extraPattern := .extra
  exprSpan := Expr.Formed.span_has
  mergeOr := hmergeOr
  extendLeft := hextendLeft

/-! ## Evaluation -/

/-- The errors that are left for expressions that are not well formed: a chain of comparisons
without operands or with a wrong count of them, and a choice over something that is no
dictionary. -/
def Cause.BlamesForm (cause : Cause) : Prop :=
  cause = .emptyChain ∨ (∃ operands operators, cause = .chainArity operands operators) ∨
    ∃ got, cause = .unexpected "cond" "a dict" got

theorem Cause.blamesExpr_of_blamesForm {cause : Cause} (h : cause.BlamesForm) :
    cause.blamesExpr = true := by
  rcases h with rfl | ⟨_, _, rfl⟩ | ⟨_, rfl⟩ <;> rfl

/-- The parts of a well-formed expression are well formed. -/
theorem Expr.Formed.part {e : Expr} (h : e.Formed S) : ∀ part ∈ e.parts, part.Formed S := by
  cases h with
  | literal | ident | binary | function => exact List.forall_mem_nil _
  | dot _ h | project _ h | nest _ h | unary _ h | count _ h | single _ h | package _ h
  | paren _ h => exact List.forall_mem_singleton.mpr h
  | call _ hfunc harg =>
    exact List.forall_mem_cons.mpr ⟨hfunc, List.forall_mem_singleton.mpr harg⟩
  | compare _ hargs _ => exact hargs
  | set _ helements => exact helements
  | bytes _ hitems => exact hitems
  | ifElse _ hifTrue hcondition hifFalse =>
    exact List.forall_mem_cons.mpr ⟨hcondition,
      List.forall_mem_cons.mpr ⟨hifTrue, List.forall_mem_singleton.mpr hifFalse⟩⟩
  | condControl _ hcontrol _ _ => exact List.forall_mem_singleton.mpr hcontrol
  | cond _ hconditions hform =>
    rcases hform with ⟨span, rfl⟩ | ⟨entries, span, -, rfl⟩
    · exact List.forall_mem_singleton.mpr hconditions
    · cases hconditions with
      | dict _ hkeys hvalues _ =>
        intro part hpart
        obtain ⟨entry, hentry, hpart⟩ := List.mem_flatMap.mp hpart
        unfold DictEntry.alternatives at hpart
        split at hpart
        next => exact List.mem_singleton.mp hpart ▸ hvalues entry hentry
        next =>
          rcases List.mem_cons.mp hpart with rfl | hpart
          · exact hkeys entry hentry
          · exact List.mem_singleton.mp hpart ▸ hvalues entry hentry
  | safeTail _ hfallback hbase hargs _ _ =>
    refine List.forall_mem_cons.mpr ⟨hbase, List.forall_mem_cons.mpr ⟨hfallback, ?_⟩⟩
    intro part hpart
    obtain ⟨step, hstep, hpart⟩ := List.mem_flatMap.mp hpart
    exact hargs step hstep part hpart
  | relation _ _ _ hrows =>
    intro part hpart
    obtain ⟨row, hrow, hpart⟩ := List.mem_flatten.mp hpart
    exact hrows row hrow part hpart
  | dict _ hkeys hvalues _ =>
    intro part hpart
    obtain ⟨entry, hentry, hpart⟩ := List.mem_flatMap.mp hpart
    rcases List.mem_cons.mp hpart with rfl | hpart
    · exact hkeys entry hentry
    · exact List.mem_singleton.mp hpart ▸ hvalues entry hentry
  | array _ hitems =>
    intro part hpart
    obtain ⟨item, hitem, rfl⟩ := List.mem_filterMap.mp hpart
    exact hitems part hitem
  | tuple _ hattrs =>
    intro part hpart
    obtain ⟨attr, hattr, rfl⟩ := List.mem_map.mp hpart
    exact hattrs attr hattr
  | recursion _ _ hfix hfixt =>
    exact List.forall_mem_cons.mpr ⟨hfix, List.forall_mem_singleton.mpr hfixt⟩
  | xstr _ hparts =>
    intro part hpart
    obtain ⟨piece, hpiece, hpart⟩ := List.mem_filterMap.mp hpart
    cases piece with
    | text => cases hpart
    | expr e format => exact Option.some.inj hpart ▸ hparts e format hpiece

namespace Pattern.Formed

variable {pattern : Pattern} (h : pattern.Formed S)

include h

theorem slot : ∀ slot ∈ pattern.slots, slot.Has (Expr.Formed S) (Pattern.Formed S) := by
  cases h with
  | array hpatterns hfallbacks _ =>
    exact fun slot hslot => ⟨hpatterns slot hslot, hfallbacks slot hslot⟩
  | tuple hpatterns hfallbacks _ | dict _ hpatterns hfallbacks _ _ =>
    refine List.forall_mem_map.mpr fun slot hslot => ?_
    exact ⟨hpatterns slot hslot, hfallbacks slot hslot⟩
  | expr | exprs | set | extra => exact List.forall_mem_nil _

theorem reads : ∀ e ∈ pattern.reads, e.Formed S := by
  have hkeys : ∀ e ∈ pattern.keys, e.Formed S := by
    cases h with
    | dict hkeys =>
      intro e he
      obtain ⟨slot, hslot, hkey⟩ := List.mem_filterMap.mp he
      exact hkeys slot hslot e hkey
    | array | tuple | expr | exprs | set | extra => exact List.forall_mem_nil _
  have hliterals : ∀ e ∈ pattern.literals, e.Formed S := by
    cases h with
    | expr he =>
      rw [literals]
      split
      next => exact List.forall_mem_nil _
      next => exact List.forall_mem_singleton.mpr he
    | exprs hes => exact hes
    | array | tuple | dict | set | extra => exact List.forall_mem_nil _
  refine List.forall_mem_append.mpr ⟨List.forall_mem_append.mpr ⟨hkeys, hliterals⟩, fun e he => ?_⟩
  obtain ⟨slot, hslot, hfallback⟩ := List.mem_filterMap.mp he
  exact (h.slot slot hslot).2 e hfallback

theorem parts : ∀ part ∈ pattern.parts, part.Formed S := by
  have hslots : ∀ part ∈ pattern.slots.filterMap Slot.pattern, part.Formed S := by
    intro part hpart
    obtain ⟨slot, hslot, hpattern⟩ := List.mem_filterMap.mp hpart
    exact (h.slot slot hslot).1 part hpattern
  cases h with
  | set helements => exact helements
  | array | tuple | dict | expr | exprs | extra => exact hslots

end Pattern.Formed

/-- Evaluation hands on well-formed expressions, patterns and values, whatever the names in scope,
and never blames their form. -/
theorem formed_invariant : Invariant (Value.Formed S) (fun e _ => e.Formed S)
    (fun p _ => p.Formed S) fun failure => ¬failure.cause.BlamesForm where
  hereditary := Value.hereditary_formed
  closure := fun | .closure hparam hbody hcaptured => ⟨hparam, fun _ _ => hbody, hcaptured⟩
  unfold := ⟨fun | .unfold hf => hf, .unfold⟩
  unfoldAttr := ⟨fun | .unfoldAttr hf => hf, .unfoldAttr⟩
  hosted := fun | .hosted hf => hf
  literal := fun | .literal _ hv => hv
  ident _ := Or.inr (by rintro (h | ⟨_, _, h⟩ | ⟨_, h⟩) <;> cases h)
  part := Expr.Formed.part
  binary h := by
    cases h with
    | binary _ hlhs hrhs =>
      refine ⟨hlhs, ?_⟩
      split
      next => exact fun _ _ => hrhs
      next => exact hrhs
  -- the form is used in two rules only: here a chain has the right count of operands
  compare := fun | .compare _ _ hlength => Or.inl hlength
  -- and here a choice is over a dictionary
  cond := fun
    | .cond _ _ hform => by
      rcases hform with ⟨span, rfl⟩ | ⟨entries, span, -, rfl⟩
      · exact Or.inr (Or.inl ⟨[], span, rfl⟩)
      · exact Or.inl ⟨entries, true, span, rfl⟩
  arms := fun
    | .condControl _ _ hpatterns hbodies => fun arm harm =>
      ⟨hpatterns arm harm, fun _ _ => hbodies arm harm⟩
  function := fun | .function _ hparam hbody => fun hscope _ => .closure hparam hbody hscope
  recursion := fun
    | .recursion hspan hbase _ _ => fun hscope _ => .closure (.expr (.ident hspan)) hbase hscope
  reads := Pattern.Formed.reads
  matched := Pattern.Formed.parts
  failure h hform := by simp [Cause.blamesExpr_of_blamesForm hform] at h
  within span h := by rwa [Failure.cause_within]

/-! ## What is compiled -/

/-- An expression that is well formed at every depth, whatever its places. -/
def Expr.WellFormed (e : Expr) : Prop := e.Formed fun _ => True

/-- A value in which every function is well formed. -/
def Value.WellFormed (v : Value) : Prop := v.Formed fun _ => True

/-- Evaluating the expression in any scope of well-formed values never blames its form, however much
fuel it is given, and gives a well-formed value. -/
def Expr.NeverBlamesForm (e : Expr) : Prop :=
  ∀ fuel scope, scope.Gives Value.WellFormed →
    (e.eval fuel scope).Safe (fun failure => ¬failure.cause.BlamesForm) Value.WellFormed

theorem Expr.WellFormed.neverBlamesForm {e : Expr} (h : e.WellFormed) : e.NeverBlamesForm :=
  fun fuel _ hscope => (evaluator_safe formed_invariant fuel).eval h hscope

theorem Lowering.rules_wellFormed : Rules Expr.WellFormed (Pattern.Formed fun _ => True)
    fun _ => True := rules_formed True.intro (fun _ _ => True.intro) fun _ => True.intro

theorem Ending.eq_done_of_toCompiled {α : Type} {path : String} {ending : Ending α} {a : α}
    (h : ending.toCompiled path = .ok a) : ending = .done a := by
  cases ending with
  | done b => rw [Compiled.ok.inj h]
  | rejected | sinkFailed | exhausted => cases h

namespace Compiled

/-- What a function makes of the result. -/
def map {α β : Type} (f : α → β) : Compiled α → Compiled β
  | .ok a => .ok (f a)
  | .error e => .error e
  | .endless => .endless

variable {α β : Type} {f : α → β} {compiled : Compiled α}

theorem map_eq_ok_iff {b : β} : compiled.map f = .ok b ↔ ∃ a, compiled = .ok a ∧ f a = b := by
  cases compiled <;> simp [map]

theorem map_eq_error_iff {e : CompileError} :
    compiled.map f = .error e ↔ compiled = .error e := by
  cases compiled <;> simp [map]

theorem map_eq_endless_iff : compiled.map f = .endless ↔ compiled = .endless := by
  cases compiled <;> simp [map]

end Compiled

/-- The resolver that puts loading off answers with well-formed expressions at the place that it is
asked from. -/
theorem Lowering.answersFrom_deferred : AnswersFrom S (Expr.Formed S) Modules.deferred where
  standardLibrary hspan h := Except.ok.inj h ▸ .dot hspan (.ident hspan)
  localFile hspan h := Except.ok.inj h ▸ .literal hspan .loader
  externalContent hspan h := Except.ok.inj h ▸ .literal hspan .loader

section Compiled

variable {E : Expr → Prop} {P : Pattern → Prop} (rules : Lowering.Rules E P fun _ => True)
  {compiler : Compiler} (hmodules : Lowering.Answers E compiler.modules)

include rules hmodules

theorem Compiler.compileTree_has {directory : Option String} {tree : Node} (htree : tree.Embeds E)
    {state state' : CompilerState} {e : Expr}
    (hcompile : compiler.compileTree directory tree state = (.ok e, state')) : E e := by
  obtain ⟨hending, -⟩ := Prod.mk.inj hcompile
  have hlower := Ending.eq_done_of_toCompiled hending
  exact Lowering.lower_has rules htree hmodules (Prod.ext hlower rfl)

/-- What is compiled has a property that keeps to the rules. -/
theorem Compiler.compile_has {path text : String}
    (htree : ∀ tree, compiler.grammar text (Path.filename path) = .ok tree → tree.Embeds E)
    {state state' : CompilerState} {e : Expr}
    (hcompile : compiler.compile path text state = (.ok e, state')) : E e := by
  unfold compile at hcompile
  split at hcompile
  next => cases hcompile
  next tree hgrammar =>
    obtain ⟨hending, -⟩ := Prod.mk.inj hcompile
    have hlower := Ending.eq_done_of_toCompiled hending
    exact Lowering.lower_has rules (htree tree hgrammar) hmodules (Prod.ext hlower rfl)

end Compiled

theorem Compiler.compileTree_formed {compiler : Compiler}
    (hmodules : Lowering.Answers Expr.WellFormed compiler.modules) {directory : Option String}
    {tree : Node} (htree : tree.Embeds Expr.WellFormed) {state state' : CompilerState} {e : Expr}
    (hcompile : compiler.compileTree directory tree state = (.ok e, state')) : e.WellFormed :=
  compileTree_has Lowering.rules_wellFormed hmodules htree hcompile

theorem Compiler.compile_formed {compiler : Compiler}
    (hmodules : Lowering.Answers Expr.WellFormed compiler.modules) {path text : String}
    (htree : ∀ tree, compiler.grammar text (Path.filename path) = .ok tree →
      tree.Embeds Expr.WellFormed) {state state' : CompilerState} {e : Expr}
    (hcompile : compiler.compile path text state = (.ok e, state')) : e.WellFormed :=
  compile_has Lowering.rules_wellFormed hmodules htree hcompile

/-- What is compiled is well formed, and evaluating it never blames its form: for every compiler
whose resolver answers with well-formed expressions, as the one that puts loading off does, and for
every tree and every program in which the expressions that stand in the tree are well formed. -/
theorem Compiler.compiled_wellFormed :
    Lowering.Answers Expr.WellFormed Modules.deferred ∧
    ∀ compiler : Compiler, Lowering.Answers Expr.WellFormed compiler.modules →
      (∀ directory tree state state' e, tree.Embeds Expr.WellFormed →
        compiler.compileTree directory tree state = (.ok e, state') →
          e.WellFormed ∧ e.NeverBlamesForm) ∧
      ∀ path text state state' e,
        (∀ tree, compiler.grammar text (Path.filename path) = .ok tree →
          tree.Embeds Expr.WellFormed) →
        compiler.compile path text state = (.ok e, state') → e.WellFormed ∧ e.NeverBlamesForm := by
  refine ⟨Lowering.answersFrom_true.mp Lowering.answersFrom_deferred, fun compiler hmodules =>
    ⟨?_, ?_⟩⟩
  · intro directory tree state state' e htree hcompile
    have he := compileTree_formed hmodules htree hcompile
    exact ⟨he, he.neverBlamesForm⟩
  · intro path text state state' e htree hcompile
    have he := compile_formed hmodules htree hcompile
    exact ⟨he, he.neverBlamesForm⟩

/-- The tree of `cond {true: "one"} < 2 <= 3`, with the choice worked out before. -/
def Samples.choiceInChain : Node :=
  let source : Source := ⟨".", "cond \x7btrue: \"one\"\x7d < 2 <= 3"⟩
  let here : Span := ⟨source, 0, 18⟩
  let entry : DictEntry := .mk (.literal (.bool true) here) (.literal (.string "one") here) here
  let number (start stop : Nat) : Node :=
    .branch [("NUM", .one (.leaf ⟨source, start, stop⟩))] ⟨source, start, stop⟩
  .branch
    [("compare", .many [.leaf ⟨source, 19, 20⟩, .leaf ⟨source, 23, 25⟩]),
      ("expr", .many [.embedded (.cond (.dict [entry] true here) here) here, number 21 22,
        number 26 27])] ⟨source, 0, 27⟩

/-- A chain of two comparisons over a choice: three operands, and a choice over a dictionary. -/
theorem Compiler.compiled_wellFormed_choiceInChain :
    ∃ a b c span state,
      Compiler.standard.compileTree none Samples.choiceInChain .initial =
        (.ok (.compare [a, b, c] [.lt, .le] span), state) ∧
      (Expr.compare [a, b, c] [.lt, .le] span).WellFormed ∧
      (Expr.compare [a, b, c] [.lt, .le] span).NeverBlamesForm := by
  have hembedded : Samples.choiceInChain.Embeds Expr.WellFormed := by
    simp only [Samples.choiceInChain, Node.Embeds, Node.EmbedsTags, Node.EmbedsAll, and_true,
      true_and]
    refine .cond True.intro (.dict True.intro ?_ ?_ ?_) (Or.inr ⟨_, _, List.cons_ne_nil _ _, rfl⟩)
    · exact List.forall_mem_singleton.mpr (.literal True.intro .bool)
    · exact List.forall_mem_singleton.mpr (.literal True.intro .string)
    · exact List.forall_mem_singleton.mpr True.intro
  obtain ⟨hdeferred, hcompiled⟩ := Compiler.compiled_wellFormed
  obtain ⟨a, b, c, span, state, hcompile⟩ : ∃ a b c span state,
      Compiler.standard.compileTree none Samples.choiceInChain .initial =
        (.ok (.compare [a, b, c] [.lt, .le] span), state) := ⟨_, _, _, _, _, rfl⟩
  have hformed := (hcompiled .standard hdeferred).1 none _ _ _ _ hembedded hcompile
  exact ⟨a, b, c, span, state, hcompile, hformed⟩

end Relational
