import Relational.Proofs.Steps

/-!
# Invariants of evaluation

An invariant of evaluation is a property of values, one of expressions in scopes and one of patterns
in scopes, that go on to the parts: whatever has the property is evaluated, called and matched with
parts that have it. `Invariant` says once what has to be shown of the three, and of the failures
that they allow.

> Every rule of the language keeps an invariant if the evaluator for the parts does. By induction on
> the fuel every evaluator does (`evaluator_safe`).
-/

namespace Relational

/-! ## Invariants -/

/-- A body has the property in a scope with any bindings that a match of the pattern may add. -/
def Opens (V : Value → Prop) (E : Expr → Scope → Prop) (param : Pattern) (body : Expr)
    (scope : Scope) : Prop :=
  ∀ bound, Bound V param.variables Scope.empty bound → E body (scope.update bound)

/-- Properties of values, of expressions and of patterns that evaluation hands on from a whole to
its parts, and a property of the failures that this leaves. -/
structure Invariant (V : Value → Prop) (E : Expr → Scope → Prop) (P : Pattern → Scope → Prop)
    (F : Failure → Prop) : Prop where
  hereditary : Value.Hereditary V
  closure {identity : Identity} {param : Pattern} {body : Expr} {captured : Scope}
    (h : V (.closure identity param body captured)) :
    P param captured ∧ Opens V E param body captured ∧ captured.Gives V
  unfold {identity : Identity} {f : Value} : V (.native identity (.unfold f)) ↔ V f
  unfoldAttr {identity : Identity} {f : Value} {attr : String} :
    V (.native identity (.unfoldAttr f attr)) ↔ V f
  hosted {identity : Identity} {name : String} {f : Value}
    (h : V (.native identity (.hosted name f))) : V f
  literal {v : Value} {span : Span} {scope : Scope} (h : E (.literal v span) scope) : V v
  ident {name : String} {span : Span} {scope : Scope} (h : E (.ident name span) scope) :
    scope.Has name ∨ F ⟨none, .unbound name⟩
  part {e : Expr} {scope : Scope} (h : E e scope) : ∀ part ∈ e.parts, E part scope
  binary {op : BinaryOp} {lhs rhs : Expr} {span : Span} {scope : Scope}
    (h : E (.binary op lhs rhs span) scope) :
    E lhs scope ∧
      if op.bindsCurrent && !rhs.isFunction then ∀ v, V v → E rhs (scope.bind "." v)
      else E rhs scope
  compare {args : List Expr} {ops : List CompareOp} {span : Span} {scope : Scope}
    (h : E (.compare args ops span) scope) :
    args.length = ops.length + 1 ∨ F ⟨none, .emptyChain⟩ ∧ ∀ m n, F ⟨none, .chainArity m n⟩
  cond {conditions : Expr} {span : Span} {scope : Scope} (h : E (.cond conditions span) scope) :
    (∃ entries conditional place, conditions = .dict entries conditional place) ∨
      (∃ entries place, conditions = .literal (.dict entries) place) ∨
        ∀ got, F ⟨none, .unexpected "cond" "a dict" got⟩
  arms {control : Expr} {arms : List (Pattern × Expr)} {span : Span} {scope : Scope}
    (h : E (.condControl control arms span) scope) :
    ∀ arm ∈ arms, P arm.1 scope ∧ Opens V E arm.1 arm.2 scope
  function {param : Pattern} {body : Expr} {span : Span} {scope : Scope}
    (h : E (.function param body span) scope) (hscope : scope.Gives V) (identity : Identity) :
    V (.closure identity param body scope)
  recursion {name : String} {base fix fixt : Expr} {span : Span} {scope : Scope}
    (h : E (.recursion name base fix fixt span) scope) (hscope : scope.Gives V)
    (identity : Identity) : V (.closure identity (.expr (.ident name span)) base scope)
  reads {pattern : Pattern} {scope : Scope} (h : P pattern scope) :
    ∀ e ∈ pattern.reads, E e scope
  matched {pattern : Pattern} {scope : Scope} (h : P pattern scope) :
    ∀ part ∈ pattern.parts, P part scope
  failure {cause : Cause} (h : cause.blamesExpr = false) : F ⟨none, cause⟩
  within {failure : Failure} (span : Span) (h : F failure) : F (failure.within span)

/-- An evaluator that keeps an invariant. A literal is its own value. -/
structure Evaluator.Safe (V : Value → Prop) (E : Expr → Scope → Prop) (P : Pattern → Scope → Prop)
    (F : Failure → Prop) (ev : Evaluator) : Prop where
  eval {e : Expr} {scope : Scope} (he : E e scope) (hscope : scope.Gives V) :
    (ev.eval e scope).Safe F V
  literal {v : Value} {span : Span} {scope : Scope} :
    (ev.eval (.literal v span) scope).Safe F (· = v)
  call {f arg : Value} (hf : V f) (harg : V arg) : (ev.call f arg).Safe F V
  bind {pattern : Pattern} {scope : Scope} {v : Value} {bound : Scope}
    (hpattern : P pattern scope) (hscope : scope.Gives V) (hv : V v) (hbound : bound.Gives V) :
    (ev.bind pattern scope v bound).Safe F (Bound V pattern.variables bound)

section

variable {V : Value → Prop} {E : Expr → Scope → Prop} {P : Pattern → Scope → Prop}
  {F : Failure → Prop} (inv : Invariant V E P F)

include inv

theorem Run.Safe.operation {α : Type} {x : Except Cause α} {Q : α → Prop} (h : Sound x Q) :
    (Run.ofExcept x).Safe F Q := Run.Safe.ofExcept h fun _ => inv.failure

namespace Evaluator

variable {ev : Evaluator} (h : ev.Safe V E P F) {scope : Scope} (hscope : scope.Gives V)

include h hscope

/-! ## Calls -/

omit inv in
theorem enter_safe {param : Pattern} {body : Expr} {v : Value} (hparam : P param scope)
    (hbody : Opens V E param body scope) (hv : V v) : (ev.enter param body scope v).Safe F V := by
  refine (h.bind hparam hscope hv (List.forall_mem_nil _)).bind fun bound hbound => ?_
  exact h.eval (hbody bound hbound) (hscope.update hbound.gives)

theorem apply_safe {rhs : Expr} {v : Value} (hv : V v)
    (hrhs : if rhs.isFunction then E rhs scope else ∀ v, V v → E rhs (scope.bind "." v)) :
    (ev.apply rhs scope v).Safe F V := by
  unfold apply
  split
  next param body span =>
    -- what a function is entered with is what its closure would be
    obtain ⟨hparam, hbody, -⟩ := inv.closure (inv.function hrhs hscope 0)
    exact enter_safe h hscope hparam hbody hv
  next hfunction =>
    have hisFunction : rhs.isFunction = false := by
      cases rhs with
      | function param body span => exact absurd rfl (hfunction param body span)
      | _ => rfl
    rw [hisFunction] at hrhs
    exact h.eval (hrhs v hv) (hscope.bind hv)

omit h hscope in
theorem recursiveFunction_safe {f : Value} (hf : V f) : (recursiveFunction f).Safe F V :=
  Run.Safe.fresh.bind fun _ _ => Run.Safe.pure (inv.unfold.mpr hf)

omit h hscope in
theorem recursiveAttrs_safe {f : Value} (hf : V f) {attrs : List (String × Value)}
    (hattrs : ∀ a ∈ attrs, V a.2) :
    (recursiveAttrs f attrs).Safe F fun attrs => ∀ a ∈ attrs, V a.2 := by
  induction attrs with
  | nil => exact Run.Safe.pure (List.forall_mem_nil _)
  | cons attr attrs ih =>
    obtain ⟨name, v⟩ := attr
    rw [List.forall_mem_cons] at hattrs
    unfold recursiveAttrs
    split
    next =>
      refine Run.Safe.fresh.bind fun identity _ => (ih hattrs.2).bind fun others hothers => ?_
      exact Run.Safe.pure (List.forall_mem_cons.mpr ⟨inv.unfoldAttr.mpr hf, hothers⟩)
    next =>
      refine (ih hattrs.2).bind fun others hothers => ?_
      exact Run.Safe.pure (List.forall_mem_cons.mpr ⟨hattrs.1, hothers⟩)

omit hscope in
theorem recursiveTuple_safe {f : Value} (hf : V f) : (ev.recursiveTuple f).Safe F V := by
  have hempty : V (.tuple []) := inv.hereditary.tuple.mpr (List.forall_mem_nil _)
  refine (h.call hf hempty).bind fun probe hprobe => ?_
  split
  next attrs =>
    refine (recursiveAttrs_safe inv hf (inv.hereditary.tuple.mp hprobe)).bind
      fun attrs hattrs => ?_
    exact Run.Safe.pure (inv.hereditary.tuple.mpr hattrs)
  next => exact Run.Safe.fail (inv.failure rfl)

omit hscope in
theorem callNative_safe {identity : Identity} {function : Native} {arg : Value}
    (hf : V (.native identity function)) (harg : V arg) :
    (ev.callNative function arg).Safe F V := by
  cases function with
  | fix => exact recursiveFunction_safe inv harg
  | fixt => exact recursiveTuple_safe inv h harg
  | unfold f =>
    have hf := inv.unfold.mp hf
    refine (recursiveFunction_safe inv hf).bind fun this hthis => ?_
    exact (h.call hf hthis).bind fun unfolded hunfolded => h.call hunfolded harg
  | unfoldAttr f attr =>
    have hf := inv.unfoldAttr.mp hf
    refine (recursiveTuple_safe inv h hf).bind fun this hthis => ?_
    refine (h.call hf hthis).bind fun unfolded hunfolded => ?_
    have hattr := Run.Safe.operation inv (Value.getAttr_sound inv.hereditary hunfolded attr)
    exact hattr.bind fun function hfunction => h.call hfunction harg
  | loader name => exact Run.Safe.fail (inv.failure rfl)
  | hosted name f => exact h.call (inv.hosted hf) harg

omit hscope in
/-- Calling a value keeps the invariant. -/
theorem callStep_safe {f arg : Value} (hf : V f) (harg : V arg) :
    (ev.callStep f arg).Safe F V := by
  unfold callStep
  split
  next identity param body captured =>
    obtain ⟨hparam, hbody, hcaptured⟩ := inv.closure hf
    exact enter_safe h hcaptured hparam hbody harg
  next identity function => exact callNative_safe inv h hf harg
  next => exact Run.Safe.operation inv (Value.lookup_sound inv.hereditary hf arg)

/-! ## Arrows, filters and aggregates -/

section Arrow

variable {rhs : Expr}
  (hrhs : if rhs.isFunction then E rhs scope else ∀ v, V v → E rhs (scope.bind "." v))

include hrhs

theorem mapElements_safe {v : Value} (hv : V v) : (ev.mapElements rhs scope v).Safe F V := by
  have happly : ∀ v : Value, V v → (ev.apply rhs scope v).Safe F V :=
    fun v hv => apply_safe inv h hscope hv hrhs
  cases v with
  | set members =>
    refine (Run.Safe.traverse fun v hmem => happly v (inv.hereditary.set.mp hv v hmem)).bind
      fun mapped hmapped => ?_
    exact Run.Safe.pure (inv.hereditary.set_ofList hmapped)
  | array items =>
    refine (Run.Safe.traverseItems fun v hmem =>
      happly v (inv.hereditary.array.mp hv v hmem)).bind fun mapped hmapped => ?_
    exact Run.Safe.pure (inv.hereditary.array.mpr hmapped)
  | dict entries =>
    have hpair : ∀ e ∈ entries, V (.pair e.1 e.2) := fun e he =>
      inv.hereditary.pair (inv.hereditary.dict.mp hv e he).1 (inv.hereditary.dict.mp hv e he).2
    refine (Run.Safe.traverse fun e hmem => happly _ (hpair e hmem)).bind fun mapped hmapped => ?_
    exact Run.Safe.pure (inv.hereditary.set_ofList hmapped)
  | _ => exact Run.Safe.operation inv (Sound.wrongKind rfl)

theorem mapAt_safe (strict : Bool) {key v : Value} (hkey : V key) (hv : V v) :
    (ev.mapAt rhs strict scope key v).Safe F V := by
  unfold mapAt
  split
  next =>
    exact (apply_safe inv h hscope hkey hrhs).bind fun function hfunction => h.call hfunction hv
  next => exact apply_safe inv h hscope hv hrhs

theorem mapItemsFrom_safe (strict : Bool) {items : List (Option Value)} :
    ∀ start : Nat, (∀ v, some v ∈ items → V v) →
    (ev.mapItemsFrom rhs strict scope start items).Safe F
      fun mapped => ∀ v, some v ∈ mapped → V v := by
  induction items with
  | nil => exact fun _ _ => Run.Safe.pure fun _ hv => absurd hv List.not_mem_nil
  | cons item items ih =>
    intro start hitems
    have hrest := ih (start + 1) fun v hv => hitems v (List.mem_cons_of_mem _ hv)
    cases item with
    | none =>
      refine hrest.bind fun mapped hmapped => Run.Safe.pure fun v hv => hmapped v ?_
      exact (List.mem_cons.mp hv).resolve_left nofun
    | some v =>
      have hkey : V (.number (.ofNat start)) := inv.hereditary.number _
      have hv := hitems v (List.mem_cons_self ..)
      refine (mapAt_safe inv h hscope hrhs strict hkey hv).bind fun first hfirst => ?_
      refine hrest.bind fun mapped hmapped => Run.Safe.pure fun v hv => ?_
      rcases List.mem_cons.mp hv with heq | hv
      · cases heq
        exact hfirst
      · exact hmapped v hv

theorem mapSequence_safe (strict : Bool) {v : Value} (hv : V v) :
    (ev.mapSequence rhs strict scope v).Safe F V := by
  unfold mapSequence
  split
  next items =>
    refine (mapItemsFrom_safe inv h hscope hrhs strict 0 (inv.hereditary.array.mp hv)).bind
      fun mapped hmapped => ?_
    exact Run.Safe.pure (inv.hereditary.array.mpr hmapped)
  next entries =>
    have hentries := inv.hereditary.dict.mp hv
    refine (Run.Safe.traverse (Q := fun e => V e.1 ∧ V e.2) fun e hmem => ?_).bind
      fun mapped hmapped => Run.Safe.pure (inv.hereditary.dict.mpr hmapped)
    refine (mapAt_safe inv h hscope hrhs strict (hentries e hmem).1 (hentries e hmem).2).bind
      fun mapped hmapped => ?_
    exact Run.Safe.pure ⟨(hentries e hmem).1, hmapped⟩
  next => exact Run.Safe.pure inv.hereditary.nothing
  next => exact Run.Safe.operation inv (Sound.wrongKind rfl)

theorem mapAttrs_safe {v : Value} (hv : V v) : (ev.mapAttrs rhs scope v).Safe F V := by
  unfold mapAttrs
  split
  next attrs =>
    refine (Run.Safe.traverse (Q := fun a => V a.2) fun attr hmem => ?_).bind
      fun mapped hmapped => Run.Safe.pure (inv.hereditary.tuple.mpr hmapped)
    refine (apply_safe inv h hscope (inv.hereditary.tuple.mp hv attr hmem) hrhs).bind
      fun mapped hmapped => ?_
    exact Run.Safe.pure hmapped
  next => exact Run.Safe.operation inv (Sound.wrongKind rfl)

theorem passes_safe {v : Value} (hv : V v) : (ev.passes rhs scope v).Safe F fun _ => True :=
  (apply_safe inv h hscope hv hrhs).bind fun _ _ => Run.Safe.pure True.intro

theorem filterElements_safe {v : Value} (hv : V v) :
    (ev.filterElements rhs scope v).Safe F V := by
  unfold filterElements
  split
  next members =>
    have hmembers := inv.hereditary.set.mp hv
    refine (Run.Safe.filter fun v hmem => passes_safe inv h hscope hrhs (hmembers v hmem)).bind
      fun kept hkept => ?_
    exact Run.Safe.pure (inv.hereditary.set.mpr fun v hmem => hmembers v (hkept v hmem))
  next items =>
    have hitems := inv.hereditary.array.mp hv
    refine (Run.Safe.traverseItems (Q := fun item => ∀ v, item = some v → V v)
      fun v hmem => ?_).bind fun kept hkept => ?_
    · refine (passes_safe inv h hscope hrhs (hitems v hmem)).bind fun keep _ => Run.Safe.pure ?_
      -- an item that does not pass leaves a hole
      cases keep with
      | false => exact nofun
      | true =>
        intro v' heq
        obtain rfl : v = v' := Option.some.inj heq
        exact hitems v hmem
    · refine Run.Safe.pure (inv.hereditary.array.mpr fun v hmem => ?_)
      obtain ⟨item, hitem, hjoin⟩ := List.mem_map.mp hmem
      cases item with
      | none => cases hjoin
      | some item => exact hkept item hitem v hjoin
  next entries =>
    have hentries := inv.hereditary.dict.mp hv
    refine (Run.Safe.filter fun e hmem => passes_safe inv h hscope hrhs
      (inv.hereditary.pair (hentries e hmem).1 (hentries e hmem).2)).bind fun kept hkept => ?_
    exact Run.Safe.pure (inv.hereditary.dict.mpr fun e hmem => hentries e (hkept e hmem))
  next => exact Run.Safe.operation inv (Sound.wrongKind rfl)

theorem aggregateElements_safe (op : BinaryOp) {v : Value} (hv : V v) :
    (ev.aggregateElements op rhs scope v).Safe F V := by
  have helements := Run.Safe.operation inv (Value.aggregated_sound inv.hereditary op hv)
  refine helements.bind fun elements helements => ?_
  refine (Run.Safe.traverse (Q := fun _ => True) fun v hmem => ?_).bind fun numbers _ =>
    Run.Safe.operation inv (Value.aggregate_sound inv.hereditary op numbers)
  exact (apply_safe inv h hscope (helements v hmem) hrhs).bind fun answer _ =>
    Run.Safe.operation inv (Value.asNumber_sound answer)

end Arrow

/-! ## Expressions -/

theorem binary_safe (op : BinaryOp) {lhs rhs : Expr} {span : Span}
    (he : E (.binary op lhs rhs span) scope) : (ev.binary op lhs rhs scope).Safe F V := by
  obtain ⟨hlhs, hrhs⟩ := inv.binary he
  have hl := h.eval hlhs hscope
  -- the right side is read with the current value or in the same scope, as the operator has it
  have hcurrent : op.bindsCurrent = true →
      if rhs.isFunction then E rhs scope else ∀ v, V v → E rhs (scope.bind "." v) := by
    intro hop
    cases hf : rhs.isFunction <;> simpa [hop, hf] using hrhs
  have hplain : op.bindsCurrent = false → (ev.eval rhs scope).Safe F V := by
    intro hop
    exact h.eval (by simpa [hop] using hrhs) hscope
  cases op with
  | and =>
    refine hl.bind fun l hl => ?_
    split
    next => exact hplain rfl
    next => exact Run.Safe.pure hl
  | or =>
    refine hl.bind fun l hl => ?_
    split
    next => exact Run.Safe.pure hl
    next => exact hplain rfl
  | arrow => exact hl.bind fun l hl => apply_safe inv h hscope hl (hcurrent rfl)
  | dArrow => exact hl.bind fun l hl => mapElements_safe inv h hscope (hcurrent rfl) hl
  | seqArrow strict =>
    exact hl.bind fun l hl => mapSequence_safe inv h hscope (hcurrent rfl) strict hl
  | tupleMap => exact hl.bind fun l hl => mapAttrs_safe inv h hscope (hcurrent rfl) hl
  | where_ => exact hl.bind fun l hl => filterElements_safe inv h hscope (hcurrent rfl) hl
  | sum | max | mean | median | min =>
    exact hl.bind fun l hl => aggregateElements_safe inv h hscope (hcurrent rfl) _ hl
  | orderBy | order | rank | join | compose | joinCommon | joinExists | rightMatch | leftMatch
  | rightResidue | leftResidue | offset | addArrow => exact Run.Safe.fail (inv.failure rfl)
  | _ =>
    exact hl.bind fun l hl => (hplain rfl).bind fun r hr =>
      Run.Safe.operation inv (Value.combine_sound inv.hereditary _ hl hr)

/-! ## Expressions and patterns -/

theorem matching : ev.Matching V (E · scope) (P · scope) F scope where
  hereditary := inv.hereditary
  eval he := h.eval he hscope
  bind hpattern := h.bind hpattern hscope
  reads := inv.reads
  parts := inv.matched
  unfit _ _ _ _ := inv.failure rfl
  mismatch hcause := inv.failure (Cause.blamesExpr_of_isMismatch hcause)

theorem evaluating : ev.Evaluating V F F scope where
  hereditary := inv.hereditary
  gives := hscope
  call := h.call
  raised := inv.failure
  placed := inv.within

/-- What an invariant says of an expression is what its construct needs. -/
theorem needs {e : Expr} (he : E e scope) : Needs V F F ev scope e := by
  cases e with
  | literal => exact inv.literal he
  | ident => exact inv.ident he
  | binary op => exact binary_safe inv h hscope op he
  | compare => exact inv.compare he
  | condControl control arms span =>
    intro v hv
    refine firstArm_safe inv.hereditary.nothing (fun _ hfailure _ => hfailure) fun arm harm => ?_
    obtain ⟨hpattern, hbody⟩ := inv.arms he arm harm
    refine (h.bind hpattern hscope hv (List.forall_mem_nil _)).imp fun bound hbound => ?_
    exact h.eval (hbody bound hbound) (hscope.update hbound.gives)
  | cond conditions span =>
    rcases inv.cond he with hdict | ⟨entries, place, rfl⟩ | hfail
    · exact Or.inl hdict
    · exact Or.inr (Or.inl ⟨entries, place, rfl, h.literal⟩)
    · exact Or.inr (Or.inr hfail)
  | function => exact inv.function he hscope
  | recursion => exact inv.recursion he hscope
  | _ => exact True.intro

end Evaluator

/-- Every evaluator with fuel keeps an invariant. -/
theorem evaluator_safe (fuel : Nat) : (evaluator fuel).Safe V E P F := by
  induction fuel with
  | zero =>
    exact ⟨fun _ _ => Run.Safe.exhausted, Run.Safe.exhausted, fun _ _ => Run.Safe.exhausted,
      fun _ _ _ _ => Run.Safe.exhausted⟩
  | succ fuel ih =>
    refine ⟨fun he hscope => ?_, Run.Safe.pure rfl, fun hf harg => ?_,
      fun hpattern hscope hv hbound => ?_⟩
    · exact Evaluator.evalStep_safe (Evaluator.evaluating inv ih hscope)
        (fun part hpart => ih.eval (inv.part he part hpart) hscope)
        (Evaluator.needs inv ih hscope he)
    · exact Evaluator.callStep_safe inv ih hf harg
    · exact Evaluator.bindStep_safe (Evaluator.matching inv ih hscope) hpattern hv hbound

end

end Relational
