import Relational.Proofs.Invariant
import Relational.Proofs.LooseNames

/-!
# Scope safety

An expression without free names never fails for want of a name, however long it runs and whatever
functions it calls on the way.

> The invariant (`names_invariant`): every value is closed, every scope gives closed values, and
> every expression and pattern is read in a scope that gives the names it needs.

> `lower_neverUnbound`: what a tree is lowered to never fails for want of a name if it has no free
> names and the tree and the resolver bring along no function that lacks one.
-/

namespace Relational

/-! ## The invariant -/

/-- A match gives a body the names that its pattern takes away. -/
theorem opens_of_without {param : Pattern} {body : Expr} {scope : Scope}
    (h : (body.names.without param.variables).MetBy scope) :
    Opens Value.Closed (fun e scope => e.names.MetBy scope) param body scope := by
  intro bound hbound
  exact h.of_without (fun x hx => Scope.has_update (Or.inl hx))
    fun x hx => Scope.has_update (Or.inr (hbound.new x hx))

/-- Evaluation keeps the invariant, and then nothing fails for want of a name. -/
theorem names_invariant : Invariant Value.Closed (fun e scope => e.names.MetBy scope)
    (fun p scope => p.names.MetBy scope) fun failure => failure.cause.kind ≠ .unbound where
  hereditary := Value.hereditary_closed
  closure h := by
    obtain ⟨hparam, hbody, hcaptured⟩ := Value.closed_closure.mp h
    exact ⟨hparam, opens_of_without hbody, hcaptured⟩
  unfold := Iff.rfl
  unfoldAttr := Iff.rfl
  hosted h := h
  literal h := h.2
  -- the one rule that can fail for want of a name: here the invariant is used
  ident h := Or.inl (h.1 _ (List.mem_singleton_self _))
  part := Expr.part_metBy
  binary {op lhs rhs span scope} h := by
    obtain ⟨hlhs, hrhs⟩ := Names.append_metBy.mp h
    refine ⟨hlhs, ?_⟩
    split
    next hcurrent =>
      rw [if_pos hcurrent] at hrhs
      intro v _
      refine hrhs.of_without (fun x hx => Scope.has_bind.mpr (Or.inr hx)) fun x hx => ?_
      exact Scope.has_bind.mpr (Or.inl (List.mem_singleton.mp hx))
    next hcurrent => rwa [if_neg hcurrent] at hrhs
  compare _ := Or.inr ⟨nofun, fun _ _ => nofun⟩
  cond _ := Or.inr (Or.inr fun _ => nofun)
  arms {control arms span scope} h := by
    obtain ⟨-, harms⟩ := Names.append_metBy.mp h
    intro arm harm
    obtain ⟨hpattern, hbody⟩ := Expr.namesArms_metBy.mp harms arm harm
    exact ⟨hpattern, opens_of_without hbody⟩
  -- here the invariant is established: the scope is captured with the body
  function h hscope _ := by
    obtain ⟨hparam, hbody⟩ := Names.append_metBy.mp h
    exact Value.closed_closure.mpr ⟨hparam, hbody, hscope⟩
  recursion h hscope _ := by
    obtain ⟨hbasefix, -⟩ := Names.append_metBy.mp h
    obtain ⟨hbase, -⟩ := Names.append_metBy.mp hbasefix
    exact Value.closed_closure.mpr ⟨Names.none_metBy _, hbase, hscope⟩
  reads h := (Pattern.part_metBy h).1
  matched h := (Pattern.part_metBy h).2
  failure {cause} h := by
    cases cause with
    | unbound name => cases h
    | _ => exact nofun
  within span h := by rwa [Failure.cause_within]

/-! ## Expressions without free names -/

/-- Evaluating the expression without any bindings never fails for want of a name, however much fuel
it is given. -/
def Expr.NeverUnbound (e : Expr) : Prop :=
  ∀ fuel next failure, e.eval fuel Scope.empty next = .failed failure →
    failure.cause.kind ≠ .unbound

theorem Expr.neverUnbound_of_freeNames {e : Expr} (h : e.freeNames = []) : e.NeverUnbound := by
  intro fuel next failure hfailed
  have hsafe := (evaluator_safe names_invariant fuel).eval (Expr.freeNames_eq_nil_iff.mp h)
    (List.forall_mem_nil _) next
  rw [show (evaluator fuel).eval e Scope.empty next = .failed failure from hfailed] at hsafe
  exact hsafe

/-- Scope safety of what is lowered: without free names it never fails for want of a name. A
function that stands in a literal lacks no name either, unless one does that the tree or the
resolver has brought along. -/
theorem Lowering.lower_neverUnbound {node : Node} {setting : Setting}
    {state state' : CompilerState} {e : Expr}
    (hlower : node.lower setting state = (.done e, state')) :
    (e.freeNames = [] → e.NeverUnbound) ∧
      (node.Embeds Expr.Tight → Answers Expr.Tight setting.modules → e.names.free = [] →
        e.NeverUnbound) := by
  refine ⟨Expr.neverUnbound_of_freeNames, fun hnode hmodules hfree => ?_⟩
  have hloose : e.names.loose = [] := lower_tight hnode hmodules hlower
  refine Expr.neverUnbound_of_freeNames ?_
  rw [Expr.freeNames, hfree, hloose]
  rfl

/-- The tree of `let rec f = \x x.a; f(())`, with the function and the call worked out before. -/
def Samples.letRecRead : Node :=
  let source : Source := ⟨".", "let rec f = \\x x.a; f(())"⟩
  let here : Span := ⟨source, 0, 25⟩
  let read : Expr := .function (.expr (.ident "x" here)) (.dot (.ident "x" here) "a" here) here
  let call : Expr := .call (.ident "f" here) (.literal (.tuple []) here) here
  .branch
    [("let", .one (.branch
      [("expr", .many [.embedded read here, .embedded call here]),
        ("pattern", .one (.branch [("IDENT", .one (.leaf ⟨source, 8, 9⟩))] ⟨source, 8, 9⟩)),
        ("rec", .one (.leaf ⟨source, 4, 7⟩))] here))] here

/-- A recursive function called with the empty tuple, of which it reads an attribute: it fails, but
for another reason. -/
theorem Lowering.lower_neverUnbound_letRecRead :
    ∃ e failure,
      Samples.letRecRead.lower ⟨none, .deferred, .recording⟩ .initial = (.done e, .initial) ∧
      e.names.free = [] ∧ e.eval 9 Scope.empty 0 = .failed failure ∧
      failure.cause = .missingAttr "a" [] ∧ failure.cause.kind ≠ .unbound := by
  have hnode : Samples.letRecRead.Embeds Expr.Tight := by
    simp [Samples.letRecRead, Node.Embeds, Node.EmbedsTags, Node.EmbedsAll, Expr.Tight, Expr.names,
      Pattern.names, Value.loose, Value.looseAttrs]
  have hmodules : Answers Expr.Tight Modules.deferred :=
    ⟨fun h => Except.ok.inj h ▸ rfl, fun h => Except.ok.inj h ▸ rfl,
      fun h => Except.ok.inj h ▸ rfl⟩
  have hsafe : ∀ e, Samples.letRecRead.lower ⟨none, .deferred, .recording⟩ .initial =
      (.done e, .initial) → e.names.free = [] → e.NeverUnbound :=
    fun e hlower hfree => (lower_neverUnbound hlower).2 hnode hmodules hfree
  exact ⟨_, _, rfl, rfl, rfl, rfl, hsafe _ rfl rfl 9 0 _ rfl⟩

/-- The tree of `let rec _ = (a: _); 1`. -/
def Samples.letRecUnderscore : Node :=
  let source : Source := ⟨".", "let rec _ = (a: _); 1"⟩
  let word (tag : String) (start stop : Nat) : Node :=
    .branch [(tag, .one (.leaf ⟨source, start, stop⟩))] ⟨source, start, stop⟩
  let pair : Node :=
    .branch [("name", .one (word "IDENT" 13 14)), ("v", .one (word "IDENT" 16 17))]
      ⟨source, 13, 17⟩
  let tuple : Node :=
    .branch [("tuple", .one (.branch [("pairs", .many [pair])] ⟨source, 13, 17⟩))] ⟨source, 13, 17⟩
  .branch
    [("let", .one (.branch
      [("expr", .many [tuple, word "NUM" 20 21]), ("pattern", .one (word "IDENT" 8 9)),
        ("rec", .one (.leaf ⟨source, 4, 7⟩))] ⟨source, 4, 21⟩))] ⟨source, 4, 21⟩

/-- The name `_` is not bound by a recursion: with it taken out of the base, nothing is free in this
program, and yet the program fails for want of it. Nor does a scope reach into a function that a
literal holds: a literal has no names of its own, but calling this one fails for want of `y`. -/
theorem Expr.eval_unbound_underscore :
    (∃ base fix fixt param body span state,
      Samples.letRecUnderscore.lower ⟨none, .deferred, .recording⟩ .initial =
        (.done (.binary .arrow (.recursion "_" base fix fixt span) (.function param body span) span),
          state) ∧
      (base.names.without ["_"] ++ fix.names ++ fixt.names ++
        (param.names ++ body.names.without param.variables)) = .none ∧
      ∃ failure,
        (Expr.binary .arrow (.recursion "_" base fix fixt span) (.function param body span) span).eval
          6 Scope.empty 0 = .failed failure ∧ failure.cause = .unbound "_") ∧
    (let here := Span.unknown
      let f : Value := .closure 0 (.expr (.ident "x" here)) (.ident "y" here) []
      let call : Expr := .call (.literal f here) (.literal (.tuple []) here) here
      call.names.free = [] ∧ ∃ failure, call.eval 4 Scope.empty 0 = .failed failure ∧
        failure.cause = .unbound "y") := by
  refine ⟨⟨_, _, _, _, _, _, _, rfl, ?_, _, rfl, rfl⟩, ?_⟩
  · decide
  · exact ⟨rfl, _, rfl, rfl⟩

end Relational
