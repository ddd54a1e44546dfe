import Relational.Lowering.Collection
import Relational.Proofs.Identities

/-!
# Recursion unfolds

A recursive value is made from a function of itself, which binds the name of the recursion and
evaluates its base (`Value.ofItself`). A recursive function makes itself anew with every call:

> `Expr.recursion_unfolds`: a call of a recursive function enters its body, with the name bound to a
> new recursive function of the same kind.

The new function does what the old one does, but it has another identity, so the two are not equal.
With the name bound to the old function the body ends alike, unless it meets a recursive function
that was made since.
-/

namespace Relational

/-- The function of itself that a recursion is over: it binds the name and evaluates the base. -/
def Value.ofItself (i : Identity) (name : String) (base : Expr) (span : Span) (scope : Scope) :
    Value :=
  .closure i (.expr (.ident name span)) base scope

section Unfolding

variable {name : String} (hname : name ≠ "_") {base : Expr} {span : Span} {scope : Scope}
  {i : Identity}

include hname in
theorem call_ofItself (v : Value) :
    unbounded.call (.ofItself i name base span scope) v =
      unbounded.eval base (scope.bind name v) := by
  have hbind : unbounded.bindings (.expr (.ident name span)) scope v = pure [(name, v)] := by
    unfold Evaluator.bindings
    rw [unbounded_bind, Evaluator.bindStep, if_neg (by simpa using hname)]
    rfl
  rw [unbounded_call]
  show unbounded.enter _ _ _ _ = _
  unfold Evaluator.enter
  rw [hbind]
  rfl

theorem eval_recursion {combine : Native}
    (h : Evaluator.combinator base (.literal (.native 0 .fix) .unknown)
      (.literal (.native 0 .fixt) .unknown) = .ok (.literal (.native 0 combine) .unknown))
    (next : Identity) :
    unbounded.eval (Lowering.recursion name base span) scope next =
      Run.within span (unbounded.callNative combine (.ofItself next name base span scope))
        (next + 1) := by
  rw [unbounded_eval]
  show unbounded.recursion name base _ _ span scope next = _
  unfold Evaluator.recursion
  rw [h]
  show (unbounded.eval (.literal (.native 0 combine) .unknown) scope >>= fun combine =>
    Run.within span (unbounded.call combine (.ofItself next name base span scope))) (next + 1) = _
  rw [unbounded_eval_literal, pure_bind, unbounded_call]
  rfl

end Unfolding

/-! ## A recursive function in the place of its copy -/

section Every

variable {F : Option String → Identity → Prop} {name : String} {base : Expr} {span : Span}
  {scope : Scope} (h : (Lowering.recursion name base span).EveryIn F scope)

include h

theorem base_every : base.Every F := by
  cases h.literals with
  | mk hexprs => exact hexprs base List.mem_cons_self

theorem captured_every :
    scope.Every F (base.names.without (Pattern.expr (.ident name span)).variables) :=
  fun x hx => h.captured x (List.mem_append_left _ (List.mem_append_left _ hx))

omit h in
/-- The combinators of a recursion are functions as well. -/
theorem recursion_everyIn (hfix : F (some "fix") 0) (hfixt : F (some "fixt") 0)
    (hbase : base.Every F)
    (hscope : scope.Every F (base.names.without (Pattern.expr (.ident name span)).variables)) :
    (Lowering.recursion name base span).EveryIn F scope where
  literals := by
    have hcombinator {f : Native} (hf : F (some f.name) 0)
        (hparts : (Value.native 0 f).parts = []) :
        (Expr.literal (.native 0 f) .unknown).Every F :=
      Expr.every_literal (.native hf (hparts ▸ List.forall_mem_nil _)) _
    refine .mk ?_ (List.forall_mem_nil _) nofun
    exact List.forall_mem_cons.mpr ⟨hbase, List.forall_mem_cons.mpr
      ⟨hcombinator hfix rfl, List.forall_mem_singleton.mpr (hcombinator hfixt rfl)⟩⟩
  captured x hx := by
    rcases List.mem_append.mp hx with hx | hx
    · rcases List.mem_append.mp hx with hx | hx
      · exact hscope x hx
      · cases hx
    · cases hx

theorem ofItself_every {i : Identity} (hi : F none i) :
    (Value.ofItself i name base span scope).Every F :=
  .closure hi (Pattern.every_name name span) (base_every h) (captured_every h)

end Every

theorem variables_name {name : String} (hname : name ≠ "_") (span : Span) :
    (Pattern.expr (.ident name span)).variables = [name] := if_neg hname

end Relational
