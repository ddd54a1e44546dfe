import Relational.Proofs.Pairing
import Relational.Proofs.ScopeSafety

/-!
# Evaluation depends only on free names

Closures capture the whole scope, so evaluations in two scopes build different values even where
they do the same. They are told apart by nothing that an expression can do:

> `SameButCaptured`: two values that are the same, except for what their closures captured under
> names that they do not read.

> `Expr.eval_sameButCaptured`: in two scopes that give the same values to the free names of an
> expression, it ends alike: never, with the same failure, or with values that are the same but for
> what was captured. If they hold no function, they are equal.
-/

namespace Relational

/-- Values that are the same, except for what their closures captured under names that they do not
read. What they captured under other names may differ in the same way. -/
abbrev Value.SameButCaptured : Value → Value → Prop := Value.Paired Eq Eq fun _ => Eq

theorem Value.sameButCaptured_refl (v : Value) : v.SameButCaptured v :=
  Paired.self (fun _ _ _ _ _ => True.intro)
    (fun _ _ _ _ _ => ⟨rfl, rfl, rfl, fun _ _ _ _ => True.intro⟩)
    (fun _ _ _ => ⟨rfl, fun _ _ => True.intro⟩) True.intro

/-- Evaluations of one expression in two scopes, that hand out the same identities. -/
theorem unbounded_sim_sameButCaptured {N : Identity → Identity → Prop}
    (hN : ∀ i i', N i i' → i = i') (hnext : ∀ i i', N i i' → N (i + 1) (i' + 1)) :
    unbounded.Sim ⟨Value.SameButCaptured, Eq, Eq, Eq, N⟩ unbounded := by
  refine Value.paired_sim (fun _ => KeepsOrder.eq) (fun _ => hN) hnext (fun _ _ => rfl) ?_ ?_
  · rintro e _ rfl
    exact ⟨rfl, fun _ _ => rfl, fun _ _ => rfl, fun v _ _ => v.sameButCaptured_refl⟩
  · rintro p _ rfl
    exact ⟨rfl, fun _ _ => rfl, fun _ _ => rfl⟩

/-- Scopes that give the same values to the free names of an expression. -/
def Expr.SameFree (e : Expr) (scope scope' : Scope) : Prop :=
  ∀ x ∈ e.names.free, scope.get? x = scope'.get? x

namespace Expr

variable {e : Expr} {scope scope' : Scope}

theorem SameFree.like (h : e.SameFree scope scope') :
    scope.Like Value.SameButCaptured e.names scope' := by
  intro x hx
  rw [h x hx]
  cases scope'.get? x with
  | none => exact .none
  | some v => exact .some v.sameButCaptured_refl

theorem SameFree.symm (h : e.SameFree scope scope') : e.SameFree scope' scope :=
  fun x hx => (h x hx).symm

theorem sameFree_bind {name : String} (h : name ∉ e.names.free) (scope : Scope) (v : Value) :
    e.SameFree scope (scope.bind name v) := by
  intro x hx
  unfold Scope.bind Scope.get?
  rw [OrderedMap.find?_insert, if_neg]
  rw [Std.compare_eq_iff_eq]
  exact fun heq => h (heq ▸ hx)

theorem eval_endsAlike (h : e.SameFree scope scope') (next : Identity) :
    (unbounded.eval e scope next).EndsAlike Eq (Both Value.SameButCaptured Eq)
      (unbounded.eval e scope' next) := by
  have hsim {scope scope' : Scope} (h : e.SameFree scope scope') :=
    (unbounded_sim_sameButCaptured (N := Eq) (fun _ _ h => h) fun _ _ h => congrArg (· + 1) h).eval
      ⟨rfl, h.like⟩ next next rfl
  exact ((hsim h).endsAlike (hsim h.symm)).mono (fun _ _ h => h.eq) fun _ _ h => h.1

theorem eval_eq_of_data (h : e.SameFree scope scope') {next last : Identity} {v : Value}
    (hdata : v.hasFunction = false) (hv : unbounded.eval e scope next = .done (v, last)) :
    unbounded.eval e scope' next = .done (v, last) := by
  have hends := eval_endsAlike h next
  rw [hv] at hends
  obtain ⟨_, hv', hpaired, hlast⟩ := hends.exists_done
  rw [hv', hpaired.eq_of_data hdata, hlast]

/-- Evaluation depends only on free names: scopes that give the same values to the free names of an
expression can not be told apart by evaluating it, except by looking into the captured scope of a
closure. A binding of another name changes no result that holds no function. -/
theorem eval_sameButCaptured (e : Expr) (scope : Scope) (next : Identity) :
    (∀ scope', e.SameFree scope scope' →
      (unbounded.eval e scope next).EndsAlike Eq (Both Value.SameButCaptured Eq)
        (unbounded.eval e scope' next)) ∧
    ∀ name, name ∉ e.names.free → ∀ bound v last, v.hasFunction = false →
      (unbounded.eval e (scope.bind name bound) next = .done (v, last) ↔
        unbounded.eval e scope next = .done (v, last)) := by
  refine ⟨fun scope' h => eval_endsAlike h next, fun name hname bound v last hdata => ?_⟩
  have hsame := sameFree_bind hname scope bound
  exact ⟨eval_eq_of_data hsame.symm hdata, eval_eq_of_data hsame hdata⟩

/-- A function that reads `y` is made and called where `z` is bound and where it is not: the two
closures captured different scopes, and the two results are equal. -/
theorem eval_sameButCaptured_call :
    let here := Span.unknown
    let f : Expr := .function (.expr (.ident "x" here)) (.ident "y" here) here
    let call : Expr := .call f (.ident "y" here) here
    let scope := Scope.empty.bind "y" (.string "a")
    (∃ v v', unbounded.eval f scope 3 = .done (v, 4) ∧
      unbounded.eval f (scope.bind "z" (.bool true)) 3 = .done (v', 4) ∧
      v ≠ v' ∧ v.SameButCaptured v') ∧
    unbounded.eval call (scope.bind "z" (.bool true)) 3 = .done (.string "a", 4) := by
  intro here f call scope
  have hname : "z" ∉ f.names.free := by decide
  have heval (e : Expr) (scope : Scope) (v : Value) (h : e.eval 4 scope 3 = .done (v, 4)) :
      unbounded.eval e scope 3 = .done (v, 4) :=
    (unbounded_eval_eq_iff (o := .done (v, 4)) nofun).mpr ⟨4, h⟩
  refine ⟨⟨_, _, heval f scope _ rfl, heval f _ _ rfl, ?_, ?_⟩, ?_⟩
  · intro h
    have hlength := congrArg List.length (Value.closure.inj h).2.2.2
    exact absurd hlength (by decide)
  · have hends := (eval_sameButCaptured f scope 3).1 _ (sameFree_bind hname scope (.bool true))
    rw [heval f scope _ rfl, heval f (scope.bind "z" (.bool true)) _ rfl] at hends
    cases hends with
    | done hboth => exact hboth.fst
  · exact ((eval_sameButCaptured call scope 3).2 "z" (by decide) (.bool true) _ 4 rfl).mpr
      (heval call scope _ rfl)

/-- Two names that look bound and are free: the name `_` in the base of its own recursion, and the
current value in a function on the right of an arrow. With each of them taken out nothing is free,
and yet a binding of it turns a failure into a value. -/
theorem eval_free_underscore_and_current :
    (∃ base fix fixt param body span state,
      let program : Expr :=
        .binary .arrow (.recursion "_" base fix fixt span) (.function param body span) span
      Samples.letRecUnderscore.lower ⟨none, .deferred, .recording⟩ .initial =
        (.done program, state) ∧
      base.names.without ["_"] ++ fix.names ++ fixt.names ++
        (param.names ++ body.names.without param.variables) = .none ∧
      (∃ failure, program.eval 6 Scope.empty 0 = .failed failure ∧
        failure.cause = .unbound "_") ∧
      ∃ result, program.eval 6 (Scope.empty.bind "_" (.bool true)) 0 = .done result) ∧
    (let here := Span.unknown
      let unit : Expr := .literal (.tuple []) here
      let f : Expr := .function (.expr (.ident "x" here)) (.ident "." here) here
      let arrow : Expr := .binary .arrow unit f here
      unit.names ++ f.names.without ["."] = .none ∧
      (∃ failure, arrow.eval 6 Scope.empty 0 = .failed failure ∧ failure.cause = .unbound ".") ∧
      arrow.eval 6 (Scope.empty.bind "." (.bool true)) 0 = .done (.bool true, 0)) := by
  refine ⟨⟨_, _, _, _, _, _, _, rfl, ?_, ⟨_, rfl, rfl⟩, _, rfl⟩, ?_, ⟨_, rfl, rfl⟩, rfl⟩
  · decide
  · decide

end Expr

end Relational
