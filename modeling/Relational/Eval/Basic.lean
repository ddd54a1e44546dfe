import Relational.Eval.Binding
import Relational.Eval.Step

/-!
# Evaluation

The evaluator with fuel: at each of its levels the parts are evaluated, called and matched with
one unit less. Fuel bounds the depth of a run and not its length.

> More fuel never changes an answer: a run that ends with a result, a failure or an abort ends the
> same way with any greater fuel. A run that is out of fuel for every amount does not end.
-/

namespace Relational

mutual

/-- The value of an expression in a scope. -/
def Expr.eval : Nat → Expr → Scope → Run Value
  | 0, _, _ => Run.exhausted
  | fuel + 1, e, scope =>
    Evaluator.evalStep ⟨Expr.eval fuel, Value.call fuel, Pattern.bind fuel⟩ e scope

/-- The result of calling a value with an argument. -/
def Value.call : Nat → Value → Value → Run Value
  | 0, _, _ => Run.exhausted
  | fuel + 1, f, arg =>
    Evaluator.callStep ⟨Expr.eval fuel, Value.call fuel, Pattern.bind fuel⟩ f arg

/-- The bindings made so far, with those of a pattern for a value. -/
def Pattern.bind : Nat → Pattern → Scope → Value → Scope → Run Scope
  | 0, _, _, _, _ => Run.exhausted
  | fuel + 1, pattern, scope, v, bound =>
    Evaluator.bindStep ⟨Expr.eval fuel, Value.call fuel, Pattern.bind fuel⟩ pattern scope v bound

end

/-- The evaluator with an amount of fuel. -/
def evaluator (fuel : Nat) : Evaluator := ⟨Expr.eval fuel, Value.call fuel, Pattern.bind fuel⟩

/-- The bindings of a pattern for a value. -/
def Pattern.bindings (fuel : Nat) (pattern : Pattern) (scope : Scope) (v : Value) : Run Scope :=
  pattern.bind fuel scope v Scope.empty

/-- The fuel of a program run: more than any run can use that fits into memory. -/
def ampleFuel : Nat := 1000000000

end Relational
