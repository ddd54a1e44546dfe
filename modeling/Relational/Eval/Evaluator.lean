import Relational.Eval.Run
import Relational.Scope

/-!
# Evaluators

An `Evaluator` evaluates expressions, calls values and matches patterns. The rules of the language
are written against an evaluator for the parts: what an expression does is said in terms of what
its parts, the calls it makes and the patterns it matches do. Tying the knot, with fuel, is done
once, at the end.
-/

namespace Relational

/-- The three things that the rules of the language ask for. -/
structure Evaluator where
  /-- The value of an expression in a scope. -/
  eval : Expr → Scope → Run Value
  /-- The result of calling a value with an argument. -/
  call : Value → Value → Run Value
  /-- The bindings made so far, with those of a pattern for a value. Keys, literals and fallbacks
  are evaluated in the scope. -/
  bind : Pattern → Scope → Value → Scope → Run Scope

namespace Evaluator

/-- The bindings of a pattern for a value. -/
def bindings (ev : Evaluator) (pattern : Pattern) (scope : Scope) (v : Value) : Run Scope :=
  ev.bind pattern scope v Scope.empty

/-- Evaluates a body with a pattern bound to a value. -/
def enter (ev : Evaluator) (param : Pattern) (body : Expr) (scope : Scope) (v : Value) :
    Run Value := do
  let bound ← ev.bindings param scope v
  ev.eval body (scope.update bound)

/-- The right side of an arrow for a value: a function literal binds its pattern, and any other
expression sees the value as the current one. -/
def apply (ev : Evaluator) (rhs : Expr) (scope : Scope) (v : Value) : Run Value :=
  match rhs with
  | .function param body _ => ev.enter param body scope v
  | rhs => ev.eval rhs (scope.bind "." v)

end Evaluator

end Relational
