import Relational.Proofs.Fuel
import Relational.Proofs.Pairing

/-!
# Evaluations that put no function into a text

The text of a function can be seen in one way only, apart from messages: by putting the function
into a text. A quiet evaluation gives up where that would happen, and is as any other otherwise:

> `quietly_approx`: what ends quietly ends in the same way without a look at what is put into texts.

So that two functions with different texts can be told apart by no quiet evaluation.
-/

namespace Relational

/-- Whether an expression is a text with substitutions. -/
def Expr.isText : Expr → Bool
  | .xstr _ _ => true
  | _ => false

namespace Evaluator

/-- Gives up where the value of an expression holds a function. -/
def dataOnly (ev : Evaluator) : Evaluator where
  eval e scope := do
    let v ← ev.eval e scope
    if v.hasFunction then Run.exhausted else pure v
  call := ev.call
  bind := ev.bind

/-- One level of quiet evaluation: what is put into a text holds no function. -/
def quietNext (ev : Evaluator) : Evaluator where
  eval e scope := if e.isText then ev.dataOnly.evalStep e scope else ev.evalStep e scope
  call := ev.callStep
  bind := ev.bindStep

end Evaluator

/-- Quiet evaluation with an amount of fuel. -/
def quiet : Nat → Evaluator
  | 0 => evaluator 0
  | fuel + 1 => (quiet fuel).quietNext

/-- One evaluator approximates another. -/
abbrev Evaluator.Approx (ev ev' : Evaluator) : Prop :=
  Family (fun _ (r : Bool → Run _) => Run.Approx (r false) (r true)) fun b => bif b then ev' else ev

theorem Evaluator.Approx.dataOnly {ev ev' : Evaluator} (h : ev.Approx ev') :
    ev.dataOnly.Approx ev' where
  eval e scope := by
    have hguard (v : Value) :
        Run.Approx (if v.hasFunction then Run.exhausted else pure v) (pure v) := by
      split
      next => exact fun _ => Or.inl rfl
      next => exact fun _ => Or.inr rfl
    have hbind : Run.Approx (ev.dataOnly.eval e scope) (ev'.eval e scope >>= pure) :=
      Run.approx_compositional.bind (r := fun b => (bif b then ev' else ev).eval e scope)
        (f := fun b v => bif b then pure v else if v.hasFunction then Run.exhausted else pure v)
        (h.eval e scope) hguard
    rwa [bind_pure] at hbind
  call := h.call
  bind := h.bind

/-- A call ends, and puts no function into a text on its way. -/
def Value.CallEndsQuietly (f arg : Value) (next : Identity) : Prop :=
  ∃ fuel, (quiet fuel).call f arg next ≠ .exhausted

end Relational
