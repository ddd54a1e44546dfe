import Relational.Eval.Failure

/-!
# Runs

A `Run` is a computation of the evaluator. It ends with a result, with a failure, because it was
aborted, or because its fuel is exhausted, and these four never mix: being out of fuel says nothing
about the result.

> A failure can be placed, and a construct can catch it. An abort can not: it ends everything that
> the run is part of.

A run also hands out identities. It is given the next free one and returns the next free one, so
that every function made in a run, and in the runs after it, has an identity of its own.
-/

namespace Relational

/-- Why a run was aborted. -/
inductive Abort where
  /-- A format asks for more places after the point than can be written. -/
  | placesOutOfRange
deriving DecidableEq

/-- The wording of an abort. -/
def Abort.message : Abort → String
  | .placesOutOfRange => "Formatting argument out of range"

/-- How a run ends. -/
inductive Outcome (α : Type) where
  | done (result : α)
  | failed (failure : Failure)
  | aborted (reason : Abort)
  | exhausted

/-- A computation that may fail, may be aborted, may run out of fuel and may hand out
identities. -/
def Run (α : Type) : Type := Identity → Outcome (α × Identity)

namespace Run

variable {α β : Type}

/-- The run that ends at once. -/
protected def pure (a : α) : Run α := fun next => .done (a, next)

/-- One run after another. -/
protected def bind (r : Run α) (f : α → Run β) : Run β := fun next =>
  match r next with
  | .done (a, next) => f a next
  | .failed failure => .failed failure
  | .aborted reason => .aborted reason
  | .exhausted => .exhausted

instance : Monad Run where
  pure := Run.pure
  bind := Run.bind

instance : LawfulMonad Run :=
  LawfulMonad.mk' Run
    (by
      intro α r
      funext next
      show Run.bind r Run.pure next = r next
      unfold Run.bind
      split <;> simp_all [Run.pure])
    (by intros; rfl)
    (by
      intro α β γ r f g
      funext next
      show Run.bind (Run.bind r f) g next = Run.bind r (fun a => Run.bind (f a) g) next
      unfold Run.bind
      cases r next <;> rfl)

theorem pure_apply (a : α) (next : Identity) : (pure a : Run α) next = .done (a, next) := rfl

theorem bind_apply (r : Run α) (f : α → Run β) (next : Identity) :
    (r >>= f) next =
      match r next with
      | .done (a, next) => f a next
      | .failed failure => .failed failure
      | .aborted reason => .aborted reason
      | .exhausted => .exhausted := rfl

/-- The run that fails. -/
def fail (cause : Cause) : Run α := fun _ => .failed ⟨none, cause⟩

/-- The run that is aborted. -/
def abort (reason : Abort) : Run α := fun _ => .aborted reason

/-- The run that has no fuel left. -/
def exhausted : Run α := fun _ => .exhausted

/-- An identity that was not handed out before. -/
def fresh : Run Identity := fun next => .done (next, next + 1)

/-- The result of an operation that may fail. -/
def ofExcept : Except Cause α → Run α
  | .ok a => Run.pure a
  | .error cause => fail cause

/-- The run with its failure, if any, placed at a span. -/
def within (span : Span) (r : Run α) : Run α := fun next =>
  match r next with
  | .failed failure => .failed (failure.within span)
  | outcome => outcome

/-- The run with its failure, if any, as a result. -/
def attempt (r : Run α) : Run (Except Failure α) := fun next =>
  match r next with
  | .done (a, next) => .done (.ok a, next)
  | .failed failure => .done (.error failure, next)
  | .aborted reason => .aborted reason
  | .exhausted => .exhausted

theorem within_apply (span : Span) (r : Run α) (next : Identity) :
    within span r next =
      match r next with
      | .failed failure => .failed (failure.within span)
      | outcome => outcome := rfl

theorem attempt_apply (r : Run α) (next : Identity) :
    attempt r next =
      match r next with
      | .done (a, next) => .done (.ok a, next)
      | .failed failure => .done (.error failure, next)
      | .aborted reason => .aborted reason
      | .exhausted => .exhausted := rfl

/-- The run that fails as given. -/
def rethrow (failure : Failure) : Run α := fun _ => .failed failure

/-- Runs over the elements of a list, in order. -/
def traverse (f : α → Run β) : List α → Run (List β)
  | [] => pure []
  | a :: rest => do
    let b ← f a
    let bs ← traverse f rest
    pure (b :: bs)

/-- Runs over the items of a list with holes, in order. The holes stay. -/
def traverseItems (f : α → Run β) : List (Option α) → Run (List (Option β))
  | [] => pure []
  | none :: rest => do
    let bs ← traverseItems f rest
    pure (none :: bs)
  | some a :: rest => do
    let b ← f a
    let bs ← traverseItems f rest
    pure (some b :: bs)

/-- The elements of a list that pass a test, in order. -/
def filter (test : α → Run Bool) : List α → Run (List α)
  | [] => pure []
  | a :: rest => do
    let keep ← test a
    let kept ← filter test rest
    pure (if keep then a :: kept else kept)

/-- Folds over the elements of a list, in order. -/
def foldl (f : β → α → Run β) : β → List α → Run β
  | acc, [] => pure acc
  | acc, a :: rest => do
    let acc ← f acc a
    foldl f acc rest

end Run

end Relational
