import Relational.Eval.Run
import Relational.Proofs.Hereditary

/-!
# Safe runs

> `Run.Safe F r P`: the results of the run `r` have the property `P`, and its failures the
> property `F`.

Nothing is said of a run that is aborted or out of fuel. Safety passes from the parts of a run to
the whole, through every way in which the rules of evaluation put runs together.
-/

namespace Relational

/-- A result with one property or a failure with the other, or neither result nor failure. -/
def Outcome.Safe {α : Type} (F : Failure → Prop) (o : Outcome (α × Identity)) (P : α → Prop) :
    Prop :=
  match o with
  | .done result => P result.1
  | .failed failure => F failure
  | .aborted _ | .exhausted => True

@[simp]
theorem Failure.cause_within (f : Failure) (span : Span) : (f.within span).cause = f.cause := by
  obtain ⟨place, cause⟩ := f
  cases place <;> rfl

namespace Run

variable {α β : Type} {F G : Failure → Prop} {P : α → Prop} {Q : β → Prop}

/-- A run whose results have one property and whose failures have another. -/
def Safe (F : Failure → Prop) (r : Run α) (P : α → Prop) : Prop := ∀ next, (r next).Safe F P

namespace Safe

theorem pure {a : α} (h : P a) : Safe F (Pure.pure a) P := fun _ => h

theorem bind {r : Run α} {f : α → Run β} (hr : Safe F r P) (hf : ∀ a, P a → Safe F (f a) Q) :
    Safe F (r >>= f) Q := by
  intro next
  have h := hr next
  rw [bind_apply]
  cases hnext : r next with
  | done result =>
    rw [hnext] at h
    exact hf result.1 h result.2
  | failed failure =>
    rw [hnext] at h
    exact h
  | aborted | exhausted => exact True.intro

theorem mono {r : Run α} {P' : α → Prop} (h : Safe F r P) (hF : ∀ f, F f → G f)
    (hP : ∀ a, P a → P' a) : Safe G r P' := by
  intro next
  have hnext := h next
  cases hr : r next with
  | done result =>
    rw [hr] at hnext
    exact hP result.1 hnext
  | failed failure =>
    rw [hr] at hnext
    exact hF failure hnext
  | aborted | exhausted => exact True.intro

/-- What holds of the results of a safe run may be weakened. -/
theorem imp {r : Run α} {P' : α → Prop} (h : Safe F r P) (hP : ∀ a, P a → P' a) : Safe F r P' :=
  h.mono (fun _ hf => hf) hP

/-- What holds of the results of a run for two reasons holds of them together. -/
theorem and {r : Run α} {P' : α → Prop} (h : Safe F r P) (h' : Safe F r P') :
    Safe F r fun a => P a ∧ P' a := by
  intro next
  have hnext := h next
  have hnext' := h' next
  cases hr : r next with
  | done result =>
    rw [hr] at hnext hnext'
    exact ⟨hnext, hnext'⟩
  | failed failure =>
    rw [hr] at hnext
    exact hnext
  | aborted | exhausted => exact True.intro

theorem within {r : Run α} {span : Span} (h : Safe F r P) (hF : ∀ f, F f → G (f.within span)) :
    Safe G (Run.within span r) P := by
  intro next
  have hnext := h next
  rw [within_apply]
  cases hr : r next with
  | failed failure =>
    rw [hr] at hnext
    exact hF failure hnext
  | done | aborted | exhausted =>
    rw [hr] at hnext
    exact hnext

theorem attempt {r : Run α} (h : Safe F r P) :
    Safe G (Run.attempt r) fun tried =>
      match tried with
      | .ok a => P a
      | .error failure => F failure := by
  intro next
  have hnext := h next
  rw [attempt_apply]
  cases hr : r next with
  | done | failed =>
    rw [hr] at hnext
    exact hnext
  | aborted | exhausted => exact True.intro

theorem fail {cause : Cause} (h : F ⟨none, cause⟩) : Safe F (Run.fail cause) P := fun _ => h

theorem rethrow {failure : Failure} (h : F failure) : Safe F (Run.rethrow failure) P := fun _ => h

theorem ofExcept {x : Except Cause α} (h : Sound x P)
    (hF : ∀ cause : Cause, cause.blamesExpr = false → F ⟨none, cause⟩) :
    Safe F (Run.ofExcept x) P := by
  cases x with
  | ok a => exact Safe.pure h
  | error cause => exact Safe.fail (hF cause h)

/-- Nothing is said of a run that may do anything. -/
theorem trivial {r : Run α} : Safe (fun _ => True) r fun _ => True := by
  intro next
  cases r next <;> exact True.intro

theorem fresh : Safe F Run.fresh fun _ => True := fun _ => True.intro

theorem exhausted : Safe F (Run.exhausted : Run α) P := fun _ => True.intro

theorem traverse {f : α → Run β} {as : List α} (h : ∀ a ∈ as, Safe F (f a) Q) :
    Safe F (Run.traverse f as) fun bs => ∀ b ∈ bs, Q b := by
  induction as with
  | nil => exact Safe.pure fun _ h => absurd h List.not_mem_nil
  | cons a as ih =>
    rw [List.forall_mem_cons] at h
    refine h.1.bind fun b hb => (ih h.2).bind fun bs hbs => Safe.pure ?_
    exact List.forall_mem_cons.mpr ⟨hb, hbs⟩

theorem traverseItems {f : α → Run β} {as : List (Option α)}
    (h : ∀ a, some a ∈ as → Safe F (f a) Q) :
    Safe F (Run.traverseItems f as) fun bs => ∀ b, some b ∈ bs → Q b := by
  induction as with
  | nil => exact Safe.pure fun _ h => absurd h List.not_mem_nil
  | cons item as ih =>
    have hrest := ih fun a ha => h a (List.mem_cons_of_mem _ ha)
    cases item with
    | none =>
      refine hrest.bind fun bs hbs => Safe.pure fun b hb => hbs b ?_
      exact (List.mem_cons.mp hb).resolve_left nofun
    | some a =>
      refine (h a (List.mem_cons_self ..)).bind fun b hb => hrest.bind fun bs hbs => ?_
      refine Safe.pure fun b' hb' => ?_
      rcases List.mem_cons.mp hb' with heq | hb'
      · cases heq
        exact hb
      · exact hbs b' hb'

theorem filter {test : α → Run Bool} {as : List α} (h : ∀ a ∈ as, Safe F (test a) fun _ => True) :
    Safe F (Run.filter test as) fun kept => ∀ a ∈ kept, a ∈ as := by
  induction as with
  | nil => exact Safe.pure fun _ h => h
  | cons a as ih =>
    rw [List.forall_mem_cons] at h
    refine h.1.bind fun keep _ => (ih h.2).bind fun kept hkept => Safe.pure ?_
    cases keep with
    | false => exact fun b hb => List.mem_cons_of_mem _ (hkept b hb)
    | true =>
      intro b hb
      rcases List.mem_cons.mp hb with rfl | hb
      · exact List.mem_cons_self ..
      · exact List.mem_cons_of_mem _ (hkept b hb)

theorem foldl {f : β → α → Run β} {as : List α} (h : ∀ b, Q b → ∀ a ∈ as, Safe F (f b a) Q) :
    ∀ {b : β}, Q b → Safe F (Run.foldl f b as) Q := by
  induction as with
  | nil => exact fun hb => Safe.pure hb
  | cons a as ih =>
    intro b hb
    refine (h b hb a (List.mem_cons_self ..)).bind fun b' hb' => ?_
    exact ih (fun b hb a ha => h b hb a (List.mem_cons_of_mem _ ha)) hb'

end Safe

/-- A substitution into a text fails for its format or not at all. -/
theorem formatted_safe {format : Option String} {v : Value}
    (hF : ∀ cause : Cause, cause.blamesExpr = false → F ⟨none, cause⟩) :
    (v.formatted format).Safe F fun _ => True := by
  unfold Value.formatted
  split
  next => exact Safe.pure True.intro
  next => exact Safe.pure True.intro
  next => exact Safe.pure True.intro
  next => exact Safe.pure True.intro
  next =>
    split
    next =>
      split
      next => exact Safe.pure True.intro
      next => exact fun _ => True.intro
    next => exact Safe.fail (hF _ rfl)
  next => exact Safe.fail (hF _ rfl)

end Run

end Relational
