import Relational.Proofs.Fuel
import Relational.Proofs.Likeness
import Relational.Proofs.SafeRun

/-!
# Runs in lockstep

> `Run.Sim N T r r' Q`: if the run `r` ends, the run `r'` ends in the same way. Its results are
> related by `Q`, and its failures are like those of `r`.

Both runs start with related next identities, and end with related ones. Nothing is said of `r'`
where `r` does not end, so that `r` may be a run with little fuel. Two runs that follow each other
end alike or not at all.
-/

namespace Relational

/-- A failure at the same place, for a like cause. -/
structure Failure.Like (T : String → String → Prop) (f f' : Failure) : Prop where
  span : f.span = f'.span
  cause : f.cause.Like T f'.cause

theorem Failure.Like.within {T : String → String → Prop} {f f' : Failure} (h : f.Like T f')
    (span : Span) : (f.within span).Like T (f'.within span) := by
  obtain ⟨place, cause⟩ := f
  obtain ⟨place', cause'⟩ := f'
  obtain ⟨hplace, hcause⟩ := h
  cases hplace
  cases place with
  | none => exact ⟨rfl, hcause⟩
  | some place => exact ⟨rfl, hcause⟩

theorem Failure.Like.eq {f f' : Failure} (h : f.Like Eq f') : f = f' := by
  obtain ⟨span, cause⟩ := f
  obtain ⟨span', cause'⟩ := f'
  obtain ⟨hspan, hcause⟩ := h
  cases hspan
  cases hcause.eq
  rfl

/-- Whatever has ended has ended alike. -/
inductive Outcome.Sim {α α' : Type} (T : String → String → Prop) (Q : α → α' → Prop) :
    Outcome α → Outcome α' → Prop
  | done {a : α} {a' : α'} (h : Q a a') : Sim T Q (.done a) (.done a')
  | failed {f f' : Failure} (h : f.Like T f') : Sim T Q (.failed f) (.failed f')
  | aborted (reason : Abort) : Sim T Q (.aborted reason) (.aborted reason)
  | exhausted (o : Outcome α') : Sim T Q .exhausted o

/-- Two runs have ended alike, or none of them has ended. -/
inductive Outcome.EndsAlike {α α' : Type} (F : Failure → Failure → Prop) (Q : α → α' → Prop) :
    Outcome α → Outcome α' → Prop
  | done {a : α} {a' : α'} (h : Q a a') : EndsAlike F Q (.done a) (.done a')
  | failed {f f' : Failure} (h : F f f') : EndsAlike F Q (.failed f) (.failed f')
  | aborted (reason : Abort) : EndsAlike F Q (.aborted reason) (.aborted reason)
  | exhausted : EndsAlike F Q .exhausted .exhausted

/-- Two runs that follow each other end alike. -/
theorem Outcome.Sim.endsAlike {α α' : Type} {T T' : String → String → Prop} {Q : α → α' → Prop}
    {Q' : α' → α → Prop} {o : Outcome α} {o' : Outcome α'} (h : o.Sim T Q o')
    (hback : o'.Sim T' Q' o) : o.EndsAlike (Failure.Like T) (fun a a' => Q a a' ∧ Q' a' a) o' := by
  cases h with
  | done h =>
    cases hback with
    | done hback => exact .done ⟨h, hback⟩
  | failed h => exact .failed h
  | aborted reason => exact .aborted reason
  | exhausted =>
    cases hback
    exact .exhausted

theorem Outcome.EndsAlike.exists_done {α α' : Type} {F : Failure → Failure → Prop}
    {Q : α → α' → Prop} {a : α} {o : Outcome α'} (h : (Outcome.done a).EndsAlike F Q o) :
    ∃ a', o = .done a' ∧ Q a a' := by
  cases h with
  | done h => exact ⟨_, rfl, h⟩

theorem Outcome.EndsAlike.mono {α α' : Type} {F G : Failure → Failure → Prop}
    {Q S : α → α' → Prop} {o : Outcome α} {o' : Outcome α'} (h : o.EndsAlike F Q o')
    (hF : ∀ f f', F f f' → G f f') (hQ : ∀ a a', Q a a' → S a a') : o.EndsAlike G S o' := by
  cases h with
  | done h => exact .done (hQ _ _ h)
  | failed h => exact .failed (hF _ _ h)
  | aborted reason => exact .aborted reason
  | exhausted => exact .exhausted

namespace Run

variable {α α' β β' : Type} {N : Identity → Identity → Prop} {T : String → String → Prop}
  {Q : α → α' → Prop} {S : β → β' → Prop}

/-- If the first run ends, the second one ends alike. -/
def Sim (N : Identity → Identity → Prop) (T : String → String → Prop) (r : Run α) (r' : Run α')
    (Q : α → α' → Prop) : Prop :=
  ∀ next next', N next next' → (r next).Sim T (Both Q N) (r' next')

namespace Sim

theorem pure {a : α} {a' : α'} (h : Q a a') : Sim N T (Pure.pure a) (Pure.pure a') Q :=
  fun _ _ hnext => .done ⟨h, hnext⟩

theorem bind {r : Run α} {r' : Run α'} {f : α → Run β} {f' : α' → Run β'} (hr : Sim N T r r' Q)
    (hf : ∀ a a', Q a a' → Sim N T (f a) (f' a') S) : Sim N T (r >>= f) (r' >>= f') S := by
  intro next next' hnext
  have h := hr next next' hnext
  rw [bind_apply, bind_apply]
  generalize r next = o at h ⊢
  generalize r' next' = o' at h ⊢
  cases h with
  | @done result result' h => exact hf result.1 result'.1 h.fst result.2 result'.2 h.snd
  | failed h => exact .failed h
  | aborted reason => exact .aborted reason
  | exhausted => exact .exhausted _

/-- What is known of the results of the first run may be used. -/
theorem and_left {F : Failure → Prop} {P : α → Prop} {r : Run α} {r' : Run α'}
    (h : Sim N T r r' Q) (hr : r.Safe F P) : Sim N T r r' fun a a' => Q a a' ∧ P a := by
  intro next next' hnext
  have hsafe := hr next
  have hsim := h next next' hnext
  generalize r next = o at hsafe hsim ⊢
  generalize r' next' = o' at hsim ⊢
  cases hsim with
  | done hq => exact .done ⟨⟨hq.fst, hsafe⟩, hq.snd⟩
  | failed h => exact .failed h
  | aborted reason => exact .aborted reason
  | exhausted => exact .exhausted _

theorem within {r : Run α} {r' : Run α'} (h : Sim N T r r' Q) (span : Span) :
    Sim N T (Run.within span r) (Run.within span r') Q := by
  intro next next' hnext
  have hsim := h next next' hnext
  rw [within_apply, within_apply]
  generalize r next = o at hsim ⊢
  generalize r' next' = o' at hsim ⊢
  cases hsim with
  | done hq => exact .done hq
  | failed h => exact .failed (h.within span)
  | aborted reason => exact .aborted reason
  | exhausted => exact .exhausted _

/-- Related results, or like failures. -/
inductive Tried (T : String → String → Prop) (Q : α → α' → Prop) :
    Except Failure α → Except Failure α' → Prop
  | ok {a : α} {a' : α'} (h : Q a a') : Tried T Q (.ok a) (.ok a')
  | error {f f' : Failure} (h : f.Like T f') : Tried T Q (.error f) (.error f')

theorem attempt {r : Run α} {r' : Run α'} (h : Sim N T r r' Q) :
    Sim N T (Run.attempt r) (Run.attempt r') (Tried T Q) := by
  intro next next' hnext
  have hsim := h next next' hnext
  rw [attempt_apply, attempt_apply]
  generalize r next = o at hsim ⊢
  generalize r' next' = o' at hsim ⊢
  cases hsim with
  | done hq => exact .done ⟨.ok hq.fst, hq.snd⟩
  | failed h => exact .done ⟨.error h, hnext⟩
  | aborted reason => exact .aborted reason
  | exhausted => exact .exhausted _

theorem fail {cause cause' : Cause} (h : cause.Like T cause') :
    Sim N T (Run.fail cause) (Run.fail cause') Q := fun _ _ _ => .failed ⟨rfl, h⟩

theorem abort (reason : Abort) : Sim N T (Run.abort reason) (Run.abort reason) Q :=
  fun _ _ _ => .aborted reason

theorem rethrow {failure failure' : Failure} (h : failure.Like T failure') :
    Sim N T (Run.rethrow failure) (Run.rethrow failure') Q := fun _ _ _ => .failed h

theorem exhausted {r' : Run α'} : Sim N T (Run.exhausted : Run α) r' Q :=
  fun _ _ _ => .exhausted _

theorem ofExcept {x : Except Cause α} {x' : Except Cause α'} (h : Agree T Q x x') :
    Sim N T (Run.ofExcept x) (Run.ofExcept x') Q := by
  cases h with
  | ok h => exact Sim.pure h
  | error h => exact Sim.fail h

theorem fresh (hN : ∀ n n', N n n' → N (n + 1) (n' + 1)) : Sim N T Run.fresh Run.fresh N :=
  fun next next' hnext => .done ⟨hnext, hN next next' hnext⟩

theorem traverse {f : α → Run β} {f' : α' → Run β'} {as : List α} {as' : List α'}
    (h : List.Forall₂ (fun a a' => Sim N T (f a) (f' a') S) as as') :
    Sim N T (Run.traverse f as) (Run.traverse f' as') (List.Forall₂ S) := by
  induction h with
  | nil => exact Sim.pure .nil
  | cons ha _ ih => exact ha.bind fun _ _ hb => ih.bind fun _ _ hbs => Sim.pure (.cons hb hbs)

theorem traverseItems {f : α → Run β} {f' : α' → Run β'} {as : List (Option α)}
    {as' : List (Option α')}
    (h : List.Forall₂ (Option.Rel fun a a' => Sim N T (f a) (f' a') S) as as') :
    Sim N T (Run.traverseItems f as) (Run.traverseItems f' as')
      (List.Forall₂ (Option.Rel S)) := by
  induction h with
  | nil => exact Sim.pure .nil
  | cons ha _ ih =>
    cases ha with
    | none => exact ih.bind fun _ _ hbs => Sim.pure (.cons .none hbs)
    | some ha =>
      exact ha.bind fun _ _ hb => ih.bind fun _ _ hbs => Sim.pure (.cons (.some hb) hbs)

theorem filter {test : α → Run Bool} {test' : α' → Run Bool} {as : List α} {as' : List α'}
    (h : List.Forall₂ (fun a a' => Q a a' ∧ Sim N T (test a) (test' a') Eq) as as') :
    Sim N T (Run.filter test as) (Run.filter test' as') (List.Forall₂ Q) := by
  induction h with
  | nil => exact Sim.pure .nil
  | cons ha _ ih =>
    refine ha.2.bind ?_
    rintro keep _ rfl
    refine ih.bind fun kept kept' hkept => Sim.pure ?_
    cases keep with
    | true => exact .cons ha.1 hkept
    | false => exact hkept

theorem foldl {f : β → α → Run β} {f' : β' → α' → Run β'} {as : List α} {as' : List α'}
    (h : List.Forall₂ (fun a a' => ∀ b b', S b b' → Sim N T (f b a) (f' b' a') S) as as') :
    ∀ {b : β} {b' : β'}, S b b' → Sim N T (Run.foldl f b as) (Run.foldl f' b' as') S := by
  induction h with
  | nil => exact fun hb => Sim.pure hb
  | cons ha _ ih => exact fun hb => (ha _ _ hb).bind fun _ _ hacc => ih hacc

/-- What follows every run of a row follows their limit. -/
theorem limit {r : Nat → Run α} {r' : Run α'} (h : ∀ n, Sim N T (r n) r' Q) :
    Sim N T (Run.limit r) r' Q := by
  intro next next' hnext
  unfold Run.limit
  split
  next hex => exact h hex.choose next next' hnext
  next => exact .exhausted _

end Sim

/-- What holds of every run of a row holds of their limit. -/
theorem Safe.limit {F : Failure → Prop} {P : α → Prop} {r : Nat → Run α}
    (h : ∀ n, (r n).Safe F P) : (Run.limit r).Safe F P := by
  intro next
  unfold Run.limit
  split
  next hex => exact h hex.choose next
  next => exact True.intro

end Run

end Relational
