import Relational.Proofs.Compositional

/-!
# Evaluation without a bound

Evaluation is defined with fuel, and fuel bounds the depth of a run. This file removes it:

> More fuel never changes an answer (`evaluator_mono`), so every run has one outcome for all
> sufficient amounts of fuel, or none for any (`unbounded_eval_eq_iff`,
> `unbounded_eval_eq_exhausted_iff`).

`unbounded` is the evaluator that gives these outcomes. It obeys the rules of the language with
itself in the place of the evaluator of the parts (`unbounded_eval`, `unbounded_call`,
`unbounded_bind`), so what is proved of it is proved by equations, without a count of fuel. That it
does so is a matter of continuity: a run that ends has used only finitely much of what its parts
can do, and some amount of fuel is enough for all of it.
-/

namespace Relational

namespace Run

variable {α : Type}

/-! ## Approximation -/

/-- A run approximates another when it ends as the other does, or is out of fuel. -/
def Approx (r s : Run α) : Prop := ∀ next, r next = .exhausted ∨ r next = s next

/-- A run that is not out of fuel ends as the runs that it approximates. -/
theorem Approx.eq {r s : Run α} (h : Approx r s) {next : Identity}
    (hne : r next ≠ .exhausted) : s next = r next := by
  rcases h next with he | he
  · exact absurd he hne
  · exact he.symm

/-- Approximation, as a property of families of two runs. -/
theorem approx_compositional :
    Compositional fun α (r : Bool → Run α) => Approx (r false) (r true) where
  const r := fun next => Or.inr rfl
  bind {α β r f} hr hf := by
    intro next
    simp only [bind_apply]
    rcases hr next with h | h
    · exact Or.inl (by rw [h])
    · rw [← h]
      cases r false next with
      | done result => exact hf result.1 result.2
      | failed failure => exact Or.inr rfl
      | aborted reason => exact Or.inr rfl
      | exhausted => exact Or.inl rfl
  within {α r} span hr := by
    intro next
    simp only [within_apply]
    rcases hr next with h | h
    · exact Or.inl (by rw [h])
    · exact Or.inr (by rw [h])
  rescue {α β r f g} test hr hf hg := by
    intro next
    dsimp only
    rcases hr next with h | h
    · exact Or.inl (rescue_of_exhausted h)
    · cases hlast : r true next with
      | done result =>
        rw [rescue_of_done (h.trans hlast), rescue_of_done hlast]
        exact hf result.1 result.2
      | failed failure =>
        rw [rescue_of_failed (h.trans hlast), rescue_of_failed hlast]
        split
        next => exact hg next
        next => exact Or.inr rfl
      | aborted reason =>
        exact Or.inr ((rescue_of_aborted (h.trans hlast)).trans (rescue_of_aborted hlast).symm)
      | exhausted => exact Or.inl (rescue_of_exhausted (h.trans hlast))

/-! ## Limits -/

/-- A row of runs settles on a run: from every identity on, all but finitely many of them end as it
does. The last index stands for the run settled on. -/
def Settles (r : Option Nat → Run α) : Prop :=
  ∀ next, ∃ bound, ∀ n, bound ≤ n → r (some n) next = r none next

/-- Settling, as a property of families of runs. -/
theorem settles_compositional : Compositional fun α (r : Option Nat → Run α) => Settles r where
  const r := fun next => ⟨0, fun _ _ => rfl⟩
  bind {α β r f} hr hf := by
    intro next
    obtain ⟨bound, hbound⟩ := hr next
    simp only [bind_apply]
    cases hlimit : r none next with
    | done result =>
      obtain ⟨bound', hbound'⟩ := hf result.1 result.2
      refine ⟨max bound bound', fun n hn => ?_⟩
      rw [hbound n (by omega), hlimit]
      exact hbound' n (by omega)
    | failed failure => exact ⟨bound, fun n hn => by rw [hbound n hn, hlimit]⟩
    | aborted reason => exact ⟨bound, fun n hn => by rw [hbound n hn, hlimit]⟩
    | exhausted => exact ⟨bound, fun n hn => by rw [hbound n hn, hlimit]⟩
  within {α r} span hr := by
    intro next
    obtain ⟨bound, hbound⟩ := hr next
    exact ⟨bound, fun n hn => by simp only [within_apply, hbound n hn]⟩
  rescue {α β r f g} test hr hf hg := by
    intro next
    obtain ⟨bound, hbound⟩ := hr next
    dsimp only
    cases hlimit : r none next with
    | done result =>
      obtain ⟨bound', hbound'⟩ := hf result.1 result.2
      refine ⟨max bound bound', fun n hn => ?_⟩
      rw [rescue_of_done ((hbound n (by omega)).trans hlimit), rescue_of_done hlimit]
      exact hbound' n (by omega)
    | failed failure =>
      obtain ⟨bound', hbound'⟩ := hg next
      refine ⟨max bound bound', fun n hn => ?_⟩
      rw [rescue_of_failed ((hbound n (by omega)).trans hlimit), rescue_of_failed hlimit,
        hbound' n (by omega)]
    | aborted reason =>
      refine ⟨bound, fun n hn => ?_⟩
      rw [rescue_of_aborted ((hbound n hn).trans hlimit), rescue_of_aborted hlimit]
    | exhausted =>
      refine ⟨bound, fun n hn => ?_⟩
      rw [rescue_of_exhausted ((hbound n hn).trans hlimit), rescue_of_exhausted hlimit]

/-- A row of runs settles on one run only, with or without its first one. -/
theorem Settles.unique {r r' : Option Nat → Run α} (h : Settles r) (h' : Settles r')
    (hshift : ∀ n, r' (some n) = r (some (n + 1))) : r' none = r none := by
  funext next
  obtain ⟨bound, hbound⟩ := h next
  obtain ⟨bound', hbound'⟩ := h' next
  have hn := hbound (max bound bound' + 1) (by omega)
  have hn' := hbound' (max bound bound') (by omega)
  rw [← hn', ← hn, hshift]

open Classical in
/-- What a row of runs ends with once it has enough fuel. -/
noncomputable def limit (r : Nat → Run α) : Run α := fun next =>
  if h : ∃ n, r n next ≠ .exhausted then r h.choose next else .exhausted

variable {r : Nat → Run α} (hr : ∀ m n, m ≤ n → Approx (r m) (r n))

include hr

/-- A run that is not out of fuel has come to the limit. -/
theorem limit_eq {n : Nat} {next : Identity} (h : r n next ≠ .exhausted) :
    limit r next = r n next := by
  have hex : ∃ n, r n next ≠ .exhausted := ⟨n, h⟩
  have hchosen := hex.choose_spec
  rw [limit, dif_pos hex]
  rcases Nat.le_total n hex.choose with hle | hle
  · exact (hr n hex.choose hle).eq h
  · exact ((hr hex.choose n hle).eq hchosen).symm

/-- The limit is out of fuel only if every run is. -/
theorem limit_eq_exhausted_iff {next : Identity} :
    limit r next = .exhausted ↔ ∀ n, r n next = .exhausted := by
  constructor
  · intro h n
    refine Classical.byContradiction fun hne => ?_
    exact hne (by rw [← limit_eq hr hne]; exact h)
  · intro h
    rw [limit, dif_neg]
    rintro ⟨n, hne⟩
    exact hne (h n)

/-- Runs with more and more fuel settle on their limit. -/
theorem settles_limit : Settles fun i => i.elim (limit r) r := by
  intro next
  by_cases hex : ∃ n, r n next ≠ .exhausted
  · obtain ⟨n, hne⟩ := hex
    refine ⟨n, fun m hm => ?_⟩
    show r m next = limit r next
    rw [limit_eq hr hne]
    exact (hr n m hm).eq hne
  · refine ⟨0, fun m _ => ?_⟩
    have hall : ∀ n, r n next = .exhausted := fun n =>
      Classical.byContradiction fun hne => hex ⟨n, hne⟩
    show r m next = limit r next
    rw [(limit_eq_exhausted_iff hr).mpr hall]
    exact hall m

/-- An outcome other than being out of fuel is that of the limit if some amount of fuel leads to
it. -/
theorem limit_eq_iff {next : Identity} {o : Outcome (α × Identity)} (ho : o ≠ .exhausted) :
    limit r next = o ↔ ∃ n, r n next = o := by
  constructor
  · intro h
    obtain ⟨bound, hbound⟩ := settles_limit hr next
    exact ⟨bound, (hbound bound (Nat.le_refl _)).trans h⟩
  · rintro ⟨n, hn⟩
    rw [limit_eq hr (by rw [hn]; exact ho), hn]

end Run

/-! ## Rows of evaluators with more and more fuel -/

namespace Evaluator

/-- A level of evaluation is compositional: it is given an evaluator for the parts and passes on
what is compositional. -/
def IsLevel (step : Evaluator → Evaluator) : Prop :=
  ∀ {I : Type} {Q : (α : Type) → (I → Run α) → Prop} {ev : I → Evaluator}, Compositional Q →
    Family Q ev → Family Q fun i => step (ev i)

/-- The evaluator that has the fuel that a run needs, where some evaluator of a row has enough. -/
noncomputable def limit (ev : Nat → Evaluator) : Evaluator where
  eval e scope := Run.limit fun n => (ev n).eval e scope
  call f arg := Run.limit fun n => (ev n).call f arg
  bind pattern scope v bound := Run.limit fun n => (ev n).bind pattern scope v bound

/-- A row of evaluators, each of them one level above the one before. The first is out of fuel. -/
structure Row (step : Evaluator → Evaluator) (ev : Nat → Evaluator) : Prop where
  level : IsLevel step
  zero : ev 0 = ⟨fun _ _ => Run.exhausted, fun _ _ => Run.exhausted, fun _ _ _ _ => Run.exhausted⟩
  succ (n : Nat) : ev (n + 1) = step (ev n)

namespace Row

variable {step : Evaluator → Evaluator} {ev : Nat → Evaluator} (h : Row step ev)

include h

/-- An evaluator approximates those with more fuel. -/
theorem mono : ∀ {m n : Nat}, m ≤ n →
    Family (fun _ (r : Bool → Run _) => Run.Approx (r false) (r true))
      fun b => ev (bif b then n else m)
  | 0, _, _ => by
    refine ⟨fun _ _ _ => Or.inl ?_, fun _ _ _ => Or.inl ?_, fun _ _ _ _ _ => Or.inl ?_⟩ <;>
      simp only [cond_false, h.zero] <;> rfl
  | m + 1, n + 1, hle => by
    have hsucc : (fun b => ev (bif b then n + 1 else m + 1)) =
        fun b => step (ev (bif b then n else m)) := by
      funext b
      cases b
      · exact h.succ m
      · exact h.succ n
    rw [hsucc]
    exact h.level Run.approx_compositional (mono (Nat.le_of_succ_le_succ hle))

/-- The evaluators of a row settle on the one without a bound. -/
theorem settles : Family (fun _ (r : Option Nat → Run _) => Run.Settles r)
    fun i => i.elim (limit ev) ev where
  eval e scope next := by
    have hr : ∀ m n, m ≤ n → Run.Approx ((ev m).eval e scope) ((ev n).eval e scope) :=
      fun m n hle => (h.mono hle).eval e scope
    exact Run.settles_limit hr next
  call f arg next := by
    have hr : ∀ m n, m ≤ n → Run.Approx ((ev m).call f arg) ((ev n).call f arg) :=
      fun m n hle => (h.mono hle).call f arg
    exact Run.settles_limit hr next
  bind pattern scope v bound next := by
    have hr : ∀ m n, m ≤ n → Run.Approx ((ev m).bind pattern scope v bound)
        ((ev n).bind pattern scope v bound) :=
      fun m n hle => (h.mono hle).bind pattern scope v bound
    exact Run.settles_limit hr next

/-- One more level of evaluation adds nothing to an evaluator without a bound. -/
theorem step_limit : step (limit ev) = limit ev := by
  have hnext := h.level Run.settles_compositional h.settles
  have hsucc : ∀ n, step (ev n) = ev (n + 1) := fun n => (h.succ n).symm
  have heval : (step (limit ev)).eval = (limit ev).eval := by
    funext e scope
    refine Run.Settles.unique (h.settles.eval e scope) (hnext.eval e scope) fun n => ?_
    exact congrArg (fun ev => ev.eval e scope) (hsucc n)
  have hcall : (step (limit ev)).call = (limit ev).call := by
    funext f arg
    refine Run.Settles.unique (h.settles.call f arg) (hnext.call f arg) fun n => ?_
    exact congrArg (fun ev => ev.call f arg) (hsucc n)
  have hbind : (step (limit ev)).bind = (limit ev).bind := by
    funext pattern scope v bound
    refine Run.Settles.unique (h.settles.bind pattern scope v bound)
      (hnext.bind pattern scope v bound) fun n => ?_
    exact congrArg (fun ev => ev.bind pattern scope v bound) (hsucc n)
  show Evaluator.mk (step (limit ev)).eval (step (limit ev)).call (step (limit ev)).bind = limit ev
  rw [heval, hcall, hbind]

end Row

end Evaluator

/-! ## More fuel never changes an answer -/

/-- What one level of evaluation makes of an evaluator for the parts. -/
def Evaluator.next (ev : Evaluator) : Evaluator := ⟨ev.evalStep, ev.callStep, ev.bindStep⟩

/-- One level of evaluation keeps what is compositional. -/
theorem Evaluator.isLevel_next : IsLevel Evaluator.next := fun hQ h =>
  ⟨evalStep_family hQ h, callStep_family hQ h, bindStep_family hQ h⟩

theorem evaluator_row : Evaluator.Row Evaluator.next evaluator :=
  ⟨Evaluator.isLevel_next, rfl, fun _ => rfl⟩

/-- An evaluator approximates those with more fuel. -/
theorem evaluator_mono {m n : Nat} (h : m ≤ n) :
    Evaluator.Family (fun _ (r : Bool → Run _) => Run.Approx (r false) (r true))
      fun b => evaluator (bif b then n else m) :=
  evaluator_row.mono h

/-! ## The evaluator without a bound -/

/-- The evaluator that has the fuel that a run needs, where some amount is enough. -/
noncomputable def unbounded : Evaluator where
  eval e scope := Run.limit fun n => e.eval n scope
  call f arg := Run.limit fun n => f.call n arg
  bind pattern scope v bound := Run.limit fun n => pattern.bind n scope v bound

/-- One more level of evaluation adds nothing to an evaluator without a bound. -/
theorem unbounded_next : unbounded.next = unbounded := evaluator_row.step_limit

theorem unbounded_eval (e : Expr) (scope : Scope) :
    unbounded.eval e scope = unbounded.evalStep e scope :=
  congrArg (fun ev => ev.eval e scope) unbounded_next.symm

/-- A literal has its value in every scope. -/
theorem unbounded_eval_literal (v : Value) (span : Span) (scope : Scope) :
    unbounded.eval (.literal v span) scope = pure v := by
  rw [unbounded_eval]
  rfl

theorem unbounded_call (f arg : Value) : unbounded.call f arg = unbounded.callStep f arg :=
  congrArg (fun ev => ev.call f arg) unbounded_next.symm

theorem unbounded_bind (pattern : Pattern) (scope : Scope) (v : Value) (bound : Scope) :
    unbounded.bind pattern scope v bound = unbounded.bindStep pattern scope v bound :=
  congrArg (fun ev => ev.bind pattern scope v bound) unbounded_next.symm

/-- Without a bound an expression ends as it does with some amount of fuel. -/
theorem unbounded_eval_eq_iff {e : Expr} {scope : Scope} {next : Identity}
    {o : Outcome (Value × Identity)} (ho : o ≠ .exhausted) :
    unbounded.eval e scope next = o ↔ ∃ n, e.eval n scope next = o :=
  Run.limit_eq_iff (fun _ _ h => (evaluator_mono h).eval e scope) ho

/-- Without a bound an expression has the value that it has with some amount of fuel. -/
theorem unbounded_eval_eq_done {e : Expr} {scope : Scope} {next : Identity}
    {result : Value × Identity} (n : Nat) (h : e.eval n scope next = .done result) :
    unbounded.eval e scope next = .done result := by
  refine (unbounded_eval_eq_iff fun hdone => ?_).mpr ⟨n, h⟩
  cases hdone

/-- Without a bound an expression has no outcome only if no amount of fuel is enough. -/
theorem unbounded_eval_eq_exhausted_iff {e : Expr} {scope : Scope} {next : Identity} :
    unbounded.eval e scope next = .exhausted ↔ ∀ n, e.eval n scope next = .exhausted :=
  Run.limit_eq_exhausted_iff fun _ _ h => (evaluator_mono h).eval e scope

/-- Without a bound a call ends as it does with some amount of fuel. -/
theorem unbounded_call_eq_iff {f arg : Value} {next : Identity} {o : Outcome (Value × Identity)}
    (ho : o ≠ .exhausted) : unbounded.call f arg next = o ↔ ∃ n, f.call n arg next = o :=
  Run.limit_eq_iff (fun _ _ h => (evaluator_mono h).call f arg) ho

/-- Without a bound a match ends as it does with some amount of fuel. -/
theorem unbounded_bind_eq_iff {pattern : Pattern} {scope bound : Scope} {v : Value}
    {next : Identity} {o : Outcome (Scope × Identity)} (ho : o ≠ .exhausted) :
    unbounded.bind pattern scope v bound next = o ↔
      ∃ n, pattern.bind n scope v bound next = o :=
  Run.limit_eq_iff (fun _ _ h => (evaluator_mono h).bind pattern scope v bound) ho

end Relational
