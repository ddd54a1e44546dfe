import Mathlib.Data.List.Induction
import Relational.Lowering.Expr
import Relational.Proofs.Fuel

/-!
# Safe navigation agrees with plain navigation

A chain of tails is lowered in two ways. A plain chain nests calls and attributes around its base;
a safe chain lists its steps beside the base and the evaluator walks along them. This file shows
that the two do the same, up to the places of failures, as far as the safe chain goes:

> While no step fails, the safe chain has the values of the plain one, and its fallback does not
> matter. At the first step that fails it ends with the fallback if the step is marked and the
> failure says that there is no value, and else with the failure.

Both lowerings are told by the steps: a tail lowers to a step, and the plain expression is what the
step says around the base (`tail_eq_safeStep`). The run lemma is `eval_safeTail_append`: a safe
chain whose front half has a plain value goes on with its back half from that value.
-/

namespace Relational

/-! ## Runs up to the places of failures -/

/-- An outcome without the place of its failure. -/
def Outcome.unplaced {α : Type} : Outcome α → Outcome α
  | .failed failure => .failed ⟨none, failure.cause⟩
  | outcome => outcome

namespace Outcome

variable {α : Type} {o : Outcome α}

@[simp]
theorem unplaced_done (a : α) : (Outcome.done a).unplaced = .done a := rfl

@[simp]
theorem unplaced_aborted (reason : Abort) : (Outcome.aborted reason : Outcome α).unplaced =
    .aborted reason := rfl

@[simp]
theorem unplaced_exhausted : (Outcome.exhausted : Outcome α).unplaced = .exhausted := rfl

theorem unplaced_eq_done {a : α} (h : o.unplaced = .done a) : o = .done a := by
  cases o with
  | failed failure => cases h
  | done | aborted | exhausted => exact h

theorem unplaced_eq_failed {failure : Failure} (h : o.unplaced = .failed failure) :
    ∃ failure', o = .failed failure' ∧ failure'.cause = failure.cause := by
  cases o with
  | failed failure' =>
    cases h
    exact ⟨failure', rfl, rfl⟩
  | done | aborted | exhausted => cases h

end Outcome

namespace Run

variable {α β : Type}

/-- Two runs that do the same, up to the places of failures. -/
def Alike (r s : Run α) : Prop := ∀ next, (r next).unplaced = (s next).unplaced

theorem Alike.refl (r : Run α) : Alike r r := fun _ => rfl

theorem Alike.trans {r s t : Run α} (hrs : Alike r s) (hst : Alike s t) : Alike r t :=
  fun next => (hrs next).trans (hst next)

/-- Runs that are alike stay so when what follows is alike. -/
theorem Alike.bind {r s : Run α} {f g : α → Run β} (h : Alike r s) (hf : ∀ a, Alike (f a) (g a)) :
    Alike (r >>= f) (s >>= g) := by
  intro next
  have hn := h next
  simp only [bind_apply]
  cases hr : r next with
  | done result =>
    rw [hr] at hn
    rw [Outcome.unplaced_eq_done hn.symm]
    exact hf result.1 result.2
  | failed failure =>
    rw [hr] at hn
    obtain ⟨failure', hs, hcause⟩ := Outcome.unplaced_eq_failed hn.symm
    rw [hs]
    exact congrArg (fun cause => Outcome.failed ⟨none, cause⟩) hcause.symm
  | aborted reason =>
    rw [hr] at hn
    cases hs : s next <;> simp_all [Outcome.unplaced]
  | exhausted =>
    rw [hr] at hn
    cases hs : s next <;> simp_all [Outcome.unplaced]

/-- Placing a failure changes no more than its place. -/
theorem within_alike (span : Span) (r : Run α) : Alike (within span r) r := by
  intro next
  rw [within_apply]
  cases r next with
  | failed failure =>
    obtain ⟨place, cause⟩ := failure
    cases place <;> rfl
  | done | aborted | exhausted => rfl

/-- Places given twice or once are alike. -/
theorem within_alike_within (span span' : Span) (r : Run α) :
    Alike (within span r) (within span' r) :=
  fun next => (within_alike span r next).trans (within_alike span' r next).symm

end Run

/-! ## The plain chain of a row of steps -/

namespace SafeStep

/-- The plain expression that a step stands for, around a base. -/
def plain (base : Expr) (step : SafeStep) : Expr :=
  let called :=
    match step.args with
    | some (args, span) => Lowering.calls span base args
    | none => base
  match step.attr with
  | some (attr, span) => .dot called attr (accessSpan called.span span)
  | none => called

/-- The plain expression that a row of steps stands for. -/
def plainAll (base : Expr) (steps : List SafeStep) : Expr := steps.foldl plain base

/-- The plain chain of a row of steps: after each of them whether it is marked, and the expression
up to it. -/
def plainChain (base : Expr) : List SafeStep → List (Bool × Expr)
  | [] => []
  | step :: steps => (step.safe, step.plain base) :: plainChain (step.plain base) steps

theorem plainAll_concat (base : Expr) (steps : List SafeStep) (step : SafeStep) :
    plainAll base (steps ++ [step]) = step.plain (plainAll base steps) := by
  unfold plainAll
  rw [List.foldl_append]
  rfl

/-- The plain chain after a number of steps. -/
theorem plainChain_getElem? (steps : List SafeStep) : ∀ (base : Expr) (k : Nat),
    (plainChain base steps)[k]? =
      steps[k]?.map fun step => (step.safe, plainAll base (steps.take (k + 1))) := by
  induction steps with
  | nil => intro base k; rfl
  | cons step steps ih =>
    intro base k
    cases k with
    | zero => rfl
    | succ k => exact ih (step.plain base) k

/-- The expressions of a plain chain, the base included. -/
theorem stage_eq (steps : List SafeStep) (base : Expr) {k : Nat} {e : Expr}
    (h : (base :: (plainChain base steps).map Prod.snd)[k]? = some e) :
    k ≤ steps.length ∧ e = plainAll base (steps.take k) := by
  cases k with
  | zero => exact ⟨Nat.zero_le _, (Option.some.inj h).symm⟩
  | succ k =>
    rw [List.getElem?_cons_succ, List.getElem?_map, plainChain_getElem?, Option.map_map] at h
    obtain ⟨step, hstep, he⟩ := Option.map_eq_some_iff.mp h
    obtain ⟨hlt, -⟩ := List.getElem?_eq_some_iff.mp hstep
    exact ⟨hlt, he.symm⟩

theorem length_plainChain (steps : List SafeStep) :
    ∀ base : Expr, (plainChain base steps).length = steps.length := by
  induction steps with
  | nil => intro base; rfl
  | cons step steps ih =>
    intro base
    exact congrArg (· + 1) (ih (step.plain base))

/-- Two neighbours in a plain chain, and the step between them. -/
theorem neighbours {steps : List SafeStep} {base before after : Expr} {mark : Bool} {k : Nat}
    (hbefore : (base :: (plainChain base steps).map Prod.snd)[k]? = some before)
    (hafter : (plainChain base steps)[k]? = some (mark, after)) :
    ∃ step, steps.take (k + 1) = steps.take k ++ [step] ∧ step.safe = mark ∧
      before = plainAll base (steps.take k) ∧ after = step.plain before := by
  obtain ⟨-, rfl⟩ := stage_eq steps base hbefore
  rw [plainChain_getElem?] at hafter
  obtain ⟨step, hstep, heq⟩ := Option.map_eq_some_iff.mp hafter
  obtain ⟨rfl, rfl⟩ := Prod.mk.inj heq
  have htake : steps.take (k + 1) = steps.take k ++ [step] := by
    rw [List.take_add_one, hstep, Option.toList_some]
  exact ⟨step, htake, rfl, rfl, by rw [htake, plainAll_concat]⟩

end SafeStep

/-! ## A step does what the plain expression says -/

/-- Calling with one argument after the other does what the nested calls do. -/
theorem eval_calls (span place : Span) (scope : Scope) : ∀ (args : List Expr) (base : Expr),
    Run.Alike (unbounded.eval (Lowering.calls span base args) scope)
      (unbounded.eval base scope >>= fun v => unbounded.callArgs place scope v args) := by
  intro args
  induction args with
  | nil =>
    intro base
    show Run.Alike (unbounded.eval base scope) (unbounded.eval base scope >>= pure)
    rw [bind_pure]
    exact Run.Alike.refl _
  | cons arg args ih =>
    intro base
    refine (ih (.call base arg (accessSpan base.span span))).trans ?_
    show Run.Alike _ (unbounded.eval base scope >>= fun v =>
      (unbounded.eval arg scope >>= fun arg => Run.within place (unbounded.call v arg)) >>= fun v =>
        unbounded.callArgs place scope v args)
    rw [unbounded_eval, Evaluator.evalStep, ← bind_assoc]
    refine Run.Alike.bind ?_ fun v => Run.Alike.refl _
    refine Run.Alike.bind (Run.Alike.refl _) fun f => ?_
    exact Run.Alike.bind (Run.Alike.refl _) fun a => Run.within_alike_within _ _ _

/-- Reading an attribute, where there is one to read. -/
theorem eval_attr (called : Expr) (attr : Option (String × Span)) (scope : Scope) :
    Run.Alike
      (unbounded.eval
        (match attr with
        | some (attr, span) => .dot called attr (accessSpan called.span span)
        | none => called) scope)
      (unbounded.eval called scope >>= fun v =>
        match attr with
        | none => pure v
        | some (attr, span) => Run.within span (Run.ofExcept (v.getAttr attr))) := by
  cases attr with
  | none =>
    show Run.Alike (unbounded.eval called scope) (unbounded.eval called scope >>= pure)
    rw [bind_pure]
    exact Run.Alike.refl _
  | some attr =>
    rw [unbounded_eval]
    exact Run.Alike.bind (Run.Alike.refl _) fun v => Run.within_alike_within _ _ _

/-- A step does to the value of a base what the plain expression around the base says. -/
theorem eval_plain (base : Expr) (step : SafeStep) (scope : Scope) :
    Run.Alike (unbounded.eval (step.plain base) scope)
      (unbounded.eval base scope >>= fun v => unbounded.step scope v step) := by
  obtain ⟨safe, args, attr⟩ := step
  cases args with
  | none => exact eval_attr base attr scope
  | some call =>
    refine (eval_attr _ attr scope).trans ?_
    refine (Run.Alike.bind (eval_calls call.2 call.2 scope call.1 base)
      fun _ => Run.Alike.refl _).trans ?_
    rw [bind_assoc]
    exact Run.Alike.refl _

/-! ## Running along a chain -/

variable {fallback base : Expr} {scope : Scope} {span : Span} {next : Identity}

/-- A safe chain evaluates its base and goes along its steps. -/
theorem eval_safeTail (steps : List SafeStep) :
    unbounded.eval (.safeTail fallback base steps span) scope =
      unbounded.eval base scope >>= fun v => unbounded.safeChain fallback scope v steps :=
  unbounded_eval _ _

/-- The first step of a chain decides how the chain goes on. -/
theorem safeChain_cons (v : Value) (step : SafeStep) (rest : List SafeStep) (next : Identity) :
    unbounded.safeChain fallback scope v (step :: rest) next =
      match unbounded.step scope v step next with
      | .done (v', next') => unbounded.safeChain fallback scope v' rest next'
      | .failed failure =>
        if step.safe && failure.cause.isAbsent then unbounded.eval fallback scope next
        else .failed failure
      | .aborted reason => .aborted reason
      | .exhausted => .exhausted := by
  show (Run.attempt (unbounded.step scope v step) >>= _) next = _
  rw [Run.bind_apply, Run.attempt_apply]
  cases unbounded.step scope v step next with
  | failed failure =>
    show (if step.safe && failure.cause.isAbsent then unbounded.eval fallback scope
        else Run.rethrow failure) next =
      if step.safe && failure.cause.isAbsent then unbounded.eval fallback scope next
      else .failed failure
    split
    next => rfl
    next => rfl
  | done | aborted | exhausted => rfl

/-- What a step does at the first value of a chain, from what the plain expression does. -/
theorem step_unplaced {b : Expr} {v : Value} {next' : Identity}
    (hb : unbounded.eval b scope next = .done (v, next')) (step : SafeStep) :
    (unbounded.step scope v step next').unplaced =
      (unbounded.eval (step.plain b) scope next).unplaced := by
  have h := eval_plain b step scope next
  rw [Run.bind_apply, hb] at h
  exact h.symm

/-- While the plain chain has values, the safe chain has the same ones: what is left of it starts
from the value of the plain expression up to there. -/
theorem eval_safeTail_append (front : List SafeStep) : ∀ (rest : List SafeStep) {v : Value}
    {next' : Identity},
    unbounded.eval (SafeStep.plainAll base front) scope next = .done (v, next') →
    unbounded.eval (.safeTail fallback base (front ++ rest) span) scope next =
      unbounded.safeChain fallback scope v rest next' := by
  -- From the back: the last step of the front is the first of the rest that is known to go well.
  induction front using List.reverseRecOn with
  | nil =>
    intro rest v next' h
    rw [List.nil_append, eval_safeTail, Run.bind_apply]
    rw [show unbounded.eval base scope next = .done (v, next') from h]
  | append_singleton front step ih =>
    intro rest v next' h
    rw [SafeStep.plainAll_concat] at h
    have hplain := eval_plain (SafeStep.plainAll base front) step scope next
    rw [h, Run.bind_apply] at hplain
    cases hfront : unbounded.eval (SafeStep.plainAll base front) scope next with
    | done result =>
      rw [hfront] at hplain
      have hstep : unbounded.step scope result.1 step result.2 = .done (v, next') :=
        Outcome.unplaced_eq_done hplain.symm
      rw [List.append_assoc, List.singleton_append, ih (step :: rest) hfront]
      rw [safeChain_cons, hstep]
    | failed | aborted | exhausted =>
      rw [hfront] at hplain
      cases hplain

/-! ## The two lowerings -/

/-- A tail: a call, an attribute that is given by a name or a text, or both. -/
def Node.isTail (tail : Node) : Bool :=
  match tail.one? "get" with
  | some get => (get.one? "names").isNone
  | none => (tail.one? "call").isSome

namespace Lowering

/-- The tail of a later step, and whether the step is marked. -/
def markedTail? (op : Node) : Option (Bool × Node) :=
  match op.one? "safe" with
  | some safe => (safe.one? "tail").map (true, ·)
  | none => (op.one? "tail").map (false, ·)

/-- The plain chain of a base and tails: after each tail its mark, and the expression up to it. -/
def plainTails (lo : Lowerer) (base : Expr) : List (Bool × Node) → Lowering (List (Bool × Expr))
  | [] => pure []
  | (mark, node) :: rest => do
    let next ← tail lo base node
    let others ← plainTails lo next rest
    pure ((mark, next) :: others)

/-- The fallback and the plain chain of a safe chain, lowered in the order of the safe chain: the
fallback after the first tail. The first step counts as marked. -/
def plainChain (lo : Lowerer) (base : Expr) (first fall : Node) (rest : List (Bool × Node)) :
    Lowering (Expr × List (Bool × Expr)) := do
  let start ← tail lo base first
  let fallback ← lo.expr fall
  let others ← plainTails lo start rest
  pure (fallback, (true, start) :: others)

/-- A tail lowers to what its step says around the base. -/
theorem tail_eq_safeStep (lo : Lowerer) (base : Expr) (mark : Bool) {node : Node}
    (h : node.isTail = true) :
    tail lo base node = safeStep lo mark node >>= fun step => pure (step.plain base) := by
  unfold tail safeStep tailArgs tailAttr
  unfold Node.isTail at h
  cases hget : node.one? "get" with
  | none =>
    rw [hget] at h
    obtain ⟨call, hcall⟩ := Option.isSome_iff_exists.mp h
    simp [hcall, getAttr?, SafeStep.plain, SafeStep.args, SafeStep.attr]
  | some get =>
    rw [hget] at h
    simp only [getAttr?, getAttr, Option.isNone_iff_eq_none.mp h]
    cases node.one? "call" <;> simp [SafeStep.plain, SafeStep.args, SafeStep.attr]

/-- The steps of the later part of a chain. -/
theorem safeOp_eq (lo : Lowerer) {op tail : Node} {mark : Bool}
    (h : markedTail? op = some (mark, tail)) : safeOp lo op = safeStep lo mark tail := by
  unfold markedTail? at h
  unfold safeOp
  split at h
  next safe hsafe =>
    obtain ⟨t, ht, he⟩ := Option.map_eq_some_iff.mp h
    cases he
    simp only [hsafe, Node.child, ht, pure_bind]
  next hsafe =>
    obtain ⟨t, ht, he⟩ := Option.map_eq_some_iff.mp h
    cases he
    simp only [hsafe, ht]

/-- A step is marked as it is lowered. -/
theorem safeStep_marked (lo : Lowerer) (mark : Bool) (node : Node) (setting : Setting) :
    Ensures setting (safeStep lo mark node) fun step => step.safe = mark := by
  refine (Ensures.trivial _).bind fun args _ => (Ensures.trivial _).bind fun attr _ => ?_
  split
  next => exact Ensures.reject
  next => exact Ensures.pure rfl

/-- The plain chain of tails is that of their steps. -/
theorem plainTails_eq_done (lo : Lowerer) (setting : Setting) (tails : List (Bool × Node)) :
    ∀ {base : Expr} {state state' : CompilerState} {plain : List (Bool × Expr)},
    (∀ t ∈ tails, t.2.isTail = true) →
    plainTails lo base tails setting state = (.done plain, state') →
    ∃ steps, traverse (fun t => safeStep lo t.1 t.2) tails setting state = (.done steps, state') ∧
      plain = SafeStep.plainChain base steps := by
  induction tails with
  | nil =>
    intro base state state' plain _ h
    obtain ⟨rfl, rfl⟩ := pure_eq_done_iff.mp h
    exact ⟨[], rfl, rfl⟩
  | cons t tails ih =>
    intro base state state' plain htails h
    obtain ⟨mark, node⟩ := t
    simp only [plainTails, tail_eq_safeStep lo base mark (htails _ (List.mem_cons_self ..)),
      bind_assoc, pure_bind] at h
    obtain ⟨step, between, hstep, h⟩ := bind_eq_done_iff.mp h
    obtain ⟨others, between', hothers, h⟩ := bind_eq_done_iff.mp h
    obtain ⟨rfl, rfl⟩ := pure_eq_done_iff.mp h
    obtain ⟨steps, hsteps, rfl⟩ := ih (fun t ht => htails t (List.mem_cons_of_mem _ ht)) hothers
    refine ⟨step :: steps, ?_, ?_⟩
    · exact bind_eq_done_iff.mpr ⟨step, between, hstep,
        bind_eq_done_iff.mpr ⟨steps, between', hsteps, rfl⟩⟩
    · rw [SafeStep.plainChain, safeStep_marked lo _ _ setting hstep]

theorem traverse_safeOp_eq (lo : Lowerer) : ∀ {ops : List Node} {rest : List (Bool × Node)},
    ops.map markedTail? = rest.map some →
    traverse (safeOp lo) ops = traverse (fun t => safeStep lo t.1 t.2) rest
  | [], [], _ => rfl
  | op :: ops, t :: rest, h => by
    obtain ⟨hop, hops⟩ := List.cons.inj h
    simp only [traverse, safeOp_eq lo hop, traverse_safeOp_eq lo hops]

/-- A node that is a safe chain: its first tail, its fallback and its later tails with their
marks. -/
structure IsSafeChain (chain first fall : Node) (rest : List (Bool × Node)) : Prop where
  first_eq : (chain.one? "first_safe").bind (fun node => node.one? "tail") = some first
  fall_eq : chain.one? "fall" = some fall
  rest_eq : (chain.many "ops").map markedTail? = rest.map some
  first_isTail : first.isTail = true
  rest_isTail : ∀ t ∈ rest, t.2.isTail = true

/-- The steps of a safe chain are those of its plain chain. -/
theorem safeTail_eq_done (lo : Lowerer) (base : Expr) {chain first fall : Node}
    {rest : List (Bool × Node)} (hchain : IsSafeChain chain first fall rest) {setting : Setting}
    {state state' : CompilerState} {fallback : Expr} {plain : List (Bool × Expr)}
    (h : plainChain lo base first fall rest setting state = (.done (fallback, plain), state')) :
    ∃ steps, safeTail lo base chain setting state =
        (.done (.safeTail fallback base steps chain.span), state') ∧
      plain = SafeStep.plainChain base steps := by
  obtain ⟨node, hnode, hfirst⟩ := Option.bind_eq_some_iff.mp hchain.first_eq
  simp only [plainChain, tail_eq_safeStep lo base true hchain.first_isTail, bind_assoc,
    pure_bind] at h
  obtain ⟨step, between, hstep, h⟩ := bind_eq_done_iff.mp h
  obtain ⟨fallback', between', hfall, h⟩ := bind_eq_done_iff.mp h
  obtain ⟨others, between'', hothers, h⟩ := bind_eq_done_iff.mp h
  obtain ⟨heq, rfl⟩ := pure_eq_done_iff.mp h
  obtain ⟨rfl, rfl⟩ := Prod.mk.inj heq
  obtain ⟨steps, hsteps, rfl⟩ := plainTails_eq_done lo setting rest hchain.rest_isTail hothers
  refine ⟨step :: steps, ?_, ?_⟩
  · simp only [safeTail, Node.child, hnode, hfirst, hchain.fall_eq, pure_bind,
      traverse_safeOp_eq lo hchain.rest_eq]
    exact bind_eq_done_iff.mpr ⟨step, between, hstep, bind_eq_done_iff.mpr
      ⟨fallback', between', hfall, bind_eq_done_iff.mpr ⟨steps, between'', hsteps, rfl⟩⟩⟩
  · rw [SafeStep.plainChain, safeStep_marked lo _ _ setting hstep]

end Lowering

/-! ## Agreement -/

/-- A safe chain agrees with a plain one, in a scope and from an identity on. The plain chain is
given by its base and by the expression after each step, with the mark of the step. -/
structure NavigationAgrees (fallback base : Expr) (plain : List (Bool × Expr))
    (steps : List SafeStep) (span : Span) (scope : Scope) (next : Identity) : Prop where
  /-- Without a value of the base the chain ends as the base does. -/
  base_ends : (∀ r, unbounded.eval base scope next ≠ .done r) →
    (unbounded.eval (.safeTail fallback base steps span) scope next).unplaced =
      (unbounded.eval base scope next).unplaced
  /-- If the plain chain has a value the safe one has it, whatever the fallback is. -/
  all_done : ∀ {e r}, (base :: plain.map Prod.snd)[plain.length]? = some e →
    unbounded.eval e scope next = .done r →
    ∀ other, unbounded.eval (.safeTail other base steps span) scope next = .done r
  /-- If a marked step is the first without a value, the fallback takes its place, whatever the
  later steps are. -/
  absent : ∀ {k before after v next' failure},
    (base :: plain.map Prod.snd)[k]? = some before → plain[k]? = some (true, after) →
    unbounded.eval before scope next = .done (v, next') →
    unbounded.eval after scope next = .failed failure → failure.cause.isAbsent = true →
    ∀ later, unbounded.eval (.safeTail fallback base (steps.take (k + 1) ++ later) span) scope next =
      unbounded.eval fallback scope next'
  /-- Any other end of a step is the end of the chain, whatever the fallback and the later steps
  are. -/
  step_ends : ∀ {k before mark after v next'},
    (base :: plain.map Prod.snd)[k]? = some before → plain[k]? = some (mark, after) →
    unbounded.eval before scope next = .done (v, next') →
    (∀ r, unbounded.eval after scope next ≠ .done r) →
    (∀ failure, unbounded.eval after scope next = .failed failure →
      (mark && failure.cause.isAbsent) = false) →
    ∀ other later,
      (unbounded.eval (.safeTail other base (steps.take (k + 1) ++ later) span) scope next).unplaced =
        (unbounded.eval after scope next).unplaced

/-- A row of steps agrees with its plain chain. -/
theorem SafeStep.agrees (fallback base : Expr) (steps : List SafeStep) (span : Span)
    (scope : Scope) (next : Identity) :
    NavigationAgrees fallback base (plainChain base steps) steps span scope next where
  base_ends hbase := by
    rw [eval_safeTail, Run.bind_apply]
    cases h : unbounded.eval base scope next with
    | done r => exact absurd h (hbase r)
    | failed | aborted | exhausted => rfl
  all_done {e r} he hr other := by
    obtain ⟨-, rfl⟩ := stage_eq steps base he
    rw [length_plainChain, List.take_length] at hr
    have h : unbounded.eval (.safeTail other base (steps ++ []) span) scope next = .done r :=
      eval_safeTail_append steps [] hr
    rwa [List.append_nil] at h
  absent {k before after v next' failure} hbefore hafter hv hfailure habsent later := by
    obtain ⟨step, htake, hsafe, rfl, rfl⟩ := neighbours hbefore hafter
    -- the chain reaches the step with `v`, and the step fails as its plain form does
    have hstep := step_unplaced hv step
    rw [hfailure] at hstep
    obtain ⟨failure', hstep, hcause⟩ := Outcome.unplaced_eq_failed hstep
    rw [htake, List.append_assoc, List.singleton_append, eval_safeTail_append _ _ hv,
      safeChain_cons, hstep]
    show (if step.safe && failure'.cause.isAbsent then _ else _) = _
    rw [hsafe, hcause]
    exact if_pos habsent
  step_ends {k before mark after v next'} hbefore hafter hv hdone hfailed other later := by
    obtain ⟨step, htake, hsafe, rfl, rfl⟩ := neighbours hbefore hafter
    have hstep := step_unplaced hv step
    rw [htake, List.append_assoc, List.singleton_append, eval_safeTail_append _ _ hv,
      safeChain_cons, ← hstep]
    -- a step that ends the plain chain ends the safe one, unless the chain catches it
    cases h : unbounded.step scope v step next' with
    | done r =>
      rw [h] at hstep
      exact absurd (Outcome.unplaced_eq_done hstep.symm) (hdone r)
    | failed failure =>
      rw [h] at hstep
      obtain ⟨failure', hafter', hcause⟩ := Outcome.unplaced_eq_failed hstep.symm
      have huncaught := hfailed failure' hafter'
      rw [hcause, ← hsafe] at huncaught
      show (if step.safe && failure.cause.isAbsent then _ else _ : Outcome _).unplaced = _
      rw [huncaught]
      rfl
    | aborted | exhausted => rfl

/-- Safe navigation agrees with plain navigation: wherever the plain chain of a base and tails can
be lowered, so can the safe one, and the two agree in every scope. -/
theorem Lowering.safeTail_agrees_with_plain (lo : Lowerer) (base : Expr) {chain first fall : Node}
    {rest : List (Bool × Node)} (hchain : IsSafeChain chain first fall rest) {setting : Setting}
    {state state' : CompilerState} {fallback : Expr} {plain : List (Bool × Expr)}
    (h : plainChain lo base first fall rest setting state = (.done (fallback, plain), state')) :
    ∃ steps,
      safeTail lo base chain setting state =
        (.done (.safeTail fallback base steps chain.span), state') ∧
      ∀ scope next, NavigationAgrees fallback base plain steps chain.span scope next := by
  obtain ⟨steps, hsteps, rfl⟩ := safeTail_eq_done lo base hchain h
  exact ⟨steps, hsteps, fun scope next => SafeStep.agrees fallback base steps _ scope next⟩

/-- The tree of a tail that reads the attribute `a`. -/
def Samples.readA : Node :=
  let span : Span := ⟨⟨"", "a"⟩, 0, 1⟩
  .branch [("get", .one (.branch [("IDENT", .one (.leaf span))] span))] span

/-- The tree of a chain with two equal tails, the first of them safe. -/
def Samples.twice (tail fall : Node) : Node :=
  .branch
    [("first_safe", .one (.branch [("tail", .one tail)] tail.span)),
      ("ops", .many [.branch [("tail", .one tail)] tail.span]),
      ("fall", .one fall)] tail.span

/-- The empty tuple has no attribute, so a safe chain from it has the value of its fallback. -/
theorem Lowering.safeTail_agrees_of_missing :
    let tuple : Expr := .literal (.tuple []) Span.unknown
    let yes : Node := .embedded (.literal (.bool true) Span.unknown) Span.unknown
    ∃ e, safeTail ⟨lowerExpr 1, lowerPattern 1⟩ tuple (Samples.twice Samples.readA yes)
        ⟨none, .deferred, .recording⟩ .initial = (.done e, .initial) ∧
      ∀ scope next, unbounded.eval e scope next = .done (.bool true, next) := by
  intro tuple yes
  let step (mark : Bool) : SafeStep := .mk mark none (some ("a", ⟨⟨"", "a"⟩, 0, 1⟩))
  have hchain : IsSafeChain (Samples.twice Samples.readA yes) Samples.readA yes
      [(false, Samples.readA)] :=
    ⟨rfl, rfl, rfl, by decide, by decide⟩
  have hplain : plainChain ⟨lowerExpr 1, lowerPattern 1⟩ tuple Samples.readA yes
      [(false, Samples.readA)] ⟨none, .deferred, .recording⟩ .initial =
      (.done (.literal (.bool true) Span.unknown,
        SafeStep.plainChain tuple [step true, step false]), .initial) := rfl
  obtain ⟨steps, hsteps, hagree⟩ := safeTail_agrees_with_plain _ tuple hchain hplain
  refine ⟨_, hsteps, fun scope next => ?_⟩
  have htuple : unbounded.eval tuple scope next = .done (.tuple [], next) :=
    congrFun (unbounded_eval_literal _ _ _) next
  have hafter : unbounded.eval ((step true).plain tuple) scope next =
      .failed ⟨some (accessSpan tuple.span ⟨⟨"", "a"⟩, 0, 1⟩), .missingAttr "a" []⟩ := by
    rw [unbounded_eval]
    show (unbounded.eval tuple scope >>= _) next = _
    rw [Run.bind_apply, htuple]
    rfl
  have habsent := (hagree scope next).absent (k := 0) rfl rfl htuple hafter rfl (steps.drop 1)
  rw [List.take_append_drop] at habsent
  rw [habsent, unbounded_eval]
  rfl

end Relational
