import Relational.Compiler.Basic
import Relational.Proofs.Relabel
import Relational.Proofs.SideBySide

/-!
# Two runs of the lowering

Lowerings that are run in one setting, on related trees and from related states:

> Two results tally if both are results, which are related, or both are errors, which are related.
> Two programs tally if their results do, or neither of them is compiled to an end.
> Two runs tally if they end so from all related states, and end in related states again.

`Runs` holds what relates the trees, the results, the errors and the states, and `Lawful` says what
is needed of it: besides the laws of `Sides`, what becomes of a request for a module and of a report.

> `Runs.lower`: related trees of the same height are lowered in runs that tally.
-/

namespace Relational

/-- Two results that tally: both are results or both are errors, and they are related. -/
inductive Tally {ε ε' α α' : Type} (X : ε → ε' → Prop) (Q : α → α' → Prop) :
    Except ε α → Except ε' α' → Prop
  | ok {a : α} {a' : α'} (h : Q a a') : Tally X Q (.ok a) (.ok a')
  | error {e : ε} {e' : ε'} (h : X e e') : Tally X Q (.error e) (.error e')

theorem Tally.refl {ε α : Type} {X : ε → ε → Prop} (hX : ∀ e, X e e) {Q : α → α → Prop}
    (hQ : ∀ a, Q a a) (result : Except ε α) : Tally X Q result result := by
  cases result with
  | error e => exact .error (hX e)
  | ok a => exact .ok (hQ a)

/-- Two lowerings that end in the same way. -/
inductive Ending.Tally {α α' : Type} (X : CompileError → CompileError → Prop)
    (Q : α → α' → Prop) : Ending α → Ending α' → Prop
  | done {a : α} {a' : α'} (h : Q a a') : Tally X Q (.done a) (.done a')
  | rejected {e e' : CompileError} (h : X e e') : Tally X Q (.rejected e) (.rejected e')
  | sinkFailed (reason : String) : Tally X Q (.sinkFailed reason) (.sinkFailed reason)
  | exhausted : Tally X Q .exhausted .exhausted

theorem Ending.Tally.refl {α : Type} {X : CompileError → CompileError → Prop} (hX : ∀ e, X e e)
    {Q : α → α → Prop} (hQ : ∀ a, Q a a) (ending : Ending α) : ending.Tally X Q ending := by
  cases ending with
  | done a => exact .done (hQ a)
  | rejected e => exact .rejected (hX e)
  | sinkFailed reason => exact .sinkFailed reason
  | exhausted => exact .exhausted

/-- Two programs that are compiled to related results or errors, or both without end. -/
inductive Compiled.Tally {α α' : Type} (X : CompileError → CompileError → Prop)
    (Q : α → α' → Prop) : Compiled α → Compiled α' → Prop
  | ok {a : α} {a' : α'} (h : Q a a') : Tally X Q (.ok a) (.ok a')
  | error {e e' : CompileError} (h : X e e') : Tally X Q (.error e) (.error e')
  | endless : Tally X Q .endless .endless

theorem Ending.Tally.toCompiled {α α' : Type} {X : CompileError → CompileError → Prop}
    (hX : ∀ e, X e e) {Q : α → α' → Prop} {ending : Ending α} {ending' : Ending α'}
    (h : ending.Tally X Q ending') (path : String) :
    (ending.toCompiled path).Tally X Q (ending'.toCompiled path) := by
  cases h with
  | done h => exact .ok h
  | rejected h => exact .error h
  | sinkFailed reason => exact .error (hX _)
  | exhausted => exact .endless

/-- What relates two runs in one setting: their trees and results, their errors and their states. -/
structure Runs where
  node : Node → Node → Prop
  expr : Expr → Expr → Prop
  pattern : Pattern → Pattern → Prop
  error : CompileError → CompileError → Prop
  state : CompilerState → CompilerState → Prop
  setting : Setting

namespace Runs

/-- From related states both steps end in the same way, and in related states. -/
def Tallies (C : Runs) {α α' : Type} (Q : α → α' → Prop) (l : Lowering α) (l' : Lowering α') :
    Prop :=
  ∀ state state', C.state state state' →
    Both (Ending.Tally C.error Q) C.state (l C.setting state) (l' C.setting state')

/-- The runs as two sides. -/
abbrev sides (C : Runs) : Sides := ⟨C.node, C.expr, C.pattern, C.Tallies⟩

/-- The state after a request. -/
def noted (asked : Request) (state : CompilerState) : CompilerState :=
  { state with requests := state.requests ++ [asked], nextIdentity := state.nextIdentity + 1 }

/-- What is needed of the relations. -/
structure Lawful (C : Runs) : Prop where
  nodes : C.sides.Nodes
  congruent : Sides.Congruent C.expr C.pattern
  observed : Sides.Observed C.expr C.pattern
  height {n n' : Node} (h : C.node n n') : n.height = n'.height
  errorRefl (error : CompileError) : C.error error error
  defect {n n' : Node} (h : C.node n n') (span : Span) (defect : String → TreeDefect) :
    C.error (.malformed span (defect n.describe)) (.malformed span (defect n'.describe))
  answers {state state' : CompilerState} (h : C.state state state') (asked : Request) :
    Tally Eq C.expr (asked.ask C.setting.modules state.nextIdentity)
      (asked.ask C.setting.modules state'.nextIdentity)
  noted {state state' : CompilerState} (h : C.state state state') (asked : Request) :
    C.state (noted asked state) (noted asked state')
  warn : C.Tallies (fun _ _ => True) Lowering.warnDeprecated Lowering.warnDeprecated

variable {C : Runs}

theorem Tallies.bind {α α' β β' : Type} {Q : α → α' → Prop} {S : β → β' → Prop} {l : Lowering α}
    {l' : Lowering α'} {f : α → Lowering β} {f' : α' → Lowering β'} (hl : C.Tallies Q l l')
    (hf : ∀ a a', Q a a' → C.Tallies S (f a) (f' a')) : C.Tallies S (l >>= f) (l' >>= f') := by
  intro state state' hstate
  have h := hl state state' hstate
  rw [Lowering.bind_apply, Lowering.bind_apply]
  generalize l C.setting state = ended at h ⊢
  generalize l' C.setting state' = ended' at h ⊢
  cases h with
  | mk hending hstate =>
    cases hending with
    | done ha => exact hf _ _ ha _ _ hstate
    | rejected herror => exact ⟨.rejected herror, hstate⟩
    | sinkFailed reason => exact ⟨.sinkFailed reason, hstate⟩
    | exhausted => exact ⟨.exhausted, hstate⟩

/-- A report to a sink that does not fail is made or left out, and the lowering goes on. -/
theorem warn_of_recording (hsink : C.setting.sink = .recording)
    (hstate : ∀ state state', C.state state state') :
    C.Tallies (fun _ _ => True) Lowering.warnDeprecated Lowering.warnDeprecated := by
  have hdone : ∀ state, (Lowering.warnDeprecated C.setting state).1 = .done () := by
    intro state
    unfold Lowering.warnDeprecated Diagnostics.warnOnce
    rw [hsink]
    cases state.diagnostics.warned <;> rfl
  intro state state' _
  have htally : Ending.Tally C.error (fun _ _ => True)
      (Lowering.warnDeprecated C.setting state).1
      (Lowering.warnDeprecated C.setting state').1 := by
    rw [hdone, hdone]
    exact .done True.intro
  exact ⟨htally, hstate _ _⟩

/-- From the same state a report ends in the same way. -/
theorem warn_of_eq (herror : ∀ error, C.error error error) (hstate : C.state = Eq) :
    C.Tallies (fun _ _ => True) Lowering.warnDeprecated Lowering.warnDeprecated := by
  intro state state' h
  rw [hstate] at h ⊢
  rw [h]
  exact ⟨Ending.Tally.refl herror (fun _ => True.intro) _, rfl⟩

theorem Lawful.request (L : C.Lawful) (asked : Request) (span : Span) :
    C.Tallies C.expr (Lowering.request asked span asked.ask)
      (Lowering.request asked span asked.ask) := by
  intro state state' hstate
  have hanswers := L.answers hstate asked
  have hnoted := L.noted hstate asked
  unfold Lowering.request
  dsimp only
  generalize asked.ask C.setting.modules state.nextIdentity = answer at hanswers ⊢
  generalize asked.ask C.setting.modules state'.nextIdentity = answer' at hanswers ⊢
  cases hanswers with
  | ok he => exact ⟨.done he, hnoted⟩
  | error hreason =>
    rw [hreason]
    exact ⟨.rejected (L.errorRefl _), hnoted⟩

theorem Lawful.sides (L : C.Lawful) : C.sides.Lawful where
  toNodes := L.nodes
  toCongruent := L.congruent
  toObserved := L.observed
  pure h _ _ hstate := ⟨.done h, hstate⟩
  bind := Tallies.bind
  reject error _ _ hstate := ⟨.rejected (L.errorRefl error), hstate⟩
  defect h span defect _ _ hstate := ⟨.rejected (L.defect h span defect), hstate⟩
  exhausted _ _ hstate := ⟨.exhausted, hstate⟩
  directory _ _ hstate := ⟨.done rfl, hstate⟩
  request := L.request

/-- Related trees are lowered in runs that tally. -/
theorem Lawful.lower (L : C.Lawful) {n n' : Node} (h : C.node n n') :
    C.Tallies C.expr n.lower n'.lower := by
  unfold Node.lower Lowering.fuelFor
  rw [L.height h]
  exact (Lowering.lowerers_beside L.sides L.warn (2 * (n'.height + 1))).expr h

end Runs

end Relational
