import Relational.Compiler.Basic
import Relational.Proofs.SideBySide

/-!
# Old conditions that are reached

A lowering reports an old condition when it comes to one, however deep in the tree that is, unless
it is refused before. What it comes to is said by a second lowering, which stops at the first node
that is an old condition and reports nothing:

> `Node.reachesIf`: the lowering of the tree comes to an old condition.

The two are run side by side. Before the first old condition they do the same, and nothing depends
on the sink. From then on the latch is set, and nothing depends on the sink again:

> `Lowering.Steady`: from a state whose latch is set, a step ends in the same way with every sink,
> and leaves the diagnostics as they are.
-/

namespace Relational

/-- How a lowering that makes a report ends: it goes on unless the sink fails. -/
def Sink.ending : Sink → Ending Unit
  | .recording => .done ()
  | .failing reason => .sinkFailed reason

/-- The diagnostics after a report. -/
def Diagnostics.reported (d : Diagnostics) (message : String) : Diagnostics :=
  ⟨true, d.messages ++ [message]⟩

/-- The result, if there is one, has a property. -/
def Ending.Gives {α : Type} (P : α → Prop) : Ending α → Prop
  | .done a => P a
  | _ => True

/-- Two steps that end in the same way, and not by the sink. -/
inductive Ending.Passes {α α' : Type} (Q : α → α' → Prop) : Ending α → Ending α' → Prop
  | done {a : α} {a' : α'} (h : Q a a') : Passes Q (.done a) (.done a')
  | rejected (error : CompileError) : Passes Q (.rejected error) (.rejected error)
  | exhausted : Passes Q .exhausted .exhausted

namespace Lowering

variable {α α' β β' : Type}

/-- Stops, as a sink that fails would. -/
def stop : Lowering α := fun _ state => (.sinkFailed "", state)

mutual

/-- The expression of a node. The lowering stops at the first old condition. -/
def exprUntilIf : Nat → Node → Lowering Expr
  | 0, _ => exhausted
  | fuel + 1, node =>
    if node.isIf then stop else exprStep ⟨exprUntilIf fuel, patternUntilIf fuel⟩ node

/-- The pattern of a node. The lowering stops at the first old condition. -/
def patternUntilIf : Nat → Node → Lowering Pattern
  | 0, _ => exhausted
  | fuel + 1, node => patternStep ⟨exprUntilIf fuel, patternUntilIf fuel⟩ node

end

/-! ## Steps from a latch that is set -/

/-- In a setting a step ends in the same way with every sink, and leaves the diagnostics as they
are. -/
def Ends (l : Lowering α) (directory : Option String) (modules : Modules) (state : CompilerState)
    (ending : Ending α) (after : CompilerState) : Prop :=
  after.diagnostics = state.diagnostics ∧
    ∀ sink, l ⟨directory, modules, sink⟩ state = (ending, after)

/-- From a state whose latch is set, a step ends in the same way with every sink, and leaves the
diagnostics as they are. Its results have a property. -/
def Steady (P : α → Prop) (l : Lowering α) : Prop :=
  ∀ (directory : Option String) (modules : Modules) (state : CompilerState),
    state.diagnostics.warned = true →
      ∃ ending after, l.Ends directory modules state ending after ∧ ending.Gives P

section Ends

variable {l : Lowering α} {f : α → Lowering β} {directory : Option String} {modules : Modules}
  {state between after : CompilerState}

theorem Ends.bind {a : α} {ending : Ending β} (hl : l.Ends directory modules state (.done a) between)
    (hf : (f a).Ends directory modules between ending after) :
    (l >>= f).Ends directory modules state ending after := by
  refine ⟨hf.1.trans hl.1, fun sink => ?_⟩
  rw [bind_apply, hl.2, ← hf.2 sink]

theorem Ends.bind_rejected {error : CompileError}
    (hl : l.Ends directory modules state (.rejected error) between) :
    (l >>= f).Ends directory modules state (.rejected error) between :=
  ⟨hl.1, fun sink => by rw [bind_apply, hl.2]⟩

theorem Ends.bind_sinkFailed {reason : String}
    (hl : l.Ends directory modules state (.sinkFailed reason) between) :
    (l >>= f).Ends directory modules state (.sinkFailed reason) between :=
  ⟨hl.1, fun sink => by rw [bind_apply, hl.2]⟩

theorem Ends.bind_exhausted
    (hl : l.Ends directory modules state .exhausted between) :
    (l >>= f).Ends directory modules state .exhausted between :=
  ⟨hl.1, fun sink => by rw [bind_apply, hl.2]⟩

end Ends

theorem Steady.bind {P : α → Prop} {R : β → Prop} {l : Lowering α} {f : α → Lowering β}
    (hl : Steady P l) (hf : ∀ a, P a → Steady R (f a)) : Steady R (l >>= f) := by
  intro directory modules state hwarned
  obtain ⟨ending, between, hends, hgives⟩ := hl directory modules state hwarned
  cases ending with
  | done a =>
    have hwarned' : between.diagnostics.warned = true := by rw [hends.1, hwarned]
    obtain ⟨ending, after, hends', hgives'⟩ := hf a hgives directory modules between hwarned'
    exact ⟨ending, after, hends.bind hends', hgives'⟩
  | rejected error => exact ⟨_, between, hends.bind_rejected, True.intro⟩
  | sinkFailed reason => exact ⟨_, between, hends.bind_sinkFailed, True.intro⟩
  | exhausted => exact ⟨_, between, hends.bind_exhausted, True.intro⟩

/-! ## The first old condition -/

/-- How a step from a state whose latch is not set, and the step that stops at the first old
condition, go side by side. Either both end in the same way. Or the one stops, and the other makes
its report there: a sink that fails ends it, and otherwise it goes on with the latch set. -/
inductive Probed (Q : α → α' → Prop) (u : Lowering α) (l : Lowering α')
    (directory : Option String) (modules : Modules) (state : CompilerState) : Prop
  | passed {ending : Ending α} {ending' : Ending α'} {after : CompilerState}
      (hu : u.Ends directory modules state ending after)
      (hl : l.Ends directory modules state ending' after) (h : ending.Passes Q ending')
  | stopped {reached after : CompilerState} {ending : Ending α'}
      (hu : u.Ends directory modules state (.sinkFailed "") reached)
      (hfailing : ∀ reason, l ⟨directory, modules, .failing reason⟩ state =
        (.sinkFailed reason, { reached with
          diagnostics := state.diagnostics.reported Diagnostics.ifDeprecation }))
      (hrecording : l ⟨directory, modules, .recording⟩ state = (ending, after))
      (hafter : after.diagnostics = state.diagnostics.reported Diagnostics.ifDeprecation)
      (hgives : ending.Gives fun a' => ∃ a, Q a a')

/-- A step beside the one that stops at the first old condition, from all states. -/
structure Probes (Q : α → α' → Prop) (u : Lowering α) (l : Lowering α') : Prop where
  steady : Steady (fun a' => ∃ a, Q a a') l
  probed (directory : Option String) (modules : Modules) (state : CompilerState)
    (h : state.diagnostics.warned = false) : Probed Q u l directory modules state

namespace Probes

variable {Q : α → α' → Prop} {R : β → β' → Prop} {u : Lowering α} {l : Lowering α'}

/-- What ends in the same way from every state, and not by the sink. -/
theorem of_ends (h : ∀ directory modules state, ∃ ending ending' after,
    u.Ends directory modules state ending after ∧ l.Ends directory modules state ending' after ∧
      ending.Passes Q ending') : Probes Q u l := by
  constructor
  · intro directory modules state _
    obtain ⟨ending, ending', after, -, hl, hpasses⟩ := h directory modules state
    refine ⟨ending', after, hl, ?_⟩
    cases hpasses with
    | done hQ => exact ⟨_, hQ⟩
    | rejected => exact True.intro
    | exhausted => exact True.intro
  · intro directory modules state _
    obtain ⟨ending, ending', after, hu, hl, hpasses⟩ := h directory modules state
    exact .passed hu hl hpasses

theorem bind {f : α → Lowering β} {f' : α' → Lowering β'} (h : Probes Q u l)
    (hf : ∀ a a', Q a a' → Probes R (f a) (f' a')) : Probes R (u >>= f) (l >>= f') := by
  have hsteady : ∀ a', (∃ a, Q a a') → Steady (fun b' => ∃ b, R b b') (f' a') := by
    rintro a' ⟨a, ha⟩
    exact (hf a a' ha).steady
  refine ⟨h.steady.bind hsteady, fun directory modules state hstate => ?_⟩
  cases h.probed directory modules state hstate with
  | passed hu hl hpasses =>
    cases hpasses with
    | done ha =>
      have hbetween := hl.1
      cases (hf _ _ ha).probed directory modules _ (by rw [hbetween, hstate]) with
      | passed hu' hl' hpasses => exact .passed (hu.bind hu') (hl.bind hl') hpasses
      | stopped hu' hfailing hrecording hafter hgives =>
        rw [hbetween] at hfailing hafter
        refine .stopped (hu.bind hu') (fun reason => ?_) ?_ hafter hgives
        · rw [bind_apply, hl.2, ← hfailing reason]
        · rw [bind_apply, hl.2, ← hrecording]
    | rejected => exact .passed hu.bind_rejected hl.bind_rejected (.rejected _)
    | exhausted => exact .passed hu.bind_exhausted hl.bind_exhausted .exhausted
  | @stopped reached between ending hu hfailing hrecording hbetween hgives =>
    have hfailing' : ∀ reason, (l >>= f') ⟨directory, modules, .failing reason⟩ state = _ :=
      fun reason => by rw [bind_apply, hfailing reason]
    -- after the report the latch is set, so what follows is steady
    cases ending with
    | done a' =>
      have hwarned : between.diagnostics.warned = true := by rw [hbetween]; rfl
      obtain ⟨ending, after, hends, hgives⟩ := hsteady a' hgives directory modules between hwarned
      refine .stopped hu.bind_sinkFailed hfailing' ?_ (hends.1.trans hbetween) hgives
      rw [bind_apply, hrecording, ← hends.2 .recording]
    | rejected error =>
      have hend : (l >>= f') ⟨directory, modules, .recording⟩ state = (.rejected error, between) := by
        rw [bind_apply, hrecording]
      exact .stopped hu.bind_sinkFailed hfailing' hend hbetween True.intro
    | sinkFailed reason =>
      have hend : (l >>= f') ⟨directory, modules, .recording⟩ state =
          (.sinkFailed reason, between) := by
        rw [bind_apply, hrecording]
      exact .stopped hu.bind_sinkFailed hfailing' hend hbetween True.intro
    | exhausted =>
      have hend : (l >>= f') ⟨directory, modules, .recording⟩ state = (.exhausted, between) := by
        rw [bind_apply, hrecording]
      exact .stopped hu.bind_sinkFailed hfailing' hend hbetween True.intro

theorem pure {a : α} {a' : α'} (h : Q a a') : Probes Q (Pure.pure a) (Pure.pure a') :=
  of_ends fun _ _ state => ⟨_, _, state, ⟨rfl, fun _ => rfl⟩, ⟨rfl, fun _ => rfl⟩, .done h⟩

theorem reject (error : CompileError) : Probes Q (Lowering.reject error) (Lowering.reject error) :=
  of_ends fun _ _ state =>
    ⟨_, _, state, ⟨rfl, fun _ => rfl⟩, ⟨rfl, fun _ => rfl⟩, .rejected error⟩

theorem exhausted : Probes Q Lowering.exhausted Lowering.exhausted :=
  of_ends fun _ _ state => ⟨_, _, state, ⟨rfl, fun _ => rfl⟩, ⟨rfl, fun _ => rfl⟩, .exhausted⟩

theorem directory : Probes Eq Lowering.directory Lowering.directory :=
  of_ends fun directory _ state =>
    ⟨.done directory, _, state, ⟨rfl, fun _ => rfl⟩, ⟨rfl, fun _ => rfl⟩, .done rfl⟩

theorem request (asked : Request) (span : Span) :
    Probes Eq (Lowering.request asked span asked.ask) (Lowering.request asked span asked.ask) := by
  refine of_ends fun directory modules state => ?_
  let noted : CompilerState := { state with
    requests := state.requests ++ [asked], nextIdentity := state.nextIdentity + 1 }
  unfold Ends Lowering.request
  dsimp only
  cases asked.ask modules state.nextIdentity with
  | ok expr => exact ⟨_, _, noted, ⟨rfl, fun _ => rfl⟩, ⟨rfl, fun _ => rfl⟩, .done rfl⟩
  | error reason =>
    exact ⟨_, _, noted, ⟨rfl, fun _ => rfl⟩, ⟨rfl, fun _ => rfl⟩, .rejected (.module span reason)⟩

end Probes

end Lowering

/-! ## Whole trees -/

end Relational
