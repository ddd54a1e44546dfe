import Relational.Compiler.Diagnostics
import Relational.Compiler.Error
import Relational.Compiler.Modules
import Relational.Path

/-!
# Lowering

Lowering turns syntax trees into expressions. It ends with a result, with an error, because the
sink of the diagnostics failed, or because its fuel is exhausted. Whatever the end is, the state
stays: the latch, the requests made and the identities handed out.
-/

namespace Relational

/-- What lowering is given: the directory of the source, if it has one, the resolver of imports and
the sink of the diagnostics. -/
structure Setting where
  directory : Option String
  modules : Modules
  sink : Sink

/-- What lowering leaves behind. -/
structure CompilerState where
  diagnostics : Diagnostics
  requests : List Request
  nextIdentity : Identity

/-- The state before anything is compiled. -/
def CompilerState.initial : CompilerState := ⟨.initial, [], 0⟩

/-- How lowering ends. -/
inductive Ending (α : Type) where
  | done (result : α)
  | rejected (error : CompileError)
  | sinkFailed (reason : String)
  | exhausted

/-- A step of lowering. -/
def Lowering (α : Type) : Type := Setting → CompilerState → Ending α × CompilerState

namespace Lowering

variable {α β : Type}

/-- The step that does nothing. -/
protected def pure (a : α) : Lowering α := fun _ state => (.done a, state)

/-- One step after another. -/
protected def bind (l : Lowering α) (f : α → Lowering β) : Lowering β := fun setting state =>
  match l setting state with
  | (.done a, state) => f a setting state
  | (.rejected error, state) => (.rejected error, state)
  | (.sinkFailed reason, state) => (.sinkFailed reason, state)
  | (.exhausted, state) => (.exhausted, state)

instance : Monad Lowering where
  pure := Lowering.pure
  bind := Lowering.bind

instance : LawfulMonad Lowering :=
  LawfulMonad.mk' Lowering
    (by
      intro α l
      funext setting state
      show Lowering.bind l Lowering.pure setting state = l setting state
      unfold Lowering.bind
      split <;> simp_all [Lowering.pure])
    (by intros; rfl)
    (by
      intro α β γ l f g
      funext setting state
      show Lowering.bind (Lowering.bind l f) g setting state =
        Lowering.bind l (fun a => Lowering.bind (f a) g) setting state
      unfold Lowering.bind
      rcases l setting state with ⟨_ | _ | _ | _, _⟩ <;> rfl)

theorem pure_apply (a : α) (setting : Setting) (state : CompilerState) :
    (pure a : Lowering α) setting state = (.done a, state) := rfl

theorem bind_apply (l : Lowering α) (f : α → Lowering β) (setting : Setting)
    (state : CompilerState) :
    (l >>= f) setting state =
      match l setting state with
      | (.done a, state) => f a setting state
      | (.rejected error, state) => (.rejected error, state)
      | (.sinkFailed reason, state) => (.sinkFailed reason, state)
      | (.exhausted, state) => (.exhausted, state) := rfl

/-- A step after another has a result if both have. -/
theorem bind_eq_done_iff {l : Lowering α} {f : α → Lowering β} {setting : Setting}
    {state state' : CompilerState} {b : β} :
    (l >>= f) setting state = (.done b, state') ↔
      ∃ a between, l setting state = (.done a, between) ∧
        f a setting between = (.done b, state') := by
  rw [bind_apply]
  constructor
  · intro h
    rcases hl : l setting state with ⟨a | _ | _ | _, between⟩ <;> rw [hl] at h
    · exact ⟨a, between, rfl, h⟩
    all_goals cases h
  · rintro ⟨a, between, hl, hf⟩
    rw [hl]
    exact hf

theorem pure_eq_done_iff {a b : α} {setting : Setting} {state state' : CompilerState} :
    (pure a : Lowering α) setting state = (.done b, state') ↔ a = b ∧ state = state' := by
  rw [pure_apply]
  simp

/-- Ends with an error. -/
def reject (error : CompileError) : Lowering α := fun _ state => (.rejected error, state)

/-- Ends for want of fuel. -/
def exhausted : Lowering α := fun _ state => (.exhausted, state)

/-- Ends with a defect of the tree at a place. -/
def malformed (span : Span) (defect : TreeDefect) : Lowering α := reject (.malformed span defect)

/-- The result of an operation that may fail. -/
def ofExcept : Except CompileError α → Lowering α
  | .ok a => Lowering.pure a
  | .error error => reject error

/-- The directory of the source. -/
def directory : Lowering (Option String) := fun setting state => (.done setting.directory, state)

/-- Reports that the old form of conditions is used. -/
def warnDeprecated : Lowering Unit := fun setting state =>
  match state.diagnostics.warnOnce setting.sink Diagnostics.ifDeprecation with
  | (none, diagnostics) => (.done (), { state with diagnostics })
  | (some reason, diagnostics) => (.sinkFailed reason, { state with diagnostics })

/-- Asks the resolver for something and notes the request. A refusal is placed at the span. -/
def request (request : Request) (span : Span)
    (ask : Modules → Identity → Except String Expr) : Lowering Expr := fun setting state =>
  let noted := { state with
    requests := state.requests ++ [request], nextIdentity := state.nextIdentity + 1 }
  match ask setting.modules state.nextIdentity with
  | .ok expr => (.done expr, noted)
  | .error reason => (.rejected (.module span reason), noted)

/-- Steps over the elements of a list, in order. -/
def traverse (f : α → Lowering β) : List α → Lowering (List β)
  | [] => pure []
  | a :: rest => do
    let b ← f a
    let bs ← traverse f rest
    pure (b :: bs)

/-- Folds over the elements of a list, in order. -/
def foldl (f : β → α → Lowering β) : β → List α → Lowering β
  | acc, [] => pure acc
  | acc, a :: rest => do
    let acc ← f acc a
    foldl f acc rest

/-- In a setting, every result of a step has a property. -/
def Ensures (setting : Setting) (l : Lowering α) (P : α → Prop) : Prop :=
  ∀ ⦃state state' : CompilerState⦄ ⦃a : α⦄, l setting state = (.done a, state') → P a

theorem Ensures.bind {setting : Setting} {l : Lowering α} {f : α → Lowering β} {P : α → Prop}
    {Q : β → Prop} (hl : Ensures setting l P) (hf : ∀ a, P a → Ensures setting (f a) Q) :
    Ensures setting (l >>= f) Q := by
  intro state state' b h
  obtain ⟨a, between, ha, hb⟩ := bind_eq_done_iff.mp h
  exact hf a (hl ha) hb

theorem Ensures.pure {setting : Setting} {a : α} {P : α → Prop} (h : P a) :
    Ensures setting (Pure.pure a) P := by
  intro state state' b hb
  obtain ⟨rfl, -⟩ := pure_eq_done_iff.mp hb
  exact h

theorem Ensures.trivial {setting : Setting} (l : Lowering α) :
    Ensures setting l fun _ => True := fun _ _ _ _ => True.intro

theorem Ensures.reject {setting : Setting} {error : CompileError} {P : α → Prop} :
    Ensures setting (Lowering.reject error : Lowering α) P := by
  intro state state' b hb
  cases hb

end Lowering

/-- The lowering of the parts of a node: as expressions and as patterns. -/
structure Lowerer where
  expr : Node → Lowering Expr
  pattern : Node → Lowering Pattern

/-- The lowering of a list of nodes as expressions. -/
def Lowerer.exprs (lo : Lowerer) (nodes : List Node) : Lowering (List Expr) :=
  Lowering.traverse lo.expr nodes

namespace Node

/-- The child that has to stand under a tag. -/
def child (node : Node) (tag : String) : Lowering Node :=
  match node.one? tag with
  | some child => pure child
  | none => Lowering.malformed node.span (.missingChild tag node.describe)

/-- The leaf of a token: under the empty tag, or the node itself. -/
def token (node : Node) : Node := (node.one? "").getD node

/-- The text of a token. -/
def tokenText (node : Node) : String := node.token.text

/-- The span from the opening to the closing delimiter. -/
def delimitedSpan (node : Node) : Span :=
  match node.one? "odelim", node.one? "cdelim" with
  | some opening, some closing => Span.mergeOr node.span [opening.span, closing.span]
  | _, _ => node.span

/-- The names listed in a node. -/
def names (node : Node) : List String := (node.many "IDENT").map tokenText

/-- The name in a node: an identifier, a string, or the text itself. -/
def name (node : Node) : String :=
  match node.one? "IDENT", node.one? "STR" with
  | some ident, _ => ident.tokenText
  | none, some s => Text.readLiteral s.tokenText
  | none, none => node.tokenText

end Node

/-- The span of an access to a base. An access to the current value takes in the dot before it. -/
def accessSpan (base access : Span) : Span :=
  if base.text = "" then access
  else if base.text = "." then access.extendLeft 1
  else Span.mergeOr access [base, access]

end Relational
