import Relational.Proofs.WellFormed

/-!
# Places of failures

A failure is placed at the construct that raised it. One construct does not place what it raises: a
choice by patterns passes the failures of a match on as they are, unless they are mismatches, which
it passes over. A match can fail otherwise in one way only, by a pattern of a set with an element
that cannot be matched, such as a name.

> `Expr.WellFormed.failure_placed`: a failure of a well-formed expression has a place, or it comes
> from an element of that kind which the expression exposes, that is in the pattern of an arm from
> which no construct on the way out places it.
-/

namespace Relational

/-! ## Exposed elements -/

mutual

/-- An expression exposes an element of a pattern if evaluating it may raise the failure of that
element without placing it: from a part, or from an arm of a choice. Operands and calls are placed
by their construct. -/
inductive Expr.Exposes (element : Pattern) : Expr → Prop
  | part {e part : Expr} (hpart : part ∈ e.parts) (h : Expr.Exposes element part) :
    Expr.Exposes element e
  | arm {control : Expr} {arms : List (Pattern × Expr)} {span : Span} {arm : Pattern × Expr}
    (harm : arm ∈ arms) (h : Pattern.Exposes element arm.1) :
    Expr.Exposes element (.condControl control arms span)
  | body {control : Expr} {arms : List (Pattern × Expr)} {span : Span} {arm : Pattern × Expr}
    (harm : arm ∈ arms) (h : Expr.Exposes element arm.2) :
    Expr.Exposes element (.condControl control arms span)

/-- A pattern exposes the elements of its sets that cannot be matched, and what its parts and the
expressions that it reads expose. -/
inductive Pattern.Exposes (element : Pattern) : Pattern → Prop
  | element {elements : List Pattern} (hmem : element ∈ elements)
    (hunfit : element.fitsInSet = false) : Pattern.Exposes element (.set elements)
  | read {pattern : Pattern} {e : Expr} (hread : e ∈ pattern.reads) (h : Expr.Exposes element e) :
    Pattern.Exposes element pattern
  | part {pattern part : Pattern} (hpart : part ∈ pattern.parts)
    (h : Pattern.Exposes element part) : Pattern.Exposes element pattern

end

/-- A failure with a place, or one of some element without a place. -/
def Failure.PlacedBut (X : Pattern → Prop) (failure : Failure) : Prop :=
  failure.span.isSome = true ∨
    ∃ element, X element ∧ failure = ⟨none, .unsupportedElement element.text⟩

theorem Failure.isSome_span_within (failure : Failure) (span : Span) :
    (failure.within span).span.isSome = true := by
  obtain ⟨place, cause⟩ := failure
  cases place <;> rfl

/-- A well-formed expression that exposes none but the given elements. -/
structure Expr.Within (X : Pattern → Prop) (e : Expr) : Prop where
  formed : e.WellFormed
  exposes {element : Pattern} (h : Expr.Exposes element e) : X element

/-- A well-formed pattern that exposes none but the given elements. -/
structure Pattern.Within (X : Pattern → Prop) (pattern : Pattern) : Prop where
  formed : pattern.Formed fun _ => True
  exposes {element : Pattern} (h : Pattern.Exposes element pattern) : X element

/-! ## One level -/

section

variable {X : Pattern → Prop}

theorem Expr.Within.part {e : Expr} (h : e.Within X) : ∀ part ∈ e.parts, part.Within X :=
  fun part hpart => ⟨h.formed.part part hpart, fun hexposes => h.exposes (.part hpart hexposes)⟩

/-- An evaluator whose failures have places, but for those of some elements. A failed match may be a
mismatch as well. -/
structure Evaluator.Places (X : Pattern → Prop) (ev : Evaluator) : Prop where
  eval {e : Expr} {scope : Scope} (he : e.Within X) :
    (ev.eval e scope).Safe (Failure.PlacedBut X) fun _ => True
  literal {v : Value} {span : Span} {scope : Scope} :
    (ev.eval (.literal v span) scope).Safe (Failure.PlacedBut X) (· = v)
  bind {pattern : Pattern} {scope : Scope} {v : Value} {bound : Scope}
    (hpattern : pattern.Within X) :
    (ev.bind pattern scope v bound).Safe
      (fun failure => failure.cause.isMismatch = true ∨ failure.PlacedBut X)
      (Bound (fun _ => True) pattern.variables bound)

namespace Evaluator

variable {ev : Evaluator} (h : ev.Places X) (scope : Scope)

include h

theorem Places.matching : ev.Matching (fun _ => True) (Expr.Within X) (Pattern.Within X)
    (fun failure => failure.cause.isMismatch = true ∨ failure.PlacedBut X) scope where
  hereditary := Value.hereditary_true
  eval he := (h.eval he).mono (fun _ hplaced => Or.inr hplaced) fun _ _ => True.intro
  bind hpattern _ _ := h.bind hpattern
  reads hpattern e he :=
    ⟨hpattern.formed.reads e he, fun hexposes => hpattern.exposes (.read he hexposes)⟩
  parts hpattern part hpart :=
    ⟨hpattern.formed.parts part hpart, fun hexposes => hpattern.exposes (.part hpart hexposes)⟩
  unfit hset element hmem hunfit :=
    Or.inr (Or.inr ⟨element, hset.exposes (.element hmem hunfit), rfl⟩)
  mismatch hcause := Or.inl hcause

omit h in
theorem evaluating_placed :
    ev.Evaluating (fun _ => True) (Failure.PlacedBut X) (fun _ => True) scope where
  hereditary := Value.hereditary_true
  gives _ _ := True.intro
  call _ _ := Run.Safe.trivial
  raised _ := True.intro
  placed span _ := Or.inl (Failure.isSome_span_within _ span)

/-- Only two constructs need more than a place for what they raise: a choice by patterns, whose arms
are matched and evaluated without one, and a choice over a dictionary, which has to be one. -/
theorem Places.needs {e : Expr} (he : e.Within X) :
    Needs (fun _ => True) (Failure.PlacedBut X) (fun _ => True) ev scope e := by
  cases e with
  | ident => exact Or.inr True.intro
  | binary => exact Run.Safe.trivial
  | compare => exact Or.inr ⟨True.intro, fun _ _ => True.intro⟩
  | condControl control arms span =>
    cases he.formed with
    | condControl _ _ hpatterns hbodies =>
      intro v _
      -- a mismatch leads to the next arm, and the other failures of a match are passed on
      refine firstArm_safe (B := fun failure =>
        failure.cause.isMismatch = true ∨ failure.PlacedBut X) True.intro ?_ fun arm harm => ?_
      · intro failure hfailure hmismatch
        rw [hmismatch] at hfailure
        exact hfailure.resolve_left nofun
      · have hpattern : arm.1.Within X :=
          ⟨hpatterns arm harm, fun hexposes => he.exposes (.arm harm hexposes)⟩
        have hbody : arm.2.Within X :=
          ⟨hbodies arm harm, fun hexposes => he.exposes (.body harm hexposes)⟩
        exact (h.bind hpattern).imp fun bound _ => h.eval hbody
  | cond conditions span =>
    cases he.formed with
    | cond _ _ hform =>
      rcases hform with ⟨place, rfl⟩ | ⟨entries, place, -, rfl⟩
      · exact Or.inr (Or.inl ⟨[], place, rfl, h.literal⟩)
      · exact Or.inl ⟨entries, true, place, rfl⟩
  | function | recursion => exact fun _ => True.intro
  | _ => exact True.intro

end Evaluator

/-- Every evaluator with fuel places its failures, but for those of exposed elements. -/
theorem evaluator_places (fuel : Nat) : (evaluator fuel).Places X := by
  induction fuel with
  | zero => exact ⟨fun _ => Run.Safe.exhausted, Run.Safe.exhausted, fun _ => Run.Safe.exhausted⟩
  | succ fuel ih =>
    refine ⟨fun {e scope} he => ?_, Run.Safe.pure rfl, fun {pattern scope v bound} hpattern => ?_⟩
    -- a call is placed by the construct that makes it, so nothing is asked of functions
    · exact Evaluator.evalStep_safe (Evaluator.evaluating_placed scope)
        (fun part hpart => ih.eval (he.part part hpart)) (ih.needs scope he)
    · exact Evaluator.bindStep_safe (ih.matching scope) hpattern True.intro fun _ _ => True.intro

end

/-- A failure of a well-formed expression has a place, or it is that of an element which the
expression exposes. -/
theorem Expr.WellFormed.failure_placed {e : Expr} (h : e.WellFormed) {fuel : Nat} {scope : Scope}
    {next : Identity} {failure : Failure} (hfailed : e.eval fuel scope next = .failed failure) :
    failure.PlacedBut fun element => Expr.Exposes element e := by
  have hsafe : (e.eval fuel scope).Safe (Failure.PlacedBut fun element => Expr.Exposes element e)
      fun _ => True := (evaluator_places fuel).eval ⟨h, fun hexposes => hexposes⟩
  have hnext := hsafe next
  rw [hfailed] at hnext
  exact hnext

/-! ## Compiled programs -/

/-- Every failure of the expression, in any scope, has a place. -/
def Expr.FailsPlaced (e : Expr) : Prop :=
  ∀ fuel scope next failure, e.eval fuel scope next = .failed failure →
    failure.span.isSome = true

/-- The failures of a compiled program have places exactly if it never fails at an element of a set
that it exposes; so they do if it exposes none. -/
theorem Compiler.compiled_failsPlaced {compiler : Compiler}
    (hmodules : Lowering.Answers Expr.WellFormed compiler.modules) {path text : String}
    (htree : ∀ tree, compiler.grammar text (Path.filename path) = .ok tree →
      tree.Embeds Expr.WellFormed) {state state' : CompilerState} {e : Expr}
    (hcompile : compiler.compile path text state = (.ok e, state')) :
    (e.FailsPlaced ↔ ∀ fuel scope next element, Expr.Exposes element e →
      e.eval fuel scope next ≠ .failed ⟨none, .unsupportedElement element.text⟩) ∧
    ((∀ element, ¬Expr.Exposes element e) → e.FailsPlaced) := by
  have hformed := compile_formed hmodules htree hcompile
  have hplaced : (∀ fuel scope next element, Expr.Exposes element e →
      e.eval fuel scope next ≠ .failed ⟨none, .unsupportedElement element.text⟩) →
        e.FailsPlaced := by
    intro hnever fuel scope next failure hfailed
    rcases hformed.failure_placed hfailed with hplaced | ⟨element, hexposes, rfl⟩
    · exact hplaced
    · exact absurd hfailed (hnever fuel scope next element hexposes)
  refine ⟨⟨fun h fuel scope next element _ hfailed => ?_, hplaced⟩, fun hnone => ?_⟩
  -- that failure has no place
  · cases h fuel scope next _ hfailed
  · exact hplaced fun _ _ _ element hexposes => absurd hexposes (hnone element)

theorem Expr.not_exposes_ident {element : Pattern} {name : String} {span : Span} :
    ¬Expr.Exposes element (.ident name span) := by
  intro h
  cases h with
  | part hpart => cases hpart

theorem Expr.not_exposes_literal {element : Pattern} {v : Value} {span : Span} :
    ¬Expr.Exposes element (.literal v span) := by
  intro h
  cases h with
  | part hpart => cases hpart

/-- The tree of `cond x {{1}: y}`. -/
def Samples.choiceOfSet : Node :=
  let source : Source := ⟨".", "cond x \x7b\x7b1\x7d: y\x7d"⟩
  let word (tag : String) (start stop : Nat) : Node :=
    .branch [(tag, .one (.leaf ⟨source, start, stop⟩))] ⟨source, start, stop⟩
  let pattern : Node :=
    .branch [("set", .one (.branch [("elt", .many [word "NUM" 9 10])] ⟨source, 9, 10⟩))]
      ⟨source, 9, 10⟩
  .branch
    [("cond", .one (.branch
      [("condition", .many [.branch [("pattern", .one pattern)] ⟨source, 9, 10⟩]),
        ("controlVar", .one (word "IDENT" 5 6)),
        ("value", .many [.branch [("expr", .one (word "IDENT" 13 14))] ⟨source, 13, 14⟩])]
      ⟨source, 0, 15⟩))] ⟨source, 0, 15⟩

/-- A choice by a set with a value for its element: nothing is exposed, and the name without a value
is reported at its place. -/
theorem Compiler.compiled_failsPlaced_choiceOfSet :
    let compiler : Compiler := ⟨fun _ _ => .ok Samples.choiceOfSet, .deferred, .recording⟩
    ∃ control arms span state,
      compiler.compile "" "" .initial = (.ok (.condControl control arms span), state) ∧
      (Expr.condControl control arms span).FailsPlaced ∧
      (Expr.condControl control arms span).eval 2 Scope.empty 0 =
        .failed ⟨some control.span, .unbound "x"⟩ := by
  intro compiler
  have hmodules : Lowering.Answers Expr.WellFormed compiler.modules :=
    Lowering.answersFrom_true.mp Lowering.answersFrom_deferred
  have htree : ∀ tree, compiler.grammar "" (Path.filename "") = .ok tree →
      tree.Embeds Expr.WellFormed := by
    rintro _ ⟨⟩
    simp [Samples.choiceOfSet, Node.Embeds, Node.EmbedsTags, Node.EmbedsAll]
  obtain ⟨name, v, value, body, span, state, hcompile⟩ : ∃ name v value body span state,
      compiler.compile "" "" .initial =
        (.ok (.condControl (.ident "x" name) [(.set [.expr (.literal v value)], .ident "y" body)]
          span), state) := ⟨_, _, _, _, _, _, rfl⟩
  refine ⟨_, _, _, state, hcompile, ?_, rfl⟩
  refine (compiled_failsPlaced hmodules htree hcompile).2 ?_
  -- the names and the number expose nothing, and the element of the set is a number
  intro element hexposes
  cases hexposes with
  | part hpart h =>
    obtain rfl := List.mem_singleton.mp hpart
    exact Expr.not_exposes_ident h
  | body harm h =>
    obtain rfl := List.mem_singleton.mp harm
    exact Expr.not_exposes_ident h
  | arm harm h =>
    obtain rfl := List.mem_singleton.mp harm
    cases h with
    | element hmem hunfit =>
      obtain rfl := List.mem_singleton.mp hmem
      cases hunfit
    | read hread => cases hread
    | part hpart h =>
      obtain rfl := List.mem_singleton.mp hpart
      cases h with
      | read hread h =>
        obtain rfl := List.mem_singleton.mp hread
        exact Expr.not_exposes_literal h
      | part hpart => cases hpart

/-- The failure that a run ended with. -/
def Outcome.failure? {α : Type} : Outcome α → Option Failure
  | .failed failure => some failure
  | _ => none

/-- A document of the program `cond {1} {{a}: 2}`. -/
def Samples.choiceOfName : String :=
  "\x7b\"source\":\"cond \x7b1\x7d \x7b\x7ba\x7d: 2\x7d\"," ++
  "\"tree\":\x7b\"cond\":\x7b\"@\":[0,17]," ++
  "\"condition\":[\x7b\"pattern\":\x7b\"set\":" ++
  "\x7b\"elt\":[\x7b\"IDENT\":[11,12]\x7d]\x7d\x7d\x7d]," ++
  "\"controlVar\":\x7b\"set\":\x7b\"elt\":[\x7b\"NUM\":[6,7]\x7d]\x7d\x7d," ++
  "\"value\":[\x7b\"expr\":\x7b\"NUM\":[15,16]\x7d\x7d]\x7d\x7d\x7d"

/-- A choice by a set with a name for its element fails without a place. -/
theorem Compiler.choiceOfName_unplaced :
    ∃ e, (standard.compile "" Samples.choiceOfName .initial).1 = .ok e ∧
      e.eval 4 Scope.empty 0 = .failed ⟨none, .unsupportedElement "a"⟩ ∧ ¬e.FailsPlaced := by
  have hrun : ((standard.compile "" Samples.choiceOfName .initial).1.map
      fun e => (e.eval 4 Scope.empty 0).failure?) = .ok (some ⟨none, .unsupportedElement "a"⟩) := by
    decide +kernel
  obtain ⟨e, he, hfailure⟩ := Compiled.map_eq_ok_iff.mp hrun
  have hfailed : e.eval 4 Scope.empty 0 = .failed ⟨none, .unsupportedElement "a"⟩ := by
    cases hrun : e.eval 4 Scope.empty 0 with
    | failed failure =>
      rw [hrun] at hfailure
      exact congrArg _ (Option.some.inj hfailure)
    | done | aborted | exhausted =>
      rw [hrun] at hfailure
      cases hfailure
  refine ⟨e, he, hfailed, fun hplaced => ?_⟩
  cases hplaced 4 Scope.empty 0 _ hfailed

end Relational
