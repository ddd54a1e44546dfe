import Relational.Proofs.PatternVariables

/-!
# Choices among arms

A choice with a control value takes the first arm whose pattern fits. To find it, the patterns are
matched one after the other, and that runs code: the literals, keys and fallbacks of a pattern. A
failure in there is told from a refusal of the pattern by its cause alone, so a mismatch inside of a
function that a pattern calls counts as one of the pattern.

> `Choice`: what comes of the arms, by where the match of each one ends: with bindings, at a refusal
> of its own, or at an expression that has no value.

> `Expr.cond_chooses`: a choice has the outcome of the rules.
-/

namespace Relational

/-- Matching the pattern with the value stands at an inquiry: all that it has asked for so far has a
value. -/
def Pattern.Reaches (p : Pattern) (scope : Scope) (v : Value) (next : Identity)
    (state : Inquiry Scope) (last : Identity) : Prop :=
  (p.inquire v Scope.empty).ComesTo (unbounded.eval · scope) next state last

/-- What comes of arms for a value. -/
inductive Choice (scope : Scope) (v : Value) (next : Identity) :
    List (Pattern × Expr) → Outcome (Value × Identity) → Prop
  /-- When no arm is left, the empty set. -/
  | nothing : Choice scope v next [] (.done (.nothing, next))
  /-- If the pattern of the first arm fits, whatever comes of its body. -/
  | fits {p : Pattern} {body : Expr} {arms : List (Pattern × Expr)} {bound : Scope}
      {last : Identity} (h : p.Reaches scope v next (.found bound) last) :
      Choice scope v next ((p, body) :: arms) (unbounded.eval body (scope.update bound) last)
  /-- If the pattern does not fit, what comes of the other arms. -/
  | differs {p : Pattern} {body : Expr} {arms : List (Pattern × Expr)} {cause : Cause}
      {last : Identity} {o : Outcome (Value × Identity)}
      (h : p.Reaches scope v next (.refused cause) last) (hcause : cause.isMismatch = true)
      (hrest : Choice scope v next arms o) : Choice scope v next ((p, body) :: arms) o
  /-- A pattern that cannot be matched fails. -/
  | unsupported {p : Pattern} {body : Expr} {arms : List (Pattern × Expr)} {cause : Cause}
      {last : Identity} (h : p.Reaches scope v next (.refused cause) last)
      (hcause : cause.isMismatch = false) :
      Choice scope v next ((p, body) :: arms) (.failed ⟨none, cause⟩)
  /-- An expression of the pattern that fails makes the choice fail in the same way, -/
  | fails {p : Pattern} {body : Expr} {arms : List (Pattern × Expr)} {e : Expr}
      {answer : Value → Inquiry Scope} {last : Identity} {failure : Failure}
      (h : p.Reaches scope v next (.asks e answer) last)
      (he : unbounded.eval e scope last = .failed failure)
      (hcause : failure.cause.isMismatch = false) :
      Choice scope v next ((p, body) :: arms) (.failed failure)
  /-- unless the failure is itself that of a pattern. Then the arm does not count as fitting. -/
  | passes {p : Pattern} {body : Expr} {arms : List (Pattern × Expr)} {e : Expr}
      {answer : Value → Inquiry Scope} {last : Identity} {failure : Failure}
      {o : Outcome (Value × Identity)} (h : p.Reaches scope v next (.asks e answer) last)
      (he : unbounded.eval e scope last = .failed failure)
      (hcause : failure.cause.isMismatch = true) (hrest : Choice scope v next arms o) :
      Choice scope v next ((p, body) :: arms) o
  /-- If an expression of the pattern is aborted, so is the choice. -/
  | aborted {p : Pattern} {body : Expr} {arms : List (Pattern × Expr)} {e : Expr}
      {answer : Value → Inquiry Scope} {last : Identity} {reason : Abort}
      (h : p.Reaches scope v next (.asks e answer) last)
      (he : unbounded.eval e scope last = .aborted reason) :
      Choice scope v next ((p, body) :: arms) (.aborted reason)
  /-- If an expression of the pattern does not end, nor does the choice. -/
  | endless {p : Pattern} {body : Expr} {arms : List (Pattern × Expr)} {e : Expr}
      {answer : Value → Inquiry Scope} {last : Identity}
      (h : p.Reaches scope v next (.asks e answer) last)
      (he : unbounded.eval e scope last = .exhausted) :
      Choice scope v next ((p, body) :: arms) .exhausted

section

variable {scope : Scope} {v : Value} {next : Identity}

/-- How a match ends is decided by where it stands. -/
theorem Pattern.Reaches.bindings_eq {p : Pattern} {state : Inquiry Scope} {last : Identity}
    (h : p.Reaches scope v next state last) :
    unbounded.bindings p scope v next = state.run (unbounded.eval · scope) last := by
  rw [Evaluator.bindings, unbounded_bind_eq_run]
  exact h.run_eq

/-- What comes of the arms by the rules is what comes of them. -/
theorem Choice.firstArm_eq {arms : List (Pattern × Expr)} {o : Outcome (Value × Identity)}
    (h : Choice scope v next arms o) : unbounded.firstArm scope v arms next = o := by
  induction h with
  | nothing => rfl
  | fits h =>
    rw [Evaluator.firstArm_cons]
    exact Run.rescue_of_done h.bindings_eq
  | differs h hcause _ ih =>
    rw [Evaluator.firstArm_cons, Run.rescue_of_failed h.bindings_eq, if_pos hcause, ih]
  | unsupported h hcause =>
    rw [Evaluator.firstArm_cons, Run.rescue_of_failed h.bindings_eq, hcause]
    rfl
  | fails h he hcause =>
    have hfailed := h.bindings_eq
    rw [Inquiry.run, Run.bind_apply, he] at hfailed
    rw [Evaluator.firstArm_cons, Run.rescue_of_failed hfailed, hcause]
    rfl
  | passes h he hcause _ ih =>
    have hfailed := h.bindings_eq
    rw [Inquiry.run, Run.bind_apply, he] at hfailed
    rw [Evaluator.firstArm_cons, Run.rescue_of_failed hfailed, if_pos hcause, ih]
  | aborted h he =>
    have haborted := h.bindings_eq
    rw [Inquiry.run, Run.bind_apply, he] at haborted
    rw [Evaluator.firstArm_cons, Run.rescue_of_aborted haborted]
  | endless h he =>
    have hexhausted := h.bindings_eq
    rw [Inquiry.run, Run.bind_apply, he] at hexhausted
    rw [Evaluator.firstArm_cons, Run.rescue_of_exhausted hexhausted]

/-- The rules leave no case out. -/
theorem exists_choice (scope : Scope) (v : Value) (next : Identity) (arms : List (Pattern × Expr)) :
    ∃ o, Choice scope v next arms o := by
  induction arms with
  | nil => exact ⟨_, .nothing⟩
  | cons arm arms ih =>
    obtain ⟨p, body⟩ := arm
    obtain ⟨o, ho⟩ := ih
    obtain ⟨state, last, h, hend⟩ :=
      Inquiry.exists_comesTo (unbounded.eval · scope) (p.inquire v Scope.empty) next
    -- by where the match of the first arm ends, and why
    cases state with
    | found bound => exact ⟨_, .fits h⟩
    | refused cause =>
      cases hcause : cause.isMismatch with
      | true => exact ⟨o, .differs h hcause ho⟩
      | false => exact ⟨_, .unsupported h hcause⟩
    | asks e answer =>
      cases he : unbounded.eval e scope last with
      | done result => exact absurd he (hend e answer rfl result)
      | failed failure =>
        cases hcause : failure.cause.isMismatch with
        | true => exact ⟨o, .passes h he hcause ho⟩
        | false => exact ⟨_, .fails h he hcause⟩
      | aborted reason => exact ⟨_, .aborted h he⟩
      | exhausted => exact ⟨_, .endless h he⟩

theorem choice_iff {arms : List (Pattern × Expr)} {o : Outcome (Value × Identity)} :
    Choice scope v next arms o ↔ unbounded.firstArm scope v arms next = o := by
  refine ⟨Choice.firstArm_eq, ?_⟩
  rintro rfl
  obtain ⟨o, ho⟩ := exists_choice scope v next arms
  rwa [ho.firstArm_eq]

end

namespace Expr

/-- A choice has the outcome of its control expression if that has no value, and otherwise what
comes of the arms for that value by the rules. What a pattern asks for on the way stands in it as a
literal, a key or a fallback, and it refuses a value only as a mismatch or for an element of a set
that cannot be matched. -/
theorem cond_chooses (control : Expr) (arms : List (Pattern × Expr)) (span : Span) (scope : Scope)
    (start : Identity) :
    (∀ o, unbounded.eval (.condControl control arms span) scope start = o ↔
      (unbounded.eval control scope start = o ∧ ∀ result, o ≠ .done result) ∨
      ∃ v next, unbounded.eval control scope start = .done (v, next) ∧
        Choice scope v next arms o) ∧
    ∀ arm ∈ arms, ∀ v next last,
      (∀ e answer, arm.1.Reaches scope v next (.asks e answer) last → arm.1.Consults e) ∧
      ∀ cause, arm.1.Reaches scope v next (.refused cause) last → arm.1.Refuses cause := by
  refine ⟨fun o => ?_, fun arm _ v next last => ⟨fun e answer h => ?_, fun cause h => ?_⟩⟩
  · rw [unbounded_eval, Evaluator.evalStep, Run.bind_apply]
    simp only [choice_iff]
    cases unbounded.eval control scope start with
    | done result =>
      obtain ⟨v, next⟩ := result
      constructor
      · intro h
        exact Or.inr ⟨v, next, rfl, h⟩
      · rintro (⟨rfl, hne⟩ | ⟨_, _, ⟨⟩, h⟩)
        · exact absurd rfl (hne _)
        · exact h
    | failed | aborted | exhausted =>
      constructor
      · rintro rfl
        refine Or.inl ⟨rfl, fun result hdone => ?_⟩
        cases hdone
      · rintro (⟨rfl, -⟩ | ⟨_, _, h, -⟩)
        · rfl
        · cases h
  · exact ((arm.1.inquire_keeps v Scope.empty).comesTo h).1
  · exact (arm.1.inquire_keeps v Scope.empty).comesTo h

/-- In `cond true {false: true, (x): false}` the first arm does not fit. The second one asks for
`x`, so the choice fails for want of it. -/
theorem cond_chooses_unbound :
    let yes : Expr := .literal (.bool true) .unknown
    let no : Expr := .literal (.bool false) .unknown
    unbounded.eval (.condControl yes [(.expr no, yes), (.exprs [.ident "x" .unknown], no)] .unknown)
      Scope.empty 0 = .failed ⟨some .unknown, .unbound "x"⟩ := by
  intro yes no
  have hyes : unbounded.eval yes Scope.empty 0 = .done (.bool true, 0) :=
    congrFun (unbounded_eval_literal _ _ _) 0
  have hno : unbounded.eval no Scope.empty 0 = .done (.bool false, 0) :=
    congrFun (unbounded_eval_literal _ _ _) 0
  have hx : unbounded.eval (.ident "x" .unknown) Scope.empty 0 =
      .failed ⟨some .unknown, .unbound "x"⟩ := by
    rw [unbounded_eval]
    rfl
  have hfirst : (Pattern.expr no).Reaches Scope.empty (.bool true) 0
      (.refused (.mismatch "true" "false")) 0 := .answered hno .refl
  have hsecond : Choice Scope.empty (.bool true) 0 [(.exprs [.ident "x" .unknown], no)]
      (.failed ⟨some .unknown, .unbound "x"⟩) := .fails .refl hx rfl
  exact ((cond_chooses _ _ _ _ _).1 _).mpr
    (Or.inr ⟨.bool true, 0, hyes, .differs hfirst rfl hsecond⟩)

/-- In `cond true {(\false true)(true): true}` the literal of the arm fails, since the function does
not take `true`, and the choice is the empty set. In `cond {true} {{a}: true}` nothing fails but the
pattern, which is not supported, and the choice fails. -/
theorem cond_passes_over_failure :
    let yes : Expr := .literal (.bool true) .unknown
    let e : Expr := .call (.function (.expr (.literal (.bool false) .unknown)) yes .unknown) yes
      .unknown
    e.eval 9 Scope.empty 0 = .failed ⟨some .unknown, .mismatch "true" "false"⟩ ∧
    (Expr.condControl yes [(.expr e, yes)] .unknown).eval 9 Scope.empty 0 = .done (.nothing, 0) ∧
    (Expr.condControl (.literal (.set [.bool true]) .unknown)
      [(.set [.expr (.ident "a" .unknown)], yes)] .unknown).eval 9 Scope.empty 0 =
        .failed ⟨none, .unsupportedElement "a"⟩ :=
  ⟨rfl, rfl, rfl⟩

end Expr

end Relational
