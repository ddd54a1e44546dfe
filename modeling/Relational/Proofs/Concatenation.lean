import Relational.Proofs.Fuel
import Relational.Proofs.SafeRun

/-!
# Concatenation as a partial monoid

The operator `++` joins two arrays, two texts or two rows of bytes. The empty set is no sequence,
but it is neutral for all values, even for those that can not be joined with anything else. An empty
array is neutral for arrays only.

> `Value.Joined`: what two values joined by `++` make. Joining three values in either order makes
> the same (`Joined.assoc`, `Joined.assoc_symm`), and so one order fails exactly if the other does.

> `Value.concat_partialMonoid`: associativity, the neutral value and the domain of `++`, and what
> they say about expressions.
-/

namespace Relational

namespace Value

/-! ## Joined values -/

/-- Two values are sequences of one kind. -/
inductive BothSequences : Value → Value → Prop
  | array (as bs : List (Option Value)) : BothSequences (.array as) (.array bs)
  | string (s t : String) : BothSequences (.string s) (.string t)
  | bytes (as bs : List UInt8) : BothSequences (.bytes as) (.bytes bs)

/-- Two values make a third one: a longer sequence, or one of them if the other is the empty set. -/
inductive Joined : Value → Value → Value → Prop
  | nothing_left (b : Value) : Joined .nothing b b
  | nothing_right (a : Value) : Joined a .nothing a
  | array (as bs : List (Option Value)) : Joined (.array as) (.array bs) (.array (as ++ bs))
  | string (s t : String) : Joined (.string s) (.string t) (.string (s ++ t))
  | bytes (as bs : List UInt8) : Joined (.bytes as) (.bytes bs) (.bytes (as ++ bs))

variable {a b c d : Value}

theorem exists_joined_iff :
    (∃ c, Joined a b c) ↔ a = .nothing ∨ b = .nothing ∨ BothSequences a b := by
  constructor
  · rintro ⟨c, h⟩
    cases h with
    | nothing_left => exact .inl rfl
    | nothing_right => exact .inr (.inl rfl)
    | array as bs => exact .inr (.inr (.array as bs))
    | string s t => exact .inr (.inr (.string s t))
    | bytes as bs => exact .inr (.inr (.bytes as bs))
  · rintro (rfl | rfl | h)
    · exact ⟨b, .nothing_left b⟩
    · exact ⟨a, .nothing_right a⟩
    · cases h with
      | array as bs => exact ⟨_, .array as bs⟩
      | string s t => exact ⟨_, .string s t⟩
      | bytes as bs => exact ⟨_, .bytes as bs⟩

/-- What is joined on the left first can be joined on the right first. -/
theorem Joined.assoc {ab : Value} (hab : Joined a b ab) (h : Joined ab c d) :
    ∃ bc, Joined b c bc ∧ Joined a bc d := by
  cases hab with
  | nothing_left => exact ⟨d, h, .nothing_left d⟩
  | nothing_right => exact ⟨c, .nothing_left c, h⟩
  | array as bs =>
    cases h with
    | nothing_right => exact ⟨_, .nothing_right _, .array as bs⟩
    | array _ cs => exact ⟨_, .array bs cs, List.append_assoc as bs cs ▸ .array as (bs ++ cs)⟩
  | string s t =>
    cases h with
    | nothing_right => exact ⟨_, .nothing_right _, .string s t⟩
    | string _ u => exact ⟨_, .string t u, String.append_assoc ▸ .string s (t ++ u)⟩
  | bytes as bs =>
    cases h with
    | nothing_right => exact ⟨_, .nothing_right _, .bytes as bs⟩
    | bytes _ cs => exact ⟨_, .bytes bs cs, List.append_assoc as bs cs ▸ .bytes as (bs ++ cs)⟩

/-- What is joined on the right first can be joined on the left first. -/
theorem Joined.assoc_symm {bc : Value} (hbc : Joined b c bc) (h : Joined a bc d) :
    ∃ ab, Joined a b ab ∧ Joined ab c d := by
  cases hbc with
  | nothing_left => exact ⟨a, .nothing_right a, h⟩
  | nothing_right => exact ⟨d, h, .nothing_right d⟩
  | array bs cs =>
    cases h with
    | nothing_left => exact ⟨_, .nothing_left _, .array bs cs⟩
    | array as => exact ⟨_, .array as bs, List.append_assoc as bs cs ▸ .array (as ++ bs) cs⟩
  | string t u =>
    cases h with
    | nothing_left => exact ⟨_, .nothing_left _, .string t u⟩
    | string s => exact ⟨_, .string s t, String.append_assoc ▸ .string (s ++ t) u⟩
  | bytes bs cs =>
    cases h with
    | nothing_left => exact ⟨_, .nothing_left _, .bytes bs cs⟩
    | bytes as => exact ⟨_, .bytes as bs, List.append_assoc as bs cs ▸ .bytes (as ++ bs) cs⟩

/-! ## The operator -/

theorem isNothing_iff : a.isNothing = true ↔ a = .nothing := by
  constructor
  · intro h
    unfold isNothing at h
    split at h
    next => rfl
    next => cases h
  · rintro rfl
    rfl

/-- Values that are no sequences of one kind are joined only with the empty set. -/
theorem concat_of_not_bothSequences (h : ¬BothSequences a b) : concat a b =
    if a.isNothing then .ok b
    else if b.isNothing then .ok a
    else wrongKind "++" "an array, string or bytes" a := by
  unfold concat
  split
  next as bs => exact absurd (.array as bs) h
  next s t => exact absurd (.string s t) h
  next as bs => exact absurd (.bytes as bs) h
  next => rfl

/-- The operator gives what the two values make, and fails if they make nothing. -/
theorem concat_eq_ok_iff : concat a b = .ok c ↔ Joined a b c := by
  by_cases hboth : BothSequences a b
  · cases hboth with
    | array as bs =>
      exact ⟨fun h => Except.ok.inj h ▸ .array as bs, fun h => by cases h; rfl⟩
    | string s t =>
      exact ⟨fun h => Except.ok.inj h ▸ .string s t, fun h => by cases h; rfl⟩
    | bytes as bs =>
      exact ⟨fun h => Except.ok.inj h ▸ .bytes as bs, fun h => by cases h; rfl⟩
  · rw [concat_of_not_bothSequences hboth]
    constructor
    · intro h
      split at h
      next hnothing =>
        obtain rfl := isNothing_iff.mp hnothing
        exact Except.ok.inj h ▸ .nothing_left b
      next =>
        split at h
        next hnothing =>
          obtain rfl := isNothing_iff.mp hnothing
          exact Except.ok.inj h ▸ .nothing_right a
        next => cases h
    · intro h
      cases h with
      | nothing_left => rfl
      | nothing_right =>
        split
        next hnothing => rw [isNothing_iff.mp hnothing]
        next => rfl
      | array as bs => exact absurd (.array as bs) hboth
      | string s t => exact absurd (.string s t) hboth
      | bytes as bs => exact absurd (.bytes as bs) hboth

theorem toOption_bind (r : Except Cause Value) (f : Value → Except Cause Value) :
    (r >>= f).toOption = r.toOption.bind fun v => (f v).toOption := by
  cases r with
  | ok v => rfl
  | error cause => rfl

theorem toOption_concat_eq_some_iff : (concat a b).toOption = some c ↔ Joined a b c := by
  rw [← concat_eq_ok_iff]
  cases concat a b with
  | ok v => rw [Except.toOption, Option.some_inj, Except.ok.injEq]
  | error cause => simp [Except.toOption]

/-- Joining three values in either order gives the same value, or fails in both. -/
theorem concat_assoc (a b c : Value) :
    (do concat (← concat a b) c : Except Cause Value).toOption =
      (do concat a (← concat b c) : Except Cause Value).toOption := by
  refine Option.ext fun d => ?_
  simp only [toOption_bind, Option.bind_eq_some_iff, toOption_concat_eq_some_iff]
  constructor
  · rintro ⟨ab, hab, h⟩
    exact hab.assoc h
  · rintro ⟨bc, hbc, h⟩
    exact hbc.assoc_symm h

/-! ## Expressions -/

theorem eval_concat (x y : Expr) (span : Span) (scope : Scope) :
    unbounded.eval (.binary .concat x y span) scope = Run.within span (do
      let l ← unbounded.eval x scope
      let r ← unbounded.eval y scope
      Run.ofExcept (concat l r)) := by
  rw [unbounded_eval]
  rfl

/-- An evaluation ends as an operation does: with its result, or with its failure. -/
inductive Answers (last : Identity) : Outcome (Value × Identity) → Except Cause Value → Prop
  | ok (v : Value) : Answers last (.done (v, last)) (.ok v)
  | error {f : Failure} {cause : Cause} (h : f.cause = cause) :
      Answers last (.failed f) (.error cause)

theorem answers_of_done {o : Outcome (Value × Identity)} {last : Identity}
    (h : o = .done (a, last)) : Answers last o (.ok a) := h ▸ .ok a

/-- The operator does with the answers of its operands what it does with their values. -/
theorem Answers.concat {x y : Expr} {scope : Scope} {first second third : Identity}
    {r s : Except Cause Value} (hx : Answers second (unbounded.eval x scope first) r)
    (hy : Answers third (unbounded.eval y scope second) s) (span : Span) :
    Answers third (unbounded.eval (.binary .concat x y span) scope first)
      (do Value.concat (← r) (← s)) := by
  rw [eval_concat, Run.within_apply, Run.bind_apply]
  generalize unbounded.eval x scope first = o at hx ⊢
  cases hx with
  | error h => exact .error ((Failure.cause_within _ span).trans h)
  | ok a =>
    dsimp only
    rw [Run.bind_apply]
    generalize unbounded.eval y scope second = o at hy ⊢
    cases hy with
    | error h => exact .error ((Failure.cause_within _ span).trans h)
    | ok b =>
      show Answers third _ (Value.concat a b)
      dsimp only
      cases Value.concat a b with
      | ok v => exact .ok v
      | error cause => exact .error (Failure.cause_within _ span)

/-- Evaluations that answer alike end with the same value, or both fail. -/
theorem Answers.together {o o' : Outcome (Value × Identity)} {r r' : Except Cause Value}
    {last : Identity} (h : Answers last o r) (h' : Answers last o' r')
    (heq : r.toOption = r'.toOption) :
    (∃ v, o = .done (v, last) ∧ o' = .done (v, last)) ∨
      ∃ f f', o = .failed f ∧ o' = .failed f' := by
  cases h with
  | ok v =>
    cases h' with
    | ok v' =>
      obtain rfl : v = v' := Option.some.inj heq
      exact .inl ⟨v, rfl, rfl⟩
    | error => cases heq
  | @error f =>
    cases h' with
    | ok v' => cases heq
    | @error f' => exact .inr ⟨f, f', rfl, rfl⟩

/-- Concatenation is a partial monoid.

* Both ways to join three values give the same value, or both of them fail.
* The empty set is neutral on both sides, for every value.
* Two values can be joined exactly if one of them is the empty set, or both are arrays, both texts
  or both bytes.
* So brackets do not matter in an expression whose operands have values. -/
theorem concat_partialMonoid :
    (∀ a b c : Value, (do combine .concat (← combine .concat a b) c : Except Cause Value).toOption =
      (do combine .concat a (← combine .concat b c) : Except Cause Value).toOption) ∧
    (∀ a : Value, combine .concat .nothing a = .ok a ∧ combine .concat a .nothing = .ok a) ∧
    (∀ a b : Value, (∃ c, combine .concat a b = .ok c) ↔
      a = .nothing ∨ b = .nothing ∨ BothSequences a b) ∧
    ∀ {x y z : Expr} {scope : Scope} {first second third last : Identity} {a b c : Value},
      unbounded.eval x scope first = .done (a, second) →
      unbounded.eval y scope second = .done (b, third) →
      unbounded.eval z scope third = .done (c, last) → ∀ inner outer inner' outer' : Span,
      let left : Expr := .binary .concat (.binary .concat x y inner) z outer
      let right : Expr := .binary .concat x (.binary .concat y z inner') outer'
      (∃ v, unbounded.eval left scope first = .done (v, last) ∧
        unbounded.eval right scope first = .done (v, last)) ∨
      ∃ f f', unbounded.eval left scope first = .failed f ∧
        unbounded.eval right scope first = .failed f' := by
  refine ⟨concat_assoc, fun a => ?_, fun a b => ?_, ?_⟩
  · exact ⟨concat_eq_ok_iff.mpr (.nothing_left a), concat_eq_ok_iff.mpr (.nothing_right a)⟩
  · rw [← exists_joined_iff]
    exact exists_congr fun c => concat_eq_ok_iff
  · intro x y z scope first second third last a b c hx hy hz inner outer inner' outer'
    replace hx := answers_of_done hx
    replace hy := answers_of_done hy
    replace hz := answers_of_done hz
    exact ((hx.concat hy inner).concat hz outer).together (hx.concat (hy.concat hz inner') outer')
      (concat_assoc a b c)

/-- Between an array with a hole and another array the empty set is passed over. Between an empty
array and a text it does not help, however the three are bracketed. -/
theorem concat_partialMonoid_empty :
    let here := Span.unknown
    let hole : Expr := .literal (.array [none]) here
    let empty : Expr := .literal (.array []) here
    let none : Expr := .literal .nothing here
    let text : Expr := .literal (.string "a") here
    let left (x y z : Expr) : Expr := .binary .concat (.binary .concat x y here) z here
    let right (x y z : Expr) : Expr := .binary .concat x (.binary .concat y z here) here
    (unbounded.eval (left hole none hole) Scope.empty 0 = .done (.array [.none, .none], 0) ∧
      unbounded.eval (right hole none hole) Scope.empty 0 = .done (.array [.none, .none], 0)) ∧
    ((∃ f, unbounded.eval (left empty none text) Scope.empty 0 = .failed f) ∧
      ∃ f, unbounded.eval (right empty none text) Scope.empty 0 = .failed f) ∧
    ¬∃ c, combine .concat (.array []) (.string "a") = .ok c := by
  intro here hole empty none text left right
  obtain ⟨-, -, hdomain, hbrackets⟩ := concat_partialMonoid
  have hliteral (v : Value) : unbounded.eval (.literal v here) Scope.empty 0 = .done (v, 0) :=
    congrFun (unbounded_eval_literal v here _) 0
  have hdone : unbounded.eval (left hole none hole) Scope.empty 0 =
      .done (.array [.none, .none], 0) := unbounded_eval_eq_done 9 rfl
  have hfailed : ¬∃ c, combine .concat (.array []) (.string "a") = .ok c := by
    rw [hdomain]
    rintro (h | h | h) <;> cases h
  refine ⟨⟨hdone, ?_⟩, ?_, hfailed⟩
  · rcases hbrackets (hliteral _) (hliteral _) (hliteral _) here here here here with
      ⟨v, hleft, hright⟩ | ⟨f, f', hleft, -⟩
    · rw [hdone] at hleft
      cases hleft
      exact hright
    · rw [hdone] at hleft
      cases hleft
  · rcases hbrackets (hliteral (.array [])) (hliteral .nothing) (hliteral (.string "a")) here here
      here here with ⟨v, hleft, -⟩ | ⟨f, f', hleft, hright⟩
    · have hinner := answers_of_done (hliteral (.array [])) |>.concat
        (answers_of_done (hliteral .nothing)) here
      have houter := hinner.concat (answers_of_done (hliteral (.string "a"))) here
      rw [hleft] at houter
      cases houter
    · exact ⟨⟨f, hleft⟩, f', hright⟩

end Value

end Relational
