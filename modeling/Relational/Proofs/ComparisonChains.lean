import Relational.Proofs.Extensionality
import Relational.Proofs.Pairs

/-!
# Chains of comparisons

A chain `a < b < c` evaluates each of its operands once and stops at the first comparison that does
not hold. It means `a < b && b < c`, where `b` is evaluated twice:

> `Expr.compare_eq_conjunction`: where operands keep their results, a chain ends as the conjunction
> of the comparisons of its neighbours does, with the same truth value or for the same cause,
> however the conjunction is bracketed. What follows a comparison that does not hold is not
> evaluated.

An operand keeps its results if any two evaluations of it end for the same cause, or with values
that are equal and print alike. That the values are equal is enough if all functions that the
operand can reach were made before. An operand whose value is a function that it makes does not keep
its results.
-/

namespace Relational

open Std

theorem Outcome.Alike.imp_done {α α' : Type} {Q S : α → α' → Prop} {o : Outcome α}
    {o' : Outcome α'} (h : o.Alike Q o')
    (himp : ∀ a a', o = .done a → o' = .done a' → Q a a' → S a a') : o.Alike S o' := by
  cases h with
  | done h => exact .done (himp _ _ rfl rfl h)
  | failed h => exact .failed h
  | aborted reason => exact .aborted reason
  | exhausted => exact .exhausted

theorem Outcome.Alike.trans {α α' α'' : Type} {Q : α → α' → Prop} {S : α' → α'' → Prop}
    {o : Outcome α} {o' : Outcome α'} {o'' : Outcome α''} (h : o.Alike Q o') (h' : o'.Alike S o'') :
    o.Alike (fun a a'' => ∃ a', Q a a' ∧ S a' a'') o'' := by
  cases h with
  | done h =>
    cases h' with
    | done h' => exact .done ⟨_, h, h'⟩
  | failed h =>
    cases h' with
    | failed h' => exact .failed (h.trans h')
  | aborted reason =>
    cases h' with
    | aborted => exact .aborted reason
  | exhausted =>
    cases h' with
    | exhausted => exact .exhausted

/-! ## Equal values that print alike -/

namespace Value

/-- Two values are equal and print alike. -/
structure Same (v v' : Value) : Prop where
  equal : Equal v v'
  text : v.text = v'.text

theorem Same.refl (v : Value) : v.Same v := ⟨beq_equivalence.refl v, rfl⟩

theorem keepsOrder_equal : KeepsOrder Equal := by
  intro a a' b b' ha hb
  have haeq : Ord.compare a a' = .eq := beq_iff.mp ha
  have hbeq : Ord.compare b b' = .eq := beq_iff.mp hb
  rw [TransCmp.congr_left haeq, TransCmp.congr_right hbeq]

theorem sameKind_of_equal {v v' : Value} (h : Equal v v') : SameKind v v' := by
  have hcompare := beq_iff.mp h
  rw [compare_eq_rank_then, Ordering.then_eq_eq] at hcompare
  exact sameKind_of_rank (Nat.compare_eq_eq.mp hcompare.1)

theorem Same.asSet_agree {v v' : Value} (h : v.Same v') :
    Agree Eq (List.Forall₂ Equal) v.asSet v'.asSet := by
  have hequal := h.equal
  cases sameKind_of_equal hequal with
  | set => exact .ok (set_beq_iff.mp hequal)
  | _ => exact .error (.notSet ⟨rfl, h.text⟩)

theorem comparedAlike_same : ComparedAlike Same Equal Eq :=
  ⟨Same.equal, keepsOrder_equal, Same.asSet_agree, Same.text⟩

theorem Same.holds_eq {a a' b b' : Value} (ha : a.Same a') (hb : b.Same b') (op : CompareOp) :
    op.holds a b = op.holds a' b' := by
  have h := comparedAlike_same.holds_agree ha hb op
  generalize op.holds a b = holds at h ⊢
  generalize op.holds a' b' = holds' at h ⊢
  cases h with
  | ok h => rw [h]
  | error h => rw [h.eq]

end Value

/-! ## Conjunctions -/

/-- Expressions that are joined by `&&`, however they are bracketed. -/
inductive Conjunction : List Expr → Expr → Prop
  | one (e : Expr) : Conjunction [e] e
  | and {es es' : List Expr} {l r : Expr} (hl : Conjunction es l) (hr : Conjunction es' r)
      (span : Span) : Conjunction (es ++ es') (.binary .and l r span)

namespace Evaluator

/-- The value of the first expression that does not hold, or of the last one. -/
def conjunction (ev : Evaluator) (scope : Scope) : List Expr → Run Value
  | [] => pure (.bool true)
  | [e] => ev.eval e scope
  | e :: e' :: es => do
    let v ← ev.eval e scope
    if v.truthy then conjunction ev scope (e' :: es) else pure v

variable (ev : Evaluator) (scope : Scope)

theorem conjunction_cons (e : Expr) {es : List Expr} (h : es ≠ []) :
    ev.conjunction scope (e :: es) = (do
      let v ← ev.eval e scope
      if v.truthy then ev.conjunction scope es else pure v) := by
  cases es with
  | nil => exact absurd rfl h
  | cons => rfl

theorem conjunction_append {es es' : List Expr} (h : es ≠ []) (h' : es' ≠ []) :
    ev.conjunction scope (es ++ es') = (do
      let v ← ev.conjunction scope es
      if v.truthy then ev.conjunction scope es' else pure v) := by
  induction es with
  | nil => exact absurd rfl h
  | cons e es ih =>
    rw [List.cons_append, conjunction_cons ev scope e (List.append_ne_nil_of_right_ne_nil es h')]
    cases es with
    | nil => rfl
    | cons e' es =>
      rw [conjunction, bind_assoc, ih (List.cons_ne_nil _ _)]
      refine congrArg _ (funext fun v => ?_)
      by_cases hv : v.truthy = true
      · rw [if_pos hv, if_pos hv]
      · rw [if_neg hv, if_neg hv, pure_bind, if_neg hv]

end Evaluator

theorem Conjunction.ne_nil {es : List Expr} {e : Expr} (h : Conjunction es e) : es ≠ [] := by
  induction h with
  | one e => exact List.cons_ne_nil e []
  | and _ _ _ ih => exact List.append_ne_nil_of_left_ne_nil ih _

/-- Brackets do not matter for a conjunction, but for the places of failures. -/
theorem Conjunction.alike {es : List Expr} {e : Expr} (h : Conjunction es e) (scope : Scope)
    (next : Identity) :
    (unbounded.conjunction scope es next).Alike Eq (unbounded.eval e scope next) := by
  induction h generalizing next with
  | one e => exact Run.alike_self (fun _ => rfl) _ _
  | and hl hr span ihl ihr =>
    -- that a failure is placed at the conjunction leaves its cause
    rw [Evaluator.conjunction_append _ _ hl.ne_nil hr.ne_nil, unbounded_eval]
    refine Run.alike_within_right_iff.mpr (Run.alike_bind (ihl next) ?_)
    rintro ⟨v, between⟩ _ - rfl
    dsimp only
    split
    next => exact ihr between
    next => exact .done rfl

/-! ## Neighbours -/

/-- The comparisons of the neighbours in a chain, in order. The first operand is given apart. -/
inductive Neighbours : Expr → List Expr → List CompareOp → List Expr → Prop
  | last (a b : Expr) (op : CompareOp) (span : Span) :
      Neighbours a [b] [op] [.compare [a, b] [op] span]
  | cons {b : Expr} {args : List Expr} {ops : List CompareOp} {es : List Expr}
      (h : Neighbours b args ops es) (a : Expr) (op : CompareOp) (span : Span) :
      Neighbours a (b :: args) (op :: ops) (.compare [a, b] [op] span :: es)

section Neighbours

variable {a : Expr} {args es : List Expr} {ops : List CompareOp}

/-- Operands can be compared with their neighbours if there is one more of them than operators. -/
theorem exists_neighbours (hlength : args.length = ops.length) (hops : ops ≠ []) :
    ∃ es e, Neighbours a args ops es ∧ Conjunction es e := by
  induction ops generalizing a args with
  | nil => exact absurd rfl hops
  | cons op ops ih =>
    obtain ⟨b, args, rfl⟩ := List.exists_cons_of_length_eq_add_one hlength
    cases ops with
    | nil =>
      rw [List.length_eq_zero_iff.mp (Nat.succ.inj hlength)]
      exact ⟨_, _, .last a b op .unknown, .one _⟩
    | cons op' ops =>
      obtain ⟨es, e, hes, he⟩ := ih (a := b) (Nat.succ.inj hlength) (List.cons_ne_nil _ _)
      exact ⟨_, _, hes.cons a op .unknown, (Conjunction.one _).and he .unknown⟩

theorem Neighbours.ne_nil (h : Neighbours a args ops es) : es ≠ [] := by
  cases h with
  | last | cons => exact List.cons_ne_nil _ _

end Neighbours

/-! ## Steps of a chain -/

namespace Evaluator

variable (ev : Evaluator) (span : Span) (scope : Scope)

/-- The next operand of a chain, and whether the comparison with it holds. -/
def compareNext (l : Value) (op : CompareOp) (arg : Expr) : Run (Value × Bool) := do
  let r ← ev.eval arg scope
  let holds ← Run.within span (Run.ofExcept (op.holds l r))
  pure (r, holds)

theorem chain_cons (l : Value) (op : CompareOp) (ops : List CompareOp) (arg : Expr)
    (args : List Expr) :
    ev.chain span scope l (op :: ops) (arg :: args) = (do
      let step ← ev.compareNext span scope l op arg
      if step.2 then ev.chain span scope step.1 ops args else pure (.bool false)) := by
  simp only [chain, compareNext, bind_assoc, pure_bind]

theorem chain_one (l : Value) (op : CompareOp) (arg : Expr) :
    ev.chain span scope l [op] [arg] = (do
      let step ← ev.compareNext span scope l op arg
      pure (.bool step.2)) := by
  rw [chain_cons]
  refine congrArg _ (funext fun step => ?_)
  cases step.2 with
  | true => rfl
  | false => rfl

theorem compareChain_cons (first : Expr) {args : List Expr} {ops : List CompareOp}
    (h : args.length = ops.length) :
    ev.compareChain (first :: args) ops span scope = (do
      let l ← ev.eval first scope
      ev.chain span scope l ops args) := if_pos h

end Evaluator

section Evaluating

variable {scope : Scope} {next : Nat}

theorem eval_compare (first : Expr) {args : List Expr} {ops : List CompareOp}
    (h : args.length = ops.length) (span : Span) (scope : Scope) :
    unbounded.eval (.compare (first :: args) ops span) scope = (do
      let l ← unbounded.eval first scope
      unbounded.chain span scope l ops args) := by
  rw [unbounded_eval]
  exact unbounded.compareChain_cons span scope first h

/-- Two evaluations of the expression, from whatever identities on, end with the same value or for
the same cause. -/
def Expr.Steady (e : Expr) (scope : Scope) (next : Nat) : Prop :=
  ∀ m m' : Nat, next ≤ m → next ≤ m' →
    (unbounded.eval e scope m).Alike (fun x x' => x.1.Same x'.1) (unbounded.eval e scope m')

/-- The operand that was compared last is evaluated last. -/
theorem eval_of_compareNext {span : Span} {l r : Value} {op : CompareOp} {b : Expr} {holds : Bool}
    {m last : Identity}
    (h : unbounded.compareNext span scope l op b m = .done ((r, holds), last)) :
    unbounded.eval b scope m = .done (r, last) := by
  obtain ⟨r', between, hr, h⟩ := Run.bind_eq_done_iff.mp h
  obtain ⟨holds', stop, hholds, h⟩ := Run.bind_eq_done_iff.mp h
  cases h
  rw [Run.within_apply] at hholds
  cases hop : op.holds l r with
  | ok holds =>
    rw [hop] at hholds
    cases hholds
    exact hr
  | error cause =>
    rw [hop] at hholds
    cases hholds

theorem Expr.Steady.alike {e : Expr} (h : e.Steady scope next) {m m' : Nat} (hm : next ≤ m)
    (hm' : next ≤ m') :
    (unbounded.eval e scope m).Alike
      (fun x x' => x.1.Same x'.1 ∧ next ≤ x.2 ∧ next ≤ x'.2) (unbounded.eval e scope m') :=
  (h m m' hm hm').imp_done fun _ _ hdone hdone' hsame =>
    ⟨hsame, hm.trans (eval_le hdone), hm'.trans (eval_le hdone')⟩

/-- Steps from equal values end alike. -/
theorem compareNext_alike {l l' : Value} (hl : l.Same l') {b : Expr} (hb : b.Steady scope next)
    (op : CompareOp) (span span' : Span) {m m' : Nat} (hm : next ≤ m) (hm' : next ≤ m') :
    (unbounded.compareNext span scope l op b m).Alike
      (fun x x' => x.1.2 = x'.1.2 ∧ next ≤ x.2 ∧ next ≤ x'.2)
      (unbounded.compareNext span' scope l' op b m') := by
  refine Run.alike_bind (hb.alike hm hm') ?_
  rintro ⟨r, between⟩ ⟨r', between'⟩ - ⟨hr, hbetween, hbetween'⟩
  rw [hl.holds_eq hr op]
  -- the same comparison is made in both, so only the place of its failure can differ
  have hcompared : (Run.within span (Run.ofExcept (op.holds l' r')) between).Alike
      (fun x x' => x.1 = x'.1 ∧ next ≤ x.2 ∧ next ≤ x'.2)
      (Run.within span' (Run.ofExcept (op.holds l' r')) between') := by
    rw [Run.alike_within_left_iff, Run.alike_within_right_iff]
    cases op.holds l' r' with
    | ok holds => exact .done ⟨rfl, hbetween, hbetween'⟩
    | error cause => exact .failed rfl
  exact Run.alike_bind hcompared fun _ _ _ h => .done h

/-- A chain from a value, and the conjunction from an equal one. The conjunction evaluates the
operand that the chain has for its value once more. -/
theorem Neighbours.chain_alike {a : Expr} {args es : List Expr} {ops : List CompareOp}
    (h : Neighbours a args ops es) (hsteady : ∀ b ∈ args, b.Steady scope next) (span : Span) :
    ∃ go : Value → Run Value,
      unbounded.conjunction scope es = (unbounded.eval a scope >>= go) ∧
      ∀ {l l' : Value} {m m' : Nat}, l.Same l' → next ≤ m → next ≤ m' →
        (unbounded.chain span scope l ops args m).Alike
          (fun x x' => ∃ b, x.1 = .bool b ∧ x'.1 = .bool b) (go l' m') := by
  induction h with
  | last a b op place =>
    refine ⟨fun l => unbounded.chain place scope l [op] [b], eval_compare a rfl place scope, ?_⟩
    intro l l' m m' hl hm hm'
    dsimp only
    rw [Evaluator.chain_one, Evaluator.chain_one]
    refine Run.alike_bind (compareNext_alike hl (hsteady b List.mem_cons_self) op span place hm hm')
      fun x x' _ hx => ?_
    exact .done ⟨x.1.2, rfl, congrArg Value.bool hx.1.symm⟩
  | @cons b args ops es h a op place ih =>
    obtain ⟨hb, hargs⟩ := List.forall_mem_cons.mp hsteady
    obtain ⟨go, hgo, halike⟩ := ih hargs
    refine ⟨fun l => do
      let step ← unbounded.compareNext place scope l op b
      if step.2 then unbounded.conjunction scope es else pure (.bool false), ?_, ?_⟩
    · rw [Evaluator.conjunction_cons _ _ _ h.ne_nil, eval_compare a rfl place scope, bind_assoc]
      refine congrArg _ (funext fun l => ?_)
      rw [Evaluator.chain_one, bind_assoc]
      refine congrArg _ (funext fun step => ?_)
      rw [pure_bind, Value.truthy]
      cases step.2 with
      | true => rfl
      | false => rfl
    · intro l l' m m' hl hm hm'
      rw [Evaluator.chain_cons]
      refine Run.alike_bind (compareNext_alike hl hb op span place hm hm') ?_
      rintro ⟨⟨r, holds⟩, last⟩ ⟨⟨r', _⟩, last'⟩ hdone ⟨rfl, hlast, hlast'⟩
      dsimp only
      split
      next =>
        -- the conjunction goes on with the operand that the chain has just evaluated
        have hagain := hb.alike hm hlast'
        rw [eval_of_compareNext hdone] at hagain
        obtain ⟨⟨r'', last''⟩, hr'', hsame, -, hlast''⟩ := hagain.exists_done
        rw [hgo, Run.bind_apply, hr'']
        exact halike hsame hlast hlast''
      next => exact .done ⟨false, rfl, rfl⟩

/-- What follows a comparison that does not hold is not evaluated. -/
theorem chain_append_of_false {span : Span} {ops later : List CompareOp} {args others : List Expr}
    {l : Value} {m last : Identity} (hlength : args.length = ops.length)
    (h : unbounded.chain span scope l ops args m = .done (.bool false, last)) :
    unbounded.chain span scope l (ops ++ later) (args ++ others) m = .done (.bool false, last) := by
  induction ops generalizing args l m with
  | nil =>
    rw [List.length_eq_zero_iff.mp hlength] at h
    cases h
  | cons op ops ih =>
    obtain ⟨b, args, rfl⟩ := List.exists_cons_of_length_eq_add_one hlength
    rw [Evaluator.chain_cons] at h
    rw [List.cons_append, List.cons_append, Evaluator.chain_cons]
    obtain ⟨⟨r, holds⟩, between, hstep, h⟩ := Run.bind_eq_done_iff.mp h
    refine Run.bind_eq_done_iff.mpr ⟨(r, holds), between, hstep, ?_⟩
    -- if this comparison holds, a later one of the shorter chain does not
    cases holds with
    | true => exact ih (Nat.succ.inj hlength) h
    | false => exact h

/-- Where no function is reached that is yet to be made, equal values are enough. -/
theorem Expr.steady_of_equal {e : Expr} (h : e.EveryIn (MadeBefore next) scope)
    (hequal : ∀ {m m' : Nat} {x x' : Value × Identity}, next ≤ m → next ≤ m' →
      unbounded.eval e scope m = .done x → unbounded.eval e scope m' = .done x' →
      x.1.Equal x'.1) : e.Steady scope next := by
  intro m m' hm hm'
  refine (h.alike hm hm').imp_done fun x x' hx hx' hexchanged => ⟨hequal hm hm' hx hx', ?_⟩
  exact hexchanged.text_eq (fun _ _ he => congrArg Expr.text he.1)
    fun _ _ hp => congrArg Pattern.text hp.1

end Evaluating

/-- A chain of comparisons means the conjunction of the comparisons of its neighbours. In a scope
where the operands after the first keep their results, both have the same truth value or end for the
same cause. A chain that is false stays so, whatever operands follow. -/
theorem Expr.compare_eq_conjunction (a : Expr) {args : List Expr} {ops : List CompareOp}
    (hlength : args.length = ops.length) (hops : ops ≠ []) (scope : Scope) (next : Nat)
    (span : Span) :
    (∃ es e, Neighbours a args ops es ∧ Conjunction es e) ∧
    ((∀ b ∈ args, b.Steady scope next) → ∀ es e, Neighbours a args ops es → Conjunction es e →
      (unbounded.eval (.compare (a :: args) ops span) scope next).Alike
        (fun x x' => ∃ b, x.1 = .bool b ∧ x'.1 = .bool b) (unbounded.eval e scope next)) ∧
    (∀ others later last, others.length = later.length →
      unbounded.eval (.compare (a :: args) ops span) scope next = .done (.bool false, last) →
      unbounded.eval (.compare (a :: (args ++ others)) (ops ++ later) span) scope next =
        .done (.bool false, last)) ∧
    ∀ e : Expr, e.EveryIn (MadeBefore next) scope →
      (∀ {m m' : Nat} {x x' : Value × Identity}, next ≤ m → next ≤ m' →
        unbounded.eval e scope m = .done x → unbounded.eval e scope m' = .done x' →
        x.1.Equal x'.1) →
      e.Steady scope next := by
  refine ⟨exists_neighbours hlength hops, ?_, ?_, fun e => steady_of_equal⟩
  · intro hsteady es e hes he
    obtain ⟨go, hgo, halike⟩ := hes.chain_alike hsteady span
    have hchain : (unbounded.eval (.compare (a :: args) ops span) scope next).Alike
        (fun x x' => ∃ b, x.1 = .bool b ∧ x'.1 = .bool b)
        (unbounded.conjunction scope es next) := by
      rw [eval_compare a hlength, hgo]
      refine Run.alike_bind (Run.alike_self (fun _ => rfl) _ _) ?_
      rintro ⟨l, m⟩ _ hl rfl
      exact halike (.refl l) (eval_le hl) (eval_le hl)
    exact (hchain.trans (he.alike scope next)).imp_done fun _ _ _ _ ⟨_, hbool, heq⟩ => heq ▸ hbool
  · intro others later last hothers h
    have hboth : (args ++ others).length = (ops ++ later).length := by
      rw [List.length_append, List.length_append, hlength, hothers]
    rw [eval_compare a hlength] at h
    rw [eval_compare a hboth]
    obtain ⟨l, between, hl, h⟩ := Run.bind_eq_done_iff.mp h
    exact Run.bind_eq_done_iff.mpr ⟨l, between, hl, chain_append_of_false hlength h⟩

/-- In `false < (\x x)(true) < true < y` the second operand makes a function, the second comparison
does not hold, and the name `y` has no value. -/
theorem Expr.compare_eq_conjunction_called :
    let here := Span.unknown
    let f : Expr := .function (.expr (.ident "x" here)) (.ident "x" here) here
    let yes : Expr := .literal (.bool true) here
    let no : Expr := .literal (.bool false) here
    let called : Expr := .call f yes here
    let y : Expr := .ident "y" here
    let less (a b : Expr) : Expr := .compare [a, b] [.lt] here
    let both (a b : Expr) : Expr := .binary .and a b here
    unbounded.eval (.compare [no, called, yes, y] [.lt, .lt, .lt] here) Scope.empty 0 =
      .done (.bool false, 1) ∧
    ∃ last, unbounded.eval (both (both (less no called) (less called yes)) (less yes y))
      Scope.empty 0 = .done (.bool false, last) := by
  intro here f yes no called y less both
  have hyes : yes.Every (MadeBefore 0) := every_literal (Value.every_of_data rfl) here
  have hf : f.Every (MadeBefore 0) := .mk (List.forall_mem_singleton.mpr (every_ident _ _))
    (List.forall_mem_singleton.mpr (Pattern.every_name _ _)) nofun
  have hcalled : called.Every (MadeBefore 0) := .mk (List.forall_mem_cons.mpr
    ⟨hf, List.forall_mem_singleton.mpr hyes⟩) (List.forall_mem_nil _) nofun
  have hevalCalled (m : Nat) : unbounded.eval called Scope.empty m = .done (.bool true, m + 1) :=
    unbounded_eval_eq_done 9 rfl
  have hevalYes (m : Nat) : unbounded.eval yes Scope.empty m = .done (.bool true, m) :=
    congrFun (unbounded_eval_literal _ _ _) m
  have hevalY (m : Nat) : unbounded.eval y Scope.empty m =
      .failed ((⟨none, .unbound "y"⟩ : Failure).within here) := by
    rw [unbounded_eval]
    rfl
  have hthree : unbounded.eval (.compare [no, called, yes] [.lt, .lt] here) Scope.empty 0 =
      .done (.bool false, 1) := unbounded_eval_eq_done 9 rfl
  obtain ⟨-, -, hskips, -⟩ := @compare_eq_conjunction no [called, yes] [.lt, .lt] rfl
    (List.cons_ne_nil _ _) Scope.empty 0 here
  obtain ⟨-, hmeans, -, hsteady⟩ := @compare_eq_conjunction no [called, yes, y] [.lt, .lt, .lt] rfl
    (List.cons_ne_nil _ _) Scope.empty 0 here
  have hfour : unbounded.eval (.compare [no, called, yes, y] [.lt, .lt, .lt] here) Scope.empty 0 =
      .done (.bool false, 1) := hskips [y] [.lt] 1 rfl hthree
  refine ⟨hfour, ?_⟩
  have hoperands : ∀ b ∈ [called, yes, y], b.Steady Scope.empty 0 := by
    refine List.forall_mem_cons.mpr ⟨hsteady called ⟨hcalled, fun _ _ _ => nofun⟩ ?_,
      List.forall_mem_cons.mpr ⟨hsteady yes ⟨hyes, fun _ _ _ => nofun⟩ ?_,
      List.forall_mem_singleton.mpr (hsteady y ⟨every_ident _ _, fun _ _ _ => nofun⟩ ?_)⟩⟩
    · intro m m' x x' _ _ hx hx'
      rw [hevalCalled] at hx hx'
      cases hx
      cases hx'
      rfl
    · intro m m' x x' _ _ hx hx'
      rw [hevalYes] at hx hx'
      cases hx
      cases hx'
      rfl
    · intro m m' x x' _ _ hx
      rw [hevalY] at hx
      cases hx
  have halike := hmeans hoperands _ _
    (((Neighbours.last yes y .lt here).cons called .lt here).cons no .lt here)
    (((Conjunction.one _).and (.one _) here).and (.one _) here)
  rw [hfour] at halike
  obtain ⟨⟨v, last⟩, hv, b, hb, rfl⟩ := halike.exists_done
  cases hb
  exact ⟨last, hv⟩

end Relational
