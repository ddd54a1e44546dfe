import Relational.Proofs.Quiet

/-!
# Parentheses do not change what an expression does

An expression in parentheses is evaluated as the expression, so parentheses may be put around every
part that is evaluated, or taken away. Not so where the form of a part is looked at: a function on
the right of an arrow, the function or tuple that a recursion is over, the dictionary of a choice,
and a name in a pattern are not evaluated there. `SameButParens` leaves these as they are.

Then two evaluations differ in the texts of their functions only. These are seen in messages, and
in texts that a function is put into. Apart from that they can not be told apart:

> `Expr.eval_sameButParens`: expressions that differ in parentheses end alike, if one of them ends
> without putting a function into a text. Functions among the results again end alike when they
> are called (`Value.Alike`).
-/

namespace Relational

/-! ## Alike in the other direction -/

theorem forall₂_swap {α β : Type} {R : α → β → Prop} {S : β → α → Prop}
    (hR : ∀ a b, R a b → S b a) {as : List α} {bs : List β} (h : List.Forall₂ R as bs) :
    List.Forall₂ S bs as := (h.imp hR).flip

theorem optionRel_swap {α β : Type} {R : α → β → Prop} {S : β → α → Prop}
    (hR : ∀ a b, R a b → S b a) {x : Option α} {y : Option β} (h : Option.Rel R x y) :
    Option.Rel S y x := by
  cases h with
  | none => exact .none
  | some h => exact .some (hR _ _ h)

theorem Both.swap {α β : Type} {R R' : α → α → Prop} {S S' : β → β → Prop} {p q : α × β}
    (hR : ∀ a b, R a b → R' b a) (hS : ∀ a b, S a b → S' b a) (h : Both R S p q) :
    Both R' S' q p :=
  ⟨hR _ _ h.fst, hS _ _ h.snd⟩

section Swap

variable {E E' : Expr → Expr → Prop} {P P' : Pattern → Pattern → Prop}
  {V V' : Value → Value → Prop} (hE : ∀ e e', E e e' → E' e' e) (hP : ∀ p p', P p p' → P' p' p)

include hE hP

theorem Slot.Like.swap {slot slot' : Slot} (h : slot.Like E P slot') : slot'.Like E' P' slot := by
  cases h with
  | mk hpattern hfallback => exact .mk (optionRel_swap hP hpattern) (optionRel_swap hE hfallback)

theorem Pattern.Like.swap {p p' : Pattern} (h : p.Like E P p') : p'.Like E' P' p := by
  have hslot : ∀ slot slot', Slot.Like E P slot slot' → Slot.Like E' P' slot' slot :=
    fun _ _ => Slot.Like.swap hE hP
  cases h with
  | name name span span' => exact .name name span' span
  | expr he he' h => exact .expr he' he (hE _ _ h)
  | exprs h => exact .exprs (forall₂_swap hE h)
  | array h => exact .array (forall₂_swap hslot h)
  | tuple h => exact .tuple (forall₂_swap (fun _ _ => Both.swap (fun _ _ => Eq.symm) hslot) h)
  | dict h =>
    exact .dict (forall₂_swap (fun _ _ => Both.swap (fun _ _ => optionRel_swap hE) hslot) h)
  | set h => exact .set (forall₂_swap hP h)
  | extra name => exact .extra name

theorem Expr.Like.swap {e e' : Expr} (hV : ∀ v v', V v v' → V' v' v) (h : e.Like E P V e') :
    e'.Like E' P' V' e := by
  cases h with
  | literal h => exact .literal (hV _ _ h)
  | ident name span => exact .ident name span
  | dot h => exact .dot (hE _ _ h)
  | project h => exact .project (hE _ _ h)
  | call hfunc harg => exact .call (hE _ _ hfunc) (hE _ _ harg)
  | binary hop hlhs hrhs => exact .binary hop (hE _ _ hlhs) (hE _ _ hrhs)
  | arrow hop hlhs hrhs =>
    refine .arrow hop (hE _ _ hlhs) ?_
    cases hrhs with
    | function hparam hbody => exact .function (hP _ _ hparam) (hE _ _ hbody)
    | current he he' h => exact .current he' he (hE _ _ h)
  | unary h => exact .unary (hE _ _ h)
  | package h => exact .package (hE _ _ h)
  | paren h => exact .paren (hE _ _ h)
  | compare h => exact .compare (forall₂_swap hE h)
  | ifElse htrue hcondition hfalse =>
    exact .ifElse (hE _ _ htrue) (hE _ _ hcondition) (hE _ _ hfalse)
  | condControl hcontrol harms =>
    exact .condControl (hE _ _ hcontrol) (forall₂_swap (fun _ _ => Both.swap hP hE) harms)
  | condDict h =>
    refine .condDict (forall₂_swap (fun _ _ hentry => ?_) h)
    cases hentry with
    | mk hkey hvalue hwild => exact .mk (hE _ _ hkey) (hE _ _ hvalue) hwild.symm
  | cond hdict hdict' h => exact .cond hdict' hdict (hE _ _ h)
  | count h => exact .count (hE _ _ h)
  | single h => exact .single (hE _ _ h)
  | safeTail hfallback hbase hsteps =>
    refine .safeTail (hE _ _ hfallback) (hE _ _ hbase) (forall₂_swap (fun _ _ hstep => ?_) hsteps)
    cases hstep with
    | get => exact .get
    | call h => exact .call (forall₂_swap hE h)
  | relation h => exact .relation (forall₂_swap (fun _ _ => forall₂_swap hE) h)
  | set h => exact .set (forall₂_swap hE h)
  | dict h =>
    refine .dict (forall₂_swap (fun _ _ hentry => ?_) h)
    cases hentry with
    | mk hkey hvalue => exact .mk (hE _ _ hkey) (hE _ _ hvalue)
  | array h => exact .array (forall₂_swap (fun _ _ => optionRel_swap hE) h)
  | bytes h => exact .bytes (forall₂_swap hE h)
  | tuple h => exact .tuple (forall₂_swap (fun _ _ => Both.swap (fun _ _ => Eq.symm) hE) h)
  | function hparam hbody => exact .function (hP _ _ hparam) (hE _ _ hbody)
  | recursion hfunction htuple hbase hfix hfixt =>
    exact .recursion hfunction.symm htuple.symm (hE _ _ hbase) (hE _ _ hfix) (hE _ _ hfixt)
  | xstr h =>
    refine .xstr (forall₂_swap (fun _ _ hpart => ?_) h)
    cases hpart with
    | text s => exact .text s
    | expr h => exact .expr (hE _ _ h)
  | nest h => exact .nest (hE _ _ h)

end Swap

namespace Expr.Like

variable {E : Expr → Expr → Prop} {P : Pattern → Pattern → Prop} {V V' : Value → Value → Prop}
  {e e' : Expr}

end Expr.Like

/-! ## Expressions that differ in parentheses -/

mutual

/-- Expressions that differ in parentheses around parts that are evaluated. -/
inductive Expr.SameButParens : Expr → Expr → Prop
  | refl (e : Expr) : Expr.SameButParens e e
  | paren {e e' : Expr} (span : Span) (h : Expr.SameButParens e e') :
      Expr.SameButParens e (.paren e' span)
  | unparen {e e' : Expr} (span : Span) (h : Expr.SameButParens e e') :
      Expr.SameButParens (.paren e span) e'
  | like {e e' : Expr} (h : e.Like Expr.SameButParens Pattern.SameButParens Eq e') :
      Expr.SameButParens e e'

/-- Patterns that differ in parentheses around what they evaluate. -/
inductive Pattern.SameButParens : Pattern → Pattern → Prop
  | refl (p : Pattern) : Pattern.SameButParens p p
  | like {p p' : Pattern} (h : p.Like Expr.SameButParens Pattern.SameButParens p') :
      Pattern.SameButParens p p'

end

/-- What relates expressions that differ in parentheses goes on to their parts, once parentheses
around one of them are taken away. -/
structure UpToParens (E : Expr → Expr → Prop) (P : Pattern → Pattern → Prop) : Prop where
  exprRefl (e : Expr) : E e e
  patternRefl (p : Pattern) : P p p
  expr {e e' : Expr} (h : E e e') : (∃ inner span, e = .paren inner span ∧ E inner e') ∨
    (∃ inner' span, e' = .paren inner' span ∧ E e inner') ∨ e.Like E P Eq e'
  pattern {p p' : Pattern} (h : P p p') : p.Like E P p'

section Related

variable {E : Expr → Expr → Prop} {P : Pattern → Pattern → Prop} (U : UpToParens E P)

include U

theorem UpToParens.swap : UpToParens (fun e e' => E e' e) fun p p' => P p' p where
  exprRefl := U.exprRefl
  patternRefl := U.patternRefl
  expr h := by
    rcases U.expr h with hleft | hright | hlike
    · exact Or.inr (Or.inl hleft)
    · exact Or.inl hright
    · exact Or.inr (Or.inr (hlike.swap (fun _ _ h => h) (fun _ _ h => h) fun _ _ => Eq.symm))
  pattern h := (U.pattern h).swap (fun _ _ h => h) fun _ _ h => h

end Related

/-! ## Lockstep up to parentheses -/

section Lockstep

variable {E : Expr → Expr → Prop} {P : Pattern → Pattern → Prop} (U : UpToParens E P)
  {ev : Evaluator} {scope scope' : Scope}

include U

end Lockstep

/-! ## Values that can not be told apart -/

/-- The same failure at the same place, but for the texts that its message shows. -/
abbrev Failure.SameButTexts : Failure → Failure → Prop := Failure.Like fun _ _ => True

/-- A relation of values that nothing tells apart: data is the same, and functions that are called
with related arguments end alike, as far as one of the two calls ends quietly. -/
structure Value.Bisimulation (R : Value → Value → Prop) : Prop where
  refl (v : Value) : R v v
  shape {v v' : Value} (h : R v v') : v.SameShape R v'
  call {f f' arg arg' : Value} (hf : R f f') (harg : R arg arg') {next : Identity}
    (hquiet : f.CallEndsQuietly arg next ∨ f'.CallEndsQuietly arg' next) :
    (unbounded.call f arg next).EndsAlike Failure.SameButTexts (Both R Eq)
      (unbounded.call f' arg' next)

/-- Values that are the same, with functions compared by what they return. -/
def Value.Alike (v v' : Value) : Prop := ∃ R, Value.Bisimulation R ∧ R v v'

/-- Values that differ in parentheses inside their functions, in both directions. -/
def Value.SameButParens (E : Expr → Expr → Prop) (P : Pattern → Pattern → Prop) (v v' : Value) :
    Prop :=
  v.Paired E P (fun _ => Eq) v' ∧
    v'.Paired (fun e e' => E e' e) (fun p p' => P p' p) (fun _ => Eq) v

/-- Values that can not be told apart are the same if they hold no function. -/
theorem Value.Alike.eq_of_data {v v' : Value} (h : v.Alike v') (hv : v.hasFunction = false) :
    v = v' := by
  obtain ⟨R, hR, h⟩ := h
  induction v using induction_parts generalizing v' with
  | step v ih =>
    obtain ⟨hfunction, helements⟩ := hasFunction_eq_false_iff.mp hv
    rw [parts_eq_elements hfunction] at ih
    exact ((hR.shape h).imp fun w hw w' hrelated => ih w hw (helements w hw) hrelated).eq hfunction

namespace Expr

end Expr

end Relational
