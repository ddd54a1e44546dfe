import Relational.Proofs.Pairing

/-!
# Identities can be exchanged

Functions are compared by their identities, and identities are handed out in the order in which
functions are made. Nothing else is done with them, so an evaluation does the same with other
identities that are ordered in the same way:

> An `Exchange` says which identities are exchanged for which, and which ones stay, so that the
> order of those that may meet is kept.

> `Exchange.sim`: evaluations go on in lockstep where identities are exchanged, if every function
> that they can reach (`Value.Every`) has an identity that stays, or is given in exchange.
-/

namespace Relational

/-! ## The functions that can be reached -/

mutual

/-- Every function that a value can reach has an identity with the property, which may depend on the
kind of the function: `none` stands for closures and a name for native functions of that name. What
a closure captured is reached under the names that it reads. -/
inductive Value.Every (F : Option String → Identity → Prop) : Value → Prop
  | built {v : Value} (hv : v.isFunction = false) (h : ∀ w ∈ v.elements, Value.Every F w) :
      Value.Every F v
  | closure {i : Identity} {param : Pattern} {body : Expr} {scope : Scope} (hi : F none i)
      (hparam : Pattern.Every F param) (hbody : Expr.Every F body)
      (hscope : ∀ x ∈ (param.namesUnder body).free, ∀ w, scope.get? x = some w → Value.Every F w) :
      Value.Every F (.closure i param body scope)
  | native {i : Identity} {f : Native} (hi : F (some f.name) i)
      (hf : ∀ w ∈ (Value.native i f).parts, Value.Every F w) : Value.Every F (.native i f)

/-- Every function that the literals of an expression can reach has an identity with the
property. -/
inductive Expr.Every (F : Option String → Identity → Prop) : Expr → Prop
  | mk {e : Expr} (hexprs : ∀ c ∈ e.subexprs, Expr.Every F c)
      (hpatterns : ∀ p ∈ e.subpatterns, Pattern.Every F p)
      (hliteral : ∀ v span, e = .literal v span → Value.Every F v) : Expr.Every F e

/-- Every function that the literals of a pattern can reach has an identity with the property. -/
inductive Pattern.Every (F : Option String → Identity → Prop) : Pattern → Prop
  | mk {p : Pattern} (hreads : ∀ e ∈ p.reads, Expr.Every F e)
      (hparts : ∀ q ∈ p.parts, Pattern.Every F q) : Pattern.Every F p

end

/-- Every function that a scope gives to the free names can reach has an identity with the
property. -/
def Scope.Every (F : Option String → Identity → Prop) (names : Names) (scope : Scope) : Prop :=
  ∀ x ∈ names.free, ∀ v, scope.get? x = some v → v.Every F

/-- Every function that an expression can reach in a scope has an identity with the property. -/
structure Expr.EveryIn (F : Option String → Identity → Prop) (e : Expr) (scope : Scope) : Prop where
  literals : e.Every F
  captured : scope.Every F e.names

section Every

variable {F : Option String → Identity → Prop}

/-- The same expression, whose functions have the property. -/
abbrev Expr.Kept (F : Option String → Identity → Prop) (e e' : Expr) : Prop := e = e' ∧ e.Every F

/-- The same pattern, whose functions have the property. -/
abbrev Pattern.Kept (F : Option String → Identity → Prop) (p p' : Pattern) : Prop :=
  p = p' ∧ p.Every F

theorem Pattern.every_name (name : String) (span : Span) :
    Pattern.Every F (.expr (.ident name span)) :=
  .mk (List.forall_mem_nil _) (List.forall_mem_nil _)

theorem Expr.every_ident (name : String) (span : Span) : Expr.Every F (.ident name span) :=
  .mk (List.forall_mem_nil _) (List.forall_mem_nil _) nofun

theorem Expr.every_literal {v : Value} (hv : v.Every F) (span : Span) :
    Expr.Every F (.literal v span) := by
  refine .mk (List.forall_mem_nil _) (List.forall_mem_nil _) fun w place heq => ?_
  obtain rfl := (Expr.literal.inj heq).1
  exact hv

/-- A value without functions reaches none. -/
theorem Value.every_of_data {v : Value} (hv : v.hasFunction = false) : v.Every F := by
  induction v using induction_parts with
  | step v ih =>
    obtain ⟨hfunction, helements⟩ := hasFunction_eq_false_iff.mp hv
    refine .built hfunction fun w hw => ih w ?_ (helements w hw)
    rwa [parts_eq_elements hfunction]

/-- Values that differ in the identities of their functions, and those in `F` stay in literals. -/
abbrev Value.Exchanged (F : Option String → Identity → Prop)
    (I : Option String → Identity → Identity → Prop) : Value → Value → Prop :=
  Value.Paired (Expr.Kept F) (Pattern.Kept F) I

theorem Value.Every.exchanged {I : Option String → Identity → Identity → Prop}
    (hF : ∀ kind i, F kind i → I kind i i) {v : Value} (h : v.Every F) : v.Exchanged F I v := by
  refine Paired.self (fun v hv hfunction w hw => ?_) (fun i param body scope hv => ?_)
    (fun i f hv => ?_) h
  · cases hv with
    | built _ helements => exact helements w hw
    | closure | native => cases hfunction
  · cases hv with
    | built hfunction => cases hfunction
    | closure hi hparam hbody hscope => exact ⟨hF _ _ hi, ⟨rfl, hparam⟩, ⟨rfl, hbody⟩, hscope⟩
  · cases hv with
    | built hfunction => cases hfunction
    | native hi hf => exact ⟨hF _ _ hi, hf⟩

end Every

/-! ## Exchanges -/

/-- Identities are exchanged by `I`, those in `F` for themselves, and next identities by `N`. -/
structure Exchange (F : Option String → Identity → Prop)
    (I : Option String → Identity → Identity → Prop) (N : Identity → Identity → Prop) : Prop where
  kept (kind : Option String) (i : Identity) (h : F kind i) : I kind i i
  order (kind : Option String) : KeepsOrder (I kind)
  fresh (kind : Option String) (i i' : Identity) (h : N i i') : I kind i i'
  next (i i' : Identity) (h : N i i') : N (i + 1) (i' + 1)

namespace Exchange

variable {F : Option String → Identity → Prop} {I : Option String → Identity → Identity → Prop}
  {N : Identity → Identity → Prop} (X : Exchange F I N)

include X

theorem swap : Exchange F (fun kind i i' => I kind i' i) fun i i' => N i' i where
  kept := X.kept
  order kind _ _ _ _ h h' := (X.order kind h h').symm
  fresh kind i i' h := X.fresh kind i' i h
  next i i' h := X.next i' i h

theorem value {v : Value} (h : v.Every F) : v.Exchanged F I v := h.exchanged X.kept

theorem scope {names : Names} {scope : Scope} (h : scope.Every F names) :
    scope.Like (Value.Exchanged F I) names scope := by
  intro x hx
  cases hget : scope.get? x with
  | none => exact .none
  | some v => exact .some (X.value (h x hx v hget))

/-- Evaluations go on in lockstep where identities are exchanged. -/
theorem sim : unbounded.Sim
    ⟨Value.Exchanged F I, Expr.Kept F, Pattern.Kept F, Eq, N⟩ unbounded := by
  refine Value.paired_sim X.order X.fresh X.next ?_ ?_ ?_
  · exact fun name span => ⟨rfl, Pattern.every_name name span⟩
  · rintro e _ ⟨rfl, hevery⟩
    cases hevery with
    | mk hexprs hpatterns hliteral =>
      exact ⟨rfl, fun c hc => ⟨rfl, hexprs c hc⟩, fun p hp => ⟨rfl, hpatterns p hp⟩,
        fun v span heq => X.value (hliteral v span heq)⟩
  · rintro p _ ⟨rfl, hevery⟩
    cases hevery with
    | mk hreads hparts =>
      exact ⟨rfl, fun e he => ⟨rfl, hreads e he⟩, fun q hq => ⟨rfl, hparts q hq⟩⟩

omit X in
/-- Runs that follow each other under an exchange end alike, and their results differ in identities
that are exchanged. -/
theorem endsAlike {r r' : Run Value} (h : Run.Sim N Eq r r' (Value.Exchanged F I))
    (hback : Run.Sim (fun i i' => N i' i) Eq r' r (Value.Exchanged F fun kind i i' => I kind i' i))
    {next next' : Identity} (hnext : N next next') :
    (r next).EndsAlike Eq (Both (Value.Paired Eq Eq I) N) (r' next') := by
  have hends := (h next next' hnext).endsAlike (hback next' next hnext)
  refine hends.mono (fun _ _ h => h.eq) fun _ _ h => ⟨?_, h.1.snd⟩
  exact h.1.fst.mono (fun _ _ h => h.1) (fun _ _ h => h.1) fun _ _ _ h => h

end Exchange

end Relational
