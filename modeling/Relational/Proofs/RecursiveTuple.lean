import Relational.Proofs.Destructuring
import Relational.Proofs.Recursion
import Relational.Proofs.Relevance

/-!
# Recursive tuples unfold

The attributes of a recursive tuple are found by trying its base with the empty tuple for its name.
Functions are then replaced by ones that unfold, and other values stay as they were found:

> `Expr.recursion_tuple_unfolds`: the base, evaluated with the name bound to the recursive tuple,
> has the same attributes. Functions of the tuple do what those of the base do. Values other than
> functions are the same where they do not depend on the name.

Where they do, they need not be: they were found with the empty tuple.
-/

namespace Relational

/-! ## Identities that are shifted -/

/-- Functions that were made before. -/
def MadeBefore (bound : Nat) (_kind : Option String) (i : Nat) : Prop := i < bound

/-- Identities from `c` on are exchanged for those from `k` on. -/
def Shifted (c k : Nat) (i i' : Nat) : Prop := ∃ d, i = c + d ∧ i' = k + d

/-- Identities below the bound stay, and those from `c` on are exchanged for those from `k` on. -/
def ShiftedAbove (bound c k : Nat) (_kind : Option String) (i i' : Nat) : Prop :=
  (i = i' ∧ i < bound) ∨ Shifted c k i i'

theorem compare_add_eq (c k d e : Nat) : compare (c + d) (c + e) = compare (k + d) (k + e) := by
  have hlt {d e : Nat} (h : d < e) (c : Nat) : c + d < c + e := Nat.add_lt_add_left h c
  rcases Nat.lt_trichotomy d e with h | rfl | h
  · rw [Nat.compare_eq_lt.mpr (hlt h c), Nat.compare_eq_lt.mpr (hlt h k)]
  · rw [Nat.compare_eq_eq.mpr rfl, Nat.compare_eq_eq.mpr rfl]
  · rw [Nat.compare_eq_gt.mpr (hlt h c), Nat.compare_eq_gt.mpr (hlt h k)]

theorem exchange_shift {bound c k : Nat} (hc : bound ≤ c) (hk : bound ≤ k) :
    Exchange (MadeBefore bound) (ShiftedAbove bound c k) (Shifted c k) where
  kept _ _ h := Or.inl ⟨rfl, h⟩
  order kind i i' j j' hi hj := by
    rcases hi with ⟨rfl, hi⟩ | ⟨d, rfl, rfl⟩
    · rcases hj with ⟨rfl, -⟩ | ⟨e, rfl, rfl⟩
      · rfl
      · rw [Nat.compare_eq_lt.mpr (by omega), Nat.compare_eq_lt.mpr (by omega)]
    · rcases hj with ⟨rfl, hj⟩ | ⟨e, rfl, rfl⟩
      · rw [Nat.compare_eq_gt.mpr (by omega), Nat.compare_eq_gt.mpr (by omega)]
      · exact compare_add_eq c k d e
  fresh _ _ _ h := Or.inr h
  next i i' h := by
    obtain ⟨d, rfl, rfl⟩ := h
    exact ⟨d + 1, rfl, rfl⟩

namespace Expr

variable {e : Expr} {scope : Scope}

/-- Identities that are handed out are not taken back. -/
theorem eval_le {next last : Nat} {v : Value}
    (h : unbounded.eval e scope next = .done (v, last)) : next ≤ last := by
  have hsim := (unbounded_sim_sameButCaptured (N := fun (i i' : Nat) => i = i' ∧ next ≤ i)
    (fun _ _ h => h.1) fun _ _ h => ⟨congrArg (· + 1) h.1, Nat.le_succ_of_le h.2⟩).eval
      (⟨rfl, SameFree.like fun _ _ => rfl⟩ : _ ∧ Scope.Like _ e.names scope scope)
      next next ⟨rfl, Nat.le_refl _⟩
  rw [h] at hsim
  cases hsim with
  | done hboth => exact hboth.snd.2

end Expr

/-! ## What is found under a name -/

section Finding

variable {R : String → Value → Value → Prop} {entries entries' new new' : List (String × Value)}

/-- Entries of the same names, related in a way that may depend on the name. -/
abbrev SameNames (R : String → Value → Value → Prop) : List (String × Value) →
    List (String × Value) → Prop :=
  List.Forall₂ fun entry entry' => entry.1 = entry'.1 ∧ R entry.1 entry.2 entry'.2

theorem SameNames.find? (h : SameNames R entries entries') (a : String) :
    Option.Rel (R a) (OrderedMap.find? a entries) (OrderedMap.find? a entries') := by
  induction h with
  | nil => exact .none
  | @cons entry entry' _ _ hentry _ ih =>
    obtain ⟨name, v⟩ := entry
    obtain ⟨name', v'⟩ := entry'
    obtain ⟨rfl, hv⟩ : name = name' ∧ R name v v' := hentry
    unfold OrderedMap.find?
    cases hcompare : compare a name with
    | lt => exact .none
    | gt => exact ih
    | eq =>
      obtain rfl := Std.compare_eq_iff_eq.mp hcompare
      exact .some hv

theorem SameNames.exists_find? (h : SameNames R entries entries') {a : String} {v' : Value}
    (hv' : OrderedMap.find? a entries' = some v') :
    ∃ v, OrderedMap.find? a entries = some v ∧ R a v v' := by
  have hfound := h.find? a
  rw [hv'] at hfound
  generalize OrderedMap.find? a entries = found at hfound ⊢
  cases hfound with
  | some hv => exact ⟨_, rfl, hv⟩

theorem SameNames.find?_insertAll (hnew : SameNames R new new') (a : String) :
    ∀ {entries entries' : List (String × Value)},
    Option.Rel (R a) (OrderedMap.find? a entries) (OrderedMap.find? a entries') →
    Option.Rel (R a) (OrderedMap.find? a (OrderedMap.insertAll entries new))
      (OrderedMap.find? a (OrderedMap.insertAll entries' new')) := by
  induction hnew with
  | nil => exact fun h => h
  | @cons entry entry' _ _ hentry _ ih =>
    intro entries entries' h
    obtain ⟨name, v⟩ := entry
    obtain ⟨name', v'⟩ := entry'
    obtain ⟨rfl, hv⟩ : name = name' ∧ R name v v' := hentry
    refine @ih (OrderedMap.insert name v entries) (OrderedMap.insert name v' entries') ?_
    rw [OrderedMap.find?_insert, OrderedMap.find?_insert]
    split
    next heq =>
      obtain rfl := Std.compare_eq_iff_eq.mp heq
      exact .some hv
    next => exact h

theorem SameNames.related_ofList (hnew : SameNames R new new') {a : String} {v v' : Value}
    (hv : OrderedMap.find? a (OrderedMap.ofList new) = some v)
    (hv' : OrderedMap.find? a (OrderedMap.ofList new') = some v') : R a v v' := by
  have hfound : Option.Rel (R a) (OrderedMap.find? a (OrderedMap.ofList new))
      (OrderedMap.find? a (OrderedMap.ofList new')) := hnew.find?_insertAll a .none
  rw [hv, hv'] at hfound
  cases hfound
  assumption

theorem SameNames.names_ofList (hnew : SameNames R new new') :
    (OrderedMap.ofList new).map (·.1) = (OrderedMap.ofList new').map (·.1) := by
  have hkeys : List.Forall₂ (Both Eq fun _ _ => True) new new' :=
    hnew.imp fun _ _ h => ⟨h.1, True.intro⟩
  have hlike := OrderedMap.ofList_like KeepsOrder.eq hkeys
  exact eq_of_forall₂_imp (fun _ _ => id) (List.rel_map (fun _ _ h => h.fst) hlike)

end Finding

/-! ## Evaluating tuples -/

/-- Each expression of a row has been evaluated, from some identity on. -/
theorem Run.traverse_eq_done {attrs : List (String × Expr)} {scope : Scope} :
    ∀ {next last : Nat} {values : List (String × Value)},
    Run.traverse (fun (attr : String × Expr) => do
      let v ← unbounded.eval attr.2 scope
      pure (attr.1, v)) attrs next = .done (values, last) →
    List.Forall₂ (fun attr value => attr.1 = value.1 ∧ ∃ start stop : Nat, next ≤ start ∧
      unbounded.eval attr.2 scope start = .done (value.2, stop)) attrs values := by
  induction attrs with
  | nil =>
    intro next last values h
    cases h
    exact .nil
  | cons attr attrs ih =>
    intro next last values h
    obtain ⟨value, between, hvalue, h⟩ := Run.bind_eq_done_iff.mp h
    obtain ⟨others, stop, hothers, h⟩ := Run.bind_eq_done_iff.mp h
    obtain ⟨v, between', hv, hpure⟩ := Run.bind_eq_done_iff.mp hvalue
    cases hpure
    cases h
    refine .cons ⟨rfl, next, between, Nat.le_refl _, hv⟩ ((ih hothers).imp fun _ _ hrest => ?_)
    obtain ⟨hname, start, stop, hstart, heval⟩ := hrest
    exact ⟨hname, start, stop, (Expr.eval_le hv).trans hstart, heval⟩

theorem eval_tuple_eq_done {attrs : List (String × Expr)} {place : Span} {scope : Scope}
    {next last : Nat} {v : Value}
    (h : unbounded.eval (.tuple attrs place) scope next = .done (v, last)) :
    ∃ values, v = .tuple (OrderedMap.ofList values) ∧
      List.Forall₂ (fun attr value => attr.1 = value.1 ∧ ∃ start stop : Nat, next ≤ start ∧
        unbounded.eval attr.2 scope start = .done (value.2, stop)) attrs values := by
  rw [unbounded_eval] at h
  obtain ⟨values, between, hvalues, h⟩ := Run.bind_eq_done_iff.mp h
  cases h
  exact ⟨values, rfl, Run.traverse_eq_done hvalues⟩

/-- What becomes of an attribute of a recursive tuple: functions unfold and other values stay. -/
def Lifted (f : Value) (name : String) (v v' : Value) : Prop :=
  if v.isFunction then ∃ i, v' = .native i (.unfoldAttr f name) else v' = v

theorem Lifted.eq_of_not_isFunction {f v v' : Value} {name : String} (h : Lifted f name v v')
    (hv : v.isFunction = false) : v' = v := by
  rwa [Lifted, if_neg (Bool.eq_false_iff.mp hv)] at h

/-- The functions of a recursive tuple are those that unfold. -/
theorem Lifted.exists_unfoldAttr {f v v' : Value} {name : String} (h : Lifted f name v v')
    (hv' : v'.isFunction = true) : ∃ i, v' = .native i (.unfoldAttr f name) := by
  cases hv : v.isFunction with
  | true => rwa [Lifted, if_pos hv] at h
  | false =>
    rw [h.eq_of_not_isFunction hv, hv] at hv'
    cases hv'

theorem recursiveAttrs_eq_done {f : Value} {attrs : List (String × Value)} :
    ∀ {next last : Nat} {lifted : List (String × Value)},
    recursiveAttrs f attrs next = .done (lifted, last) →
    next ≤ last ∧ SameNames (Lifted f) attrs lifted := by
  induction attrs with
  | nil =>
    intro next last lifted h
    cases h
    exact ⟨Nat.le_refl _, .nil⟩
  | cons attr attrs ih =>
    intro next last lifted h
    obtain ⟨name, v⟩ := attr
    unfold recursiveAttrs at h
    split at h
    next hfunction =>
      obtain ⟨i, between, hfresh, hrest⟩ := Run.bind_eq_done_iff.mp h
      obtain ⟨others, between', hothers, hpure⟩ := Run.bind_eq_done_iff.mp hrest
      cases hfresh
      cases hpure
      obtain ⟨hle, hothers⟩ := ih hothers
      refine ⟨(Nat.le_succ _).trans hle, .cons ⟨rfl, ?_⟩ hothers⟩
      rw [Lifted, if_pos hfunction]
      exact ⟨next, rfl⟩
    next hfunction =>
      obtain ⟨others, between, hothers, h⟩ := Run.bind_eq_done_iff.mp h
      cases h
      obtain ⟨hle, hothers⟩ := ih hothers
      exact ⟨hle, .cons ⟨rfl, by rw [Lifted, if_neg hfunction]⟩ hothers⟩

/-- A recursive tuple has the attributes that its base has for the empty tuple. -/
theorem recursiveTuple_eq_done {name : String} (hname : name ≠ "_") {base : Expr} {span : Span}
    {scope : Scope} {i : Identity} {next last : Nat} {t : Value}
    (h : unbounded.recursiveTuple (.ofItself i name base span scope) next = .done (t, last)) :
    ∃ probe lifted, ∃ between : Nat,
      unbounded.eval base (scope.bind name (.tuple [])) next = .done (.tuple probe, between) ∧
      t = .tuple lifted ∧ next ≤ last ∧
      SameNames (Lifted (.ofItself i name base span scope)) probe lifted := by
  obtain ⟨probe, between, hprobe, h⟩ := Run.bind_eq_done_iff.mp h
  rw [call_ofItself hname] at hprobe
  cases probe with
  | tuple probe =>
    obtain ⟨lifted, between', hlifted, h⟩ := Run.bind_eq_done_iff.mp h
    cases h
    obtain ⟨hle, hnames⟩ := recursiveAttrs_eq_done hlifted
    exact ⟨probe, lifted, between, hprobe, rfl, (Expr.eval_le hprobe).trans hle, hnames⟩
  | _ => cases h

/-! ## Attributes that do not depend on the name -/

/-- Values that are the same up to the identities of their functions, and up to what closures
captured under names that they do not read. -/
abbrev Value.SameButIdentities : Value → Value → Prop := Value.Paired Eq Eq fun _ _ _ => True

/-- An expression that does not read a name has the same value whatever the name is bound to. -/
theorem eval_sameButIdentities {e : Expr} {name : String} (hname : name ∉ e.names.free)
    {scope : Scope} {bound c k : Nat} (hc : bound ≤ c) (hk : bound ≤ k)
    (h : e.EveryIn (MadeBefore bound) scope) {v v' w w' : Value} {last last' : Identity}
    (hw : unbounded.eval e (scope.bind name v) c = .done (w, last))
    (hw' : unbounded.eval e (scope.bind name v') k = .done (w', last')) :
    w.SameButIdentities w' := by
  have X := exchange_shift hc hk
  have hlike : (scope.bind name v).Like
      (Value.Exchanged (MadeBefore bound) (ShiftedAbove bound c k)) e.names
      (scope.bind name v') := by
    intro x hx
    rw [← Expr.sameFree_bind hname scope v x hx, ← Expr.sameFree_bind hname scope v' x hx]
    exact X.scope h.captured x hx
  have hsim := X.sim.eval ⟨⟨rfl, h.literals⟩, hlike⟩ c k ⟨0, rfl, rfl⟩
  rw [hw, hw'] at hsim
  cases hsim with
  | done hboth =>
    exact hboth.fst.mono (fun _ _ h => h.1) (fun _ _ h => h.1) fun _ _ _ _ => True.intro

theorem forall₂_join {α β γ : Type} {R : α → β → Prop} {S : α → γ → Prop} {as : List α}
    {bs : List β} {cs : List γ} (hb : List.Forall₂ R as bs) (hc : List.Forall₂ S as cs) :
    List.Forall₂ (fun b c => ∃ a ∈ as, R a b ∧ S a c) bs cs := by
  induction hb generalizing cs with
  | nil =>
    cases hc
    exact .nil
  | cons hab _ ih =>
    cases hc with
    | cons hac hrest =>
      refine .cons ⟨_, List.mem_cons_self, hab, hac⟩ ((ih hrest).imp fun b c h => ?_)
      obtain ⟨a, hmem, h⟩ := h
      exact ⟨a, List.mem_cons_of_mem _ hmem, h⟩

section Unfolding

variable {name : String} (hname : name ≠ "_") {attrs : List (String × Expr)} {place span : Span}
  {scope : Scope} {next : Nat}

theorem mem_namesAttrs {attr : String × Expr} (hattr : attr ∈ attrs) {x : String}
    (hx : x ∈ attr.2.names.free) : x ∈ (Expr.namesAttrs attrs).free := by
  induction attrs with
  | nil => cases hattr
  | cons first attrs ih =>
    rcases List.mem_cons.mp hattr with rfl | hattr
    · exact List.mem_append_left _ hx
    · exact List.mem_append_right _ (ih hattr)

include hname

theorem attr_everyIn {F : Option String → Identity → Prop}
    (h : (Lowering.recursion name (.tuple attrs place) span).EveryIn F scope)
    {attr : String × Expr} (hattr : attr ∈ attrs) (hfree : name ∉ attr.2.names.free) :
    attr.2.EveryIn F scope where
  literals := by
    cases base_every h with
    | mk hexprs => exact hexprs attr.2 (List.mem_map_of_mem hattr)
  captured x hx := by
    have hne : x ≠ name := fun heq => hfree (heq ▸ hx)
    refine captured_every h x (List.mem_filter.mpr ⟨mem_namesAttrs hattr hx, ?_⟩)
    rw [variables_name hname]
    simpa using hne

omit hname in
theorem eval_recursion_tuple {t : Value} {mid : Identity}
    (ht : unbounded.eval (Lowering.recursion name (.tuple attrs place) span) scope next =
      .done (t, mid)) :
    unbounded.recursiveTuple (.ofItself next name (.tuple attrs place) span scope) (next + 1) =
      .done (t, mid) := by
  rw [eval_recursion rfl, Run.within_apply] at ht
  split at ht
  next => cases ht
  next => exact ht

/-- An attribute of a recursive tuple unfolds when it is called: the tuple is made anew, its base is
evaluated with the name bound to the new one, and the attribute of the base is called. -/
theorem call_unfoldAttr {base : Expr} (i j : Identity) (a : String) (x : Value) :
    unbounded.call (.native i (.unfoldAttr (.ofItself j name base span scope) a)) x = (do
      let copy ← unbounded.recursiveTuple (.ofItself j name base span scope)
      let unfolded ← unbounded.eval base (scope.bind name copy)
      let g ← Run.ofExcept (unfolded.getAttr a)
      unbounded.call g x) := by
  rw [unbounded_call]
  simp only [Evaluator.callStep, Evaluator.callNative, call_ofItself hname]

variable {t u : Value} {mid last : Nat}
  (ht : unbounded.eval (Lowering.recursion name (.tuple attrs place) span) scope next =
    .done (t, mid))
  (hu : unbounded.eval (.tuple attrs place) (scope.bind name t) mid = .done (u, last))

include ht hu

/-- The recursive tuple and its base come from two evaluations of the same attributes, the first of
them with the empty tuple for the name. -/
theorem recursion_tuple_parts :
    ∃ probe lifted values, t = .tuple lifted ∧ u = .tuple (OrderedMap.ofList values) ∧
      SameNames (Lifted (.ofItself next name (.tuple attrs place) span scope))
        (OrderedMap.ofList probe) lifted ∧
      List.Forall₂ (fun entry entry' => entry.1 = entry'.1 ∧ ∃ attr ∈ attrs, attr.1 = entry.1 ∧
        ∃ c k stop stop' : Nat, next + 1 ≤ c ∧ next + 1 ≤ k ∧
          unbounded.eval attr.2 (scope.bind name (.tuple [])) c = .done (entry.2, stop) ∧
          unbounded.eval attr.2 (scope.bind name t) k = .done (entry'.2, stop')) probe values := by
  obtain ⟨_, lifted, between, hprobe, rfl, hmid, hlifted⟩ :=
    recursiveTuple_eq_done hname (eval_recursion_tuple ht)
  obtain ⟨probe, heq, hentries⟩ := eval_tuple_eq_done hprobe
  obtain ⟨values, rfl, hvalues⟩ := eval_tuple_eq_done hu
  obtain rfl := Value.tuple.inj heq
  refine ⟨probe, lifted, values, rfl, rfl, hlifted, ?_⟩
  refine (forall₂_join hentries hvalues).imp fun entry entry' h => ?_
  obtain ⟨attr, hmem, ⟨hentry, c, stop, hc, hv⟩, hentry', k, stop', hk, hw⟩ := h
  exact ⟨hentry.symm.trans hentry', attr, hmem, hentry, c, k, stop, stop', hc, hmid.trans hk, hv,
    hw⟩

/-- A call of an attribute of the recursive tuple ends as a call of that of the base, up to
identities, if the functions that it meets were made before the recursion. -/
theorem call_unfoldAttr_endsAlike {f : Value}
    (hf : f = .ofItself next name (.tuple attrs place) span scope) {a : String} {w x : Value}
    (hw : u.getAttr a = .ok w) (i : Identity) {m : Nat} (hm : next < m)
    (h : (Lowering.recursion name (.tuple attrs place) span).EveryIn (MadeBefore (next + 1)) scope)
    (hx : x.Every (MadeBefore (next + 1))) :
    (unbounded.call (.native i (.unfoldAttr f a)) x m).EndsAlike Eq
      (Both Value.SameButIdentities fun _ _ => True) (unbounded.call w x last) := by
  have hidentity : unbounded.call (.native i (.unfoldAttr f a)) x =
      unbounded.call (.native 0 (.unfoldAttr f a)) x := by
    rw [unbounded_call, unbounded_call]
    rfl
  have hdirect : unbounded.call (.native 0 (.unfoldAttr f a)) x (next + 1) =
      unbounded.call w x last := by
    rw [hf, call_unfoldAttr hname, Run.bind_apply, eval_recursion_tuple ht]
    show (unbounded.eval (.tuple attrs place) (scope.bind name t) >>= _) mid = _
    rw [Run.bind_apply, hu]
    show (Run.ofExcept (u.getAttr a) >>= _) last = _
    rw [hw]
    rfl
  -- what the call does from `m` on it does from the identity on that the tuple was made at
  have X := exchange_shift (show next + 1 ≤ m from hm) (Nat.le_refl (next + 1))
  have hg : (Value.native 0 (.unfoldAttr f a)).Every (MadeBefore (next + 1)) := by
    refine .native (Nat.succ_pos next) (List.forall_mem_singleton.mpr ?_)
    rw [hf]
    exact ofItself_every h (Nat.lt_succ_self next)
  have hends := Exchange.endsAlike (X.sim.call (X.value hg) (X.value hx))
    (X.swap.sim.call (X.swap.value hg) (X.swap.value hx)) ⟨0, rfl, rfl⟩
  rw [hidentity, ← hdirect]
  refine hends.mono (fun _ _ h => h) fun _ _ h => ⟨?_, True.intro⟩
  exact h.fst.mono (fun _ _ h => h) (fun _ _ h => h) fun _ _ _ _ => True.intro

end Unfolding

/-- A recursive tuple unfolds to its base. Evaluated with the name bound to the recursive tuple, the
base has the same attributes. An attribute that is no function and does not read the name is the
same, up to the identities of functions inside it. An attribute that is a function makes the tuple
anew with every call, and then calls the attribute of the base with the name bound to the new one.
If what the call can reach was made before the recursion, it ends as a call of the attribute of the
base does with the name bound to the recursive tuple itself. -/
theorem Expr.recursion_tuple_unfolds {name : String} (hname : name ≠ "_")
    {attrs : List (String × Expr)} {place span : Span} {scope : Scope} {next mid last : Identity}
    {t u : Value}
    (ht : unbounded.eval (Lowering.recursion name (.tuple attrs place) span) scope next =
      .done (t, mid))
    (hu : unbounded.eval (.tuple attrs place) (scope.bind name t) mid = .done (u, last)) :
    let program := Lowering.recursion name (.tuple attrs place) span
    let f := Value.ofItself next name (.tuple attrs place) span scope
    unbounded.recursiveTuple f (next + 1) = .done (t, mid) ∧
    ∃ lifted values, t = .tuple lifted ∧ u = .tuple values ∧
      lifted.map (·.1) = values.map (·.1) ∧
      ∀ a v w, OrderedMap.find? a lifted = some v → OrderedMap.find? a values = some w →
        (w.isFunction = false → (∀ attr ∈ attrs, attr.1 = a → name ∉ attr.2.names.free) →
          program.EveryIn (MadeBefore (next + 1)) scope →
          v.SameButIdentities w ∧ (v.hasFunction = false → v = w)) ∧
        (v.isFunction = true → ∀ x,
          (unbounded.call v x = do
            let copy ← unbounded.recursiveTuple f
            let unfolded ← unbounded.eval (.tuple attrs place) (scope.bind name copy)
            let g ← Run.ofExcept (unfolded.getAttr a)
            unbounded.call g x) ∧
          ∀ m, next < m → program.EveryIn (MadeBefore (next + 1)) scope →
            x.Every (MadeBefore (next + 1)) →
            (unbounded.call v x m).EndsAlike Eq (Both Value.SameButIdentities fun _ _ => True)
              (unbounded.call w x last)) := by
  intro program f
  refine ⟨eval_recursion_tuple ht, ?_⟩
  obtain ⟨probe, lifted, values, rfl, rfl, hlifted, hentries⟩ := recursion_tuple_parts hname ht hu
  refine ⟨lifted, OrderedMap.ofList values, rfl, rfl, ?_, fun a v w hv hw => ?_⟩
  · have hnames : SameNames (fun _ _ _ => True) probe values :=
      hentries.imp fun _ _ h => ⟨h.1, True.intro⟩
    rw [← hnames.names_ofList]
    exact (eq_of_forall₂_imp (fun _ _ => id) (List.rel_map (fun _ _ h => h.1) hlifted)).symm
  obtain ⟨probed, hprobed, hlift⟩ := hlifted.exists_find? hv
  refine ⟨fun hfunction hfree hprogram => ?_, fun hfunction x => ?_⟩
  · have hrelated : SameNames (fun b v w => b = a → v.SameButIdentities w) probe values := by
      refine hentries.imp fun entry entry' h => ⟨h.1, fun ha => ?_⟩
      obtain ⟨-, attr, hmem, hattr, c, k, stop, stop', hc, hk, hv, hw⟩ := h
      have hfree := hfree attr hmem (hattr.trans ha)
      exact eval_sameButIdentities hfree hc hk (attr_everyIn hname hprogram hmem hfree) hv hw
    have hsame : probed.SameButIdentities w := hrelated.related_ofList hprobed hw rfl
    have hkind : probed.isFunction = w.isFunction := by
      cases hsame.shape <;> rfl
    rw [hlift.eq_of_not_isFunction (hkind.trans hfunction)]
    exact ⟨hsame, hsame.eq_of_data⟩
  · obtain ⟨i, rfl⟩ := hlift.exists_unfoldAttr hfunction
    refine ⟨call_unfoldAttr hname i next a x, fun m hm hprogram hx => ?_⟩
    have hattr : (Value.tuple (OrderedMap.ofList values)).getAttr a = .ok w := by
      simp only [Value.getAttr, hw]
    exact call_unfoldAttr_endsAlike hname ht hu rfl hattr i hm hprogram hx

/-- The recursive tuple `(d: "one", f: \y t.d)`: a call of its function ends with the attribute that
is none, as a call of the function of the base does. -/
theorem Expr.recursion_tuple_unfolds_read :
    let here := Span.unknown
    let one : Expr := .literal (.string "one") here
    let f : Expr := .function (.expr (.ident "y" here)) (.dot (.ident "t" here) "d" here) here
    let base : Expr := .tuple [("d", one), ("f", f)] here
    let v : Value := .native 2 (.unfoldAttr (.ofItself 0 "t" base here Scope.empty) "f")
    let t : Value := .tuple [("d", .string "one"), ("f", v)]
    unbounded.eval (Lowering.recursion "t" base here) Scope.empty 0 = .done (t, 3) ∧
      ∃ w, unbounded.eval base (Scope.empty.bind "t" t) 3 =
          .done (.tuple [("d", .string "one"), ("f", w)], 4) ∧
        unbounded.call w (.tuple []) 4 = .done (.string "one", 4) ∧
        ∃ last, unbounded.call v (.tuple []) 5 = .done (.string "one", last) := by
  intro here one f base v t
  have hbody : (Expr.dot (.ident "t" here) "d" here).Every (MadeBefore 1) :=
    .mk (List.forall_mem_singleton.mpr (every_ident _ _)) (List.forall_mem_nil _) nofun
  have hf : f.Every (MadeBefore 1) := .mk (List.forall_mem_singleton.mpr hbody)
    (List.forall_mem_singleton.mpr (Pattern.every_name _ _)) nofun
  have hprogram : (Lowering.recursion "t" base here).EveryIn (MadeBefore 1) Scope.empty :=
    recursion_everyIn Nat.zero_lt_one Nat.zero_lt_one (.mk (List.forall_mem_cons.mpr
      ⟨every_literal (Value.every_of_data rfl) _, List.forall_mem_singleton.mpr hf⟩)
        (List.forall_mem_nil _) nofun) fun _ _ _ => nofun
  let w : Value := .closure 3 (.expr (.ident "y" here)) (.dot (.ident "t" here) "d" here)
    (Scope.empty.bind "t" t)
  have ht : unbounded.eval (Lowering.recursion "t" base here) Scope.empty 0 = .done (t, 3) :=
    (unbounded_eval_eq_iff (o := .done (t, 3)) nofun).mpr ⟨9, rfl⟩
  have hu : unbounded.eval base (Scope.empty.bind "t" t) 3 =
      .done (.tuple [("d", .string "one"), ("f", w)], 4) :=
    (unbounded_eval_eq_iff (o := .done (.tuple [("d", .string "one"), ("f", w)], 4)) nofun).mpr
      ⟨9, rfl⟩
  have hw : unbounded.call w (.tuple []) 4 = .done (.string "one", 4) :=
    (unbounded_call_eq_iff (o := .done (.string "one", 4)) nofun).mpr ⟨9, rfl⟩
  obtain ⟨-, _, _, hlifted, hvalues, -, hattrs⟩ :=
    recursion_tuple_unfolds (show "t" ≠ "_" by decide) ht hu
  obtain rfl := Value.tuple.inj hlifted
  obtain rfl := Value.tuple.inj hvalues
  have hends := ((hattrs "f" v w rfl rfl).2 rfl (.tuple [])).2 5 (by decide) hprogram
    (Value.every_of_data rfl)
  refine ⟨ht, w, hu, hw, ?_⟩
  rw [hw] at hends
  generalize unbounded.call v (.tuple []) 5 = o at hends ⊢
  cases hends with
  | @done result _ hboth =>
    obtain ⟨v, last⟩ := result
    have hsame : v.SameButIdentities (.string "one") := hboth.fst
    cases hsame with
    | built h => cases h; exact ⟨last, rfl⟩

/-- In the recursive tuple `(a: false if t else true)` the attribute has been found with the empty
tuple for `t`, and so it is true. With `t` bound to the recursive tuple, which is not empty, it is
false. -/
theorem Expr.recursion_tuple_differs :
    let here := Span.unknown
    let truth (b : Bool) : Expr := .literal (.bool b) here
    let choice : Expr := .ifElse (truth false) (.ident "t" here) (truth true) here
    let base : Expr := .tuple [("a", choice)] here
    ∃ t, (Lowering.recursion "t" base here).eval 6 Scope.empty 0 = .done (t, 1) ∧
      t = .tuple [("a", .bool true)] ∧
      base.eval 6 (Scope.empty.bind "t" t) 1 = .done (.tuple [("a", .bool false)], 1) :=
  ⟨_, rfl, rfl, rfl⟩

end Relational
