import Relational.Proofs.Isolation
import Relational.Proofs.Navigation

/-!
# The tails that a safe chain accepts

A plain chain and a safe chain are made of the same tails, but they read them in different ways. A
plain chain takes a part of a tuple where a tail lists names; a safe chain looks for the name of one
attribute only.

> `Lowering.safeTail_accepts_iff`: where the plain chain and the fallback can be lowered, the safe
> chain can exactly if each of its tails that reads something names one attribute. The first tail
> that does not is a projection, and the chain is rejected at it.

The two chains are lowered from different states, since the fallback stands between the tails of the
safe one. What is lowered once can be lowered later: a report that was made is not made again, and a
resolver answers by the request.
-/

namespace Relational

/-! ## Later states -/

/-- What was reported in a state was reported in another one. -/
def CompilerState.Reported (state state' : CompilerState) : Prop :=
  state.diagnostics.warned = true → state'.diagnostics.warned = true

namespace Lowering

variable {α α' β β' : Type} {setting : Setting}

/-- A result of the first step from a state is related to one of the second step from every state
where as much was reported, and that stays reported. -/
def Lasts (setting : Setting) (Q : α → α' → Prop) (l : Lowering α) (l' : Lowering α') : Prop :=
  ∀ (state state' after : CompilerState) (a : α), state.Reported state' →
    l setting state = (.done a, after) →
    ∃ a' after', l' setting state' = (.done a', after') ∧ Q a a' ∧ after.Reported after' ∧
      state'.Reported after'

theorem Lasts.bind {Q : α → α' → Prop} {R : β → β' → Prop} {l : Lowering α} {l' : Lowering α'}
    {f : α → Lowering β} {f' : α' → Lowering β'} (hl : Lasts setting Q l l')
    (hf : ∀ a a', Q a a' → Lasts setting R (f a) (f' a')) :
    Lasts setting R (l >>= f) (l' >>= f') := by
  intro state state' after b hstate h
  obtain ⟨a, between, ha, hb⟩ := bind_eq_done_iff.mp h
  obtain ⟨a', between', ha', hQ, hbetween, hfirst⟩ := hl _ _ _ _ hstate ha
  obtain ⟨b', after', hb', hR, hafter, hsecond⟩ := hf a a' hQ _ _ _ _ hbetween hb
  exact ⟨b', after', bind_eq_done_iff.mpr ⟨a', between', ha', hb'⟩, hR, hafter,
    fun hwarned => hsecond (hfirst hwarned)⟩

theorem Lasts.of_rejects {Q : α → α' → Prop} {l : Lowering α} {l' : Lowering α'}
    (h : ∀ state a after, l setting state ≠ (.done a, after)) : Lasts setting Q l l' :=
  fun state _ after a _ hdone => absurd hdone (h state a after)

/-- A report that was made is not made again. -/
theorem warnDeprecated_lasts :
    Lasts setting (fun _ _ => True) warnDeprecated warnDeprecated := by
  intro state state' after a hstate h
  unfold warnDeprecated at h ⊢
  cases hwarned' : state'.diagnostics.warned with
  | true =>
    rw [Diagnostics.warnOnce_of_warned hwarned']
    exact ⟨(), _, rfl, True.intro, fun _ => hwarned', id⟩
  | false =>
    have hwarned : state.diagnostics.warned = false := by
      cases hwarned : state.diagnostics.warned with
      | false => rfl
      | true => rw [hstate hwarned] at hwarned'; cases hwarned'
    -- the sink was given the first report, and did not fail on it
    unfold Diagnostics.warnOnce at h ⊢
    rw [hwarned] at h
    rw [hwarned']
    cases hsink : setting.sink with
    | recording => exact ⟨(), _, rfl, True.intro, fun _ => rfl, fun _ => rfl⟩
    | failing reason =>
      rw [hsink] at h
      cases h

theorem request_lasts (hmodules : setting.modules.Consistent) (asked : Request) (span : Span) :
    Lasts setting Expr.SameButLoaders (request asked span asked.ask)
      (request asked span asked.ask) := by
  intro state state' after e hstate h
  have hanswers := hmodules asked state.nextIdentity state'.nextIdentity
  unfold request at h ⊢
  dsimp only at h ⊢
  generalize asked.ask setting.modules state.nextIdentity = answer at hanswers h
  generalize asked.ask setting.modules state'.nextIdentity = answer' at hanswers ⊢
  cases hanswers with
  | error => cases h
  | ok he =>
    cases h
    exact ⟨_, _, rfl, he, hstate, id⟩

/-- The same tree, lowered earlier and later. -/
def lasting (setting : Setting) : Sides :=
  ⟨Eq, Expr.SameButLoaders, Pattern.SameButLoaders, Lasts setting⟩

theorem lasting_lawful (hmodules : setting.modules.Consistent) : (lasting setting).Lawful where
  toNodes := Sides.nodes_eq rfl fun _ => rfl
  toCongruent := Sides.congruent_sameBut _
  toObserved := Sides.observed_sameButLoaders
  pure hQ state state' after a hstate h := by
    obtain ⟨rfl, rfl⟩ := pure_eq_done_iff.mp h
    exact ⟨_, _, rfl, hQ, hstate, id⟩
  bind := Lasts.bind
  reject _ := Lasts.of_rejects fun _ _ _ h => by cases h
  defect _ _ _ := Lasts.of_rejects fun _ _ _ h => by cases h
  exhausted := Lasts.of_rejects fun _ _ _ h => by cases h
  directory state state' after a hstate h := by
    cases h
    exact ⟨_, _, rfl, rfl, hstate, id⟩
  request := request_lasts hmodules

theorem lasting_lowerers (hmodules : setting.modules.Consistent) (fuel : Nat) :
    (lasting setting).Lowerers ⟨lowerExpr fuel, lowerPattern fuel⟩
      ⟨lowerExpr fuel, lowerPattern fuel⟩ :=
  lowerers_beside (lasting_lawful hmodules) warnDeprecated_lasts fuel

theorem bind_of_done {l : Lowering α} {f : α → Lowering β} {state between : CompilerState} {a : α}
    (h : l setting state = (.done a, between)) :
    (l >>= f) setting state = f a setting between := by
  rw [bind_apply, h]

theorem bind_of_rejected {l : Lowering α} {f : α → Lowering β} {state after : CompilerState}
    {error : CompileError} (h : l setting state = (.rejected error, after)) :
    (l >>= f) setting state = (.rejected error, after) := by
  rw [bind_apply, h]

end Lowering

/-! ## Single tails -/

namespace Node

/-- A tail with a call, with something to read, or with both. -/
def hasTail (tail : Node) : Bool := (tail.one? "call").isSome || (tail.one? "get").isSome

/-- One attribute is named, by an identifier or a text. -/
def hasName (get : Node) : Bool := (get.one? "IDENT").isSome || (get.one? "STR").isSome

/-- If a tail reads something, it names one attribute. -/
def namesAttr (tail : Node) : Bool := (tail.one? "get").all hasName

end Node

namespace Lowering

variable {lo : Lowerer} {setting : Setting} {state after : CompilerState} {base e : Expr}
  {get tail : Node}

theorem attrName_of_hasName (h : get.hasName = true) : ∃ attr, attrName get = pure attr := by
  unfold Node.hasName at h
  unfold attrName
  split
  next => exact ⟨_, rfl⟩
  next => exact ⟨_, rfl⟩
  next hident hstr =>
    rw [hident, hstr] at h
    cases h

theorem attrName_of_not_hasName (h : get.hasName = false) :
    attrName get = reject (.malformed get.span (.attrWithoutName get.describe)) := by
  unfold Node.hasName at h
  unfold attrName
  split
  next hident =>
    rw [hident] at h
    cases h
  next hident hstr =>
    rw [hident, hstr] at h
    cases h
  next => rfl

/-- A read leaves the state as it is. It takes a part of a tuple, or one attribute is named. -/
theorem getAttr_eq_done (h : getAttr base get setting state = (.done e, after)) :
    state = after ∧ ((get.one? "names").isSome = true ∨ get.hasName = true) := by
  unfold getAttr at h
  cases hnames : get.one? "names" with
  | some names =>
    rw [hnames] at h
    exact ⟨(pure_eq_done_iff.mp h).2, .inl rfl⟩
  | none =>
    rw [hnames] at h
    cases hname : get.hasName with
    | true =>
      obtain ⟨attr, hattr⟩ := attrName_of_hasName hname
      rw [hattr] at h
      exact ⟨(Prod.mk.inj h).2, .inr rfl⟩
    | false =>
      rw [attrName_of_not_hasName hname] at h
      cases h

theorem getAttr?_eq_done {get? : Option Node}
    (h : getAttr? base get? setting state = (.done e, after)) :
    state = after ∧ ∀ get, get? = some get →
      (get.one? "names").isSome = true ∨ get.hasName = true := by
  cases get? with
  | none => exact ⟨(pure_eq_done_iff.mp h).2, fun _ hget => by cases hget⟩
  | some get =>
    obtain ⟨hstate, hname⟩ := getAttr_eq_done h
    exact ⟨hstate, fun _ hget => Option.some.inj hget ▸ hname⟩

/-- A plain chain lowers the arguments of a tail, and what it reads is a part of a tuple or has a
name. -/
theorem tail_eq_done (h : Lowering.tail lo base tail setting state = (.done e, after)) :
    (∃ args, tailArgs lo tail setting state = (.done args, after)) ∧
      ∀ get, tail.one? "get" = some get →
        (get.one? "names").isSome = true ∨ get.hasName = true := by
  unfold Lowering.tail at h
  unfold tailArgs
  cases hcall : tail.one? "call" with
  | none =>
    rw [hcall] at h
    obtain ⟨rfl, hread⟩ := getAttr?_eq_done h
    exact ⟨⟨none, rfl⟩, hread⟩
  | some call =>
    rw [hcall] at h
    obtain ⟨args, between, hargs, h⟩ := bind_eq_done_iff.mp h
    obtain ⟨rfl, hread⟩ := getAttr?_eq_done h
    exact ⟨⟨_, bind_eq_done_iff.mpr ⟨args, between, hargs, rfl⟩⟩, hread⟩

section Steps

variable {args : Option (List Expr × Span)} (mark : Bool)
  (hargs : tailArgs lo tail setting state = (.done args, after))

include hargs

/-- A safe chain accepts a tail that names what it reads. -/
theorem safeStep_of_namesAttr (htail : tail.hasTail = true) (hnames : tail.namesAttr = true) :
    ∃ step, safeStep lo mark tail setting state = (.done step, after) := by
  unfold safeStep
  rw [bind_of_done hargs]
  unfold tailAttr
  cases hget : tail.one? "get" with
  | some get =>
    rw [Node.namesAttr, hget] at hnames
    obtain ⟨attr, hattr⟩ := attrName_of_hasName hnames
    dsimp only
    rw [hattr]
    show ∃ step, (if args.isNone && (some attr).isNone then _ else _ : Lowering SafeStep) setting
      after = (.done step, after)
    rw [Option.isNone_some, Bool.and_false]
    exact ⟨_, rfl⟩
  | none =>
    rw [Node.hasTail, hget, Option.isSome_none, Bool.or_false] at htail
    obtain ⟨call, hcall⟩ := Option.isSome_iff_exists.mp htail
    unfold tailArgs at hargs
    rw [hcall] at hargs
    obtain ⟨list, between, -, hargs⟩ := bind_eq_done_iff.mp hargs
    cases hargs
    exact ⟨_, rfl⟩

/-- A safe chain rejects a tail that a plain chain accepts and that does not name what it reads.
Such a tail takes a part of a tuple. -/
theorem safeStep_of_projection {start between : CompilerState}
    (hplain : Lowering.tail lo base tail setting start = (.done e, between))
    (hnames : tail.namesAttr = false) :
    ∃ get, tail.one? "get" = some get ∧ (get.one? "names").isSome = true ∧
      safeStep lo mark tail setting state =
        (.rejected (.malformed get.span (.attrWithoutName get.describe)), after) := by
  obtain ⟨-, hread⟩ := tail_eq_done hplain
  unfold safeStep
  rw [bind_of_done hargs]
  unfold tailAttr
  cases hget : tail.one? "get" with
  | none =>
    rw [Node.namesAttr, hget] at hnames
    cases hnames
  | some get =>
    rw [Node.namesAttr, hget] at hnames
    have hname : get.hasName = false := hnames
    have hprojects := (hread get hget).resolve_right (by rw [hname]; decide)
    refine ⟨get, rfl, hprojects, ?_⟩
    dsimp only
    rw [attrName_of_not_hasName hname]
    rfl

end Steps

/-! ## Rows of tails -/

section Rows

variable (hlo : (lasting setting).Lowerers lo lo) (hmodules : setting.modules.Consistent)
  {state' : CompilerState} (hstate : state.Reported state')

include hlo hmodules hstate

/-- The arguments of a tail that a plain chain accepts can be lowered later. -/
theorem tailArgs_of_tail (h : Lowering.tail lo base tail setting state = (.done e, after)) :
    ∃ args after', tailArgs lo tail setting state' = (.done args, after') ∧
      after.Reported after' ∧ state'.Reported after' := by
  obtain ⟨⟨args, hargs⟩, -⟩ := tail_eq_done h
  obtain ⟨args', after', hargs', -, hafter, hlater⟩ :=
    tailArgs_beside (lasting_lawful hmodules) hlo rfl _ _ _ _ hstate hargs
  exact ⟨args', after', hargs', hafter, hlater⟩

variable {tails : List (Bool × Node)} (htails : ∀ t ∈ tails, t.2.hasTail = true)
  (h : foldl (Lowering.tail lo) base (tails.map Prod.snd) setting state = (.done e, after))

include htails h

/-- A safe chain accepts the tails that a plain chain accepts if they name what they read. -/
theorem traverse_safeStep_of_namesAttr (hnames : ∀ t ∈ tails, t.2.namesAttr = true) :
    ∃ steps after', traverse (fun t => safeStep lo t.1 t.2) tails setting state' =
      (.done steps, after') := by
  induction tails generalizing base state state' with
  | nil => exact ⟨[], state', rfl⟩
  | cons t tails ih =>
    obtain ⟨next, between, hnext, h⟩ := bind_eq_done_iff.mp h
    obtain ⟨args, between', hargs, hbetween, -⟩ := tailArgs_of_tail hlo hmodules hstate hnext
    obtain ⟨htail, htails⟩ := List.forall_mem_cons.mp htails
    obtain ⟨hname, hnames⟩ := List.forall_mem_cons.mp hnames
    obtain ⟨step, hstep⟩ := safeStep_of_namesAttr t.1 hargs htail hname
    obtain ⟨steps, after', hsteps⟩ := ih hbetween htails h hnames
    exact ⟨step :: steps, after', bind_eq_done_iff.mpr ⟨step, between', hstep,
      bind_eq_done_iff.mpr ⟨steps, after', hsteps, rfl⟩⟩⟩

/-- Of the tails that a plain chain accepts, the first one that does not name what it reads is a
projection, and a safe chain is rejected at it. -/
theorem traverse_safeStep_of_find? {t : Bool × Node}
    (hfind : tails.find? (fun t => !t.2.namesAttr) = some t) :
    ∃ get after', t.2.one? "get" = some get ∧ (get.one? "names").isSome = true ∧
      traverse (fun t => safeStep lo t.1 t.2) tails setting state' =
        (.rejected (.malformed get.span (.attrWithoutName get.describe)), after') := by
  induction tails generalizing base state state' with
  | nil => cases hfind
  | cons u tails ih =>
    obtain ⟨next, between, hnext, h⟩ := bind_eq_done_iff.mp h
    obtain ⟨args, between', hargs, hbetween, -⟩ := tailArgs_of_tail hlo hmodules hstate hnext
    obtain ⟨htail, htails⟩ := List.forall_mem_cons.mp htails
    cases hname : u.2.namesAttr with
    | true =>
      rw [List.find?_cons_of_neg (by rw [hname]; decide)] at hfind
      obtain ⟨step, hstep⟩ := safeStep_of_namesAttr u.1 hargs htail hname
      obtain ⟨get, after', hget, hprojects, hrest⟩ := ih hbetween htails h hfind
      refine ⟨get, after', hget, hprojects, ?_⟩
      rw [traverse, bind_of_done hstep, bind_of_rejected hrest]
    | false =>
      rw [List.find?_cons_of_pos (by rw [hname]; decide)] at hfind
      cases hfind
      obtain ⟨get, hget, hprojects, hstep⟩ := safeStep_of_projection t.1 hargs hnext hname
      exact ⟨get, between', hget, hprojects, bind_of_rejected hstep⟩

end Rows

/-! ## Chains -/

/-- A node of a safe chain: its first tail, its fallback and its later tails with their marks. -/
structure CarriesTails (chain first fall : Node) (rest : List (Bool × Node)) : Prop where
  first_eq : (chain.one? "first_safe").bind (fun node => node.one? "tail") = some first
  fall_eq : chain.one? "fall" = some fall
  rest_eq : (chain.many "ops").map markedTail? = rest.map some

theorem CarriesTails.safeTail_eq {chain first fall : Node} {rest : List (Bool × Node)}
    (h : CarriesTails chain first fall rest) (lo : Lowerer) (base : Expr) :
    safeTail lo base chain = (do
      let step ← safeStep lo true first
      let fallback ← lo.expr fall
      let steps ← traverse (fun t => safeStep lo t.1 t.2) rest
      pure (.safeTail fallback base (step :: steps) chain.span)) := by
  obtain ⟨node, hnode, hfirst⟩ := Option.bind_eq_some_iff.mp h.first_eq
  simp only [safeTail, Node.child, hnode, hfirst, h.fall_eq, pure_bind,
    traverse_safeOp_eq lo h.rest_eq]

section Chains

variable (hlo : (lasting setting).Lowerers lo lo) (hmodules : setting.modules.Consistent)
  {chain first fall : Node} {rest : List (Bool × Node)}
  (hchain : CarriesTails chain first fall rest)
  (htails : ∀ t ∈ (true, first) :: rest, t.2.hasTail = true)
  {plain fallback : Expr} {start start' after' : CompilerState}
  (hplain : foldl (Lowering.tail lo) base (((true, first) :: rest).map Prod.snd) setting start =
    (.done plain, after))
  (hfall : lo.expr fall setting start' = (.done fallback, after'))
  (hstart : start.Reported state) (hstart' : start'.Reported state) (other : Expr)

include hlo hmodules hplain hfall hstart hstart'

/-- The parts of a safe chain, in the order in which they are lowered: the arguments of the first
tail, the fallback, and the later tails, which a plain chain accepts from an earlier state. -/
theorem parts_of_plain : ∃ next args fallback' between mid stop,
    Lowering.tail lo base first setting start = (.done next, between) ∧
    foldl (Lowering.tail lo) next (rest.map Prod.snd) setting between = (.done plain, after) ∧
    tailArgs lo first setting state = (.done args, mid) ∧
    lo.expr fall setting mid = (.done fallback', stop) ∧ between.Reported stop := by
  obtain ⟨next, between, hnext, hplain⟩ := bind_eq_done_iff.mp hplain
  obtain ⟨args, mid, hargs, hbetween, hmid⟩ := tailArgs_of_tail hlo hmodules hstart hnext
  -- the arguments of the first tail come before the fallback, and only more is reported after them
  obtain ⟨fallback', stop, hfall', -, -, hstop⟩ :=
    hlo.expr rfl _ _ _ _ (fun hwarned => hmid (hstart' hwarned)) hfall
  exact ⟨next, args, fallback', between, mid, stop, hnext, hplain, hargs, hfall',
    fun hwarned => hstop (hbetween hwarned)⟩

include hchain htails

theorem safeTail_of_namesAttr (hnames : ∀ t ∈ (true, first) :: rest, t.2.namesAttr = true) :
    ∃ e last, safeTail lo other chain setting state = (.done e, last) := by
  obtain ⟨next, args, fallback', between, mid, stop, -, hrest, hargs, hfall', hstop⟩ :=
    parts_of_plain hlo hmodules hplain hfall hstart hstart'
  obtain ⟨htail, htails⟩ := List.forall_mem_cons.mp htails
  obtain ⟨hname, hnames⟩ := List.forall_mem_cons.mp hnames
  obtain ⟨step, hstep⟩ := safeStep_of_namesAttr true hargs htail hname
  obtain ⟨steps, last, hsteps⟩ :=
    traverse_safeStep_of_namesAttr hlo hmodules hstop htails hrest hnames
  rw [hchain.safeTail_eq, bind_of_done hstep, bind_of_done hfall', bind_of_done hsteps]
  exact ⟨_, last, rfl⟩

theorem safeTail_of_find? {t : Bool × Node}
    (hfind : ((true, first) :: rest).find? (fun t => !t.2.namesAttr) = some t) :
    ∃ get last, t.2.one? "get" = some get ∧ (get.one? "names").isSome = true ∧
      safeTail lo other chain setting state =
        (.rejected (.malformed get.span (.attrWithoutName get.describe)), last) := by
  obtain ⟨next, args, fallback', between, mid, stop, hfirst, hrest, hargs, hfall', hstop⟩ :=
    parts_of_plain hlo hmodules hplain hfall hstart hstart'
  obtain ⟨htail, htails⟩ := List.forall_mem_cons.mp htails
  rw [hchain.safeTail_eq]
  cases hname : first.namesAttr with
  | true =>
    rw [List.find?_cons_of_neg (by rw [hname]; decide)] at hfind
    obtain ⟨step, hstep⟩ := safeStep_of_namesAttr true hargs htail hname
    obtain ⟨get, last, hget, hprojects, hsteps⟩ :=
      traverse_safeStep_of_find? hlo hmodules hstop htails hrest hfind
    rw [bind_of_done hstep, bind_of_done hfall', bind_of_rejected hsteps]
    exact ⟨get, last, hget, hprojects, rfl⟩
  | false =>
    rw [List.find?_cons_of_pos (by rw [hname]; decide)] at hfind
    cases hfind
    obtain ⟨get, hget, hprojects, hstep⟩ := safeStep_of_projection true hargs hfirst hname
    exact ⟨get, mid, hget, hprojects, bind_of_rejected hstep⟩

end Chains

/-- A safe chain accepts the tails that a plain chain accepts, but for projections. Where the plain
chain of some base and the fallback can be lowered, the safe chain of any base can in every state
where as much was reported, if and only if each tail that reads something names one attribute. The
first tail that does not lists the names of a part of a tuple, and the chain is rejected at it. -/
theorem safeTail_accepts_iff (fuel : Nat) {setting : Setting}
    (hmodules : setting.modules.Consistent) :
    let lo : Lowerer := ⟨lowerExpr fuel, lowerPattern fuel⟩
    ∀ {chain first fall : Node} {rest : List (Bool × Node)},
      CarriesTails chain first fall rest →
      (∀ t ∈ (true, first) :: rest, t.2.hasTail = true) →
      ∀ {base plain fallback : Expr} {start after start' after' state : CompilerState},
        foldl (Lowering.tail lo) base (((true, first) :: rest).map Prod.snd) setting start =
          (.done plain, after) →
        lo.expr fall setting start' = (.done fallback, after') →
        start.Reported state → start'.Reported state → ∀ other : Expr,
        ((∃ e last, safeTail lo other chain setting state = (.done e, last)) ↔
          ∀ t ∈ (true, first) :: rest, t.2.namesAttr = true) ∧
        ∀ t, ((true, first) :: rest).find? (fun t => !t.2.namesAttr) = some t →
          ∃ get last, t.2.one? "get" = some get ∧ (get.one? "names").isSome = true ∧
            safeTail lo other chain setting state =
              (.rejected (.malformed get.span (.attrWithoutName get.describe)), last) := by
  intro lo chain first fall rest hchain htails base plain fallback start after start' after' state
    hplain hfall hstart hstart' other
  have hlo : (lasting setting).Lowerers lo lo := lasting_lowerers hmodules fuel
  have hrejected {t : Bool × Node} :=
    safeTail_of_find? hlo hmodules hchain htails hplain hfall hstart hstart' other (t := t)
  refine ⟨⟨?_, safeTail_of_namesAttr hlo hmodules hchain htails hplain hfall hstart hstart' other⟩,
    fun t => hrejected⟩
  rintro ⟨e, last, hdone⟩ t ht
  cases hname : t.2.namesAttr with
  | true => rfl
  | false =>
    -- some tail has no name, so the first such one would have stopped the chain
    have hsome : (((true, first) :: rest).find? fun t => !t.2.namesAttr).isSome = true :=
      List.find?_isSome.mpr ⟨t, ht, by rw [hname]; rfl⟩
    obtain ⟨u, hfind⟩ := Option.isSome_iff_exists.mp hsome
    obtain ⟨get, stop, -, -, hstop⟩ := hrejected hfind
    rw [hdone] at hstop
    cases hstop

end Lowering

/-- The node of a safe chain with given tails, marked or not. -/
def Node.safeChain (first fall : Node) (rest : List (Bool × Node)) : Node :=
  let under (tag : String) (node : Node) : Node := branch [(tag, .one node)] node.span
  branch [("first_safe", .one (under "tail" first)),
    ("ops", .many (rest.map fun t =>
      if t.1 then under "safe" (under "tail" t.2) else under "tail" t.2)),
    ("fall", .one fall)] first.span

/-- There is a safe chain of all tails. -/
theorem Lowering.carriesTails_safeChain (first fall : Node) (rest : List (Bool × Node)) :
    CarriesTails (Node.safeChain first fall rest) first fall rest where
  first_eq := rfl
  fall_eq := rfl
  rest_eq := by
    show (List.map _ rest).map markedTail? = _
    rw [List.map_map]
    refine List.map_congr_left fun t _ => ?_
    obtain ⟨mark, node⟩ := t
    cases mark with
    | true => rfl
    | false => rfl

/-- What `.|a|` reads: the attribute `a` in a tuple of its own. -/
def Samples.listsA : Node :=
  let span : Span := ⟨⟨"", "a"⟩, 0, 1⟩
  .branch [("names", .one (.branch [("IDENT", .many [.leaf span])] span))] span

/-- The tail `.|a|`. -/
def Samples.projectA : Node := .branch [("get", .one listsA)] listsA.span

/-- The tail `(true).a`. -/
def Samples.callA : Node :=
  .branch [("call", .one (.branch [("arg", .many [.branch [("expr", .one
      (.embedded (.literal (.bool true) .unknown) .unknown))] .unknown])] .unknown)),
    ("get", .one (.branch [("IDENT", .one (.leaf ⟨⟨"", "a"⟩, 0, 1⟩))] ⟨⟨"", "a"⟩, 0, 1⟩))] .unknown

/-- The chain `t?(true).a?.a:true` is accepted. The chain `t?.a.|a|:true` is rejected at its last
tail. -/
theorem Lowering.safeTail_accepts_iff_called :
    let lo : Lowerer := ⟨lowerExpr 1, lowerPattern 1⟩
    let setting : Setting := ⟨none, .deferred, .failing "full"⟩
    let t : Expr := .ident "t" .unknown
    let yes : Node := .embedded (.literal (.bool true) .unknown) .unknown
    (∃ e last, safeTail lo t (Samples.callA.safeChain yes [(true, Samples.readA)]) setting .initial =
      (.done e, last)) ∧
    ∃ last, safeTail lo t (Samples.readA.safeChain yes [(false, Samples.projectA)]) setting
        .initial =
      (.rejected (.malformed Samples.listsA.span (.attrWithoutName Samples.listsA.describe)),
        last) := by
  intro lo setting t yes
  have haccepts := @safeTail_accepts_iff 1 setting Modules.deferred_consistent
  have hfall : lo.expr yes setting .initial = (.done (.literal (.bool true) .unknown), .initial) :=
    rfl
  have hnamed : ∃ e, foldl (Lowering.tail lo) t [Samples.callA, Samples.readA] setting .initial =
      (.done e, .initial) := ⟨_, rfl⟩
  have hprojects : ∃ e, foldl (Lowering.tail lo) t [Samples.readA, Samples.projectA] setting
      .initial = (.done e, .initial) := ⟨_, rfl⟩
  obtain ⟨e, hnamed⟩ := hnamed
  obtain ⟨e', hprojects⟩ := hprojects
  constructor
  · exact (haccepts (carriesTails_safeChain Samples.callA yes [(true, Samples.readA)]) (by decide)
      hnamed hfall id id t).1.mpr (by decide)
  · obtain ⟨get, last, hget, -, hrejected⟩ := (haccepts
      (carriesTails_safeChain Samples.readA yes [(false, Samples.projectA)]) (by decide) hprojects
      hfall id id t).2 (false, Samples.projectA) rfl
    cases hget
    exact ⟨last, hrejected⟩

/-- A plain chain accepts the tail `.|a|`, and a safe chain does not. -/
theorem Lowering.safeTail_rejects_projection :
    let lo : Lowerer := ⟨lowerExpr 1, lowerPattern 1⟩
    let setting : Setting := ⟨none, .deferred, .recording⟩
    let t : Expr := .ident "t" .unknown
    let yes : Node := .embedded (.literal (.bool true) .unknown) .unknown
    Samples.projectA.hasTail = true ∧
    foldl (Lowering.tail lo) t [Samples.projectA] setting .initial =
      (.done (.project t false ["a"] Samples.listsA.span), .initial) ∧
    lo.expr yes setting .initial = (.done (.literal (.bool true) .unknown), .initial) ∧
    safeTail lo t (Samples.projectA.safeChain yes []) setting .initial =
      (.rejected (.malformed Samples.listsA.span (.attrWithoutName Samples.listsA.describe)),
        .initial) :=
  ⟨rfl, rfl, rfl, rfl⟩

end Relational
