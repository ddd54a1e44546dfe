import Relational.Eval.Basic
import Relational.Proofs.FreeNames
import Relational.Proofs.Parts
import Relational.Proofs.SafeRun

/-!
# One level of evaluation

The rules of the language are written against an evaluator for the parts. So what a rule does is
safe if the parts are, and this is shown once for all uses:

> `bindStep_safe`: matching a pattern, from what the pattern reads and matches.

> `evalStep_safe`: evaluating an expression, from its parts and from what a construct needs of its
> own. Failures of the parts pass through; those that the construct raises, and those of the calls
> that it makes, are placed.

A match keeps the bindings that it was given and adds all the variables of its pattern, so that a
body under the pattern finds them.
-/

namespace Relational

/-! ## Bindings -/

namespace Scope

variable {scope other : Scope} {name x : String} {v : Value}

theorem has_bind : (scope.bind name v).Has x ↔ x = name ∨ scope.Has x := by
  unfold Has Scope.bind Scope.get?
  simp only [OrderedMap.find?_insert, Std.compare_eq_iff_eq]
  by_cases h : x = name <;> simp [h]

theorem has_update (h : scope.Has x ∨ other.Has x) : (scope.update other).Has x := by
  refine OrderedMap.isSome_find?_insertAll x other (h.imp_right fun hother => ?_)
  obtain ⟨v, hv⟩ := Option.isSome_iff_exists.mp hother
  obtain ⟨k, hmem, hk⟩ := OrderedMap.exists_mem_of_find? hv
  exact ⟨(k, v), hmem, hk⟩

end Scope

/-- The bindings after a match, from those before it: their values have the property, none is lost,
and the given names are bound. -/
structure Bound (V : Value → Prop) (names : List String) (before after : Scope) : Prop where
  gives : after.Gives V
  old : ∀ x, before.Has x → after.Has x
  new : ∀ x ∈ names, after.Has x

namespace Bound

variable {V : Value → Prop} {m n : List String} {first second third : Scope}

theorem refl (h : first.Gives V) : Bound V [] first first :=
  ⟨h, fun _ h => h, fun _ h => absurd h List.not_mem_nil⟩

theorem trans (h : Bound V m first second) (h' : Bound V n second third) :
    Bound V (m ++ n) first third := by
  refine ⟨h'.gives, fun x hx => h'.old x (h.old x hx), fun x hx => ?_⟩
  rcases List.mem_append.mp hx with hx | hx
  · exact h'.old x (h.new x hx)
  · exact h'.new x hx

theorem mono (h : Bound V m first second) (hn : ∀ x ∈ n, x ∈ m) : Bound V n first second :=
  ⟨h.gives, h.old, fun x hx => h.new x (hn x hx)⟩

end Bound

/-- The extra element of an array pattern, and the slots before and after it. -/
theorem slots_eq_of_findIdx? {slots : List Slot} {i : Nat}
    (h : slots.findIdx? Slot.isExtra = some i) :
    ∃ name fallback, slots[i]? = some (.mk (some (.extra name)) fallback) ∧
      slots = slots.take i ++ .mk (some (.extra name)) fallback :: slots.drop (i + 1) := by
  obtain ⟨hlt, hextra, -⟩ := List.findIdx?_eq_some_iff_getElem.mp h
  have hget : slots[i]? = some slots[i] := List.getElem?_eq_getElem hlt
  have hsplit : slots = slots.take i ++ slots[i] :: slots.drop (i + 1) := by
    rw [← List.drop_eq_getElem_cons hlt, List.take_append_drop]
  obtain ⟨name, fallback, hslot⟩ : ∃ name fallback,
      slots[i] = .mk (some (.extra name)) fallback := by
    unfold Slot.isExtra at hextra
    split at hextra
    next name fallback heq => exact ⟨name, fallback, heq⟩
    next => cases hextra
  rw [hslot] at hget hsplit
  exact ⟨name, fallback, hget, hsplit⟩

theorem Slot.variables_eq (slot : Slot) :
    slot.variables = slot.pattern.elim [] Pattern.variables := by
  obtain ⟨pattern, fallback⟩ := slot
  cases pattern <;> rfl

/-! ## Matching patterns -/

/-- Whether a pattern can be matched as an element of a set: it has a value or takes what is
left. -/
def Pattern.fitsInSet : Pattern → Bool
  | .extra _ => true
  | .expr e => !e.isIdent
  | _ => false

/-- What matching in a scope relies on: expressions and patterns with properties that go on to what
a pattern reads and matches, that are evaluated and matched safely. -/
structure Evaluator.Matching (V : Value → Prop) (E : Expr → Prop) (P : Pattern → Prop)
    (F : Failure → Prop) (ev : Evaluator) (scope : Scope) : Prop where
  hereditary : Value.Hereditary V
  eval {e : Expr} (he : E e) : (ev.eval e scope).Safe F V
  bind {pattern : Pattern} {v : Value} {bound : Scope} (hpattern : P pattern) (hv : V v)
    (hbound : bound.Gives V) :
    (ev.bind pattern scope v bound).Safe F (Bound V pattern.variables bound)
  reads {pattern : Pattern} (h : P pattern) : ∀ e ∈ pattern.reads, E e
  parts {pattern : Pattern} (h : P pattern) : ∀ part ∈ pattern.parts, P part
  unfit {elements : List Pattern} (h : P (.set elements)) :
    ∀ p ∈ elements, p.fitsInSet = false → F ⟨none, .unsupportedElement p.text⟩
  mismatch {cause : Cause} (h : cause.isMismatch = true) : F ⟨none, cause⟩

namespace Evaluator

section Matching

variable {V : Value → Prop} {E : Expr → Prop} {P : Pattern → Prop} {F : Failure → Prop}
  {ev : Evaluator} {scope : Scope} (m : ev.Matching V E P F scope)

include m

theorem mismatch_safe {α : Type} {Q : α → Prop} (pattern : Pattern) (v : Value) :
    (mismatch pattern v : Run α).Safe F Q := Run.Safe.fail (m.mismatch rfl)

theorem bindName_safe (pattern : Pattern) (name : String) {v : Value} {bound : Scope}
    (hv : V v) (hbound : bound.Gives V) :
    (bindName pattern name v bound).Safe F (Bound V [name] bound) := by
  have hbind : Bound V [name] bound (bound.bind name v) := by
    refine ⟨hbound.bind hv, fun x hx => Scope.has_bind.mpr (Or.inr hx), fun x hx => ?_⟩
    exact Scope.has_bind.mpr (Or.inl (List.mem_singleton.mp hx))
  unfold bindName
  split
  next =>
    split
    next => exact Run.Safe.pure hbind
    next => exact Run.Safe.fail (m.mismatch rfl)
  next => exact Run.Safe.pure hbind

theorem bindSlot_safe (whole : Pattern) (v : Value) {slot : Slot} {part : Option Value}
    {bound : Scope} (hslot : slot.Has E P) (hpart : ∀ p, part = some p → V p)
    (hbound : bound.Gives V) :
    (ev.bindSlot whole scope v slot part bound).Safe F (Bound V slot.variables bound) := by
  obtain ⟨pattern, fallback⟩ := slot
  cases pattern with
  | none => exact Run.Safe.pure (Bound.refl hbound)
  | some pattern =>
    cases part with
    | some part => exact m.bind (hslot.1 pattern rfl) (hpart part rfl) hbound
    | none =>
      cases fallback with
      | none => exact mismatch_safe m whole v
      | some fallback =>
        exact (m.eval (hslot.2 fallback rfl)).bind fun part hpart =>
          m.bind (hslot.1 pattern rfl) hpart hbound

theorem bindSlots_safe (whole : Pattern) (v : Value) {slots : List Slot} :
    ∀ {parts : List (Option Value)} {bound : Scope},
    (∀ slot ∈ slots, slot.Has E P) → (∀ p, some p ∈ parts → V p) →
    bound.Gives V →
    (ev.bindSlots whole scope v slots parts bound).Safe F
      (Bound V (Pattern.slotVariables slots) bound) := by
  induction slots with
  | nil => exact fun _ _ hbound => Run.Safe.pure (Bound.refl hbound)
  | cons slot slots ih =>
    intro parts bound hslots hparts hbound
    rw [List.forall_mem_cons] at hslots
    have hhead : ∀ p, parts.head?.join = some p → V p := by
      intro p hp
      cases parts with
      | nil => cases hp
      | cons part parts => exact hparts p (List.mem_cons.mpr (Or.inl hp.symm))
    have htail : ∀ p, some p ∈ parts.tail → V p :=
      fun p hp => hparts p (List.mem_of_mem_tail hp)
    refine (bindSlot_safe m whole v hslots.1 hhead hbound).bind fun first hfirst => ?_
    exact (ih hslots.2 htail hfirst.gives).imp fun second hsecond => hfirst.trans hsecond

theorem bindExtra_safe {extra : Option Pattern} {rest : Value} {bound : Scope}
    (hextra : ∀ p, extra = some p → P p) (hrest : V rest) (hbound : bound.Gives V) :
    (ev.bindExtra scope extra rest bound).Safe F
      (Bound V (extra.elim [] Pattern.variables) bound) := by
  cases extra with
  | none => exact Run.Safe.pure (Bound.refl hbound)
  | some pattern => exact m.bind (hextra pattern rfl) hrest hbound

theorem bindArray_safe (whole : Pattern) (v : Value) {slots : List Slot}
    {items : List (Option Value)} {bound : Scope}
    (hslots : ∀ slot ∈ slots, slot.Has E P) (hitems : V (.array items))
    (hbound : bound.Gives V) :
    (ev.bindArray whole scope v slots items bound).Safe F
      (Bound V (Pattern.slotVariables slots) bound) := by
  have hitem := m.hereditary.array.mp hitems
  unfold bindArray
  split
  next =>
    split
    next => exact mismatch_safe m whole v
    next => exact bindSlots_safe m whole v hslots hitem hbound
  next i hi =>
    obtain ⟨name, fallback, hget, hsplit⟩ := slots_eq_of_findIdx? hi
    dsimp only
    split
    next => exact mismatch_safe m whole v
    next =>
      refine (bindSlots_safe m whole v
        (fun slot hs => hslots slot (List.mem_of_mem_take hs))
        (fun p hp => hitem p (List.mem_of_mem_take hp)) hbound).bind fun first hfirst => ?_
      refine (bindSlots_safe m whole v
        (fun slot hs => hslots slot (List.mem_of_mem_drop hs))
        (fun p hp => hitem p (List.mem_of_mem_drop hp)) hfirst.gives).bind fun second hsecond => ?_
      have hrest : ∀ n k, V (.array ((items.take n).drop k)) := fun n k =>
        m.hereditary.array.mpr fun p hp =>
          hitem p (List.mem_of_mem_take (List.mem_of_mem_drop hp))
      have hextra : ∀ p, slots[i]?.bind Slot.pattern = some p → P p := by
        intro p hp
        obtain ⟨slot, hslot, hpattern⟩ := Option.bind_eq_some_iff.mp hp
        exact (hslots slot (List.mem_of_getElem? hslot)).1 p hpattern
      -- the slots on both sides are matched before the extra element between them, so its
      -- variables come last here and in the middle in the list of the pattern
      refine (bindExtra_safe m hextra (hrest _ _) hsecond.gives).imp fun third hthird => ?_
      refine ((hfirst.trans hsecond).trans hthird).mono fun x hx => ?_
      rw [hget]
      rw [hsplit] at hx
      simp only [Pattern.mem_slotVariables, List.mem_append, List.mem_cons, or_and_right, exists_or,
        exists_eq_left] at hx ⊢
      rcases hx with hx | hx | hx
      · exact Or.inl (Or.inl hx)
      · exact Or.inr hx
      · exact Or.inl (Or.inr hx)

theorem bindAttrs_safe (whole : Pattern) (v : Value) {attrs : List (String × Value)}
    (hattrs : ∀ a ∈ attrs, V a.2) {slots : List (String × Slot)} :
    ∀ {left : List (String × Value)} {extra : Option Pattern} {bound : Scope},
    (∀ slot ∈ slots, slot.2.Has E P) → (∀ a ∈ left, V a.2) →
    (∀ p, extra = some p → P p) → bound.Gives V →
    (ev.bindAttrs whole scope v attrs slots left extra bound).Safe F
      (Bound V (Pattern.attrVariables slots (extra.elim [] Pattern.variables)) bound) := by
  induction slots with
  | nil =>
    intro left extra bound _ hleft hextra hbound
    cases extra with
    | none =>
      unfold bindAttrs
      split
      next => exact Run.Safe.pure (Bound.refl hbound)
      next => exact mismatch_safe m whole v
    | some extra =>
      exact m.bind (hextra extra rfl) (m.hereditary.tuple.mpr hleft) hbound
  | cons attr slots ih =>
    obtain ⟨name, slot⟩ := attr
    intro left extra bound hslots hleft hextra hbound
    rw [List.forall_mem_cons] at hslots
    unfold bindAttrs Pattern.attrVariables
    split
    next hisExtra =>
      -- nothing is bound yet: the extra element takes the place of the one before
      rw [Slot.variables_eq]
      exact ih hslots.2 hleft hslots.1.1 hbound
    next =>
      have hpart : ∀ p, OrderedMap.find? name attrs = some p → V p :=
        fun p hp => Value.of_find? hp hattrs
      refine (bindSlot_safe m whole v hslots.1 hpart hbound).bind fun first hfirst => ?_
      have hleft' : ∀ a ∈ OrderedMap.erase name left, V a.2 :=
        fun a ha => hleft a ((OrderedMap.erase_sublist _ _).subset ha)
      exact (ih hslots.2 hleft' hextra hfirst.gives).imp fun second hsecond =>
        hfirst.trans hsecond

theorem bindEntries_safe (whole : Pattern) (v : Value) {entries : List (Value × Value)}
    (hentries : ∀ e ∈ entries, V e.1 ∧ V e.2) {slots : List (Option Expr × Slot)} :
    ∀ {left : List (Value × Value)} {extra : Option Pattern} {bound : Scope},
    (∀ slot ∈ slots, slot.2.Has E P) →
    (∀ slot ∈ slots, ∀ key, slot.1 = some key → E key) → (∀ e ∈ left, V e.1 ∧ V e.2) →
    (∀ p, extra = some p → P p) → bound.Gives V →
    (ev.bindEntries whole scope v entries slots left extra bound).Safe F
      (Bound V (Pattern.entryVariables slots (extra.elim [] Pattern.variables)) bound) := by
  induction slots with
  | nil =>
    intro left extra bound _ _ hleft hextra hbound
    cases extra with
    | none =>
      unfold bindEntries
      split
      next => exact Run.Safe.pure (Bound.refl hbound)
      next => exact mismatch_safe m whole v
    | some extra =>
      exact m.bind (hextra extra rfl) (m.hereditary.dict.mpr hleft) hbound
  | cons entry slots ih =>
    obtain ⟨key, slot⟩ := entry
    intro left extra bound hslots hkeys hleft hextra hbound
    rw [List.forall_mem_cons] at hslots hkeys
    cases key with
    | none =>
      unfold bindEntries Pattern.entryVariables
      rw [Slot.variables_eq]
      exact ih hslots.2 hkeys.2 hleft hslots.1.1 hbound
    | some key =>
      refine (m.eval (hkeys.1 key rfl)).bind fun k _ => ?_
      have hpart : ∀ p, OrderedMap.find? k entries = some p → V p :=
        fun p hp => Value.of_find? hp fun e he => (hentries e he).2
      refine (bindSlot_safe m whole v hslots.1 hpart hbound).bind fun first hfirst => ?_
      have hleft' : ∀ e ∈ OrderedMap.erase k left, V e.1 ∧ V e.2 :=
        fun e he => hleft e ((OrderedMap.erase_sublist _ _).subset he)
      exact (ih hslots.2 hkeys.2 hleft' hextra hfirst.gives).imp fun second hsecond =>
        hfirst.trans hsecond

theorem bindMembers_safe (whole : Pattern) (v : Value) {elements : List Pattern} :
    ∀ {left : List Value} {extra : Option Pattern} {bound : Scope},
    (∀ p ∈ elements, P p) →
    (∀ p ∈ elements, p.fitsInSet = false → F ⟨none, .unsupportedElement p.text⟩) →
    (∀ m ∈ left, V m) → (∀ p, extra = some p → P p) → bound.Gives V →
    (ev.bindMembers whole scope v elements left extra bound).Safe F
      (Bound V (Pattern.memberVariables elements (extra.elim [] Pattern.variables)) bound) := by
  induction elements with
  | nil =>
    intro left extra bound _ _ hleft hextra hbound
    cases extra with
    | none =>
      unfold bindMembers
      split
      next => exact Run.Safe.pure (Bound.refl hbound)
      next => exact mismatch_safe m whole v
    | some extra => exact m.bind (hextra extra rfl) (m.hereditary.set.mpr hleft) hbound
  | cons element elements ih =>
    intro left extra bound helements hunfit hleft hextra hbound
    rw [List.forall_mem_cons] at helements hunfit
    cases element with
    | extra name =>
      exact ih helements.2 hunfit.2 hleft (fun p hp => by cases hp; exact helements.1) hbound
    | expr e =>
      unfold bindMembers Pattern.memberVariables
      split
      next hident => exact Run.Safe.fail (hunfit.1 (by rw [Pattern.fitsInSet, hident]; rfl))
      next hident =>
        -- such an element only takes a member away, so that it adds no variables
        have he : e ∈ (Pattern.expr e).reads :=
          Pattern.mem_reads_of_mem_literals (by simp [Pattern.literals, hident])
        refine (m.eval (m.reads helements.1 e he)).bind fun member _ => ?_
        split
        next =>
          have hleft' : ∀ m ∈ OrderedSet.erase member left, V m :=
            fun m hm => hleft m ((OrderedSet.erase_sublist _ _).subset hm)
          exact ih helements.2 hunfit.2 hleft' hextra hbound
        next => exact mismatch_safe m whole v
    | exprs | array | tuple | dict | set => exact Run.Safe.fail (hunfit.1 rfl)

theorem meetsOne_safe (v : Value) {es : List Expr} (hes : ∀ e ∈ es, E e) :
    (ev.meetsOne scope v es).Safe F fun _ => True := by
  induction es with
  | nil => exact Run.Safe.pure True.intro
  | cons e es ih =>
    rw [List.forall_mem_cons] at hes
    refine (m.eval hes.1).bind fun candidate _ => ?_
    split
    next => exact Run.Safe.pure True.intro
    next => exact ih hes.2

/-- One level of matching: it is safe if the matching of the parts is. -/
theorem bindStep_safe {pattern : Pattern} {v : Value} {bound : Scope} (hpattern : P pattern)
    (hv : V v) (hbound : bound.Gives V) :
    (ev.bindStep pattern scope v bound).Safe F (Bound V pattern.variables bound) := by
  have hreads := m.reads hpattern
  have hslots := Pattern.slot_has hreads (m.parts hpattern)
  -- a pattern of expressions tests the value and binds nothing
  have hmeets : ∀ (whole : Pattern) (es : List Expr), (∀ e ∈ es, E e) →
      (do if ← ev.meetsOne scope v es then pure bound else mismatch whole v : Run Scope).Safe F
        (Bound V [] bound) := by
    intro whole es hes
    refine (meetsOne_safe m v hes).bind fun met _ => ?_
    split
    next => exact Run.Safe.pure (Bound.refl hbound)
    next => exact mismatch_safe m whole v
  have hnone : ∀ p : Pattern, none = some p → P p := by simp
  unfold bindStep
  split
  next name span =>
    unfold Pattern.variables
    by_cases hname : name = "_"
    · rw [if_pos hname, if_pos (beq_iff_eq.mpr hname)]
      exact Run.Safe.pure (Bound.refl hbound)
    · rw [if_neg hname, if_neg (fun heq => hname (beq_iff_eq.mp heq))]
      exact bindName_safe m _ name hv hbound
  next e hident =>
    have hname : e.ident? = none := by
      cases e with
      | ident name span => exact absurd rfl (hident name span)
      | _ => rfl
    have he : e ∈ (Pattern.expr e).reads :=
      Pattern.mem_reads_of_mem_literals (by simp [Pattern.literals, Expr.isIdent, hname])
    rw [Pattern.variables_expr hname]
    exact hmeets _ [e] (List.forall_mem_singleton.mpr (hreads e he))
  next es => exact hmeets _ es fun e he => hreads e (Pattern.mem_reads_of_mem_literals he)
  next => exact Run.Safe.pure (Bound.refl hbound)
  next name => exact bindName_safe m _ name hv hbound
  next slots =>
    split
    next items => exact bindArray_safe m _ _ hslots hv hbound
    next =>
      have hitems := m.hereditary.array.mpr fun _ hmem => absurd hmem List.not_mem_nil
      exact bindArray_safe m _ _ hslots hitems hbound
    next => exact mismatch_safe m _ _
  next slots =>
    have hslots : ∀ slot ∈ slots, slot.2.Has E P :=
      fun slot hmem => hslots slot.2 (List.mem_map_of_mem hmem)
    split
    next attrs =>
      have hattrs := m.hereditary.tuple.mp hv
      exact bindAttrs_safe m _ _ hattrs hslots hattrs hnone hbound
    next =>
      have hattrs := List.forall_mem_nil fun a : String × Value => V a.2
      exact bindAttrs_safe m _ _ hattrs hslots hattrs hnone hbound
    next => exact mismatch_safe m _ _
  next slots =>
    have hslots : ∀ slot ∈ slots, slot.2.Has E P :=
      fun slot hmem => hslots slot.2 (List.mem_map_of_mem hmem)
    have hkeys : ∀ slot ∈ slots, ∀ key, slot.1 = some key → E key := fun slot hmem key heq =>
      hreads key (Pattern.mem_reads_of_mem_keys (List.mem_filterMap.mpr ⟨slot, hmem, heq⟩))
    split
    next entries =>
      have hentries := m.hereditary.dict.mp hv
      exact bindEntries_safe m _ _ hentries hslots hkeys hentries hnone hbound
    next =>
      have hentries := List.forall_mem_nil fun e : Value × Value => V e.1 ∧ V e.2
      exact bindEntries_safe m _ _ hentries hslots hkeys hentries hnone hbound
    next => exact mismatch_safe m _ _
  next elements =>
    split
    next members =>
      exact bindMembers_safe m _ _ (m.parts hpattern) (m.unfit hpattern)
        (m.hereditary.set.mp hv) hnone hbound
    next => exact mismatch_safe m _ _

end Matching

/-! ## Evaluating expressions -/

/-- What a construct needs of its own, besides its parts: operands of an operator and arms of a
choice that run safely, functions with the property, and a form that it can work with or failures
that are allowed. -/
def Needs (V : Value → Prop) (F C : Failure → Prop) (ev : Evaluator) (scope : Scope) : Expr → Prop
  | .literal v _ => V v
  | .ident name _ => scope.Has name ∨ C ⟨none, .unbound name⟩
  | .binary op lhs rhs _ => (ev.binary op lhs rhs scope).Safe C V
  | .compare args ops _ =>
    args.length = ops.length + 1 ∨ C ⟨none, .emptyChain⟩ ∧ ∀ m n, C ⟨none, .chainArity m n⟩
  | .condControl _ arms _ => ∀ v, V v → (ev.firstArm scope v arms).Safe F V
  | .cond conditions _ =>
    (∃ entries conditional place, conditions = .dict entries conditional place) ∨
      (∃ entries place, conditions = .literal (.dict entries) place ∧
        (ev.eval conditions scope).Safe F (· = .dict entries)) ∨
      ∀ got, F ⟨none, .unexpected "cond" "a dict" got⟩
  | .function param body _ => ∀ identity, V (.closure identity param body scope)
  | .recursion name base _ _ span =>
    ∀ identity, V (.closure identity (.expr (.ident name span)) base scope)
  | _ => True

/-- What evaluating in a scope relies on: calls that are safe, and failures that are allowed once
they are placed. -/
structure Evaluating (V : Value → Prop) (F C : Failure → Prop) (ev : Evaluator) (scope : Scope) :
    Prop where
  hereditary : Value.Hereditary V
  gives : scope.Gives V
  call {f arg : Value} (hf : V f) (harg : V arg) : (ev.call f arg).Safe C V
  raised {cause : Cause} (h : cause.blamesExpr = false) : C ⟨none, cause⟩
  placed {failure : Failure} (span : Span) (h : C failure) : F (failure.within span)

section Evaluating

variable {V : Value → Prop} {F C : Failure → Prop} {ev : Evaluator} {scope : Scope}
  (s : ev.Evaluating V F C scope)

include s

theorem placed_safe {α : Type} {r : Run α} {Q : α → Prop} (h : r.Safe C Q) (span : Span) :
    (Run.within span r).Safe F Q := h.within fun _ => s.placed span

theorem operation_safe {α : Type} {x : Except Cause α} {Q : α → Prop} (h : Sound x Q)
    (span : Span) : (Run.within span (Run.ofExcept x)).Safe F Q :=
  placed_safe s (Run.Safe.ofExcept h fun _ => s.raised) span

theorem chain_safe (span : Span) {args : List Expr} : ∀ {l : Value} {ops : List CompareOp},
    (∀ arg ∈ args, (ev.eval arg scope).Safe F V) → (ev.chain span scope l ops args).Safe F V := by
  have hbool : ∀ b, (pure (.bool b) : Run Value).Safe F V := fun b =>
    Run.Safe.pure (s.hereditary.bool b)
  induction args with
  | nil =>
    intro l ops _
    cases ops <;> exact hbool true
  | cons arg args ih =>
    intro l ops hargs
    rw [List.forall_mem_cons] at hargs
    cases ops with
    | nil => exact hbool true
    | cons op ops =>
      refine hargs.1.bind fun r _ => ?_
      refine (operation_safe s (Value.holds_sound op l r) span).bind fun holds _ => ?_
      split
      next => exact ih hargs.2
      next => exact hbool false

theorem compareChain_safe {args : List Expr} {ops : List CompareOp} {span : Span}
    (hargs : ∀ arg ∈ args, (ev.eval arg scope).Safe F V)
    (hneeds : Needs V F C ev scope (.compare args ops span)) :
    (ev.compareChain args ops span scope).Safe F V := by
  unfold compareChain
  split
  next =>
    rcases hneeds with hlength | hfail
    · simp at hlength
    · exact placed_safe s (Run.Safe.fail hfail.1) span
  next first rest =>
    rw [List.forall_mem_cons] at hargs
    split
    next => exact hargs.1.bind fun l _ => chain_safe s span hargs.2
    next hne =>
      rcases hneeds with hlength | hfail
      · exact absurd (Nat.succ.inj hlength) hne
      · exact placed_safe s (Run.Safe.fail (hfail.2 _ _)) span

omit s in
/-- A choice goes through its arms: a failed match is passed over if it is a mismatch and passed on
otherwise. -/
theorem firstArm_safe {B : Failure → Prop} (hnothing : V .nothing)
    (hB : ∀ failure, B failure → failure.cause.isMismatch = false → F failure) {v : Value}
    {arms : List (Pattern × Expr)}
    (harms : ∀ arm ∈ arms, (ev.bindings arm.1 scope v).Safe B fun bound =>
      (ev.eval arm.2 (scope.update bound)).Safe F V) :
    (ev.firstArm scope v arms).Safe F V := by
  induction arms with
  | nil => exact Run.Safe.pure hnothing
  | cons arm arms ih =>
    obtain ⟨pattern, body⟩ := arm
    rw [List.forall_mem_cons] at harms
    -- the body is not attempted: its failures go through even if they are mismatches
    refine harms.1.attempt.bind fun tried htried => ?_
    split
    next bound => exact htried
    next failure =>
      split
      next => exact ih harms.2
      next hmismatch => exact Run.Safe.rethrow (hB failure htried (by simpa using hmismatch))

theorem firstEntry_safe {entries : List DictEntry}
    (hentries : ∀ entry ∈ entries, ∀ e ∈ entry.alternatives, (ev.eval e scope).Safe F V) :
    (ev.firstEntry scope entries).Safe F V := by
  induction entries with
  | nil => exact Run.Safe.pure s.hereditary.nothing
  | cons entry entries ih =>
    rw [List.forall_mem_cons] at hentries
    obtain ⟨hentry, hentries⟩ := hentries
    unfold firstEntry
    split
    -- the entry of `_` is taken without a look at its key
    next hident =>
      rw [DictEntry.alternatives, if_pos hident] at hentry
      exact hentry _ (List.mem_singleton_self _)
    next hident =>
      rw [DictEntry.alternatives, if_neg hident] at hentry
      obtain ⟨hkey, hvalue⟩ := List.forall_mem_cons.mp hentry
      refine hkey.bind fun key _ => ?_
      split
      next => exact hvalue _ (List.mem_singleton_self _)
      next => exact ih hentries

theorem firstTruthy_safe {v : Value} (hv : V v)
    (hdict : (∃ entries, v = .dict entries) ∨ ∀ got, F ⟨none, .unexpected "cond" "a dict" got⟩) :
    (Run.ofExcept (firstTruthy v)).Safe F V := by
  unfold firstTruthy
  split
  next entries =>
    split
    next key value hfind =>
      exact Run.Safe.pure (s.hereditary.dict.mp hv _ (List.mem_of_find?_eq_some hfind)).2
    next => exact Run.Safe.pure s.hereditary.nothing
  next hnot =>
    rcases hdict with ⟨entries, rfl⟩ | hfail
    · exact absurd rfl (hnot entries)
    · exact Run.Safe.fail (hfail _)

theorem condition_safe {conditions : Expr} {span : Span}
    (hparts : ∀ part ∈ (Expr.cond conditions span).parts, (ev.eval part scope).Safe F V)
    (hneeds : Needs V F C ev scope (.cond conditions span)) :
    (ev.condition conditions scope).Safe F V := by
  unfold condition
  split
  next entries _ _ =>
    refine firstEntry_safe s fun entry hentry e hmem => hparts e ?_
    exact List.mem_flatMap.mpr ⟨entry, hentry, hmem⟩
  next hnot =>
    have hconditions : (ev.eval conditions scope).Safe F V := by
      refine hparts conditions ?_
      cases conditions with
      | dict entries conditional place => exact absurd rfl (hnot entries conditional place)
      | _ => exact List.mem_singleton_self _
    rcases hneeds with ⟨entries, conditional, place, rfl⟩ | ⟨entries, place, rfl, hliteral⟩ | hfail
    · exact absurd rfl (hnot entries conditional place)
    · refine (hconditions.and hliteral).bind fun v hv => ?_
      exact firstTruthy_safe s hv.1 (Or.inl ⟨entries, hv.2⟩)
    · exact hconditions.bind fun v hv => firstTruthy_safe s hv (Or.inr hfail)

theorem attr_safe (attr : Option (String × Span)) {v : Value} (hv : V v) :
    Run.Safe F
      (match attr with
      | none => pure v
      | some (attr, span) => Run.within span (Run.ofExcept (v.getAttr attr))) V := by
  cases attr with
  | none => exact Run.Safe.pure hv
  | some attr => exact operation_safe s (Value.getAttr_sound s.hereditary hv attr.1) attr.2

theorem step_safe {v : Value} (hv : V v) {step : SafeStep}
    (hargs : ∀ arg ∈ step.arguments, (ev.eval arg scope).Safe F V) :
    (ev.step scope v step).Safe F V := by
  obtain ⟨safe, args, attr⟩ := step
  cases args with
  | none => exact (Run.Safe.pure hv).bind fun v hv => attr_safe s attr hv
  | some call =>
    obtain ⟨args, span⟩ := call
    have hcalls : (ev.callArgs span scope v args).Safe F V := by
      refine Run.Safe.foldl (fun v hv arg harg => ?_) hv
      exact (hargs arg harg).bind fun arg harg => placed_safe s (s.call hv harg) span
    exact hcalls.bind fun v hv => attr_safe s attr hv

theorem safeChain_safe {fallback : Expr} (hfallback : (ev.eval fallback scope).Safe F V)
    {steps : List SafeStep} : ∀ {v : Value}, V v →
    (∀ step ∈ steps, ∀ arg ∈ step.arguments, (ev.eval arg scope).Safe F V) →
    (ev.safeChain fallback scope v steps).Safe F V := by
  induction steps with
  | nil => exact fun hv _ => Run.Safe.pure hv
  | cons step steps ih =>
    intro v hv hsteps
    rw [List.forall_mem_cons] at hsteps
    refine (step_safe s hv hsteps.1).attempt.bind fun tried htried => ?_
    split
    next next => exact ih htried hsteps.2
    next failure =>
      split
      next => exact hfallback
      next => exact Run.Safe.rethrow htried

theorem row_safe (names : List String) {values : List Expr}
    (hvalues : ∀ e ∈ values, (ev.eval e scope).Safe F V) :
    (ev.row names scope values).Safe F V := by
  refine (Run.Safe.traverse (Q := fun a => V a.2) fun attr hmem => ?_).bind
    fun attrs hattrs => Run.Safe.pure (s.hereditary.tuple_ofList hattrs)
  have he := hvalues attr.2 (List.of_mem_zip hmem).2
  exact he.bind fun v hv => Run.Safe.pure hv

theorem partText_safe (span : Span) {part : TextPart}
    (hpart : ∀ e, part.expr? = some e → (ev.eval e scope).Safe F V) :
    (ev.partText span scope part).Safe F fun _ => True := by
  cases part with
  | text => exact Run.Safe.pure True.intro
  | expr e format =>
    refine (hpart e rfl).bind fun v _ => ?_
    exact placed_safe s (Run.formatted_safe fun _ => s.raised) span

theorem recursion_safe {name : String} {base fix fixt : Expr} {span : Span}
    (hparts : ∀ part ∈ [fix, fixt], (ev.eval part scope).Safe F V)
    (hneeds : Needs V F C ev scope (.recursion name base fix fixt span)) :
    (ev.recursion name base fix fixt span scope).Safe F V := by
  have hcombinator : Sound (combinator base fix fixt) fun e => (ev.eval e scope).Safe F V := by
    unfold combinator
    split
    next => exact hparts fix (List.mem_cons_self ..)
    next => exact hparts fixt (List.mem_cons_of_mem _ (List.mem_singleton_self _))
    next => exact Sound.error rfl
  refine (operation_safe s hcombinator span).bind fun combinator hcombinator => ?_
  refine Run.Safe.fresh.bind fun identity _ => ?_
  refine hcombinator.bind fun combine hcombine => ?_
  exact placed_safe s (s.call hcombine (hneeds identity)) span

/-- One level of evaluation: it is safe if the evaluation of the parts is. -/
theorem evalStep_safe {e : Expr} (hparts : ∀ part ∈ e.parts, (ev.eval part scope).Safe F V)
    (hneeds : Needs V F C ev scope e) : (ev.evalStep e scope).Safe F V := by
  -- constructs with one operand apply an operation to its value
  have hoperand : ∀ {operand : Expr} {operation : Value → Except Cause Value} {span : Span},
      (ev.eval operand scope).Safe F V → (∀ v, V v → Sound (operation v) V) →
      (do let v ← ev.eval operand scope
          Run.within span (Run.ofExcept (operation v)) : Run Value).Safe F V := by
    intro operand operation span hoperand hoperation
    exact hoperand.bind fun v hv => operation_safe s (hoperation v hv) span
  cases e with
  | literal value span => exact Run.Safe.pure hneeds
  | ident name span =>
    simp only [evalStep]
    split
    next v hv => exact Run.Safe.pure (s.gives.get? hv)
    next hnone =>
      rcases hneeds with hname | hfail
      · rw [Scope.Has, hnone] at hname
        cases hname
      · exact placed_safe s (Run.Safe.fail hfail) span
  | dot lhs attr span =>
    exact hoperand (hparts lhs (List.mem_singleton_self _)) fun v hv =>
      Value.getAttr_sound s.hereditary hv attr
  | project lhs inverse attrs span =>
    exact hoperand (hparts lhs (List.mem_singleton_self _)) fun v hv =>
      Value.project_sound s.hereditary inverse attrs v hv
  | nest lhs inverse attrs name span =>
    exact hoperand (hparts lhs (List.mem_singleton_self _)) fun v hv =>
      Value.nest_sound s.hereditary inverse attrs name hv
  | unary op operand span =>
    exact hoperand (hparts operand (List.mem_singleton_self _)) fun v hv =>
      Value.prefixed_sound s.hereditary op hv
  | count operand span =>
    exact hoperand (hparts operand (List.mem_singleton_self _)) fun v _ =>
      Value.count_sound s.hereditary v
  | single operand span =>
    exact hoperand (hparts operand (List.mem_singleton_self _)) fun v hv =>
      Value.single_sound s.hereditary hv
  | call func arg span =>
    obtain ⟨hfunc, harg⟩ := List.forall_mem_cons.mp hparts
    exact hfunc.bind fun f hf => (harg arg (List.mem_singleton_self _)).bind fun a ha =>
      placed_safe s (s.call hf ha) span
  | binary op lhs rhs span => exact placed_safe s hneeds span
  | package inner | paren inner => exact hparts inner (List.mem_singleton_self _)
  | compare args ops span => exact compareChain_safe s hparts hneeds
  | ifElse ifTrue condition ifFalse span =>
    obtain ⟨hcond, hbranches⟩ := List.forall_mem_cons.mp hparts
    obtain ⟨htrue, hfalse⟩ := List.forall_mem_cons.mp hbranches
    refine hcond.bind fun c _ => ?_
    split
    next => exact htrue
    next => exact hfalse ifFalse (List.mem_singleton_self _)
  | condControl control arms span =>
    exact (hparts control (List.mem_singleton_self _)).bind fun v hv => hneeds v hv
  | cond conditions span => exact condition_safe s hparts hneeds
  | safeTail fallback base steps span =>
    obtain ⟨hbase, hrest⟩ := List.forall_mem_cons.mp hparts
    obtain ⟨hfallback, hsteps⟩ := List.forall_mem_cons.mp hrest
    refine hbase.bind fun v hv => safeChain_safe s hfallback hv fun step hstep arg harg => ?_
    exact hsteps arg (List.mem_flatMap.mpr ⟨step, hstep, harg⟩)
  | relation names rows span =>
    refine (Run.Safe.traverse fun row hrow => row_safe s names fun e he =>
      hparts e (List.mem_flatten.mpr ⟨row, hrow, he⟩)).bind fun tuples htuples => ?_
    exact Run.Safe.pure (s.hereditary.set_foldl_insert htuples (List.forall_mem_nil _))
  | set elements span =>
    exact (Run.Safe.traverse hparts).bind fun members hmembers =>
      Run.Safe.pure (s.hereditary.set_ofList hmembers)
  | dict entries conditional span =>
    refine (Run.Safe.traverse (Q := fun e => V e.1 ∧ V e.2) fun entry hmem => ?_).bind
      fun pairs hpairs => Run.Safe.pure (s.hereditary.dict_ofList hpairs)
    obtain ⟨hkey, hvalue⟩ := List.forall_mem_cons.mp fun e he =>
      hparts e (List.mem_flatMap.mpr ⟨entry, hmem, he⟩)
    exact hkey.bind fun k hk => (hvalue _ (List.mem_singleton_self _)).bind fun v hv =>
      Run.Safe.pure ⟨hk, hv⟩
  | array items span =>
    refine (Run.Safe.traverseItems fun e hmem => hparts e ?_).bind
      fun values hvalues => Run.Safe.pure (s.hereditary.array.mpr hvalues)
    exact List.mem_filterMap.mpr ⟨some e, hmem, rfl⟩
  | bytes items span =>
    refine (Run.Safe.traverse (Q := fun _ => True) fun item hmem => ?_).bind
      fun values _ => Run.Safe.pure (s.hereditary.bytes values)
    exact (hparts item hmem).bind fun v _ => operation_safe s (byte_sound v) span
  | tuple attrs span =>
    refine (Run.Safe.traverse (Q := fun a => V a.2) fun attr hmem => ?_).bind
      fun values hvalues => Run.Safe.pure (s.hereditary.tuple_ofList hvalues)
    exact (hparts attr.2 (List.mem_map_of_mem hmem)).bind fun v hv => Run.Safe.pure hv
  | function param body span =>
    exact Run.Safe.fresh.bind fun identity _ => Run.Safe.pure (hneeds identity)
  | recursion name base fix fixt span => exact recursion_safe s hparts hneeds
  | xstr parts span =>
    refine (Run.Safe.traverse (Q := fun _ => True) fun part hmem => ?_).bind
      fun texts _ => Run.Safe.pure (s.hereditary.string _)
    exact partText_safe s span fun e he => hparts e (List.mem_filterMap.mpr ⟨part, hmem, he⟩)

end Evaluating

end Evaluator

end Relational
