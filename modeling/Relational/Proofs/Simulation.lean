import Relational.Proofs.Correspondence
import Relational.Proofs.Invariant

/-!
# Simulation of one evaluator by another

The rules of the language keep a lawful correspondence, one level at a time:

> If the parts are evaluated, called and matched in lockstep, so is the whole: `bindStep_sim`,
> `callStep_sim` and `evalStep_sim`.

Only a text with substitutions shows what a value looks like, and there it has to be shown alike.
-/

namespace Relational

namespace Evaluator

variable {C : Correspondence} (L : C.Lawful) {ev ev' : Evaluator} (h : ev.Sim C ev')
  {scope scope' : Scope}

include L

/-! ## Matching patterns -/

section Slots

omit L in
/-- The pattern of a slot reads no more than the slot. -/
theorem slotPattern_like {slot slot' : Slot} (hslot : C.slotIn scope scope' slot slot') :
    Option.Rel (C.patternIn scope scope') slot.pattern slot'.pattern := by
  obtain ⟨pattern, fallback⟩ := slot
  obtain ⟨pattern', fallback'⟩ := slot'
  obtain ⟨⟨hpattern, -⟩, hscope⟩ := hslot
  cases (hpattern : Option.Rel C.pattern pattern pattern') with
  | none => exact .none
  | some hp =>
    cases fallback with
    | none => exact .some ⟨hp, hscope⟩
    | some e => exact .some ⟨hp, (Scope.like_append.mp hscope).1⟩

omit L in
theorem entries_like {slots slots' : List (Option Expr × Slot)}
    (hscope : scope.Like C.value (Pattern.dict slots).names scope')
    (hslots : List.Forall₂ (Both (Option.Rel C.expr) (Slot.Like C.expr C.pattern)) slots slots') :
    List.Forall₂ (Both (Option.Rel (C.exprIn scope scope')) (C.slotIn scope scope'))
      slots slots' := by
  have hnames : ∀ entry entries, Pattern.namesEntries (entry :: entries) =
      (entry.1.elim .none Expr.names ++ entry.2.names) ++ Pattern.namesEntries entries := by
    rintro ⟨_ | key, slot⟩ entries <;> rfl
  refine (hscope.forall₂ hnames hslots).imp fun entry entry' hentry => ?_
  obtain ⟨key, slot⟩ := entry
  obtain ⟨key', slot'⟩ := entry'
  obtain ⟨⟨hkey, hslot⟩, hentry⟩ := hentry
  obtain ⟨hkeyscope, hslotscope⟩ := Scope.like_append.mp hentry
  refine ⟨?_, hslot, hslotscope⟩
  cases (hkey : Option.Rel C.expr key key') with
  | none => exact .none
  | some hkey => exact .some ⟨hkey, hkeyscope⟩

theorem isExtra_eq {slot slot' : Slot} (hslot : slot.Like C.expr C.pattern slot') :
    slot.isExtra = slot'.isExtra := by
  obtain ⟨pattern, fallback⟩ := slot
  obtain ⟨pattern', fallback'⟩ := slot'
  cases (hslot.pattern : Option.Rel C.pattern pattern pattern') with
  | none => rfl
  | some hp => cases L.matched hp <;> rfl

end Slots

section Matching

variable {whole whole' : Pattern} (hwhole : C.pattern whole whole') {v v' : Value}
  (hv : C.value v v')

include hwhole hv

theorem mismatch_sim {α α' : Type} {Q : α → α' → Prop} :
    C.Sim (mismatch whole v) (mismatch whole' v') Q :=
  .fail (.mismatch (L.likeness.text hv) (L.patternText hwhole))

theorem bindName_sim (name : String) {bound bound' : Scope} (hbound : C.bindings bound bound') :
    C.Sim (bindName whole name v bound) (bindName whole' name v' bound') C.bindings := by
  have hold := OrderedMap.find?_like (k := name) KeepsOrder.eq rfl hbound
  have hnew : C.bindings (bound.bind name v) (bound'.bind name v') :=
    OrderedMap.insert_like KeepsOrder.eq rfl hv hbound
  unfold bindName Scope.get?
  generalize OrderedMap.find? name bound = old at hold ⊢
  generalize OrderedMap.find? name bound' = old' at hold ⊢
  cases hold with
  | none => exact .pure hnew
  | some hold =>
    dsimp only
    rw [L.likeness.beq_eq hold hv]
    split
    next => exact .pure hnew
    next =>
      exact .fail (.rebound (L.likeness.text hv) (L.likeness.text hold) (L.patternText hwhole))

include h

theorem bindSlot_sim {slot slot' : Slot} (hslot : C.slotIn scope scope' slot slot')
    {part part' : Option Value} (hpart : Option.Rel C.value part part') {bound bound' : Scope}
    (hbound : C.bindings bound bound') :
    C.Sim (ev.bindSlot whole scope v slot part bound)
      (ev'.bindSlot whole' scope' v' slot' part' bound') C.bindings := by
  obtain ⟨pattern, fallback⟩ := slot
  obtain ⟨pattern', fallback'⟩ := slot'
  obtain ⟨⟨hpattern, hfallback⟩, hscope⟩ := hslot
  cases (hpattern : Option.Rel C.pattern pattern pattern') with
  | none => exact .pure hbound
  | some hp =>
    cases (hfallback : Option.Rel C.expr fallback fallback') with
    | none =>
      cases hpart with
      | some hpart => exact h.bind ⟨hp, hscope⟩ hpart hbound
      | none => exact mismatch_sim L hwhole hv
    | some he =>
      obtain ⟨hpattern, hfallback⟩ := Scope.like_append.mp hscope
      cases hpart with
      | some hpart => exact h.bind ⟨hp, hpattern⟩ hpart hbound
      | none =>
        exact (h.eval ⟨he, hfallback⟩).bind fun _ _ hpart =>
          h.bind ⟨hp, hpattern⟩ hpart hbound

theorem bindSlots_sim {slots slots' : List Slot}
    (hslots : List.Forall₂ (C.slotIn scope scope') slots slots') :
    ∀ {parts parts' : List (Option Value)} {bound bound' : Scope},
    List.Forall₂ (Option.Rel C.value) parts parts' → C.bindings bound bound' →
    C.Sim (ev.bindSlots whole scope v slots parts bound)
      (ev'.bindSlots whole' scope' v' slots' parts' bound') C.bindings := by
  induction hslots with
  | nil => exact fun _ hbound => .pure hbound
  | cons hslot _ ih =>
    intro parts parts' bound bound' hparts hbound
    have hhead : Option.Rel C.value parts.head?.join parts'.head?.join := by
      cases hparts with
      | nil => exact .none
      | cons hpart _ => exact hpart
    exact (bindSlot_sim L h hwhole hv hslot hhead hbound).bind fun _ _ hbound =>
      ih (forall₂_tail hparts) hbound

omit L hwhole hv in
theorem bindExtra_sim {extra extra' : Option Pattern}
    (hextra : Option.Rel (C.patternIn scope scope') extra extra') {rest rest' : Value}
    (hrest : C.value rest rest') {bound bound' : Scope} (hbound : C.bindings bound bound') :
    C.Sim (ev.bindExtra scope extra rest bound) (ev'.bindExtra scope' extra' rest' bound')
      C.bindings := by
  cases hextra with
  | none => exact .pure hbound
  | some hp => exact h.bind hp hrest hbound

theorem bindArray_sim {slots slots' : List Slot}
    (hslots : List.Forall₂ (C.slotIn scope scope') slots slots')
    {items items' : List (Option Value)} (hitems : List.Forall₂ (Option.Rel C.value) items items')
    {bound bound' : Scope} (hbound : C.bindings bound bound') :
    C.Sim (ev.bindArray whole scope v slots items bound)
      (ev'.bindArray whole' scope' v' slots' items' bound') C.bindings := by
  have hindex : slots.findIdx? Slot.isExtra = slots'.findIdx? Slot.isExtra :=
    findIdx?_eq_of_rel (fun _ _ hslot => isExtra_eq L hslot.1) hslots
  unfold bindArray
  rw [hindex, hslots.length_eq, hitems.length_eq]
  split
  next =>
    split
    next => exact mismatch_sim L hwhole hv
    next => exact bindSlots_sim L h hwhole hv hslots hitems hbound
  next i _ =>
    have hbefore := List.forall₂_take i hslots
    have hafter := List.forall₂_drop (i + 1) hslots
    dsimp only
    rw [hbefore.length_eq, hafter.length_eq]
    split
    next => exact mismatch_sim L hwhole hv
    next =>
      refine (bindSlots_sim L h hwhole hv hbefore (List.forall₂_take _ hitems) hbound).bind
        fun _ _ hbound => ?_
      refine (bindSlots_sim L h hwhole hv hafter (List.forall₂_drop _ hitems) hbound).bind
        fun _ _ hbound => ?_
      have hextra : Option.Rel (C.patternIn scope scope') (slots[i]?.bind Slot.pattern)
          (slots'[i]?.bind Slot.pattern) := by
        have hslot := getElem?_rel hslots i
        generalize slots[i]? = slot at hslot ⊢
        generalize slots'[i]? = slot' at hslot ⊢
        cases hslot with
        | none => exact .none
        | some hslot => exact slotPattern_like hslot
      have hrest := L.likeness.array (List.forall₂_drop (slots'.take i).length
        (List.forall₂_take (items'.length - (slots'.drop (i + 1)).length) hitems))
      exact bindExtra_sim h hextra hrest hbound

theorem bindAttrs_sim {attrs attrs' : List (String × Value)}
    (hattrs : List.Forall₂ (Both Eq C.value) attrs attrs') {slots slots' : List (String × Slot)}
    (hslots : List.Forall₂ (Both Eq (C.slotIn scope scope')) slots slots') :
    ∀ {left left' : List (String × Value)} {extra extra' : Option Pattern} {bound bound' : Scope},
    List.Forall₂ (Both Eq C.value) left left' →
    Option.Rel (C.patternIn scope scope') extra extra' → C.bindings bound bound' →
    C.Sim (ev.bindAttrs whole scope v attrs slots left extra bound)
      (ev'.bindAttrs whole' scope' v' attrs' slots' left' extra' bound') C.bindings := by
  induction hslots with
  | nil =>
    intro left left' extra extra' bound bound' hleft hextra hbound
    cases hextra with
    | none =>
      cases hleft with
      | nil => exact .pure hbound
      | cons => exact mismatch_sim L hwhole hv
    | some hp => exact h.bind hp (L.likeness.tuple hleft) hbound
  | @cons attr attr' _ _ hattr _ ih =>
    obtain ⟨name, slot⟩ := attr
    obtain ⟨name', slot'⟩ := attr'
    obtain ⟨rfl, hslot⟩ : name = name' ∧ C.slotIn scope scope' slot slot' :=
      ⟨hattr.fst, hattr.snd⟩
    intro left left' extra extra' bound bound' hleft hextra hbound
    unfold bindAttrs
    rw [isExtra_eq L hslot.1]
    split
    next => exact ih hleft (slotPattern_like hslot) hbound
    next =>
      have hpart := OrderedMap.find?_like (k := name) KeepsOrder.eq rfl hattrs
      refine (bindSlot_sim L h hwhole hv hslot hpart hbound).bind fun _ _ hbound => ?_
      exact ih (OrderedMap.erase_like KeepsOrder.eq rfl hleft) hextra hbound

theorem bindEntries_sim {entries entries' : List (Value × Value)}
    (hentries : List.Forall₂ (Both C.value C.value) entries entries')
    {slots slots' : List (Option Expr × Slot)}
    (hslots : List.Forall₂ (Both (Option.Rel (C.exprIn scope scope')) (C.slotIn scope scope'))
      slots slots') :
    ∀ {left left' : List (Value × Value)} {extra extra' : Option Pattern} {bound bound' : Scope},
    List.Forall₂ (Both C.value C.value) left left' →
    Option.Rel (C.patternIn scope scope') extra extra' → C.bindings bound bound' →
    C.Sim (ev.bindEntries whole scope v entries slots left extra bound)
      (ev'.bindEntries whole' scope' v' entries' slots' left' extra' bound') C.bindings := by
  induction hslots with
  | nil =>
    intro left left' extra extra' bound bound' hleft hextra hbound
    cases hextra with
    | none =>
      cases hleft with
      | nil => exact .pure hbound
      | cons => exact mismatch_sim L hwhole hv
    | some hp => exact h.bind hp (L.likeness.dict hleft) hbound
  | @cons entry entry' _ _ hentry _ ih =>
    obtain ⟨key, slot⟩ := entry
    obtain ⟨key', slot'⟩ := entry'
    have hslot : C.slotIn scope scope' slot slot' := hentry.snd
    intro left left' extra extra' bound bound' hleft hextra hbound
    cases (hentry.fst : Option.Rel (C.exprIn scope scope') key key') with
    | none => exact ih hleft (slotPattern_like hslot) hbound
    | some hkey =>
      refine (h.eval hkey).bind fun k k' hk => ?_
      have hpart := OrderedMap.find?_like L.likeness.order hk hentries
      refine (bindSlot_sim L h hwhole hv hslot hpart hbound).bind fun _ _ hbound => ?_
      exact ih (OrderedMap.erase_like L.likeness.order hk hleft) hextra hbound

theorem bindMembers_sim {elements elements' : List Pattern}
    (helements : List.Forall₂ (C.patternIn scope scope') elements elements') :
    ∀ {left left' : List Value} {extra extra' : Option Pattern} {bound bound' : Scope},
    List.Forall₂ C.value left left' →
    Option.Rel (C.patternIn scope scope') extra extra' → C.bindings bound bound' →
    C.Sim (ev.bindMembers whole scope v elements left extra bound)
      (ev'.bindMembers whole' scope' v' elements' left' extra' bound') C.bindings := by
  induction helements with
  | nil =>
    intro left left' extra extra' bound bound' hleft hextra hbound
    cases hextra with
    | none =>
      cases hleft with
      | nil => exact .pure hbound
      | cons => exact mismatch_sim L hwhole hv
    | some hp => exact h.bind hp (L.likeness.set hleft) hbound
  | cons helement _ ih =>
    intro left left' extra extra' bound bound' hleft hextra hbound
    have hunfit := Cause.Like.unsupportedElement (L.patternText helement.1)
    cases L.matched helement.1 with
    | extra name => exact ih hleft (.some helement) hbound
    | name => exact .fail hunfit
    | expr he he' hexpr =>
      unfold bindMembers
      rw [he, he']
      have hscope := helement.2
      rw [Pattern.names_expr (by simpa [Expr.isIdent] using he)] at hscope
      refine (h.eval ⟨hexpr, hscope⟩).bind fun member member' hmember => ?_
      rw [OrderedSet.contains_eq L.likeness.order hmember hleft]
      split
      next => exact ih (OrderedSet.erase_like L.likeness.order hmember hleft) hextra hbound
      next => exact mismatch_sim L hwhole hv
    | exprs | array | tuple | dict | set => exact .fail hunfit

omit hwhole in
theorem meetsOne_sim {es es' : List Expr} (hes : List.Forall₂ (C.exprIn scope scope') es es') :
    C.Sim (ev.meetsOne scope v es) (ev'.meetsOne scope' v' es') Eq := by
  induction hes with
  | nil => exact .pure rfl
  | cons he _ ih =>
    refine (h.eval he).bind fun candidate candidate' hcandidate => ?_
    rw [L.likeness.beq_eq hcandidate hv]
    split
    next => exact .pure rfl
    next => exact ih

omit L h hwhole hv in
/-- A pattern that is an expression and no name asks for the value of the expression. -/
theorem bindStep_expr (ev : Evaluator) {e : Expr} (he : e.isIdent = false) (scope : Scope)
    (v : Value) (bound : Scope) :
    ev.bindStep (.expr e) scope v bound = (do
      if ← ev.meetsOne scope v [e] then pure bound else mismatch (.expr e) v) := by
  cases e with
  | ident => cases he
  | _ => rfl

omit hwhole in
/-- One level of matching. -/
theorem bindStep_sim {p p' : Pattern} (hp : C.patternIn scope scope' p p')
    {bound bound' : Scope} (hbound : C.bindings bound bound') :
    C.Sim (ev.bindStep p scope v bound) (ev'.bindStep p' scope' v' bound') C.bindings := by
  obtain ⟨hpattern, hscope⟩ := hp
  have hmismatch : C.Sim (mismatch p v) (mismatch p' v') C.bindings := mismatch_sim L hpattern hv
  -- a pattern of expressions tests the value and binds nothing
  have hmeets : ∀ {es es' : List Expr}, List.Forall₂ (C.exprIn scope scope') es es' →
      C.Sim (do if ← ev.meetsOne scope v es then pure bound else mismatch p v)
        (do if ← ev'.meetsOne scope' v' es' then pure bound' else mismatch p' v') C.bindings := by
    intro es es' hes
    refine (meetsOne_sim L h hv hes).bind ?_
    rintro met _ rfl
    split
    next => exact .pure hbound
    next => exact hmismatch
  have hshape := L.likeness.shape hv
  cases L.matched hpattern with
  | name name =>
    simp only [bindStep]
    split
    next => exact .pure hbound
    next => exact bindName_sim L hpattern hv name hbound
  | expr he he' hexpr =>
    rw [Pattern.names_expr (by simpa [Expr.isIdent] using he)] at hscope
    rw [bindStep_expr ev he, bindStep_expr ev' he']
    exact hmeets (.cons ⟨hexpr, hscope⟩ .nil)
  | exprs hes => exact hmeets (hscope.forall₂ (fun _ _ => rfl) hes)
  | extra name =>
    cases name with
    | none => exact .pure hbound
    | some name => exact bindName_sim L hpattern hv name hbound
  | array hslots =>
    have hslots := hscope.forall₂ (fun _ _ => rfl) hslots
    cases hshape with
    | array hitems => exact bindArray_sim L h hpattern hv hslots hitems hbound
    | set hmembers =>
      cases hmembers with
      | nil => exact bindArray_sim L h hpattern hv hslots .nil hbound
      | cons => exact hmismatch
    | _ => exact hmismatch
  | tuple hslots =>
    have hslots : List.Forall₂ (Both Eq (C.slotIn scope scope')) _ _ :=
      (hscope.forall₂ (f := fun slot => slot.2.names) (fun _ _ => rfl) hslots).imp
        fun _ _ hslot => ⟨hslot.1.fst, hslot.1.snd, hslot.2⟩
    cases hshape with
    | tuple hattrs => exact bindAttrs_sim L h hpattern hv hattrs hslots hattrs .none hbound
    | set hmembers =>
      cases hmembers with
      | nil => exact bindAttrs_sim L h hpattern hv .nil hslots .nil .none hbound
      | cons => exact hmismatch
    | _ => exact hmismatch
  | dict hslots =>
    have hslots := entries_like hscope hslots
    cases hshape with
    | dict hentries => exact bindEntries_sim L h hpattern hv hentries hslots hentries .none hbound
    | set hmembers =>
      cases hmembers with
      | nil => exact bindEntries_sim L h hpattern hv .nil hslots .nil .none hbound
      | cons => exact hmismatch
    | _ => exact hmismatch
  | set helements =>
    cases hshape with
    | set hmembers =>
      exact bindMembers_sim L h hpattern hv (hscope.forall₂ (fun _ _ => rfl) helements) hmembers
        .none hbound
    | _ => exact hmismatch

end Matching

/-! ## Calling values -/

section Calling

theorem fresh_sim : C.Sim Run.fresh Run.fresh C.next := Run.Sim.fresh fun _ _ => L.next

include h

omit L in
theorem enter_sim {param param' : Pattern} {body body' : Expr} (hparam : C.pattern param param')
    (hbody : C.expr body body') (hscope : scope.Like C.value (param.namesUnder body) scope')
    {v v' : Value} (hv : C.value v v') :
    C.Sim (ev.enter param body scope v) (ev'.enter param' body' scope' v') C.value := by
  obtain ⟨hreads, hfree⟩ := Scope.like_append.mp hscope
  have hbindings : C.Sim (ev.bindings param scope v) (ev'.bindings param' scope' v') C.bindings :=
    h.bind ⟨hparam, hreads⟩ hv .nil
  refine (hbindings.and_left (h.binds param scope v)).bind fun bound bound' hbound => ?_
  exact h.eval ⟨hbody, hfree.update hbound.1 hbound.2⟩

omit h in
theorem recursiveFunction_sim {f f' : Value} (hf : C.value f f') :
    C.Sim (recursiveFunction f) (recursiveFunction f') C.value :=
  (fresh_sim L).bind fun _ _ hi => .pure (L.unfold hi hf)

omit h in
theorem recursiveAttrs_sim {f f' : Value} (hf : C.value f f') {attrs attrs' : List (String × Value)}
    (hattrs : List.Forall₂ (Both Eq C.value) attrs attrs') :
    C.Sim (recursiveAttrs f attrs) (recursiveAttrs f' attrs')
      (List.Forall₂ (Both Eq C.value)) := by
  induction hattrs with
  | nil => exact .pure .nil
  | @cons attr attr' _ _ hattr _ ih =>
    obtain ⟨name, v⟩ := attr
    obtain ⟨name', v'⟩ := attr'
    obtain ⟨rfl, hv⟩ : name = name' ∧ C.value v v' := ⟨hattr.fst, hattr.snd⟩
    unfold recursiveAttrs
    rw [L.likeness.isFunction_eq hv]
    split
    next =>
      refine (fresh_sim L).bind fun _ _ hi => ih.bind fun _ _ hothers => ?_
      exact .pure (.cons ⟨rfl, L.unfoldAttr hi hf name⟩ hothers)
    next => exact ih.bind fun _ _ hothers => .pure (.cons ⟨rfl, hv⟩ hothers)

theorem recursiveTuple_sim {f f' : Value} (hf : C.value f f') :
    C.Sim (ev.recursiveTuple f) (ev'.recursiveTuple f') C.value := by
  refine (h.call hf (L.likeness.tuple .nil)).bind fun probe probe' hprobe => ?_
  cases L.likeness.shape hprobe with
  | tuple hattrs =>
    exact (recursiveAttrs_sim L hf hattrs).bind fun _ _ hattrs => .pure (L.likeness.tuple hattrs)
  | _ => exact .fail (.recursionResult (L.likeness.shown_like hprobe))

theorem callNative_sim {f f' : Native} (hf : f.Like C.value f') {arg arg' : Value}
    (harg : C.value arg arg') : C.Sim (ev.callNative f arg) (ev'.callNative f' arg') C.value := by
  cases hf with
  | fix => exact recursiveFunction_sim L harg
  | fixt => exact recursiveTuple_sim L h harg
  | unfold hf =>
    refine (recursiveFunction_sim L hf).bind fun _ _ hthis => ?_
    exact (h.call hf hthis).bind fun _ _ hunfolded => h.call hunfolded harg
  | @unfoldAttr f f' attr hf =>
    refine (recursiveTuple_sim L h hf).bind fun _ _ hthis => ?_
    refine (h.call hf hthis).bind fun _ _ hunfolded => ?_
    refine (Run.Sim.ofExcept (L.likeness.getAttr_agree hunfolded attr)).bind fun _ _ hfunction => ?_
    exact h.call hfunction harg
  | loader name => exact .fail (.noBackend (L.likeness.text harg))
  | hosted name hf => exact h.call hf harg

/-- One level of calling. -/
theorem callStep_sim {f f' arg arg' : Value} (hf : C.value f f') (harg : C.value arg arg') :
    C.Sim (ev.callStep f arg) (ev'.callStep f' arg') C.value := by
  cases L.likeness.shape hf with
  | closure =>
    obtain ⟨hparam, hbody, hscope⟩ := L.enter hf
    exact enter_sim h hparam hbody hscope harg
  | native => exact callNative_sim L h (L.native hf) harg
  | _ => exact .ofExcept (L.likeness.lookup_agree hf harg)

/-! ## Arrows, filters and aggregates -/

omit L h in
theorem apply_of_not_isFunction (ev : Evaluator) {rhs : Expr} (hrhs : rhs.isFunction = false)
    (scope : Scope) (v : Value) : ev.apply rhs scope v = ev.eval rhs (scope.bind "." v) := by
  cases rhs with
  | function => cases hrhs
  | _ => rfl

omit L in
theorem apply_sim {rhs rhs' : Expr} (hrhs : rhs.LikeRight C.expr C.pattern rhs')
    (hscope : scope.Like C.value
      (if !rhs.isFunction then rhs.names.without ["."] else rhs.names) scope')
    {v v' : Value} (hv : C.value v v') :
    C.Sim (ev.apply rhs scope v) (ev'.apply rhs' scope' v') C.value := by
  cases hrhs with
  | function hparam hbody => exact enter_sim h hparam hbody hscope hv
  | current he he' hexpr =>
    rw [he] at hscope
    rw [apply_of_not_isFunction ev he, apply_of_not_isFunction ev' he']
    exact h.eval ⟨hexpr, Scope.Like.bind hscope hv⟩

end Calling

section Arrow

variable {rhs rhs' : Expr} (happly : ∀ {v v' : Value}, C.value v v' →
  C.Sim (ev.apply rhs scope v) (ev'.apply rhs' scope' v') C.value) {v v' : Value}
  (hv : C.value v v')

include happly hv

theorem mapElements_sim :
    C.Sim (ev.mapElements rhs scope v) (ev'.mapElements rhs' scope' v') C.value := by
  cases L.likeness.shape hv with
  | set hmembers =>
    refine (Run.Sim.traverse (hmembers.imp fun _ _ => happly)).bind fun _ _ hmapped => ?_
    exact .pure (L.likeness.set (OrderedSet.ofList_like L.likeness.order hmapped))
  | array hitems =>
    refine (Run.Sim.traverseItems (hitems.imp fun _ _ hitem => ?_)).bind fun _ _ hmapped =>
      .pure (L.likeness.array hmapped)
    exact optionRel_imp (fun _ _ _ => happly) hitem
  | dict hentries =>
    refine (Run.Sim.traverse (hentries.imp fun _ _ hentry => ?_)).bind fun _ _ hmapped =>
      .pure (L.likeness.set (OrderedSet.ofList_like L.likeness.order hmapped))
    exact happly (L.likeness.pair hentry.fst hentry.snd)
  | _ => exact .ofExcept (L.likeness.wrongKind_agree _ _ hv)

theorem mapAttrs_sim : C.Sim (ev.mapAttrs rhs scope v) (ev'.mapAttrs rhs' scope' v') C.value := by
  cases L.likeness.shape hv with
  | tuple hattrs =>
    refine (Run.Sim.traverse (S := Both Eq C.value) (hattrs.imp fun attr attr' hattr => ?_)).bind
      fun _ _ hmapped => .pure (L.likeness.tuple hmapped)
    exact (happly hattr.snd).bind fun _ _ hmapped => .pure ⟨hattr.fst, hmapped⟩
  | _ => exact .ofExcept (L.likeness.wrongKind_agree _ _ hv)

theorem passes_sim : C.Sim (ev.passes rhs scope v) (ev'.passes rhs' scope' v') Eq :=
  (happly hv).bind fun _ _ hanswer => .pure (L.likeness.truthy_eq hanswer)

theorem filterElements_sim :
    C.Sim (ev.filterElements rhs scope v) (ev'.filterElements rhs' scope' v') C.value := by
  cases L.likeness.shape hv with
  | set hmembers =>
    refine (Run.Sim.filter (hmembers.imp fun _ _ hmember => ⟨hmember, ?_⟩)).bind
      fun _ _ hkept => .pure (L.likeness.set hkept)
    exact passes_sim L happly hmember
  | array hitems =>
    refine (Run.Sim.traverseItems (S := Option.Rel C.value) (hitems.imp fun _ _ =>
      optionRel_imp fun _ _ _ hitem => ?_)).bind fun _ _ hkept => .pure (L.likeness.array ?_)
    · refine (passes_sim L happly hitem).bind ?_
      rintro keep _ rfl
      -- an item that does not pass leaves a hole
      cases keep with
      | true => exact .pure (.some hitem)
      | false => exact .pure .none
    · refine List.rel_map (fun _ _ hitem => ?_) hkept
      cases hitem with
      | none => exact .none
      | some hitem => exact hitem
  | dict hentries =>
    refine (Run.Sim.filter (hentries.imp fun _ _ hentry => ⟨hentry, ?_⟩)).bind
      fun _ _ hkept => .pure (L.likeness.dict hkept)
    exact passes_sim L happly (L.likeness.pair hentry.fst hentry.snd)
  | _ => exact .ofExcept (L.likeness.wrongKind_agree _ _ hv)

theorem aggregateElements_sim (op : BinaryOp) :
    C.Sim (ev.aggregateElements op rhs scope v) (ev'.aggregateElements op rhs' scope' v')
      C.value := by
  refine (Run.Sim.ofExcept (L.likeness.aggregated_agree op hv)).bind fun _ _ helements => ?_
  refine (Run.Sim.traverse (S := Eq) (helements.imp fun _ _ helement => ?_)).bind
    fun numbers numbers' hnumbers => ?_
  · exact (happly helement).bind fun _ _ hanswer => .ofExcept (L.likeness.asNumber_agree hanswer)
  · obtain rfl := eq_of_forall₂_imp (fun _ _ => id) hnumbers
    exact .ofExcept (L.likeness.aggregate_agree op numbers)

include h

omit L in
theorem mapAt_sim (strict : Bool) {key key' : Value} (hkey : C.value key key') :
    C.Sim (ev.mapAt rhs strict scope key v) (ev'.mapAt rhs' strict scope' key' v') C.value := by
  unfold mapAt
  split
  next => exact (happly hkey).bind fun _ _ hfunction => h.call hfunction hv
  next => exact happly hv

omit hv in
theorem mapItemsFrom_sim (strict : Bool) {items items' : List (Option Value)}
    (hitems : List.Forall₂ (Option.Rel C.value) items items') :
    ∀ start : Nat, C.Sim (ev.mapItemsFrom rhs strict scope start items)
      (ev'.mapItemsFrom rhs' strict scope' start items') (List.Forall₂ (Option.Rel C.value)) := by
  induction hitems with
  | nil => exact fun _ => .pure .nil
  | cons hitem _ ih =>
    intro start
    cases hitem with
    | none => exact (ih (start + 1)).bind fun _ _ hmapped => .pure (.cons .none hmapped)
    | some hv =>
      refine (mapAt_sim h happly hv strict (L.likeness.number _)).bind fun _ _ hfirst => ?_
      exact (ih (start + 1)).bind fun _ _ hmapped => .pure (.cons (.some hfirst) hmapped)

theorem mapSequence_sim (strict : Bool) :
    C.Sim (ev.mapSequence rhs strict scope v) (ev'.mapSequence rhs' strict scope' v') C.value := by
  cases L.likeness.shape hv with
  | array hitems =>
    exact (mapItemsFrom_sim L h happly strict hitems 0).bind fun _ _ hmapped =>
      .pure (L.likeness.array hmapped)
  | dict hentries =>
    refine (Run.Sim.traverse (S := Both C.value C.value) (hentries.imp fun _ _ hentry => ?_)).bind
      fun _ _ hmapped => .pure (L.likeness.dict hmapped)
    exact (mapAt_sim h happly hentry.snd strict hentry.fst).bind fun _ _ hmapped =>
      .pure ⟨hentry.fst, hmapped⟩
  | set hmembers =>
    cases hmembers with
    | nil => exact .pure L.likeness.nothing
    | cons => exact .ofExcept (L.likeness.wrongKind_agree _ _ hv)
  | _ => exact .ofExcept (L.likeness.wrongKind_agree _ _ hv)

end Arrow

/-! ## Operators -/

section Evaluating

include h

theorem binary_sim {op : BinaryOp} (hop : op.bindsCurrent = false) {lhs lhs' rhs rhs' : Expr}
    (hlhs : C.exprIn scope scope' lhs lhs') (hrhs : C.exprIn scope scope' rhs rhs') :
    C.Sim (ev.binary op lhs rhs scope) (ev'.binary op lhs' rhs' scope') C.value := by
  have hl := h.eval hlhs
  have hr := h.eval hrhs
  cases op with
  | arrow | dArrow | seqArrow | tupleMap | where_ | sum | max | mean | median | min => cases hop
  | and =>
    refine hl.bind fun l l' hl => ?_
    rw [L.likeness.truthy_eq hl]
    split
    next => exact hr
    next => exact .pure hl
  | or =>
    refine hl.bind fun l l' hl => ?_
    rw [L.likeness.truthy_eq hl]
    split
    next => exact .pure hl
    next => exact hr
  | orderBy | order | rank | join | compose | joinCommon | joinExists | rightMatch | leftMatch
  | rightResidue | leftResidue | offset | addArrow => exact .fail (.same _)
  | _ =>
    exact hl.bind fun _ _ hl => hr.bind fun _ _ hr =>
      .ofExcept (L.likeness.combine_agree _ hl hr)

theorem arrow_sim {op : BinaryOp} (hop : op.bindsCurrent = true) {lhs lhs' rhs rhs' : Expr}
    (hlhs : C.exprIn scope scope' lhs lhs')
    (happly : ∀ {v v' : Value}, C.value v v' →
      C.Sim (ev.apply rhs scope v) (ev'.apply rhs' scope' v') C.value) :
    C.Sim (ev.binary op lhs rhs scope) (ev'.binary op lhs' rhs' scope') C.value := by
  have hl := h.eval hlhs
  cases op with
  | arrow => exact hl.bind fun _ _ hl => happly hl
  | dArrow => exact hl.bind fun _ _ hl => mapElements_sim L happly hl
  | seqArrow strict => exact hl.bind fun _ _ hl => mapSequence_sim L h happly hl strict
  | tupleMap => exact hl.bind fun _ _ hl => mapAttrs_sim L happly hl
  | where_ => exact hl.bind fun _ _ hl => filterElements_sim L happly hl
  | sum | max | mean | median | min =>
    exact hl.bind fun _ _ hl => aggregateElements_sim L happly hl _
  | _ => cases hop

theorem chain_sim (span : Span) {args args' : List Expr}
    (hargs : List.Forall₂ (C.exprIn scope scope') args args') :
    ∀ {l l' : Value} (ops : List CompareOp), C.value l l' →
    C.Sim (ev.chain span scope l ops args) (ev'.chain span scope' l' ops args') C.value := by
  have hbool : ∀ b, C.Sim (pure (.bool b)) (pure (.bool b)) C.value := fun b =>
    .pure (L.likeness.bool b)
  induction hargs with
  | nil =>
    intro l l' ops _
    cases ops <;> exact hbool true
  | cons harg _ ih =>
    intro l l' ops hl
    cases ops with
    | nil => exact hbool true
    | cons op ops =>
      refine (h.eval harg).bind fun r r' hr => ?_
      refine ((Run.Sim.ofExcept (L.likeness.compared.holds_agree hl hr op)).within span).bind ?_
      rintro holds _ rfl
      split
      next => exact ih ops hr
      next => exact hbool false

theorem compareChain_sim {args args' : List Expr} (ops : List CompareOp) (span : Span)
    (hargs : List.Forall₂ (C.exprIn scope scope') args args') :
    C.Sim (ev.compareChain args ops span scope) (ev'.compareChain args' ops span scope')
      C.value := by
  have hlength := hargs.length_eq
  unfold compareChain
  cases hargs with
  | nil => exact (Run.Sim.fail (.same _)).within span
  | cons hfirst hrest =>
    dsimp only
    rw [hrest.length_eq, hlength]
    split
    next => exact (h.eval hfirst).bind fun _ _ hl => chain_sim L h span hrest ops hl
    next => exact (Run.Sim.fail (.same _)).within span

/-! ## Conditions -/

theorem firstArm_sim {v v' : Value} (hv : C.value v v') {arms arms' : List (Pattern × Expr)}
    (harms : List.Forall₂ (fun arm arm' => Both C.pattern C.expr arm arm' ∧
      scope.Like C.value (arm.1.namesUnder arm.2) scope') arms arms') :
    C.Sim (ev.firstArm scope v arms) (ev'.firstArm scope' v' arms') C.value := by
  induction harms with
  | nil => exact .pure L.likeness.nothing
  | @cons arm arm' _ _ harm _ ih =>
    obtain ⟨pattern, body⟩ := arm
    obtain ⟨pattern', body'⟩ := arm'
    obtain ⟨⟨hpattern, hbody⟩, hscope⟩ := harm
    obtain ⟨hreads, hfree⟩ := Scope.like_append.mp hscope
    have hbindings : C.Sim (ev.bindings pattern scope v) (ev'.bindings pattern' scope' v')
        C.bindings := h.bind ⟨hpattern, hreads⟩ hv .nil
    refine (hbindings.and_left (h.binds pattern scope v)).attempt.bind fun _ _ htried => ?_
    cases htried with
    | ok hbound => exact h.eval ⟨hbody, hfree.update hbound.1 hbound.2⟩
    | error hfailure =>
      dsimp only
      rw [hfailure.cause.isMismatch_eq]
      split
      next => exact ih
      next => exact .rethrow hfailure

theorem firstEntry_sim {entries entries' : List DictEntry}
    (hentries : List.Forall₂ (DictEntry.LikeCase C.expr) entries entries')
    (hscope : scope.Like C.value (Expr.namesCases entries) scope') :
    C.Sim (ev.firstEntry scope entries) (ev'.firstEntry scope' entries') C.value := by
  induction hentries with
  | nil => exact .pure L.likeness.nothing
  | @cons entry entry' _ _ hentry _ ih =>
    obtain ⟨key, value, span⟩ := entry
    obtain ⟨hfirst, hrest⟩ := Scope.like_append.mp hscope
    obtain ⟨hkey, hvalue⟩ := Scope.like_append.mp hfirst
    have hevalue := h.eval ⟨hentry.like.value, hvalue⟩
    unfold firstEntry
    by_cases hwild : key.ident? = some "_"
    -- the entry of the wildcard is taken without a look at its key
    · rw [if_pos (show (DictEntry.mk key value span).key.ident? = some "_" from hwild),
        if_pos (hentry.wild.mp hwild)]
      exact hevalue
    · rw [if_neg hwild] at hkey
      rw [if_neg (show ¬ (DictEntry.mk key value span).key.ident? = some "_" from hwild),
        if_neg fun hwild' => hwild (hentry.wild.mpr hwild')]
      refine (h.eval ⟨hentry.like.key, hkey⟩).bind fun _ _ hkey => ?_
      rw [L.likeness.truthy_eq hkey]
      split
      next => exact hevalue
      next => exact ih hrest

omit L h in
theorem condition_of_not_isDict (ev : Evaluator) {dict : Expr} (hdict : dict.isDict = false)
    (scope : Scope) :
    ev.condition dict scope = (do
      let v ← ev.eval dict scope
      Run.ofExcept (firstTruthy v)) := by
  cases dict with
  | dict => cases hdict
  | _ => rfl

omit L h in
theorem names_binary (op : BinaryOp) (lhs rhs : Expr) (span : Span) :
    (Expr.binary op lhs rhs span).names =
      lhs.names ++
        if op.bindsCurrent && !rhs.isFunction then rhs.names.without ["."] else rhs.names := rfl

omit L h in
theorem names_cond {dict : Expr} (hdict : dict.isDict = false) (span : Span) :
    (Expr.cond dict span).names = dict.names := by
  cases dict with
  | dict => cases hdict
  | _ => rfl

/-! ## Safe navigation -/

omit L in
theorem callArgs_sim (span : Span) {v v' : Value} (hv : C.value v v') {args args' : List Expr}
    (hargs : List.Forall₂ (C.exprIn scope scope') args args') :
    C.Sim (ev.callArgs span scope v args) (ev'.callArgs span scope' v' args') C.value := by
  refine Run.Sim.foldl (hargs.imp fun _ _ harg f f' hf => ?_) hv
  exact (h.eval harg).bind fun _ _ harg => (h.call hf harg).within span

omit h in
theorem attr_sim (attr : Option (String × Span)) {v v' : Value} (hv : C.value v v') :
    C.Sim
      (match attr with
      | none => pure v
      | some (attr, span) => Run.within span (Run.ofExcept (v.getAttr attr)))
      (match attr with
      | none => pure v'
      | some (attr, span) => Run.within span (Run.ofExcept (v'.getAttr attr))) C.value := by
  cases attr with
  | none => exact .pure hv
  | some attr => exact (Run.Sim.ofExcept (L.likeness.getAttr_agree hv attr.1)).within attr.2

theorem step_sim {v v' : Value} (hv : C.value v v') {step step' : SafeStep}
    (hstep : step.Like C.expr step')
    (hscope : scope.Like C.value (Expr.namesAll step.arguments) scope') :
    C.Sim (ev.step scope v step) (ev'.step scope' v' step') C.value := by
  cases hstep with
  | get => exact (Run.Sim.pure hv).bind fun _ _ hv => attr_sim L _ hv
  | call hargs =>
    have hargs := hscope.forall₂ (fun _ _ => rfl) hargs
    exact (callArgs_sim h _ hv hargs).bind fun _ _ hv => attr_sim L _ hv

theorem safeChain_sim {fallback fallback' : Expr}
    (hfallback : C.exprIn scope scope' fallback fallback') {steps steps' : List SafeStep}
    (hsteps : List.Forall₂ (fun step step' => step.Like C.expr step' ∧
      scope.Like C.value (Expr.namesAll step.arguments) scope') steps steps') :
    ∀ {v v' : Value}, C.value v v' →
    C.Sim (ev.safeChain fallback scope v steps) (ev'.safeChain fallback' scope' v' steps')
      C.value := by
  induction hsteps with
  | nil => exact fun hv => .pure hv
  | @cons step step' _ _ hstep _ ih =>
    intro v v' hv
    have hsafe : step.safe = step'.safe := by
      cases hstep.1 <;> rfl
    refine (step_sim L h hv hstep.1 hstep.2).attempt.bind fun _ _ htried => ?_
    cases htried with
    | ok hnext => exact ih hnext
    | error hfailure =>
      dsimp only
      rw [hfailure.cause.isAbsent_eq, hsafe]
      split
      next => exact h.eval hfallback
      next => exact .rethrow hfailure

/-! ## Collections and texts -/

theorem row_sim (names : List String) {values values' : List Expr}
    (hvalues : List.Forall₂ (C.exprIn scope scope') values values') :
    C.Sim (ev.row names scope values) (ev'.row names scope' values') C.value := by
  have hattrs : List.Forall₂ (Both Eq (C.exprIn scope scope')) (names.zip values)
      (names.zip values') := by
    induction hvalues generalizing names with
    | nil => cases names <;> exact .nil
    | cons hvalue _ ih =>
      cases names with
      | nil => exact .nil
      | cons name names => exact .cons ⟨rfl, hvalue⟩ (ih names)
  refine (Run.Sim.traverse (S := Both Eq C.value) (hattrs.imp fun attr attr' hattr => ?_)).bind
    fun _ _ hattrs => .pure (L.likeness.tuple (OrderedMap.ofList_like KeepsOrder.eq hattrs))
  exact (h.eval hattr.snd).bind fun _ _ hv => .pure ⟨hattr.fst, hv⟩

omit L in
theorem partText_sim (span : Span) {part part' : TextPart} (hpart : part.Like C.expr part')
    (hscope : scope.Like C.value (part.expr?.elim .none Expr.names) scope')
    (htext : ∀ {v v' : Value} (format : Option String), C.value v v' →
      C.Sim (v.formatted format) (v'.formatted format) Eq) :
    C.Sim (ev.partText span scope part) (ev'.partText span scope' part') Eq := by
  cases hpart with
  | text s => exact .pure rfl
  | expr he => exact (h.eval ⟨he, hscope⟩).bind fun _ _ hv => (htext _ hv).within span

omit L h in
theorem textParts_like {parts parts' : List TextPart}
    (hparts : List.Forall₂ (TextPart.Like C.expr) parts parts')
    (hscope : scope.Like C.value (Expr.namesParts parts) scope') :
    List.Forall₂ (fun part part' => part.Like C.expr part' ∧
      scope.Like C.value (part.expr?.elim .none Expr.names) scope') parts parts' := by
  refine hscope.forall₂ (fun part parts => ?_) hparts
  cases part <;> rfl

omit h in
theorem xstr_sim {span : Span} {parts parts' : List TextPart}
    (hparts : List.Forall₂ (fun part part' =>
      C.Sim (ev.partText span scope part) (ev'.partText span scope' part') Eq) parts parts') :
    C.Sim (ev.evalStep (.xstr parts span) scope) (ev'.evalStep (.xstr parts' span) scope')
      C.value := by
  refine (Run.Sim.traverse hparts).bind fun texts texts' htexts => ?_
  obtain rfl := eq_of_forall₂_imp (fun _ _ => id) htexts
  exact .pure (L.likeness.string _)

/-! ## Recursion -/

omit L h in
theorem combinator_eq (base fix fixt : Expr) :
    combinator base fix fixt =
      if base.isFunction then .ok fix
      else if base.isTuple then .ok fixt
      else .error (.recursionBase base.text) := by
  cases base <;> rfl

omit h in
theorem combinator_agree {Q : Expr → Expr → Prop} {base base' fix fix' fixt fixt' : Expr}
    (hfunction : base.isFunction = base'.isFunction) (htuple : base.isTuple = base'.isTuple)
    (hbase : C.expr base base') (hfix : Q fix fix') (hfixt : Q fixt fixt') :
    Agree C.text Q (combinator base fix fixt) (combinator base' fix' fixt') := by
  rw [combinator_eq, combinator_eq, hfunction, htuple]
  split
  next => exact .ok hfix
  next =>
    split
    next => exact .ok hfixt
    next => exact .error (.recursionBase (L.exprText hbase))

theorem recursion_sim {name : String} {base base' fix fix' fixt fixt' : Expr} {span : Span}
    (hfunction : base.isFunction = base'.isFunction) (htuple : base.isTuple = base'.isTuple)
    (hbase : C.expr base base')
    (hscope : scope.Like C.value ((Pattern.expr (.ident name span)).namesUnder base) scope')
    (hfix : C.exprIn scope scope' fix fix') (hfixt : C.exprIn scope scope' fixt fixt') :
    C.Sim (ev.recursion name base fix fixt span scope)
      (ev'.recursion name base' fix' fixt' span scope') C.value := by
  have hcombinator := combinator_agree L hfunction htuple hbase hfix hfixt
  refine ((Run.Sim.ofExcept hcombinator).within span).bind fun _ _ hcombinator => ?_
  refine (fresh_sim L).bind fun _ _ hi => (h.eval hcombinator).bind fun _ _ hcombine => ?_
  exact (h.call hcombine (L.closure hi (L.name name span) hbase hscope)).within span

/-! ## All expressions -/

/-- One level of evaluation. What is put into a text has to be shown alike. -/
theorem evalStep_sim {e e' : Expr} (he : e.Like C.expr C.pattern C.value e')
    (hscope : scope.Like C.value e.names scope')
    (htext : ∀ parts span, e = .xstr parts span → ∀ {v v' : Value} (format : Option String),
      C.value v v' → C.Sim (v.formatted format) (v'.formatted format) Eq) :
    C.Sim (ev.evalStep e scope) (ev'.evalStep e' scope') C.value := by
  -- constructs with one operand apply an operation to its value
  have hoperand : ∀ {operand operand' : Expr} {operation operation' : Value → Except Cause Value}
      {span : Span}, C.exprIn scope scope' operand operand' →
      (∀ v v', C.value v v' → Agree C.text C.value (operation v) (operation' v')) →
      C.Sim (do let v ← ev.eval operand scope
                Run.within span (Run.ofExcept (operation v)))
        (do let v ← ev'.eval operand' scope'
            Run.within span (Run.ofExcept (operation' v))) C.value := by
    intro operand operand' operation operation' span hoperand hoperation
    exact (h.eval hoperand).bind fun v v' hv => (Run.Sim.ofExcept (hoperation v v' hv)).within span
  cases he with
  | literal hv => exact .pure hv
  | ident name span =>
    have hname := hscope name (List.mem_singleton_self _)
    simp only [evalStep]
    generalize scope.get? name = found at hname ⊢
    generalize scope'.get? name = found' at hname ⊢
    cases hname with
    | none => exact (Run.Sim.fail (.same _)).within span
    | some hv => exact .pure hv
  | dot hlhs => exact hoperand ⟨hlhs, hscope⟩ fun _ _ hv => L.likeness.getAttr_agree hv _
  | project hlhs => exact hoperand ⟨hlhs, hscope⟩ fun _ _ hv => L.likeness.project_agree _ _ _ _ hv
  | nest hlhs => exact hoperand ⟨hlhs, hscope⟩ fun _ _ hv => L.likeness.nest_agree _ _ _ hv
  | unary hexpr => exact hoperand ⟨hexpr, hscope⟩ fun _ _ hv => L.likeness.prefixed_agree _ hv
  | count hexpr => exact hoperand ⟨hexpr, hscope⟩ fun _ _ hv => L.likeness.count_agree hv
  | single hexpr => exact hoperand ⟨hexpr, hscope⟩ fun _ _ hv => L.likeness.single_agree hv
  | call hfunc harg =>
    obtain ⟨hfuncscope, hargscope⟩ := Scope.like_append.mp hscope
    refine (h.eval ⟨hfunc, hfuncscope⟩).bind fun _ _ hf => ?_
    exact (h.eval ⟨harg, hargscope⟩).bind fun _ _ harg => (h.call hf harg).within _
  | @binary op _ _ _ _ _ hop hlhs hrhs =>
    rw [names_binary, hop] at hscope
    obtain ⟨hl, hr⟩ := Scope.like_append.mp hscope
    exact (binary_sim L h hop ⟨hlhs, hl⟩ ⟨hrhs, hr⟩).within _
  | @arrow op _ _ _ _ _ hop hlhs hrhs =>
    rw [names_binary, hop] at hscope
    obtain ⟨hl, hr⟩ := Scope.like_append.mp hscope
    exact (arrow_sim L h hop ⟨hlhs, hl⟩ (apply_sim h hrhs hr)).within _
  | package hinner | paren hinner => exact h.eval ⟨hinner, hscope⟩
  | compare hargs => exact compareChain_sim L h _ _ (hscope.forall₂ (fun _ _ => rfl) hargs)
  | ifElse htrue hcondition hfalse =>
    obtain ⟨hfirst, hfalsescope⟩ := Scope.like_append.mp hscope
    obtain ⟨hconditionscope, htruescope⟩ := Scope.like_append.mp hfirst
    refine (h.eval ⟨hcondition, hconditionscope⟩).bind fun _ _ hc => ?_
    rw [L.likeness.truthy_eq hc]
    split
    next => exact h.eval ⟨htrue, htruescope⟩
    next => exact h.eval ⟨hfalse, hfalsescope⟩
  | condControl hcontrol harms =>
    obtain ⟨hcontrolscope, harmsscope⟩ := Scope.like_append.mp hscope
    refine (h.eval ⟨hcontrol, hcontrolscope⟩).bind fun _ _ hv => firstArm_sim L h hv ?_
    exact harmsscope.forall₂ (f := fun arm => arm.1.namesUnder arm.2) (fun _ _ => rfl) harms
  | condDict hentries => exact firstEntry_sim L h hentries hscope
  | cond hdict hdict' hexpr =>
    simp only [evalStep]
    rw [condition_of_not_isDict ev hdict, condition_of_not_isDict ev' hdict']
    refine (h.eval ⟨hexpr, ?_⟩).bind fun _ _ hv => .ofExcept (L.likeness.firstTruthy_agree hv)
    rwa [names_cond hdict] at hscope
  | safeTail hfallback hbase hsteps =>
    obtain ⟨hfirst, hfallbackscope⟩ := Scope.like_append.mp hscope
    obtain ⟨hbasescope, hstepsscope⟩ := Scope.like_append.mp hfirst
    have hnames : ∀ step steps, Expr.namesSteps (step :: steps) =
        Expr.namesAll step.arguments ++ Expr.namesSteps steps := by
      rintro ⟨safe, _ | ⟨args, span⟩, attr⟩ steps <;> rfl
    refine (h.eval ⟨hbase, hbasescope⟩).bind fun _ _ hv => ?_
    exact safeChain_sim L h ⟨hfallback, hfallbackscope⟩ (hstepsscope.forall₂ hnames hsteps) hv
  | relation hrows =>
    have hrows := hscope.forall₂ (f := Expr.namesAll) (fun _ _ => rfl) hrows
    refine (Run.Sim.traverse (S := C.value) (hrows.imp fun _ _ hrow => ?_)).bind
      fun _ _ htuples => .pure ?_
    · exact row_sim L h _ (hrow.2.forall₂ (fun _ _ => rfl) hrow.1)
    · refine L.likeness.set (List.rel_foldl (P := List.Forall₂ C.value) (R := C.value)
        (fun members members' hmembers t t' ht => ?_) .nil htuples)
      exact OrderedSet.insert_like L.likeness.order ht hmembers
  | set helements =>
    refine (Run.Sim.traverse ((hscope.forall₂ (fun _ _ => rfl) helements).imp
      fun _ _ => h.eval)).bind fun _ _ hmembers => ?_
    exact .pure (L.likeness.set (OrderedSet.ofList_like L.likeness.order hmembers))
  | dict hentries =>
    have hnames : ∀ entry entries, Expr.namesEntries (entry :: entries) =
        (entry.key.names ++ entry.value.names) ++ Expr.namesEntries entries := by
      rintro ⟨key, value, span⟩ entries
      rfl
    refine (Run.Sim.traverse (S := Both C.value C.value) ((hscope.forall₂ hnames hentries).imp
      fun _ _ hentry => ?_)).bind fun _ _ hpairs =>
        .pure (L.likeness.dict (OrderedMap.ofList_like L.likeness.order hpairs))
    obtain ⟨hkey, hvalue⟩ := Scope.like_append.mp hentry.2
    refine (h.eval ⟨hentry.1.key, hkey⟩).bind fun _ _ hk => ?_
    exact (h.eval ⟨hentry.1.value, hvalue⟩).bind fun _ _ hv => .pure ⟨hk, hv⟩
  | array hitems =>
    have hnames : ∀ item items, Expr.namesItems (item :: items) =
        item.elim .none Expr.names ++ Expr.namesItems items := by
      rintro (_ | e) items <;> rfl
    refine (Run.Sim.traverseItems ((hscope.forall₂ hnames hitems).imp fun _ _ hitem => ?_)).bind
      fun _ _ hvalues => .pure (L.likeness.array hvalues)
    obtain ⟨hitem, hitemscope⟩ := hitem
    cases hitem with
    | none => exact .none
    | some he => exact .some (h.eval ⟨he, hitemscope⟩)
  | bytes hitems =>
    refine (Run.Sim.traverse (S := Eq) ((hscope.forall₂ (fun _ _ => rfl) hitems).imp
      fun _ _ hitem => ?_)).bind fun values values' hvalues => ?_
    · exact (h.eval hitem).bind fun _ _ hv =>
        (Run.Sim.ofExcept (L.likeness.byte_agree hv)).within _
    · obtain rfl := eq_of_forall₂_imp (fun _ _ => id) hvalues
      exact .pure (L.likeness.bytes values)
  | tuple hattrs =>
    refine (Run.Sim.traverse (S := Both Eq C.value) ((hscope.forall₂
      (f := fun attr => attr.2.names) (fun _ _ => rfl) hattrs).imp
        fun attr attr' hattr => ?_)).bind fun _ _ hvalues =>
          .pure (L.likeness.tuple (OrderedMap.ofList_like KeepsOrder.eq hvalues))
    exact (h.eval ⟨hattr.1.snd, hattr.2⟩).bind fun _ _ hv => .pure ⟨hattr.1.fst, hv⟩
  | function hparam hbody =>
    exact (fresh_sim L).bind fun _ _ hi => .pure (L.closure hi hparam hbody hscope)
  | recursion hfunction htuple hbase hfix hfixt =>
    obtain ⟨hfirst, hfixtscope⟩ := Scope.like_append.mp hscope
    obtain ⟨hbasescope, hfixscope⟩ := Scope.like_append.mp hfirst
    exact recursion_sim L h hfunction htuple hbase hbasescope ⟨hfix, hfixscope⟩
      ⟨hfixt, hfixtscope⟩
  | @xstr parts _ span hparts =>
    refine xstr_sim L ((textParts_like hparts hscope).imp fun _ _ hpart => ?_)
    exact partText_sim h span hpart.1 hpart.2 (htext parts span rfl)

end Evaluating

end Evaluator

/-! ## Evaluation without a bound -/

/-- Properties that everything has are an invariant. -/
theorem invariant_true :
    Invariant (fun _ => True) (fun _ _ => True) (fun _ _ => True) fun _ => True where
  hereditary := Value.hereditary_true
  closure _ := ⟨True.intro, fun _ _ => True.intro, fun _ _ => True.intro⟩
  unfold := Iff.rfl
  unfoldAttr := Iff.rfl
  hosted h := h
  literal _ := True.intro
  ident _ := Or.inr True.intro
  part _ _ _ := True.intro
  binary _ := ⟨True.intro, by split <;> simp⟩
  compare _ := Or.inr ⟨True.intro, fun _ _ => True.intro⟩
  cond _ := Or.inr (Or.inr fun _ => True.intro)
  arms _ _ _ := ⟨True.intro, fun _ _ => True.intro⟩
  function _ _ _ := True.intro
  recursion _ _ _ := True.intro
  reads _ _ _ := True.intro
  matched _ _ _ := True.intro
  failure _ := True.intro
  within _ _ := True.intro

/-- A match that succeeds binds the variables of the pattern. -/
theorem evaluator_binds (fuel : Nat) (p : Pattern) (scope : Scope) (v : Value) :
    ((evaluator fuel).bindings p scope v).Safe (fun _ => True) fun bound =>
      ∀ x ∈ p.variables, bound.Has x := by
  refine ((evaluator_safe invariant_true fuel).bind True.intro (fun _ _ => True.intro) True.intro
    (List.forall_mem_nil _)).imp fun bound hbound => hbound.new

section Unbounded

variable {C : Correspondence} (L : C.Lawful)
  (hexpr : ∀ {e e' : Expr}, C.expr e e' → e.Like C.expr C.pattern C.value e')
  (htext : ∀ {v v' : Value} (format : Option String), C.value v v' →
    C.Sim (v.formatted format) (v'.formatted format) Eq)

include L hexpr htext

/-- Evaluation with any amount of fuel is simulated by the one without a bound. -/
theorem evaluator_sim (fuel : Nat) : (evaluator fuel).Sim C unbounded := by
  induction fuel with
  | zero =>
    exact ⟨fun _ => .exhausted, fun _ _ => .exhausted, fun _ _ _ => .exhausted, evaluator_binds 0⟩
  | succ fuel ih =>
    refine ⟨fun he => ?_, fun hf harg => ?_, fun hp hv hbound => ?_, evaluator_binds (fuel + 1)⟩
    · rw [unbounded_eval]
      exact Evaluator.evalStep_sim L ih (hexpr he.1) he.2 fun _ _ _ => htext
    · rw [unbounded_call]
      exact Evaluator.callStep_sim L ih hf harg
    · rw [unbounded_bind]
      exact Evaluator.bindStep_sim L ih hv hp hbound

/-- Evaluation keeps a correspondence: of two evaluations of related expressions in related scopes
the second ends alike if the first ends. -/
theorem unbounded_sim : unbounded.Sim C unbounded where
  eval he := .limit fun fuel => (evaluator_sim L hexpr htext fuel).eval he
  call hf harg := .limit fun fuel => (evaluator_sim L hexpr htext fuel).call hf harg
  bind hp hv hbound := .limit fun fuel => (evaluator_sim L hexpr htext fuel).bind hp hv hbound
  binds p scope v := .limit fun fuel => evaluator_binds fuel p scope v

end Unbounded

end Relational
