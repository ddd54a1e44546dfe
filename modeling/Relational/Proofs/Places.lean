import Relational.Proofs.Pairing
import Relational.Proofs.Relabel
import Relational.Proofs.Unplaced

/-!
# Evaluation does not depend on places

Expressions that are the same but for places do the same but for places:

> `endsAlike_of_sameButPlaces`: they end alike in every scope. Their values are paired with each
> other, and their failures have the same cause.

The values need not be the same, since functions carry their patterns and bodies, with the places
in them.
-/

namespace Relational

/-! ## The parts of what is the same but for labels -/

theorem optionRel_of_map_eq {α β : Type} {f : α → β} {x y : Option α} (h : x.map f = y.map f) :
    Option.Rel (fun a b => f a = f b) x y := by
  cases x with
  | none =>
    cases y with
    | none => exact .none
    | some b => cases h
  | some a =>
    cases y with
    | none => cases h
    | some b => exact .some (Option.some.inj h)

section Parts

variable {r : Relabelling}

namespace Expr

theorem sameBut_of_relabelAll {es es' : List Expr} (h : relabelAll r es = relabelAll r es') :
    List.Forall₂ (SameBut r) es es' := forall₂_of_eq rfl (fun _ _ => rfl) h

theorem sameBut_of_relabelItems {items items' : List (Option Expr)}
    (h : relabelItems r items = relabelItems r items') :
    List.Forall₂ (Option.Rel (SameBut r)) items items' := by
  refine (forall₂_of_eq (f := Option.map (relabel r)) rfl ?_ h).imp fun _ _ => optionRel_of_map_eq
  rintro (_ | e) items <;> rfl

theorem sameBut_of_relabelAttrs {attrs attrs' : List (String × Expr)}
    (h : relabelAttrs r attrs = relabelAttrs r attrs') :
    List.Forall₂ (Both Eq (SameBut r)) attrs attrs' :=
  (forall₂_of_eq (f := fun attr => (attr.1, attr.2.relabel r)) rfl (fun _ _ => rfl) h).imp
    fun _ _ hattr => ⟨congrArg (·.1) hattr, congrArg (·.2) hattr⟩

theorem sameBut_of_relabelArms {arms arms' : List (Pattern × Expr)}
    (h : relabelArms r arms = relabelArms r arms') :
    List.Forall₂ (Both (Pattern.SameBut r) (SameBut r)) arms arms' :=
  (forall₂_of_eq (f := fun arm => (arm.1.relabel r, arm.2.relabel r)) rfl (fun _ _ => rfl) h).imp
    fun _ _ harm => ⟨congrArg (·.1) harm, congrArg (·.2) harm⟩

theorem sameBut_of_relabelRows {rows rows' : List (List Expr)}
    (h : relabelRows r rows = relabelRows r rows') :
    List.Forall₂ (List.Forall₂ (SameBut r)) rows rows' :=
  (forall₂_of_eq (f := relabelAll r) rfl (fun _ _ => rfl) h).imp fun _ _ => sameBut_of_relabelAll

/-- Keys that are the same but for labels are both the wildcard or both not. -/
theorem sameBut_of_relabelEntries {entries entries' : List DictEntry}
    (h : relabelEntries r entries = relabelEntries r entries') :
    List.Forall₂ (DictEntry.LikeCase (SameBut r)) entries entries' := by
  refine (forall₂_of_eq (f := fun entry => DictEntry.mk (entry.key.relabel r)
    (entry.value.relabel r) (r.place entry.span)) rfl ?_ h).imp ?_
  · rintro ⟨key, value, span⟩ entries
    rfl
  · rintro ⟨key, value, span⟩ ⟨key', value', span'⟩ hentry
    obtain ⟨hkey, hvalue, -⟩ := DictEntry.mk.inj hentry
    have hident : key.ident? = key'.ident? :=
      (ident?_relabel r key).symm.trans ((congrArg ident? hkey).trans (ident?_relabel r key'))
    exact .mk hkey hvalue (by rw [hident])

theorem sameBut_of_relabelParts {parts parts' : List TextPart}
    (h : relabelParts r parts = relabelParts r parts') :
    List.Forall₂ (TextPart.Like (SameBut r)) parts parts' := by
  refine (forall₂_of_eq (f := fun part => (relabelParts r [part]).headD part) rfl ?_ h).imp ?_
  · rintro (s | ⟨e, format⟩) parts <;> rfl
  · rintro (s | ⟨e, format⟩) (s' | ⟨e', format'⟩) hpart
    · cases hpart
      exact .text s
    · cases hpart
    · cases hpart
    · obtain ⟨he, rfl⟩ := TextPart.expr.inj hpart
      exact .expr he

end Expr

theorem Slot.like_of_relabel_eq {slot slot' : Slot} (h : slot.relabel r = slot'.relabel r) :
    slot.Like (Expr.SameBut r) (Pattern.SameBut r) slot' := by
  have hrelabel : ∀ slot : Slot, slot.relabel r =
      .mk (slot.pattern.map (Pattern.relabel r)) (slot.fallback.map (Expr.relabel r)) := by
    rintro ⟨_ | p, _ | e⟩ <;> rfl
  rw [hrelabel, hrelabel] at h
  obtain ⟨hpattern, hfallback⟩ := Slot.mk.inj h
  obtain ⟨pattern, fallback⟩ := slot
  obtain ⟨pattern', fallback'⟩ := slot'
  exact .mk (optionRel_of_map_eq hpattern) (optionRel_of_map_eq hfallback)

namespace Pattern

theorem sameBut_of_relabelAll {ps ps' : List Pattern} (h : relabelAll r ps = relabelAll r ps') :
    List.Forall₂ (SameBut r) ps ps' := forall₂_of_eq rfl (fun _ _ => rfl) h

theorem like_of_relabelItems {items items' : List Slot}
    (h : relabelItems r items = relabelItems r items') :
    List.Forall₂ (Slot.Like (Expr.SameBut r) (SameBut r)) items items' :=
  (forall₂_of_eq (f := Slot.relabel r) rfl (fun _ _ => rfl) h).imp
    fun _ _ => Slot.like_of_relabel_eq

theorem like_of_relabelAttrs {attrs attrs' : List (String × Slot)}
    (h : relabelAttrs r attrs = relabelAttrs r attrs') :
    List.Forall₂ (Both Eq (Slot.Like (Expr.SameBut r) (SameBut r))) attrs attrs' :=
  (forall₂_of_eq (f := fun attr => (attr.1, attr.2.relabel r)) rfl (fun _ _ => rfl) h).imp
    fun _ _ hattr => ⟨congrArg (·.1) hattr, Slot.like_of_relabel_eq (congrArg (·.2) hattr)⟩

theorem like_of_relabelEntries {entries entries' : List (Option Expr × Slot)}
    (h : relabelEntries r entries = relabelEntries r entries') :
    List.Forall₂ (Both (Option.Rel (Expr.SameBut r)) (Slot.Like (Expr.SameBut r) (SameBut r)))
      entries entries' := by
  refine (forall₂_of_eq (f := fun entry => (entry.1.map (Expr.relabel r), entry.2.relabel r)) rfl
    ?_ h).imp fun _ _ hentry => ⟨optionRel_of_map_eq (congrArg (·.1) hentry),
      Slot.like_of_relabel_eq (congrArg (·.2) hentry)⟩
  rintro ⟨_ | key, slot⟩ entries <;> rfl

end Pattern

end Parts

/-! ## Values -/

namespace Value

/-- Values that differ in the places inside of their functions at most. -/
abbrev SameButPlaces : Value → Value → Prop :=
  Paired Expr.SameButPlaces Pattern.SameButPlaces fun _ => Eq

theorem rank_relabel (r : Relabelling) (v : Value) : (v.relabel r).rank = v.rank := by
  cases v with
  | native _ f => cases f <;> rfl
  | _ => rfl

/-- Other labels leave a native function one of the same name. -/
theorem native_relabel (r : Relabelling) (i : Identity) (f : Native) :
    ∃ j g, (Value.native i f).relabel r = .native j g ∧ g.name = f.name := by
  cases f <;> exact ⟨_, _, rfl, rfl⟩

theorem sameShape_of_relabel_eq {r : Relabelling} {v v' : Value}
    (h : v.relabel r = v'.relabel r) :
    v.SameShape (fun w w' => w.relabel r = w'.relabel r) v' := by
  have hkind : v.SameKind v' :=
    sameKind_of_rank (by rw [← rank_relabel r v, h, rank_relabel])
  cases hkind with
  | bool b =>
    cases h
    exact .bool b
  | number x =>
    cases h
    exact .number x
  | string s =>
    cases h
    exact .string s
  | bytes b =>
    cases h
    exact .bytes b
  | array items =>
    refine .array ((forall₂_of_eq (f := Option.map (relabel r)) rfl ?_
      (Value.array.inj h)).imp fun _ _ => optionRel_of_map_eq)
    rintro (_ | w) items <;> rfl
  | tuple attrs =>
    exact .tuple ((forall₂_of_eq (f := fun attr => (attr.1, attr.2.relabel r)) rfl
      (fun _ _ => rfl) (Value.tuple.inj h)).imp fun _ _ hattr =>
        ⟨congrArg (·.1) hattr, congrArg (·.2) hattr⟩)
  | set members => exact .set (forall₂_of_eq rfl (fun _ _ => rfl) (Value.set.inj h))
  | dict entries =>
    exact .dict ((forall₂_of_eq (f := fun entry => (entry.1.relabel r, entry.2.relabel r)) rfl
      (fun _ _ => rfl) (Value.dict.inj h)).imp fun _ _ hentry =>
        ⟨congrArg (·.1) hentry, congrArg (·.2) hentry⟩)
  | closure => exact .closure
  | native i i' f f' =>
    obtain ⟨j, g, hrelabel, hg⟩ := native_relabel r i f
    obtain ⟨j', g', hrelabel', hg'⟩ := native_relabel r i' f'
    rw [hrelabel, hrelabel'] at h
    cases h
    exact .native (hg.symm.trans hg')

/-- Native functions that are the same without places do the same with functions that are. -/
theorem native_like_of_relabel_eq {V : Value → Value → Prop} {i i' : Identity} {f f' : Native}
    (h : (Value.native i f).relabel .unplaced = (Value.native i' f').relabel .unplaced)
    (hparts : ∀ g ∈ (Value.native i f).parts, ∀ {g' : Value},
      g.relabel .unplaced = g'.relabel .unplaced → V g g') : i = i' ∧ f.Like V f' := by
  cases f with
  | fix =>
    cases f' with
    | fix => exact ⟨(Value.native.inj h).1, .fix⟩
    | _ => cases h
  | fixt =>
    cases f' with
    | fixt => exact ⟨(Value.native.inj h).1, .fixt⟩
    | _ => cases h
  | unfold g =>
    cases f' with
    | unfold g' =>
      obtain ⟨hi, hnative⟩ := Value.native.inj h
      exact ⟨hi, .unfold (hparts g (List.mem_singleton_self g) (Native.unfold.inj hnative))⟩
    | _ => cases h
  | unfoldAttr g attr =>
    cases f' with
    | unfoldAttr g' attr' =>
      obtain ⟨hi, hnative⟩ := Value.native.inj h
      obtain ⟨hg, rfl⟩ := Native.unfoldAttr.inj hnative
      exact ⟨hi, .unfoldAttr (hparts g (List.mem_singleton_self g) hg)⟩
    | _ => cases h
  | loader name =>
    cases f' with
    | loader name' =>
      cases h
      exact ⟨rfl, .loader name⟩
    | _ => cases h
  | hosted name g =>
    cases f' with
    | hosted name' g' =>
      obtain ⟨hi, hnative⟩ := Value.native.inj h
      obtain ⟨rfl, hg⟩ := Native.hosted.inj hnative
      exact ⟨hi, .hosted name (hparts g (List.mem_singleton_self g) hg)⟩
    | _ => cases h

/-- Values that are the same without places are paired. -/
theorem sameButPlaces_of_relabel_eq {v v' : Value}
    (h : v.relabel .unplaced = v'.relabel .unplaced) : v.SameButPlaces v' := by
  induction v using induction_parts generalizing v' with
  | step v ih =>
    have hshape := sameShape_of_relabel_eq h
    cases hfunction : v.isFunction with
    | false =>
      rw [parts_eq_elements hfunction] at ih
      exact .built (hshape.imp fun w hw w' hrelabel => ih w hw hrelabel) hfunction
    | true =>
      cases v with
      | closure i param body captured =>
        cases v' with
        | closure i' param' body' captured' =>
          obtain ⟨rfl, hparam, hbody, hcaptured⟩ := Value.closure.inj h
          have hattrs := forall₂_of_eq (f := fun attr : String × Value =>
            (attr.1, attr.2.relabel .unplaced)) rfl (fun _ _ => rfl) hcaptured
          have hpaired : List.Forall₂ (Both Eq SameButPlaces) captured captured' := by
            refine forall₂_of_mem hattrs fun attr hmem attr' hattr => ?_
            have hvalue := ih attr.2 (List.mem_map_of_mem hmem) (congrArg (·.2) hattr)
            exact ⟨congrArg (·.1) hattr, hvalue⟩
          exact .closure rfl hparam hbody fun x _ => OrderedMap.find?_like KeepsOrder.eq rfl hpaired
        | _ => cases hshape
      | native i f =>
        cases v' with
        | native i' f' =>
          obtain ⟨rfl, hlike⟩ := native_like_of_relabel_eq h ih
          exact .native rfl hlike
        | _ => cases hshape
      | _ => cases hfunction

/-- Every value is the same as itself but for places. -/
theorem SameButPlaces.refl (v : Value) : v.SameButPlaces v := sameButPlaces_of_relabel_eq rfl

end Value

/-! ## Expressions and patterns -/

namespace Expr

theorem isFunction_relabel (r : Relabelling) (e : Expr) :
    (e.relabel r).isFunction = e.isFunction := by
  cases e <;> rfl

theorem isDict_relabel (r : Relabelling) (e : Expr) : (e.relabel r).isDict = e.isDict := by
  cases e <;> rfl

theorem ctorIdx_relabel (r : Relabelling) (e : Expr) : (e.relabel r).ctorIdx = e.ctorIdx := by
  cases e <;> rfl

/-- Whether an expression is a recursion. -/
def isRecursion : Expr → Bool
  | .recursion _ _ _ _ _ => true
  | _ => false

namespace SameButPlaces

variable {e e' : Expr}

theorem isFunction_eq (h : e.SameButPlaces e') : e.isFunction = e'.isFunction := by
  rw [← isFunction_relabel .unplaced e, h, isFunction_relabel]

theorem isDict_eq (h : e.SameButPlaces e') : e.isDict = e'.isDict := by
  rw [← isDict_relabel .unplaced e, h, isDict_relabel]

theorem ctorIdx_eq (h : e.SameButPlaces e') : e.ctorIdx = e'.ctorIdx := by
  rw [← ctorIdx_relabel .unplaced e, h, ctorIdx_relabel]

theorem ident?_eq (h : e.SameButPlaces e') : e.ident? = e'.ident? := by
  rw [← ident?_relabel .unplaced e, h, ident?_relabel]

theorem text_eq (h : e.SameButPlaces e') : e.text = e'.text := by
  rw [← text_relabel .unplaced e, h, text_relabel]

/-- The right sides of an arrow are two function literals, or none is. -/
theorem likeRight (h : e.SameButPlaces e') :
    e.LikeRight Expr.SameButPlaces Pattern.SameButPlaces e' := by
  have hfunction := h.isFunction_eq
  cases hright : e.isFunction with
  | false => exact .current hright (hfunction.symm.trans hright) h
  | true =>
    cases e with
    | function param body span =>
      cases e' with
      | function param' body' span' =>
        obtain ⟨hparam, hbody, -⟩ := Expr.function.inj h
        exact .function hparam hbody
      | _ => cases h
    | _ => cases hright

/-- The choices of a condition are two dictionaries, or none is. -/
theorem cond (h : e.SameButPlaces e') :
    (Expr.cond e .unknown).Like Expr.SameButPlaces Pattern.SameButPlaces Value.SameButPlaces
      (.cond e' .unknown) := by
  have hdict := h.isDict_eq
  cases hchoices : e.isDict with
  | false => exact .cond hchoices (hdict.symm.trans hchoices) h
  | true =>
    cases e with
    | dict entries conditional span =>
      cases e' with
      | dict entries' conditional' span' =>
        obtain ⟨hentries, rfl, -⟩ := Expr.dict.inj h
        exact .condDict (sameBut_of_relabelEntries hentries)
      | _ => cases h
    | _ => cases hchoices

end SameButPlaces

/-- Steps that are the same but for places differ in their arguments at most, without their own
places. -/
theorem like_of_relabelSteps {steps steps' : List SafeStep}
    (h : relabelSteps .unplaced steps = relabelSteps .unplaced steps') :
    List.Forall₂ (SafeStep.Like Expr.SameButPlaces) (steps.map SafeStep.placeless)
      (steps'.map SafeStep.placeless) := by
  have hsteps := forall₂_of_eq (f := SafeStep.relabel .unplaced) rfl (fun _ _ => rfl) h
  rw [List.forall₂_map_left_iff, List.forall₂_map_right_iff]
  refine hsteps.imp ?_
  rintro ⟨safe, args, attr⟩ ⟨safe', args', attr'⟩ hstep
  cases args with
  | none =>
    cases args' with
    | none =>
      obtain ⟨rfl, -, hattr⟩ := SafeStep.mk.inj hstep
      show SafeStep.Like _ (.mk safe none (attr.map (Prod.map id Relabelling.unplaced.place)))
        (.mk safe none (attr'.map (Prod.map id Relabelling.unplaced.place)))
      rw [hattr]
      exact .get
    | some call' => cases hstep
  | some call =>
    cases args' with
    | none => cases hstep
    | some call' =>
      obtain ⟨rfl, hcall, hattr⟩ := SafeStep.mk.inj hstep
      have hargs := congrArg Prod.fst (Option.some.inj hcall)
      show SafeStep.Like _
        (.mk safe (some (call.1, .unknown)) (attr.map (Prod.map id Relabelling.unplaced.place)))
        (.mk safe (some (call'.1, .unknown)) (attr'.map (Prod.map id Relabelling.unplaced.place)))
      rw [hattr]
      exact .call (sameBut_of_relabelAll hargs)

/-- Expressions that are the same but for places are alike at the top, without their own places. -/
theorem SameButPlaces.like {e e' : Expr} (h : e.SameButPlaces e')
    (hrecursion : e.isRecursion = false) :
    e.placeless.Like Expr.SameButPlaces Pattern.SameButPlaces Value.SameButPlaces
      e'.placeless := by
  -- different constructs are told apart by their index, without a look at their parts
  have hkind := h.ctorIdx_eq
  cases e with
  | literal v span =>
    cases e' with
    | literal v' span' =>
      obtain ⟨hvalue, -⟩ := Expr.literal.inj h
      exact .literal (Value.sameButPlaces_of_relabel_eq hvalue)
    | _ => cases hkind
  | ident name span =>
    cases e' with
    | ident name' span' =>
      obtain ⟨rfl, -⟩ := Expr.ident.inj h
      exact .ident name .unknown
    | _ => cases hkind
  | dot lhs attr span =>
    cases e' with
    | dot lhs' attr' span' =>
      obtain ⟨hlhs, rfl, -⟩ := Expr.dot.inj h
      exact .dot hlhs
    | _ => cases hkind
  | project lhs inverse attrs span =>
    cases e' with
    | project lhs' inverse' attrs' span' =>
      obtain ⟨hlhs, rfl, rfl, -⟩ := Expr.project.inj h
      exact .project hlhs
    | _ => cases hkind
  | nest lhs inverse attrs name span =>
    cases e' with
    | nest lhs' inverse' attrs' name' span' =>
      obtain ⟨hlhs, rfl, rfl, rfl, -⟩ := Expr.nest.inj h
      exact .nest hlhs
    | _ => cases hkind
  | call func arg span =>
    cases e' with
    | call func' arg' span' =>
      obtain ⟨hfunc, harg, -⟩ := Expr.call.inj h
      exact .call hfunc harg
    | _ => cases hkind
  | unary op operand span =>
    cases e' with
    | unary op' operand' span' =>
      obtain ⟨rfl, hoperand, -⟩ := Expr.unary.inj h
      exact .unary hoperand
    | _ => cases hkind
  | count operand span =>
    cases e' with
    | count operand' span' =>
      obtain ⟨hoperand, -⟩ := Expr.count.inj h
      exact .count hoperand
    | _ => cases hkind
  | single operand span =>
    cases e' with
    | single operand' span' =>
      obtain ⟨hoperand, -⟩ := Expr.single.inj h
      exact .single hoperand
    | _ => cases hkind
  | package inner span =>
    cases e' with
    | package inner' span' =>
      obtain ⟨hinner, -⟩ := Expr.package.inj h
      exact .package hinner
    | _ => cases hkind
  | paren inner span =>
    cases e' with
    | paren inner' span' =>
      obtain ⟨hinner, -⟩ := Expr.paren.inj h
      exact .paren hinner
    | _ => cases hkind
  | compare args ops span =>
    cases e' with
    | compare args' ops' span' =>
      obtain ⟨hargs, rfl, -⟩ := Expr.compare.inj h
      exact .compare (sameBut_of_relabelAll hargs)
    | _ => cases hkind
  | ifElse ifTrue condition ifFalse span =>
    cases e' with
    | ifElse ifTrue' condition' ifFalse' span' =>
      obtain ⟨htrue, hcondition, hfalse, -⟩ := Expr.ifElse.inj h
      exact .ifElse htrue hcondition hfalse
    | _ => cases hkind
  | condControl control arms span =>
    cases e' with
    | condControl control' arms' span' =>
      obtain ⟨hcontrol, harms, -⟩ := Expr.condControl.inj h
      exact .condControl hcontrol (sameBut_of_relabelArms harms)
    | _ => cases hkind
  | cond choices span =>
    cases e' with
    | cond choices' span' =>
      obtain ⟨hchoices, -⟩ := Expr.cond.inj h
      exact SameButPlaces.cond hchoices
    | _ => cases hkind
  | safeTail fallback base steps span =>
    cases e' with
    | safeTail fallback' base' steps' span' =>
      obtain ⟨hfallback, hbase, hsteps, -⟩ := Expr.safeTail.inj h
      exact .safeTail hfallback hbase (like_of_relabelSteps hsteps)
    | _ => cases hkind
  | relation names rows span =>
    cases e' with
    | relation names' rows' span' =>
      obtain ⟨rfl, hrows, -⟩ := Expr.relation.inj h
      exact .relation (sameBut_of_relabelRows hrows)
    | _ => cases hkind
  | set elements span =>
    cases e' with
    | set elements' span' =>
      obtain ⟨helements, -⟩ := Expr.set.inj h
      exact .set (sameBut_of_relabelAll helements)
    | _ => cases hkind
  | dict entries conditional span =>
    cases e' with
    | dict entries' conditional' span' =>
      obtain ⟨hentries, rfl, -⟩ := Expr.dict.inj h
      exact .dict ((sameBut_of_relabelEntries hentries).imp fun _ _ =>
        DictEntry.LikeCase.like)
    | _ => cases hkind
  | array items span =>
    cases e' with
    | array items' span' =>
      obtain ⟨hitems, -⟩ := Expr.array.inj h
      exact .array (sameBut_of_relabelItems hitems)
    | _ => cases hkind
  | bytes items span =>
    cases e' with
    | bytes items' span' =>
      obtain ⟨hitems, -⟩ := Expr.bytes.inj h
      exact .bytes (sameBut_of_relabelAll hitems)
    | _ => cases hkind
  | tuple attrs span =>
    cases e' with
    | tuple attrs' span' =>
      obtain ⟨hattrs, -⟩ := Expr.tuple.inj h
      exact .tuple (sameBut_of_relabelAttrs hattrs)
    | _ => cases hkind
  | function param body span =>
    cases e' with
    | function param' body' span' =>
      obtain ⟨hparam, hbody, -⟩ := Expr.function.inj h
      exact .function hparam hbody
    | _ => cases hkind
  | xstr parts span =>
    cases e' with
    | xstr parts' span' =>
      obtain ⟨hparts, -⟩ := Expr.xstr.inj h
      exact .xstr (sameBut_of_relabelParts hparts)
    | _ => cases hkind
  | binary op lhs rhs span =>
    cases e' with
    | binary op' lhs' rhs' span' =>
      obtain ⟨rfl, hlhs, hrhs, -⟩ := Expr.binary.inj h
      cases hop : op.bindsCurrent with
      | false => exact .binary hop hlhs hrhs
      | true => exact .arrow hop hlhs (SameButPlaces.likeRight hrhs)
    | _ => cases hkind
  | recursion => cases hrecursion

end Expr

namespace Pattern

theorem SameButPlaces.text_eq {p p' : Pattern} (h : p.SameButPlaces p') : p.text = p'.text := by
  rw [← text_relabel .unplaced p, h, text_relabel]

/-- Patterns that are the same but for places are alike at the top. The place of a name that is
bound plays no role. -/
theorem SameButPlaces.like {p p' : Pattern} (h : p.SameButPlaces p') :
    p.Like Expr.SameButPlaces Pattern.SameButPlaces p' := by
  cases p with
  | expr e =>
    cases p' with
    | expr e' =>
      have he : e.SameButPlaces e' := Pattern.expr.inj h
      have hident := he.ident?_eq
      cases hname : e.ident? with
      | none =>
        rw [hname] at hident
        exact .expr (by rw [Expr.isIdent, hname]; rfl) (by rw [Expr.isIdent, ← hident]; rfl) he
      | some name =>
        cases e with
        | ident name span =>
          cases e' with
          | ident name' span' =>
            obtain ⟨rfl, -⟩ := Expr.ident.inj he
            exact .name name span span'
          | _ => cases he
        | _ => cases hname
    | _ => cases h
  | exprs es =>
    cases p' with
    | exprs es' => exact .exprs (Expr.sameBut_of_relabelAll (Pattern.exprs.inj h))
    | _ => cases h
  | array slots =>
    cases p' with
    | array slots' => exact .array (like_of_relabelItems (Pattern.array.inj h))
    | _ => cases h
  | tuple slots =>
    cases p' with
    | tuple slots' => exact .tuple (like_of_relabelAttrs (Pattern.tuple.inj h))
    | _ => cases h
  | dict slots =>
    cases p' with
    | dict slots' => exact .dict (like_of_relabelEntries (Pattern.dict.inj h))
    | _ => cases h
  | set elements =>
    cases p' with
    | set elements' => exact .set (sameBut_of_relabelAll (Pattern.set.inj h))
    | _ => cases h
  | extra name =>
    cases p' with
    | extra name' =>
      cases h
      exact .extra name
    | _ => cases h

end Pattern

/-! ## Evaluation -/

/-- What is the same but for places corresponds to each other. -/
def Correspondence.places : Correspondence :=
  ⟨Value.SameButPlaces, Expr.SameButPlaces, Pattern.SameButPlaces, Eq, Eq⟩

theorem Value.SameButPlaces.text_eq {v v' : Value} (h : v.SameButPlaces v') : v.text = v'.text :=
  Paired.text_eq (fun _ _ => Expr.SameButPlaces.text_eq) (fun _ _ => Pattern.SameButPlaces.text_eq)
    h

namespace Evaluator

variable {ev ev' : Evaluator} (h : ev.Sim .places ev') {scope scope' : Scope}

include h

end Evaluator

end Relational
