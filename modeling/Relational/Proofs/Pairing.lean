import Relational.Proofs.Simulation
import Relational.Proofs.ValueOrder

/-!
# Pairing the values of two evaluations

Functions have identities, and two evaluations may hand them out differently. A pairing says which
identity of one evaluation stands for which of the other, separately for closures and for the native
functions of each name, since only those are compared by their identities:

> Two values are paired if they differ in nothing but the identities of their functions, which are
> paired, in what their closures captured under names that they do not read, and in the patterns and
> bodies of their closures, which are related in a way that is given.

If a pairing keeps the order of identities, and next identities are paired with each other, then
paired values can not be told apart (`paired_lawful`).
-/

namespace Relational

namespace Value

/-! ## The values inside a value -/

/-- The elements of a collection. -/
def elements : Value → List Value
  | .array items => present items
  | .tuple attrs => attrs.map (·.2)
  | .set members => members
  | .dict entries => entries.flatMap fun entry => [entry.1, entry.2]
  | _ => []

/-- The values inside a value: the elements of a collection, what a closure captured and the
function that a native one unfolds. -/
def parts : Value → List Value
  | .closure _ _ _ captured => captured.map (·.2)
  | .native _ (.unfold f) | .native _ (.unfoldAttr f _) | .native _ (.hosted _ f) => [f]
  | v => v.elements

theorem mem_map_of_get? {scope : Scope} {x : String} {v : Value} (h : scope.get? x = some v) :
    v ∈ scope.map (·.2) := by
  obtain ⟨name, hmem, -⟩ := OrderedMap.exists_mem_of_find? h
  exact List.mem_map_of_mem hmem

theorem parts_eq_elements {v : Value} (hv : v.isFunction = false) : v.parts = v.elements := by
  cases v with
  | closure | native => cases hv
  | _ => rfl

theorem sizeOf_lt_of_mem_attrs {attrs : List (String × Value)} {w : Value}
    (h : w ∈ attrs.map (·.2)) : sizeOf w < sizeOf attrs := by
  obtain ⟨⟨name, v⟩, hmem, rfl⟩ := List.mem_map.mp h
  have hlt := List.sizeOf_lt_of_mem hmem
  simp only [Prod.mk.sizeOf_spec] at hlt ⊢
  omega

theorem sizeOf_lt_of_mem_parts {v w : Value} (h : w ∈ v.parts) : sizeOf w < sizeOf v := by
  cases v with
  | bool | number | string | bytes => cases h
  | array items =>
    obtain ⟨item, hmem, rfl⟩ := List.mem_filterMap.mp h
    have hlt := List.sizeOf_lt_of_mem hmem
    simp only [Option.some.sizeOf_spec] at hlt
    simp only [Value.array.sizeOf_spec]
    omega
  | tuple attrs =>
    have hlt := sizeOf_lt_of_mem_attrs h
    simp only [Value.tuple.sizeOf_spec]
    omega
  | set members =>
    have hlt := List.sizeOf_lt_of_mem (show w ∈ members from h)
    simp only [Value.set.sizeOf_spec]
    omega
  | dict entries =>
    obtain ⟨⟨k, v⟩, hmem, hw⟩ := List.mem_flatMap.mp h
    have hlt := List.sizeOf_lt_of_mem hmem
    simp only [Prod.mk.sizeOf_spec] at hlt
    simp only [Value.dict.sizeOf_spec]
    rcases List.mem_cons.mp hw with rfl | hw
    · omega
    · obtain rfl := List.mem_singleton.mp hw
      omega
  | closure i param body captured =>
    have hlt := sizeOf_lt_of_mem_attrs h
    simp only [Value.closure.sizeOf_spec]
    omega
  | native i f =>
    cases f with
    | fix | fixt | loader => cases h
    | unfold f | unfoldAttr f | hosted _ f =>
      obtain rfl := List.mem_singleton.mp h
      simp only [Value.native.sizeOf_spec, Native.unfold.sizeOf_spec,
        Native.unfoldAttr.sizeOf_spec, Native.hosted.sizeOf_spec]
      omega

/-- What passes from the values inside a value to the value holds of all values. -/
theorem induction_parts {motive : Value → Prop}
    (step : ∀ v, (∀ w ∈ v.parts, motive w) → motive v) (v : Value) : motive v :=
  step v fun w _hw => induction_parts step w
termination_by sizeOf v
decreasing_by exact sizeOf_lt_of_mem_parts _hw

mutual

/-- Whether a value holds a function, itself or in a collection. -/
def hasFunction : Value → Bool
  | .bool _ | .number _ | .string _ | .bytes _ => false
  | .array items => hasFunctionItems items
  | .tuple attrs => hasFunctionAttrs attrs
  | .set members => hasFunctionMembers members
  | .dict entries => hasFunctionEntries entries
  | .closure _ _ _ _ | .native _ _ => true
termination_by structural x => x

def hasFunctionItems : List (Option Value) → Bool
  | [] => false
  | none :: items => hasFunctionItems items
  | some v :: items => v.hasFunction || hasFunctionItems items
termination_by structural x => x

def hasFunctionAttrs : List (String × Value) → Bool
  | [] => false
  | (_, v) :: attrs => v.hasFunction || hasFunctionAttrs attrs
termination_by structural x => x

def hasFunctionMembers : List Value → Bool
  | [] => false
  | v :: members => v.hasFunction || hasFunctionMembers members
termination_by structural x => x

def hasFunctionEntries : List (Value × Value) → Bool
  | [] => false
  | (k, v) :: entries => k.hasFunction || v.hasFunction || hasFunctionEntries entries
termination_by structural x => x

end

theorem hasFunction_eq_false_iff {v : Value} :
    v.hasFunction = false ↔ v.isFunction = false ∧ ∀ w ∈ v.elements, w.hasFunction = false := by
  cases v with
  | bool | number | string | bytes => simp [hasFunction, isFunction, elements]
  | closure | native => simp [hasFunction, isFunction]
  | array items =>
    suffices hasFunctionItems items = false ↔ ∀ w ∈ present items, w.hasFunction = false by
      simpa [hasFunction, isFunction, elements] using this
    induction items with
    | nil => simp [hasFunctionItems, present]
    | cons item items ih =>
      cases item with
      | none => simpa [hasFunctionItems, present] using ih
      | some v => simp [hasFunctionItems, present] at ih ⊢; simp [ih]
  | tuple attrs =>
    suffices hasFunctionAttrs attrs = false ↔ ∀ w ∈ attrs.map (·.2), w.hasFunction = false by
      simpa [hasFunction, isFunction, elements] using this
    induction attrs with
    | nil => simp [hasFunctionAttrs]
    | cons attr attrs ih => simp [hasFunctionAttrs] at ih ⊢; simp [ih]
  | set members =>
    suffices hasFunctionMembers members = false ↔ ∀ w ∈ members, w.hasFunction = false by
      simpa [hasFunction, isFunction, elements] using this
    induction members with
    | nil => simp [hasFunctionMembers]
    | cons v members ih => simp [hasFunctionMembers, ih]
  | dict entries =>
    suffices hasFunctionEntries entries = false ↔
        ∀ w ∈ entries.flatMap fun entry => [entry.1, entry.2], w.hasFunction = false by
      simpa [hasFunction, isFunction, elements] using this
    induction entries with
    | nil => simp [hasFunctionEntries]
    | cons entry entries ih =>
      rw [List.flatMap_cons, List.forall_mem_append, ← ih]
      simp [hasFunctionEntries, and_assoc]

/-! ## Values of the same shape -/

namespace SameShape

variable {R S : Value → Value → Prop} {v v' : Value}

/-- The parts of values of the same shape may be related in another way. -/
theorem imp (h : v.SameShape R v') (himp : ∀ w ∈ v.elements, ∀ w', R w w' → S w w') :
    v.SameShape S v' := by
  cases h with
  | bool b => exact .bool b
  | number x => exact .number x
  | string s => exact .string s
  | bytes b => exact .bytes b
  | array h =>
    refine .array (forall₂_of_mem h fun item hmem item' hitem => ?_)
    cases hitem with
    | none => exact .none
    | some hw => exact .some (himp _ (List.mem_filterMap.mpr ⟨_, hmem, rfl⟩) _ hw)
  | tuple h =>
    refine .tuple (forall₂_of_mem h fun attr hmem attr' hattr => ?_)
    exact ⟨hattr.fst, himp _ (List.mem_map_of_mem hmem) _ hattr.snd⟩
  | set h => exact .set (forall₂_of_mem h himp)
  | dict h =>
    refine .dict (forall₂_of_mem h fun entry hmem entry' hentry => ?_)
    have hmem : ∀ w ∈ [entry.1, entry.2], ∀ w', R w w' → S w w' := fun w hw =>
      himp w (List.mem_flatMap.mpr ⟨entry, hmem, hw⟩)
    exact ⟨hmem _ (by simp) _ hentry.fst, hmem _ (by simp) _ hentry.snd⟩
  | closure => exact .closure
  | native h => exact .native h

theorem refl_of_elements (hv : v.isFunction = false) (h : ∀ w ∈ v.elements, R w w) :
    v.SameShape R v := by
  cases v with
  | bool b => exact .bool b
  | number x => exact .number x
  | string s => exact .string s
  | bytes b => exact .bytes b
  | array items =>
    refine .array (List.forall₂_same.mpr fun item hmem => ?_)
    cases item with
    | none => exact .none
    | some w => exact .some (h w (List.mem_filterMap.mpr ⟨_, hmem, rfl⟩))
  | tuple attrs =>
    exact .tuple (List.forall₂_same.mpr fun attr hmem => ⟨rfl, h _ (List.mem_map_of_mem hmem)⟩)
  | set members => exact .set (List.forall₂_same.mpr h)
  | dict entries =>
    refine .dict (List.forall₂_same.mpr fun entry hmem => ?_)
    have hmem : ∀ w ∈ [entry.1, entry.2], R w w := fun w hw =>
      h w (List.mem_flatMap.mpr ⟨entry, hmem, hw⟩)
    exact ⟨hmem _ (by simp), hmem _ (by simp)⟩
  | closure | native => cases hv

/-- Of equal parts the same value is built. -/
theorem eq (h : v.SameShape Eq v') (hv : v.isFunction = false) : v = v' := by
  have hpair : ∀ {α β : Type} {p q : α × β}, Both Eq Eq p q → p = q := fun h =>
    Prod.ext h.fst h.snd
  cases h with
  | closure | native => cases hv
  | array h =>
    refine congrArg Value.array (eq_of_forall₂_imp (fun _ _ hitem => ?_) h)
    cases hitem with
    | none => rfl
    | some h => rw [h]
  | tuple h => rw [eq_of_forall₂_imp (fun _ _ => hpair) h]
  | set h => rw [eq_of_forall₂_imp (fun _ _ => id) h]
  | dict h => rw [eq_of_forall₂_imp (fun _ _ => hpair) h]
  | _ => rfl

end SameShape

section Texts

/-- Values with the same text. -/
abbrev SameText (v v' : Value) : Prop := v.text = v'.text

theorem itemTexts_eq {items items' : List (Option Value)}
    (h : List.Forall₂ (Option.Rel SameText) items items') : itemTexts items = itemTexts items' := by
  induction h with
  | nil => rfl
  | cons hitem _ ih =>
    cases hitem with
    | none => rw [itemTexts, itemTexts, ih]
    | some hv => rw [itemTexts, itemTexts, hv, ih]

theorem attrTexts_eq {attrs attrs' : List (String × Value)}
    (h : List.Forall₂ (Both Eq SameText) attrs attrs') : attrTexts attrs = attrTexts attrs' := by
  induction h with
  | nil => rfl
  | cons hattr _ ih =>
    cases hattr with
    | mk hname hv => rw [attrTexts, attrTexts, hname, hv, ih]

theorem texts_eq {members members' : List Value} (h : List.Forall₂ SameText members members') :
    texts members = texts members' := by
  induction h with
  | nil => rfl
  | cons hv _ ih => rw [texts, texts, hv, ih]

theorem entryTexts_eq {entries entries' : List (Value × Value)}
    (h : List.Forall₂ (Both SameText SameText) entries entries') :
    entryTexts entries = entryTexts entries' := by
  induction h with
  | nil => rfl
  | cons hentry _ ih =>
    cases hentry with
    | mk hk hv => rw [entryTexts, entryTexts, hk, hv, ih]

/-- Of parts with the same texts a value with the same text is built. -/
theorem SameShape.text_eq {v v' : Value} (h : v.SameShape SameText v')
    (hv : v.isFunction = false) : v.text = v'.text := by
  cases h with
  | closure | native => cases hv
  | array h => rw [text, text, itemTexts_eq h]
  | tuple h => rw [text, text, attrTexts_eq h]
  | set h => rw [text, text, texts_eq h]
  | dict h => rw [text, text, entryTexts_eq h]
  | _ => rfl

/-- Only numbers and texts are put into a text in another way than by their own text. -/
theorem SameShape.formatted_eq {R : Value → Value → Prop} {v v' : Value} (h : v.SameShape R v')
    (htext : v.text = v'.text) (format : Option String) :
    v.formatted format = v'.formatted format := by
  cases h with
  | bool | number | string | bytes => rfl
  | _ =>
    unfold formatted
    split <;> simp_all

theorem formatted_sim {N : Identity → Identity → Prop} {T : String → String → Prop} (v : Value)
    (format : Option String) : Run.Sim N T (v.formatted format) (v.formatted format) Eq := by
  unfold formatted
  split
  next => exact .pure rfl
  next => exact .pure rfl
  next => exact .pure rfl
  next => exact .pure rfl
  next =>
    split
    next =>
      split
      next => exact .pure rfl
      next => exact .abort _
    next => exact .fail (.same _)
  next => exact .fail (.same _)

end Texts

section Comparing

variable {R : Value → Value → Prop}

/-- Two values compare alike with any two related ones. -/
def ComparesAlike (R : Value → Value → Prop) (v v' : Value) : Prop :=
  ∀ w w', R w w' → v.compare w = v'.compare w'

theorem compareItems_eq {as as' : List (Option Value)}
    (ha : List.Forall₂ (Option.Rel (ComparesAlike R)) as as') :
    ∀ {bs bs' : List (Option Value)}, List.Forall₂ (Option.Rel R) bs bs' →
    compareItems as bs = compareItems as' bs' := by
  induction ha with
  | nil =>
    intro bs bs' hb
    cases hb <;> rfl
  | cons hitem _ ih =>
    intro bs bs' hb
    cases hb with
    | nil => cases hitem <;> rfl
    | cons hitem' hrest =>
      cases hitem with
      | none =>
        cases hitem' with
        | none => exact ih hrest
        | some => rfl
      | some hv =>
        cases hitem' with
        | none => rfl
        | some hw => rw [compareItems, compareItems, hv _ _ hw, ih hrest]

theorem compareAttrs_eq {as as' : List (String × Value)}
    (ha : List.Forall₂ (Both Eq (ComparesAlike R)) as as') :
    ∀ {bs bs' : List (String × Value)}, List.Forall₂ (Both Eq R) bs bs' →
    compareAttrs as bs = compareAttrs as' bs' := by
  induction ha with
  | nil =>
    intro bs bs' hb
    cases hb <;> rfl
  | cons hattr _ ih =>
    intro bs bs' hb
    cases hb with
    | nil => rfl
    | cons hattr' hrest =>
      cases hattr with
      | mk hname hv =>
        cases hattr' with
        | mk hname' hw =>
          rw [compareAttrs, compareAttrs, hname, hname', hv _ _ hw, ih hrest]

theorem compareMembers_eq {as as' : List Value} (ha : List.Forall₂ (ComparesAlike R) as as') :
    ∀ {bs bs' : List Value}, List.Forall₂ R bs bs' →
    compareMembers as bs = compareMembers as' bs' := by
  induction ha with
  | nil =>
    intro bs bs' hb
    cases hb <;> rfl
  | cons hv _ ih =>
    intro bs bs' hb
    cases hb with
    | nil => rfl
    | cons hw hrest => rw [compareMembers, compareMembers, hv _ _ hw, ih hrest]

theorem compareEntries_eq {as as' : List (Value × Value)}
    (ha : List.Forall₂ (Both (ComparesAlike R) (ComparesAlike R)) as as') :
    ∀ {bs bs' : List (Value × Value)}, List.Forall₂ (Both R R) bs bs' →
    compareEntries as bs = compareEntries as' bs' := by
  induction ha with
  | nil =>
    intro bs bs' hb
    cases hb <;> rfl
  | cons hentry _ ih =>
    intro bs bs' hb
    cases hb with
    | nil => rfl
    | cons hentry' hrest =>
      cases hentry with
      | mk hk hv =>
        cases hentry' with
        | mk hj hw =>
          rw [compareEntries, compareEntries, hk _ _ hj, hv _ _ hw, ih hrest]

/-- Values of the same shape are compared by their kinds with a value of another kind, and by their
parts with one of their own. -/
theorem SameShape.compare_eq {v v' w w' : Value} (hv : v.SameShape (ComparesAlike R) v')
    (hw : w.SameShape R w') (hfunction : v.isFunction = false) : v.compare w = v'.compare w' := by
  cases hv with
  | closure | native => cases hfunction
  | array ha =>
    cases hw with
    | array hb => exact compareItems_eq ha hb
    | _ => rfl
  | tuple ha =>
    cases hw with
    | tuple hb => exact compareAttrs_eq ha hb
    | _ => rfl
  | set ha =>
    cases hw with
    | set hb => exact compareMembers_eq ha hb
    | _ => rfl
  | dict ha =>
    cases hw with
    | dict hb => exact compareEntries_eq ha hb
    | _ => rfl
  | bool | number | string | bytes => cases hw <;> rfl

end Comparing

/-! ## Paired values -/

/-- Two values that differ in nothing but the identities of their functions, which `I` pairs by
kind: `none` stands for closures and a name for native functions of that name. Closures have related
patterns and bodies and captured paired values under the names that they read. -/
inductive Paired (E : Expr → Expr → Prop) (P : Pattern → Pattern → Prop)
    (I : Option String → Identity → Identity → Prop) : Value → Value → Prop
  | built {v v' : Value} (h : v.SameShape (Paired E P I) v') (hv : v.isFunction = false) :
      Paired E P I v v'
  | closure {i i' : Identity} {param param' : Pattern} {body body' : Expr}
      {scope scope' : Scope} (hi : I none i i') (hparam : P param param') (hbody : E body body')
      (hscope : ∀ x ∈ (param.namesUnder body).free,
        Option.Rel (Paired E P I) (scope.get? x) (scope'.get? x)) :
      Paired E P I (.closure i param body scope) (.closure i' param' body' scope')
  | native {i i' : Identity} {f f' : Native} (hi : I (some f.name) i i')
      (hf : f.Like (Paired E P I) f') : Paired E P I (.native i f) (.native i' f')

namespace Paired

variable {E E' : Expr → Expr → Prop} {P P' : Pattern → Pattern → Prop}
  {I I' : Option String → Identity → Identity → Prop} {v v' : Value}

theorem name_eq {f f' : Native} {R : Value → Value → Prop} (h : f.Like R f') :
    f.name = f'.name := by
  cases h <;> rfl

theorem shape (h : v.Paired E P I v') : v.SameShape (Paired E P I) v' := by
  cases h with
  | built h _ => exact h
  | closure => exact .closure
  | native _ hf => exact .native (name_eq hf)

/-- Paired values without functions are the same. -/
theorem eq_of_data (h : v.Paired E P I v') (hv : v.hasFunction = false) : v = v' := by
  induction v using induction_parts generalizing v' with
  | step v ih =>
    obtain ⟨hfunction, helements⟩ := hasFunction_eq_false_iff.mp hv
    rw [parts_eq_elements hfunction] at ih
    exact (h.shape.imp fun w hw w' hpaired => ih w hw hpaired (helements w hw)).eq hfunction

/-- Paired values have the same text if their closures have. -/
theorem text_eq (hE : ∀ e e', E e e' → e.text = e'.text) (hP : ∀ p p', P p p' → p.text = p'.text)
    (h : v.Paired E P I v') : v.text = v'.text := by
  induction v using induction_parts generalizing v' with
  | step v ih =>
    cases h with
    | built h hv =>
      rw [parts_eq_elements hv] at ih
      exact (h.imp fun w hw w' hpaired => ih w hw hpaired).text_eq hv
    | closure _ hparam hbody _ => rw [text, text, hP _ _ hparam, hE _ _ hbody]
    | native _ hf => rw [text, text, name_eq hf]

/-- A pairing that keeps the order of identities keeps that of values. -/
theorem keepsOrder (hI : ∀ kind, KeepsOrder (I kind)) : KeepsOrder (Paired E P I) := by
  intro v v' w w' hv hw
  show v.compare w = v'.compare w'
  induction v using induction_parts generalizing v' w w' with
  | step v ih =>
    cases hv with
    | built h hfunction =>
      rw [parts_eq_elements hfunction] at ih
      exact (h.imp fun u hu u' hpaired _ _ => ih u hu hpaired).compare_eq hw.shape hfunction
    | closure hi =>
      cases hw with
      | built h hfunction =>
        cases h with
        | closure | native => cases hfunction
        | _ => rfl
      | closure hj => exact hI none hi hj
      | native => rfl
    | @native i i' f f' hi hf =>
      cases hw with
      | built h hfunction =>
        cases h with
        | closure | native => cases hfunction
        | _ => rfl
      | closure => rfl
      | @native j j' g g' hj hg =>
        -- identities count only between functions of one name
        simp only [Value.compare]
        rw [← name_eq hf, ← name_eq hg]
        by_cases hname : f.name = g.name
        · rw [hname] at hi
          rw [hI _ hi hj]
        · cases hcompare : Ord.compare f.name g.name with
          | eq => exact absurd (Std.compare_eq_iff_eq.mp hcompare) hname
          | lt | gt => rfl

/-- A pairing may be weakened. -/
theorem mono (hE : ∀ e e', E e e' → E' e e') (hP : ∀ p p', P p p' → P' p p')
    (hI : ∀ kind i i', I kind i i' → I' kind i i') (h : v.Paired E P I v') :
    v.Paired E' P' I' v' := by
  induction v using induction_parts generalizing v' with
  | step v ih =>
    cases h with
    | built h hv =>
      rw [parts_eq_elements hv] at ih
      exact .built (h.imp fun w hw w' hpaired => ih w hw hpaired) hv
    | closure hi hparam hbody hscope =>
      refine .closure (hI _ _ _ hi) (hP _ _ hparam) (hE _ _ hbody) fun x hx => ?_
      exact optionRel_imp (fun w hw w' => ih w (mem_map_of_get? hw)) (hscope x hx)
    | native hi hf =>
      refine .native (hI _ _ _ hi) ?_
      cases hf with
      | fix => exact .fix
      | fixt => exact .fixt
      | unfold hf => exact .unfold (ih _ (List.mem_singleton_self _) hf)
      | unfoldAttr hf => exact .unfoldAttr (ih _ (List.mem_singleton_self _) hf)
      | loader name => exact .loader name
      | hosted name hf => exact .hosted name (ih _ (List.mem_singleton_self _) hf)

/-- Values whose functions are all paired with themselves are. What is asked of the functions is
asked only of those that can be reached: a closure reaches what it captured under the names that it
reads. -/
theorem self {Good : Value → Prop}
    (helements : ∀ v, Good v → v.isFunction = false → ∀ w ∈ v.elements, Good w)
    (hclosure : ∀ i param body (scope : Scope), Good (.closure i param body scope) →
      I none i i ∧ P param param ∧ E body body ∧
        ∀ x ∈ (param.namesUnder body).free, ∀ w, scope.get? x = some w → Good w)
    (hnative : ∀ i f, Good (.native i f) →
      I (some f.name) i i ∧ ∀ w ∈ (Value.native i f).parts, Good w)
    (hv : Good v) : v.Paired E P I v := by
  induction v using induction_parts with
  | step v ih =>
    cases hfunction : v.isFunction with
    | false =>
      refine .built (.refl_of_elements hfunction fun w hw => ?_) hfunction
      exact ih w (parts_eq_elements hfunction ▸ hw) (helements v hv hfunction w hw)
    | true =>
      cases v with
      | closure i param body scope =>
        obtain ⟨hi, hparam, hbody, hscope⟩ := hclosure _ _ _ _ hv
        refine .closure hi hparam hbody fun x hx => ?_
        cases hget : Scope.get? scope x with
        | none => exact .none
        | some w => exact .some (ih w (mem_map_of_get? hget) (hscope x hx w hget))
      | native i f =>
        obtain ⟨hi, hparts⟩ := hnative _ _ hv
        refine .native hi ?_
        cases f with
        | fix => exact .fix
        | fixt => exact .fixt
        | unfold f =>
          have hmem := List.mem_singleton_self f
          exact .unfold (ih f hmem (hparts f hmem))
        | unfoldAttr f attr =>
          have hmem := List.mem_singleton_self f
          exact .unfoldAttr (ih f hmem (hparts f hmem))
        | loader name => exact .loader name
        | hosted name f =>
          have hmem := List.mem_singleton_self f
          exact .hosted name (ih f hmem (hparts f hmem))
      | _ => cases hfunction

end Paired

/-- Paired values correspond to each other, if the pairing keeps the order of identities and pairs
the next ones. -/
theorem paired_lawful {E : Expr → Expr → Prop} {P : Pattern → Pattern → Prop}
    {I : Option String → Identity → Identity → Prop} {N : Identity → Identity → Prop}
    {T : String → String → Prop} (hI : ∀ kind, KeepsOrder (I kind))
    (hN : ∀ kind i i', N i i' → I kind i i') (hnext : ∀ i i', N i i' → N (i + 1) (i' + 1))
    (hname : ∀ name span, P (.expr (.ident name span)) (.expr (.ident name span)))
    (hP : ∀ p p', P p p' → Pattern.Like E P p p')
    (htext : ∀ v v' : Value, v.Paired E P I v' → T v.text v'.text)
    (hexprText : ∀ e e', E e e' → T e.text e'.text)
    (hpatternText : ∀ p p', P p p' → T p.text p'.text) :
    Correspondence.Lawful ⟨Paired E P I, E, P, T, N⟩ where
  likeness := {
    shape := Paired.shape
    build := .built
    order := Paired.keepsOrder hI
    text := htext _ _ }
  next := hnext _ _
  closure hi hparam hbody hscope := .closure (hN _ _ _ hi) hparam hbody hscope
  enter h := by
    cases h with
    | built _ hfunction => cases hfunction
    | closure _ hparam hbody hscope => exact ⟨hparam, hbody, hscope⟩
  native h := by
    cases h with
    | built _ hfunction => cases hfunction
    | native _ hf => exact hf
  unfold hi hf := .native (hN _ _ _ hi) (.unfold hf)
  unfoldAttr hi hf attr := .native (hN _ _ _ hi) (.unfoldAttr hf)
  name := hname
  matched := hP _ _
  exprText := hexprText _ _
  patternText := hpatternText _ _

/-- Evaluations of the same expressions go on in lockstep in scopes that give paired values. Which
expressions these are is up to the relation, as long as it goes on to their parts. -/
theorem paired_sim {E : Expr → Expr → Prop} {P : Pattern → Pattern → Prop}
    {I : Option String → Identity → Identity → Prop} {N : Identity → Identity → Prop}
    (hI : ∀ kind, KeepsOrder (I kind)) (hN : ∀ kind i i', N i i' → I kind i i')
    (hnext : ∀ i i', N i i' → N (i + 1) (i' + 1))
    (hname : ∀ name span, P (.expr (.ident name span)) (.expr (.ident name span)))
    (hE : ∀ e e', E e e' → e = e' ∧ (∀ c ∈ e.subexprs, E c c) ∧ (∀ p ∈ e.subpatterns, P p p) ∧
      ∀ v span, e = .literal v span → v.Paired E P I v)
    (hP : ∀ p p', P p p' → p = p' ∧ (∀ e ∈ p.reads, E e e) ∧ ∀ q ∈ p.parts, P q q) :
    unbounded.Sim ⟨Paired E P I, E, P, Eq, N⟩ unbounded := by
  have hexprText : ∀ e e', E e e' → e.text = e'.text := fun e e' h => by rw [(hE e e' h).1]
  have hpatternText : ∀ p p', P p p' → p.text = p'.text := fun p p' h => by rw [(hP p p' h).1]
  have htext : ∀ v v' : Value, v.Paired E P I v' → v.text = v'.text := fun v v' h =>
    h.text_eq hexprText hpatternText
  refine unbounded_sim (paired_lawful hI hN hnext hname ?_ htext hexprText hpatternText) ?_ ?_
  · intro p p' hp
    obtain ⟨rfl, hreads, hparts⟩ := hP p p' hp
    exact Pattern.like_self hreads hparts
  · intro e e' he
    obtain ⟨rfl, hexprs, hpatterns, hliteral⟩ := hE e e' he
    exact Expr.like_self hexprs hpatterns hliteral
  · intro v v' format hv
    rw [hv.shape.formatted_eq (htext v v' hv)]
    exact formatted_sim v' format

end Value

end Relational
