import Relational.Eval.Step
import Relational.Proofs.OrderedMap
import Relational.Proofs.OrderedSet

/-!
# What operations make of values

Operations take values apart and put the parts together; none of them makes a function. A property
is hereditary when a collection has it exactly if its parts have it, and what is neither a
collection nor a function has it anyway. So operations on values with a hereditary property give
values with it.

None of the operations looks at an expression either. Whatever one of them fails for, it is no
defect of the expression: not a name without a value, not a chain of comparisons with a wrong count,
and not a choice over something that is no dictionary.

> `Sound x P`: the operation `x` gives a result with the property `P`, or fails for a cause that
> does not blame the expression.
-/

namespace Relational

/-! ## Hereditary properties -/

/-- A property that a collection has exactly if its parts have it, and that all other values have
but functions, of which nothing is said. -/
structure Value.Hereditary (V : Value → Prop) : Prop where
  bool (b : Bool) : V (.bool b)
  number (x : Number) : V (.number x)
  string (s : String) : V (.string s)
  bytes (b : List UInt8) : V (.bytes b)
  array {items : List (Option Value)} : V (.array items) ↔ ∀ v, some v ∈ items → V v
  tuple {attrs : List (String × Value)} : V (.tuple attrs) ↔ ∀ attr ∈ attrs, V attr.2
  set {members : List Value} : V (.set members) ↔ ∀ v ∈ members, V v
  dict {entries : List (Value × Value)} :
    V (.dict entries) ↔ ∀ entry ∈ entries, V entry.1 ∧ V entry.2

/-- A value without functions: it has every hereditary property. -/
def Value.IsData (v : Value) : Prop := ∀ V : Value → Prop, Value.Hereditary V → V v

/-- A scope whose values have a property. -/
def Scope.Gives (V : Value → Prop) (scope : Scope) : Prop := ∀ binding ∈ scope, V binding.2

/-- Whether a cause blames the expression or its scope, and not the values: a name without a value,
a chain of comparisons with a wrong count, a choice over something that is no dictionary. -/
def Cause.blamesExpr : Cause → Bool
  | .unbound _ | .emptyChain | .chainArity _ _ => true
  | .unexpected operation _ _ => operation == "cond"
  | _ => false

theorem Cause.blamesExpr_of_isMismatch {cause : Cause} (h : cause.isMismatch = true) :
    cause.blamesExpr = false := by
  cases cause with
  | mismatch | rebound => rfl
  | _ => cases h

/-- An operation gives a result with a property, or fails for a cause that does not blame the
expression. -/
def Sound {α : Type} (x : Except Cause α) (P : α → Prop) : Prop :=
  match x with
  | .ok a => P a
  | .error cause => cause.blamesExpr = false

namespace Sound

variable {α β : Type} {P : α → Prop} {Q : β → Prop}

theorem bind {x : Except Cause α} {f : α → Except Cause β} (hx : Sound x P)
    (hf : ∀ a, P a → Sound (f a) Q) : Sound (x >>= f) Q := by
  cases x with
  | ok a => exact hf a hx
  | error cause => exact hx

theorem error {cause : Cause} (h : cause.blamesExpr = false) : Sound (.error cause) P := h

theorem wrongKind {operation wanted : String} {v : Value} (h : (operation == "cond") = false) :
    Sound (Relational.wrongKind operation wanted v) P := error h

end Sound

/-- No operator is called like a choice. -/
theorem BinaryOp.symbol_ne_cond (op : BinaryOp) : (op.symbol == "cond") = false := by
  refine beq_eq_false_iff_ne.mpr fun h => ?_
  have hfound : ofSymbol? "cond" = some op := ofSymbol?_eq_some_iff.mpr h
  cases hfound

namespace Value

/-! ## Access -/

theorem asNumber_sound (v : Value) : Sound v.asNumber fun _ => True := by
  cases v with
  | number x => exact True.intro
  | _ => exact Sound.error rfl

variable {V : Value → Prop}

/-- What is found in a collection has the property if everything in it has. -/
theorem of_find? {κ : Type} [Ord κ] {k : κ} {v : Value} {entries : List (κ × Value)}
    (h : OrderedMap.find? k entries = some v) (hc : ∀ e ∈ entries, V e.2) : V v := by
  obtain ⟨k', hmem, -⟩ := OrderedMap.exists_mem_of_find? h
  exact hc _ hmem

section

variable (hV : Hereditary V)

include hV

theorem Hereditary.nothing : V .nothing := hV.set.mpr (List.forall_mem_nil _)

theorem asSet_sound {v : Value} (hv : V v) : Sound v.asSet fun members => ∀ m ∈ members, V m := by
  cases v with
  | set members => exact hV.set.mp hv
  | _ => exact Sound.error rfl

theorem getAttr_sound {v : Value} (hv : V v) (attr : String) : Sound (v.getAttr attr) V := by
  unfold getAttr
  split
  next attrs =>
    split
    next value h => exact of_find? h (hV.tuple.mp hv)
    next => exact Sound.error rfl
  next entries =>
    split
    next value h => exact of_find? h fun e he => (hV.dict.mp hv e he).2
    next => exact Sound.error rfl
  next => exact Sound.error rfl

theorem of_pairValue? {v arg answer : Value} (hv : V v) (h : pairValue? arg v = some answer) :
    V answer := by
  unfold pairValue? at h
  split at h
  next attrs =>
    split at h
    next =>
      split at h
      next => exact of_find? h (hV.tuple.mp hv)
      next => cases h
    next => cases h
  next => cases h

theorem Hereditary.pair {k v : Value} (hk : V k) (hv : V v) : V (Value.pair k v) := by
  refine hV.tuple.mpr fun attr hattr => ?_
  rcases List.mem_cons.mp hattr with rfl | hattr
  · exact hk
  · obtain rfl := List.mem_singleton.mp hattr
    exact hv

theorem lookup_sound {v : Value} (hv : V v) (arg : Value) : Sound (v.lookup arg) V := by
  unfold lookup
  split
  next items =>
    refine (asNumber_sound arg).bind fun index _ => ?_
    split
    next => exact Sound.error rfl
    next i _ =>
      split
      next item h => exact hV.array.mp hv item (List.mem_of_getElem? h)
      next => exact Sound.error rfl
  next entries =>
    split
    next value h => exact of_find? h fun e he => (hV.dict.mp hv e he).2
    next => exact Sound.error rfl
  next members =>
    split
    next => exact Sound.error rfl
    next value h =>
      have hmem : value ∈ members.filterMap (pairValue? arg) := by
        rw [h]
        exact List.mem_singleton_self _
      obtain ⟨member, hmember, hvalue⟩ := List.mem_filterMap.mp hmem
      exact of_pairValue? hV (hV.set.mp hv member hmember) hvalue
    next => exact Sound.error rfl
  next => exact Sound.error rfl

/-! ## Operators -/

theorem concat_sound {a b : Value} (ha : V a) (hb : V b) : Sound (concat a b) V := by
  unfold concat
  split
  next items items' =>
    refine hV.array.mpr fun v hv => ?_
    exact (List.mem_append.mp hv).elim (hV.array.mp ha v) (hV.array.mp hb v)
  next => exact hV.string _
  next => exact hV.bytes _
  next =>
    split
    next => exact hb
    next =>
      split
      next => exact ha
      next => exact Sound.wrongKind rfl

theorem withMember_sound {v member : Value} (hv : V v) (hm : V member) :
    Sound (withMember v member) V := by
  unfold withMember
  split
  next members =>
    refine hV.set.mpr fun m h => ?_
    rcases OrderedSet.mem_of_mem_insert h with rfl | h
    · exact hm
    · exact hV.set.mp hv m h
  next => exact Sound.wrongKind rfl

theorem withoutMember_sound {v : Value} (hv : V v) (member : Value) :
    Sound (withoutMember v member) V := by
  unfold withoutMember
  split
  next members =>
    refine hV.set.mpr fun m h => ?_
    exact hV.set.mp hv m ((OrderedSet.erase_sublist _ _).subset h)
  next => exact Sound.wrongKind rfl

omit hV in
/-- The members of a result of set algebra are members of the arguments. -/
theorem mem_of_setAlgebra? {op : BinaryOp} {operation : List Value → List Value → List Value}
    (h : setAlgebra? op = some operation) {xs ys : List Value} {v : Value}
    (hv : v ∈ operation xs ys) : v ∈ xs ∨ v ∈ ys := by
  cases op <;> cases h
  · exact Or.inl (OrderedSet.mem_of_mem_diff hv)
  · exact OrderedSet.mem_of_mem_symmDiff hv
  · exact Or.inl (OrderedSet.mem_of_mem_inter hv)
  · exact OrderedSet.mem_of_mem_union hv

theorem combine_sound (op : BinaryOp) {l r : Value} (hl : V l) (hr : V r) :
    Sound (combine op l r) V := by
  unfold combine
  split
  next => exact concat_sound hV hl hr
  next => exact withMember_sound hV hl hr
  next => exact withoutMember_sound hV hl r
  next =>
    split
    next operation _ =>
      refine (asNumber_sound l).bind fun a _ => (asNumber_sound r).bind fun b _ => ?_
      exact hV.number _
    next =>
      refine (asSet_sound hV hl).bind fun xs hxs => (asSet_sound hV hr).bind fun ys hys => ?_
      split
      next operation h =>
        refine hV.set.mpr fun v hv => ?_
        exact (mem_of_setAlgebra? h hv).elim (hxs v) (hys v)
      next => exact Sound.error rfl

theorem powerSet_sound {v : Value} (hv : V v) : Sound v.powerSet V := by
  refine (asSet_sound hV hv).bind fun members hmembers => ?_
  split
  next => exact Sound.error rfl
  next =>
    refine hV.set.mpr fun s hs => ?_
    obtain ⟨mask, -, rfl⟩ := List.mem_map.mp (OrderedSet.mem_of_mem_ofList hs)
    exact hV.set.mpr fun m hm =>
      hmembers m ((OrderedSet.selected_sublist _ _).subset (OrderedSet.mem_of_mem_ofList hm))

theorem prefixed_sound (op : UnaryOp) {v : Value} (hv : V v) : Sound (v.prefixed op) V := by
  cases op with
  | pos | neg => exact (asNumber_sound v).bind fun _ _ => hV.number _
  | not => exact hV.bool _
  | powerSet => exact powerSet_sound hV hv
  | eval => exact Sound.error rfl

theorem count_sound (v : Value) : Sound v.count V := by
  cases v with
  | bool | number | closure | native => exact Sound.wrongKind rfl
  | _ => exact hV.number _

theorem of_mem_present {items : List (Option Value)} (h : V (.array items)) {v : Value}
    (hv : v ∈ present items) : V v := by
  obtain ⟨item, hitem, rfl⟩ := List.mem_filterMap.mp hv
  exact hV.array.mp h v hitem

theorem single_sound {v : Value} (hv : V v) : Sound v.single V := by
  simp only [single]
  split
  next members =>
    split
    next element => exact hV.set.mp hv element (List.mem_singleton_self _)
    next => exact Sound.error rfl
  next items =>
    split
    next element hitems => exact of_mem_present hV hv (hitems ▸ List.mem_singleton_self _)
    next => exact Sound.error rfl
  next => exact Sound.wrongKind rfl

theorem aggregated_sound (op : BinaryOp) {v : Value} (hv : V v) :
    Sound (v.aggregated op) fun elements => ∀ e ∈ elements, V e := by
  unfold aggregated
  split
  next members => exact hV.set.mp hv
  next items => exact fun e he => of_mem_present hV hv he
  next => exact Sound.wrongKind op.symbol_ne_cond

theorem aggregate_sound (op : BinaryOp) (numbers : List Number) :
    Sound (aggregate op numbers) V := by
  unfold aggregate
  split
  next =>
    split
    next => exact hV.number _
    next => exact Sound.error rfl
  next => split <;> exact hV.number _

/-! ## Projection and nesting -/

theorem projectAttrs_sound (inverse : Bool) (names : List String) {attrs : List (String × Value)}
    (h : ∀ attr ∈ attrs, V attr.2) : Sound (projectAttrs inverse names attrs) V := by
  unfold projectAttrs
  split
  next => exact Sound.error rfl
  next => exact hV.tuple.mpr fun attr hattr => h attr (List.mem_filter.mp hattr).1

end

mutual

theorem project_sound (hV : Hereditary V) (inverse : Bool) (names : List String) :
    ∀ v : Value, V v → Sound (v.project inverse names) V
  | .tuple attrs, hv => projectAttrs_sound hV inverse names (hV.tuple.mp hv)
  | .set members, hv => by
    refine (projectAll_sound hV inverse names members (hV.set.mp hv)).bind fun projected h => ?_
    exact hV.set.mpr fun v hv => h v (OrderedSet.mem_of_mem_ofList hv)
  | .bool _, _ | .number _, _ | .string _, _ | .bytes _, _ | .array _, _ | .dict _, _
  | .closure _ _ _ _, _ | .native _ _, _ => Sound.wrongKind rfl
termination_by structural x => x

theorem projectAll_sound (hV : Hereditary V) (inverse : Bool) (names : List String) :
    ∀ vs : List Value, (∀ v ∈ vs, V v) →
      Sound (projectAll inverse names vs) fun projected => ∀ v ∈ projected, V v
  | [], _ => fun _ h => absurd h List.not_mem_nil
  | v :: vs, h => by
    rw [List.forall_mem_cons] at h
    refine (project_sound hV inverse names v h.1).bind fun first hfirst => ?_
    refine (projectAll_sound hV inverse names vs h.2).bind fun others hothers => ?_
    exact List.forall_mem_cons.mpr ⟨hfirst, hothers⟩
termination_by structural x => x

end

section

variable (hV : Hereditary V)

include hV

/-- Groups whose outer tuples and members have a property. -/
def GroupsHave (V : Value → Prop) (groups : List (Value × List Value)) : Prop :=
  ∀ group ∈ groups, V group.1 ∧ ∀ v ∈ group.2, V v

theorem addToGroup_has (inverse : Bool) (names : List String)
    {groups : List (Value × List Value)} (hgroups : GroupsHave V groups)
    {attrs : List (String × Value)} (hattrs : ∀ attr ∈ attrs, V attr.2) :
    GroupsHave V (addToGroup inverse names groups attrs) := by
  have hpart : ∀ p : String × Value → Bool, V (.tuple (attrs.filter p)) :=
    fun p => hV.tuple.mpr fun attr h => hattrs attr (List.mem_filter.mp h).1
  have hgroup : ∀ outer : Value, ∀ v ∈ (OrderedMap.find? outer groups).getD [], V v := by
    intro outer v hv
    cases hfind : OrderedMap.find? outer groups with
    | none => simp [hfind] at hv
    | some members =>
      rw [hfind] at hv
      obtain ⟨outer', hmem, -⟩ := OrderedMap.exists_mem_of_find? hfind
      exact (hgroups _ hmem).2 v hv
  refine OrderedMap.forall_mem_insert (P := V) (Q := fun members => ∀ v ∈ members, V v)
    hgroups (hpart _) fun v hv => ?_
  rcases OrderedSet.mem_of_mem_insert hv with rfl | hv
  · exact hpart _
  · exact hgroup _ v hv

theorem groupRows_sound (inverse : Bool) (names : List String) (vs : List Value) :
    ∀ {groups : List (Value × List Value)}, GroupsHave V groups → (∀ v ∈ vs, V v) →
      Sound (groupRows inverse names groups vs) (GroupsHave V) := by
  induction vs with
  | nil => exact fun hgroups _ => hgroups
  | cons v vs ih =>
    intro groups hgroups h
    rw [List.forall_mem_cons] at h
    have hrow : Sound v.rowAttrs fun attrs => ∀ attr ∈ attrs, V attr.2 := by
      cases v with
      | tuple attrs => exact hV.tuple.mp h.1
      | _ => exact Sound.wrongKind rfl
    exact hrow.bind fun attrs hattrs => ih (addToGroup_has hV inverse names hgroups hattrs) h.2

theorem groupRow_has (name : String) {group : Value × List Value} (hkey : V group.1)
    (hmembers : ∀ v ∈ group.2, V v) : V (groupRow name group) := by
  unfold groupRow
  split
  next outer members =>
    have h := OrderedMap.forall_mem_insert (P := fun _ => True) (k := name)
      (fun attr h => ⟨True.intro, hV.tuple.mp hkey attr h⟩) True.intro (hV.set.mpr hmembers)
    exact hV.tuple.mpr fun attr hattr => (h attr hattr).2
  next => exact hkey

theorem nest_sound (inverse : Bool) (names : List String) (name : String) {v : Value}
    (hv : V v) : Sound (v.nest inverse names name) V := by
  refine (asSet_sound hV hv).bind fun members hmembers => ?_
  refine (groupRows_sound hV inverse names members (fun _ h => absurd h List.not_mem_nil)
    hmembers).bind fun groups hgroups => ?_
  refine hV.set.mpr fun row hrow => ?_
  obtain ⟨group, hgroup, rfl⟩ := List.mem_map.mp (OrderedSet.mem_of_mem_ofList hrow)
  exact groupRow_has hV name (hgroups group hgroup).1 (hgroups group hgroup).2

/-! ## Collections put together -/

theorem Hereditary.tuple_ofList {attrs : List (String × Value)} (h : ∀ attr ∈ attrs, V attr.2) :
    V (.tuple (OrderedMap.ofList attrs)) := by
  have hall : ∀ attr ∈ OrderedMap.ofList attrs, True ∧ V attr.2 :=
    OrderedMap.forall_mem_insertAll (P := fun _ => True) (Q := V) attrs
      (fun _ h => absurd h List.not_mem_nil) fun attr hattr => ⟨True.intro, h attr hattr⟩
  exact hV.tuple.mpr fun attr hattr => (hall attr hattr).2

theorem Hereditary.dict_ofList {entries : List (Value × Value)}
    (h : ∀ entry ∈ entries, V entry.1 ∧ V entry.2) : V (.dict (OrderedMap.ofList entries)) :=
  hV.dict.mpr (OrderedMap.forall_mem_insertAll entries (fun _ h => absurd h List.not_mem_nil) h)

theorem Hereditary.set_ofList {members : List Value} (h : ∀ v ∈ members, V v) :
    V (.set (OrderedSet.ofList members)) :=
  hV.set.mpr fun v hv => h v (OrderedSet.mem_of_mem_ofList hv)

theorem Hereditary.set_foldl_insert {members new : List Value} (hnew : ∀ v ∈ new, V v)
    (hmembers : ∀ v ∈ members, V v) :
    V (.set (new.foldl (fun members v => OrderedSet.insert v members) members)) := by
  induction new generalizing members with
  | nil => exact hV.set.mpr hmembers
  | cons v new ih =>
    rw [List.forall_mem_cons] at hnew
    refine ih hnew.2 fun m hm => ?_
    rcases OrderedSet.mem_of_mem_insert hm with rfl | hm
    · exact hnew.1
    · exact hmembers m hm

end

/-! ## Comparisons -/

theorem hereditary_true : Hereditary fun _ => True := by
  constructor <;> simp

theorem isMember_sound (a b : Value) : Sound (a.isMember b) fun _ => True := by
  cases b with
  | set members => exact True.intro
  | _ => exact Sound.error rfl

theorem isSubset_sound (a b : Value) : Sound (a.isSubset b) fun _ => True :=
  (asSet_sound hereditary_true True.intro).bind fun _ _ =>
    (asSet_sound hereditary_true True.intro).bind fun _ _ => True.intro

theorem isSubsetEq_sound (a b : Value) : Sound (a.isSubsetEq b) fun _ => True :=
  (asSet_sound hereditary_true True.intro).bind fun _ _ =>
    (asSet_sound hereditary_true True.intro).bind fun _ _ => True.intro

theorem isComparable_sound (a b : Value) : Sound (a.isComparable b) fun _ => True := by
  refine (isSubset_sound a b).bind fun holds _ => ?_
  split
  next => exact True.intro
  next => exact isSubset_sound b a

theorem isComparableEq_sound (a b : Value) : Sound (a.isComparableEq b) fun _ => True := by
  refine (isSubsetEq_sound a b).bind fun holds _ => ?_
  split
  next => exact True.intro
  next => exact isSubsetEq_sound b a

theorem negated_sound {holds : Except Cause Bool} (h : Sound holds fun _ => True) :
    Sound (negated holds) fun _ => True := by
  cases holds with
  | ok b => exact True.intro
  | error cause => exact h

theorem holds_sound (op : CompareOp) (a b : Value) : Sound (op.holds a b) fun _ => True := by
  cases op with
  | member => exact isMember_sound a b
  | notMember => exact negated_sound (isMember_sound a b)
  | eq | ne | lt | gt | le | ge => exact True.intro
  | subset => exact isSubset_sound a b
  | superset => exact isSubset_sound b a
  | subsetEq => exact isSubsetEq_sound a b
  | supersetEq => exact isSubsetEq_sound b a
  | comparable => exact isComparable_sound a b
  | comparableEq => exact isComparableEq_sound b a
  | notSubset => exact negated_sound (isSubset_sound a b)
  | notSuperset => exact negated_sound (isSubset_sound b a)
  | notSubsetEq => exact negated_sound (isSubsetEq_sound a b)
  | notSupersetEq => exact negated_sound (isSubsetEq_sound b a)
  | notComparable => exact negated_sound (isComparable_sound a b)
  | notComparableEq => exact negated_sound (isComparableEq_sound b a)

end Value

/-- The byte of a value. -/
theorem Evaluator.byte_sound (v : Value) : Sound (byte v) fun _ => True := by
  refine (Value.asNumber_sound v).bind fun x _ => ?_
  split
  next n _ =>
    split
    next => exact True.intro
    next => exact Sound.error rfl
  next => exact Sound.error rfl

/-! ## Scopes -/

namespace Scope

variable {V : Value → Prop} {scope other : Scope} {name x : String} {v : Value}

theorem Gives.get? (h : scope.Gives V) (hv : scope.get? x = some v) : V v := Value.of_find? hv h

theorem Gives.bind (h : scope.Gives V) (hv : V v) : (scope.bind name v).Gives V := by
  have hall := OrderedMap.forall_mem_insert (P := fun _ => True) (Q := V) (k := name)
    (fun e he => ⟨True.intro, h e he⟩) True.intro hv
  exact fun e he => (hall e he).2

theorem Gives.update (h : scope.Gives V) (hother : other.Gives V) :
    (scope.update other).Gives V := by
  have hall := OrderedMap.forall_mem_insertAll (P := fun _ => True) (Q := V) other
    (fun e he => ⟨True.intro, h e he⟩) fun e he => ⟨True.intro, hother e he⟩
  exact fun e he => (hall e he).2

end Scope

end Relational
