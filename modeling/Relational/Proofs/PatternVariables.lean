import Relational.Proofs.Inquiry
import Relational.Proofs.Lowered

/-!
# The variables of a pattern

> `Pattern.inquire_keeps`: a match asks only for expressions that stand in the pattern, refuses a
> value only as a mismatch or for an element of a set that cannot be matched, and binds the
> variables of the pattern and nothing else.

The last part is for patterns that have one extra element at most in each structure, since of
several only one would be bound. Lowering makes no others.

> `Lowering.lowered_binds_variables`: if a lowered pattern matches a value, then the names that are
> bound are those of its variables, whatever the value is and whatever comes from fallbacks.
-/

namespace Relational

/-! ## What stands in a pattern -/

namespace Pattern

/-- The expression stands in the pattern, at some depth, as a literal, a key or a fallback. -/
def Consults (p : Pattern) (e : Expr) : Prop := ∃ q : Pattern, q.Inside p ∧ e ∈ q.reads

/-- The variable that the pattern itself is: an identifier other than `_`, or a named extra
element. -/
def ownName : Pattern → Option String
  | .expr (.ident x _) => if x == "_" then none else some x
  | .extra name => name
  | _ => none

theorem ownName_expr {e : Expr} (h : ¬e.isIdent = true) : (Pattern.expr e).ownName = none := by
  cases e with
  | ident name span => exact absurd rfl h
  | _ => rfl

/-- The name is a variable of the pattern, at some depth. -/
def HasVariable (p : Pattern) (x : String) : Prop := ∃ q : Pattern, q.Inside p ∧ q.ownName = some x

/-- The cause is one for which the pattern refuses values: the value does not fit, or the pattern
has a set with an element that cannot be matched. -/
def Refuses (p : Pattern) (cause : Cause) : Prop :=
  cause.isMismatch = true ∨ ∃ elements q, (Pattern.set elements).Inside p ∧ q ∈ elements ∧
    q.fitsInSet = false ∧ cause = .unsupportedElement q.text

/-- A structure has one extra element at most, and only that one has no key. -/
def HasOneExtra : Pattern → Prop
  | .array slots => slots.countP Slot.isExtra ≤ 1
  | .tuple slots => slots.countP (·.2.isExtra) ≤ 1
  | .dict slots =>
    slots.countP (·.2.isExtra) ≤ 1 ∧ ∀ slot ∈ slots, slot.1 = none → slot.2.isExtra = true
  | .set elements => elements.countP Lowering.isExtraPattern ≤ 1
  | _ => True

/-- Every structure in the pattern has one extra element at most. -/
def Proper (p : Pattern) : Prop := ∀ q : Pattern, q.Inside p → q.HasOneExtra

end Pattern

/-- The name is a variable of the pattern of the slot. -/
def Slot.HasVariable (slot : Slot) (x : String) : Prop :=
  ∃ q, slot.pattern = some q ∧ q.HasVariable x

namespace Pattern

theorem hasVariable_iff {p : Pattern} {x : String} :
    p.HasVariable x ↔ p.ownName = some x ∨ ∃ q ∈ p.parts, q.HasVariable x := by
  constructor
  · rintro ⟨q, _ | ⟨hr, hq⟩, hx⟩
    · exact Or.inl hx
    · exact Or.inr ⟨_, hr, q, hq, hx⟩
  · rintro (hx | ⟨r, hr, q, hq, hx⟩)
    · exact ⟨p, .self, hx⟩
    · exact ⟨q, .part hr hq, hx⟩

/-- A pattern without parts has no variable but itself. -/
theorem hasVariable_of_parts_eq_nil {p : Pattern} {x : String} (h : p.parts = []) :
    p.HasVariable x ↔ p.ownName = some x := by
  rw [hasVariable_iff, h, or_iff_left]
  rintro ⟨q, hq, -⟩
  cases hq

theorem hasVariable_extra {name : Option String} {x : String} :
    (Pattern.extra name).HasVariable x ↔ name = some x := hasVariable_of_parts_eq_nil rfl

/-- The variables of a structure with slots are those of the patterns in the slots. -/
theorem hasVariable_iff_slots {p : Pattern} {x : String} (hself : p.ownName = none)
    (hparts : p.parts = p.slots.filterMap Slot.pattern) :
    p.HasVariable x ↔ ∃ slot ∈ p.slots, slot.HasVariable x := by
  rw [hasVariable_iff, hself, hparts]
  constructor
  · rintro (⟨⟨⟩⟩ | ⟨q, hq, hx⟩)
    obtain ⟨slot, hslot, hpattern⟩ := List.mem_filterMap.mp hq
    exact ⟨slot, hslot, q, hpattern, hx⟩
  · rintro ⟨slot, hslot, q, hpattern, hx⟩
    exact Or.inr ⟨q, List.mem_filterMap.mpr ⟨slot, hslot, hpattern⟩, hx⟩

theorem Consults.of_part {p q : Pattern} {e : Expr} (hq : q ∈ p.parts) (h : q.Consults e) :
    p.Consults e := by
  obtain ⟨r, hr, he⟩ := h
  exact ⟨r, .part hq hr, he⟩

theorem Refuses.of_part {p q : Pattern} {cause : Cause} (hq : q ∈ p.parts) (h : q.Refuses cause) :
    p.Refuses cause := by
  rcases h with h | ⟨elements, r, hset, hr⟩
  · exact Or.inl h
  · exact Or.inr ⟨elements, r, .part hq hset, hr⟩

theorem Proper.part {p q : Pattern} (h : p.Proper) (hq : q ∈ p.parts) : q.Proper :=
  fun r hr => h r (.part hq hr)

/-- A pattern is proper if its extra elements and its parts are. -/
theorem Proper.of_parts {p : Pattern} (h : p.HasOneExtra) (hparts : ∀ q ∈ p.parts, q.Proper) :
    p.Proper := by
  rintro q (_ | ⟨hr, hq⟩)
  · exact h
  · exact hparts _ hr q hq

theorem Proper.of_slots {p : Pattern} (h : p.HasOneExtra)
    (hparts : p.parts = p.slots.filterMap Slot.pattern) {E : Expr → Prop}
    (hslots : ∀ slot ∈ p.slots, slot.Has E Proper) : p.Proper := by
  refine .of_parts h fun q hq => ?_
  rw [hparts] at hq
  obtain ⟨slot, hslot, hpattern⟩ := List.mem_filterMap.mp hq
  exact (hslots slot hslot).1 q hpattern

end Pattern

namespace Scope

/-- The scope has a binding of the name. -/
def Binds (scope : Scope) (x : String) : Prop := x ∈ scope.map (·.1)

theorem binds_bind {scope : Scope} {name x : String} {v : Value} :
    (scope.bind name v).Binds x ↔ x = name ∨ scope.Binds x := by
  unfold Binds Scope.bind
  induction scope with
  | nil => simp [OrderedMap.insert]
  | cons b scope ih =>
    rw [OrderedMap.insert]
    split
    next => simp
    next heq =>
      obtain rfl : name = b.1 := Std.LawfulEqCmp.eq_of_compare heq
      simp
    next => rw [List.map_cons, List.mem_cons, ih, List.map_cons, List.mem_cons, or_left_comm]

/-- The second scope has the bindings of the first and those of the given names. -/
def Adds (N : String → Prop) (before after : Scope) : Prop :=
  ∀ x, after.Binds x ↔ before.Binds x ∨ N x

variable {M N : String → Prop} {first second third : Scope}

theorem Adds.refl (hN : ∀ x, ¬N x) : Adds N first first := fun x => by simp [hN x]

theorem Adds.trans (h : Adds M first second) (h' : Adds N second third) :
    Adds (fun x => M x ∨ N x) first third := fun x => by rw [h' x, h x, or_assoc]

theorem Adds.congr (h : Adds M first second) (hN : ∀ x, M x ↔ N x) : Adds N first second :=
  fun x => by rw [h x, hN x]

end Scope

/-! ## What every match keeps -/

/-- Under a condition, the matcher adds the given names. In any case it asks and refuses only as the
properties allow. -/
def Matcher.Adds (E : Expr → Prop) (C : Cause → Prop) (O : Prop) (N : String → Prop)
    (m : Matcher) : Prop :=
  ∀ v bound, (m v bound).Keeps E C fun after => O → Scope.Adds N bound after

/-- The same for the matcher of the extra element. Without one there are no names to add. -/
def Matcher.RestAdds (E : Expr → Prop) (C : Cause → Prop) (O : Prop) (N : String → Prop) :
    Option Matcher → Prop
  | some m => Matcher.Adds E C O N m
  | none => ∀ x, ¬N x

theorem Matcher.restAdds_none {E : Expr → Prop} {C : Cause → Prop} {O : Prop} :
    Matcher.RestAdds E C O (fun _ => False) none := fun _ => id

section

variable {E : Expr → Prop} {C : Cause → Prop} {O : Prop} {refusal : Cause} (hrefusal : C refusal)

theorem ofName_adds (hC : ∀ cause : Cause, cause.isMismatch = true → C cause) (pattern : Pattern)
    (name : String) : Matcher.Adds E C O (· = name) (Inquiry.ofName pattern name) := by
  intro v bound
  have hbind : O → Scope.Adds (· = name) bound (bound.bind name v) :=
    fun _ x => Scope.binds_bind.trans or_comm
  unfold Inquiry.ofName
  split
  next =>
    split
    next => exact hbind
    next => exact hC _ rfl
  next => exact hbind

theorem ofExtra_adds (hC : ∀ cause : Cause, cause.isMismatch = true → C cause)
    (name : Option String) : Matcher.Adds E C O (name = some ·) (Inquiry.ofExtra name) := by
  intro v bound
  cases name with
  | none => exact fun _ => Scope.Adds.refl nofun
  | some name =>
    exact (ofName_adds hC _ name v bound).imp fun after h hO =>
      (h hO).congr fun x => by rw [Option.some.injEq, eq_comm]

theorem matcher_restAdds {slot : Slot}
    (hslot : slot.Has E fun q => Matcher.Adds E C O q.HasVariable q.inquire) :
    Matcher.RestAdds E C O slot.HasVariable slot.matcher := by
  obtain ⟨_ | q, fallback⟩ := slot
  · rintro x ⟨q, ⟨⟩, -⟩
  · intro v bound
    exact (hslot.1 q rfl v bound).imp fun after h hO =>
      (h hO).congr fun x => by simp [Slot.HasVariable, Slot.pattern]

include hrefusal

theorem ofLiterals_keeps {v : Value} {bound : Scope} {es : List Expr} (hes : ∀ e ∈ es, E e) :
    (Inquiry.ofLiterals refusal v bound es).Keeps E C (· = bound) := by
  induction es with
  | nil => exact hrefusal
  | cons e es ih =>
    rw [List.forall_mem_cons] at hes
    refine ⟨hes.1, fun candidate => ?_⟩
    dsimp only
    split
    next => exact rfl
    next => exact ih hes.2

theorem ofSlot_keeps {slot : Slot}
    (hslot : slot.Has E fun q => Matcher.Adds E C O q.HasVariable q.inquire) (part : Option Value)
    (bound : Scope) :
    (Inquiry.ofSlot refusal slot.matcher slot.fallback part bound).Keeps E C fun after =>
      O → Scope.Adds slot.HasVariable bound after := by
  have hmatcher := matcher_restAdds hslot
  obtain ⟨_ | q, fallback⟩ := slot
  · exact fun _ => Scope.Adds.refl hmatcher
  · cases part with
    | some part => exact hmatcher part bound
    | none =>
      cases fallback with
      | some fallback => exact ⟨hslot.2 fallback rfl, fun part => hmatcher part bound⟩
      | none => exact hrefusal

theorem inquireSlots_keeps {slots : List Slot}
    (hslots : ∀ slot ∈ slots, slot.Has E fun q => Matcher.Adds E C O q.HasVariable q.inquire)
    (parts : List (Option Value)) (bound : Scope) :
    (Pattern.inquireSlots refusal slots parts bound).Keeps E C fun after =>
      O → Scope.Adds (fun x => ∃ slot ∈ slots, slot.HasVariable x) bound after := by
  induction slots generalizing parts bound with
  | nil => exact fun _ => Scope.Adds.refl (by simp)
  | cons slot slots ih =>
    rw [List.forall_mem_cons] at hslots
    refine (ofSlot_keeps hrefusal hslots.1 _ bound).bind fun first hfirst => ?_
    refine (ih hslots.2 parts.tail first).imp fun second hsecond hO => ?_
    exact ((hfirst hO).trans (hsecond hO)).congr fun x => by simp

theorem ofRest_keeps {R : String → Prop} {rest : Option Matcher}
    (hrest : Matcher.RestAdds E C O R rest) (isEmpty : Bool) (left : Value) (bound : Scope) :
    (Inquiry.ofRest refusal rest isEmpty left bound).Keeps E C fun after =>
      O → Scope.Adds R bound after := by
  cases rest with
  | some m => exact hrest left bound
  | none =>
    cases isEmpty with
    | true => exact fun _ => Scope.Adds.refl hrest
    | false => exact hrefusal

theorem inquireItems_keeps {slots : List Slot}
    (hslots : ∀ slot ∈ slots, slot.Has E fun q => Matcher.Adds E C O q.HasVariable q.inquire)
    (items : List (Option Value)) (bound : Scope) :
    (Pattern.inquireItems refusal slots items bound).Keeps E C fun after =>
      O → Scope.Adds (fun x => ∃ slot ∈ slots, slot.HasVariable x) bound after := by
  induction slots generalizing items bound with
  | nil => exact fun _ => Scope.Adds.refl (by simp)
  | cons slot slots ih =>
    rw [List.forall_mem_cons] at hslots
    rw [Pattern.inquireItems]
    split
    next =>
      -- the extra element comes after the slots behind it
      have hrest := matcher_restAdds hslots.1
      refine (inquireSlots_keeps hrefusal hslots.2 _ bound).bind fun first hfirst => ?_
      refine (ofRest_keeps hrefusal hrest true _ first).imp fun second hsecond hO => ?_
      exact ((hfirst hO).trans (hsecond hO)).congr fun x => by simp [or_comm]
    next =>
      refine (ofSlot_keeps hrefusal hslots.1 _ bound).bind fun first hfirst => ?_
      refine (ih hslots.2 items.tail first).imp fun second hsecond hO => ?_
      exact ((hfirst hO).trans (hsecond hO)).congr fun x => by simp

/-- `R` holds of the names of the extra element, once it has been passed. With one extra element at
most there are none of them as long as it is still to come. -/
theorem inquireAttrs_keeps {slots : List (String × Slot)}
    (hslots : ∀ slot ∈ slots, slot.2.Has E fun q => Matcher.Adds E C O q.HasVariable q.inquire)
    (hcount : O → slots.countP (·.2.isExtra) ≤ 1) {R : String → Prop} {rest : Option Matcher}
    (hrest : Matcher.RestAdds E C O R rest)
    (hlast : O → 0 < slots.countP (·.2.isExtra) → ∀ x, ¬R x)
    (attrs left : List (String × Value)) (bound : Scope) :
    (Pattern.inquireAttrs refusal attrs slots left rest bound).Keeps E C fun after =>
      O → Scope.Adds (fun x => R x ∨ ∃ slot ∈ slots, slot.2.HasVariable x) bound after := by
  induction slots generalizing R rest left bound with
  | nil =>
    exact (ofRest_keeps hrefusal hrest left.isEmpty _ bound).imp fun after h hO =>
      (h hO).congr fun x => by simp
  | cons attr slots ih =>
    obtain ⟨name, slot⟩ := attr
    rw [List.forall_mem_cons] at hslots
    simp only [List.countP_cons] at hcount hlast
    rw [Pattern.inquireAttrs]
    split
    next hextra =>
      -- it takes the place of `rest`, which has no names then
      simp only [hextra, if_true] at hcount hlast
      refine (ih hslots.2 (fun hO => ?_) (matcher_restAdds hslots.1) (fun hO hpos => ?_) left
        bound).imp fun after h hO => ?_
      · have := hcount hO
        omega
      · have := hcount hO
        omega
      · exact (h hO).congr fun x => by simp [hlast hO (by omega) x]
    next hextra =>
      simp only [hextra, Bool.false_eq_true, if_false, Nat.add_zero] at hcount hlast
      refine (ofSlot_keeps hrefusal hslots.1 _ bound).bind fun first hfirst => ?_
      refine (ih hslots.2 hcount hrest hlast _ first).imp fun second hsecond hO => ?_
      exact ((hfirst hO).trans (hsecond hO)).congr fun x => by simp [or_left_comm]

theorem inquireEntries_keeps {slots : List (Option Expr × Slot)}
    (hslots : ∀ slot ∈ slots, slot.2.Has E fun q => Matcher.Adds E C O q.HasVariable q.inquire)
    (hkeys : ∀ slot ∈ slots, ∀ key, slot.1 = some key → E key)
    (hcount : O → slots.countP (·.2.isExtra) ≤ 1)
    (hkeyless : O → ∀ slot ∈ slots, slot.1 = none → slot.2.isExtra = true)
    {R : String → Prop} {rest : Option Matcher}
    (hrest : Matcher.RestAdds E C O R rest)
    (hlast : O → 0 < slots.countP (·.2.isExtra) → ∀ x, ¬R x)
    (entries left : List (Value × Value)) (bound : Scope) :
    (Pattern.inquireEntries refusal entries slots left rest bound).Keeps E C fun after =>
      O → Scope.Adds (fun x => R x ∨ ∃ slot ∈ slots, slot.2.HasVariable x) bound after := by
  induction slots generalizing R rest left bound with
  | nil =>
    exact (ofRest_keeps hrefusal hrest left.isEmpty _ bound).imp fun after h hO =>
      (h hO).congr fun x => by simp
  | cons entry slots ih =>
    obtain ⟨key, slot⟩ := entry
    rw [List.forall_mem_cons] at hslots hkeys
    simp only [List.countP_cons] at hcount hlast
    have hkeyless' : O → ∀ slot ∈ slots, slot.1 = none → slot.2.isExtra = true :=
      fun hO s hs => hkeyless hO s (List.mem_cons_of_mem _ hs)
    cases key with
    | none =>
      have hextra : O → slot.isExtra = true := fun hO =>
        hkeyless hO (none, slot) (List.mem_cons_self ..) rfl
      rw [Pattern.inquireEntries]
      refine (ih hslots.2 hkeys.2 (fun hO => ?_) hkeyless' (matcher_restAdds hslots.1)
        (fun hO hpos => ?_) left bound).imp fun after h hO => ?_
      · have := hcount hO
        omega
      · have := hcount hO
        simp only [hextra hO, if_true] at this
        omega
      · have hR := hlast hO (by simp [hextra hO])
        exact (h hO).congr fun x => by simp [hR x]
    | some key =>
      refine ⟨hkeys.1 key rfl, fun k => ?_⟩
      refine (ofSlot_keeps hrefusal hslots.1 _ bound).bind fun first hfirst => ?_
      refine (ih hslots.2 hkeys.2 (fun hO => ?_) hkeyless' hrest (fun hO hpos => ?_) _
        first).imp fun second hsecond hO => ?_
      · have := hcount hO
        omega
      · exact hlast hO (by omega)
      · exact ((hfirst hO).trans (hsecond hO)).congr fun x => by simp [or_left_comm]

/-- An element of a set that can be matched is asked for or takes what is left, so that the extra
element alone binds a name. -/
theorem ofMembers_keeps (hC : ∀ cause : Cause, cause.isMismatch = true → C cause)
    {elements : List Pattern} (hreads : ∀ p ∈ elements, ∀ e ∈ p.reads, E e)
    (hunfit : ∀ p ∈ elements, p.fitsInSet = false → C (.unsupportedElement p.text))
    (hcount : O → elements.countP Lowering.isExtraPattern ≤ 1) {R : String → Prop}
    {rest : Option Matcher} (hrest : Matcher.RestAdds E C O R rest)
    (hlast : O → 0 < elements.countP Lowering.isExtraPattern → ∀ x, ¬R x) (left : List Value)
    (bound : Scope) :
    (Inquiry.ofMembers refusal elements left rest bound).Keeps E C fun after =>
      O → Scope.Adds (fun x => R x ∨ ∃ p ∈ elements, p.HasVariable x) bound after := by
  induction elements generalizing R rest left bound with
  | nil =>
    exact (ofRest_keeps hrefusal hrest left.isEmpty _ bound).imp fun after h hO =>
      (h hO).congr fun x => by simp
  | cons element elements ih =>
    rw [List.forall_mem_cons] at hreads hunfit
    cases element with
    | extra name =>
      simp only [List.countP_cons, Lowering.isExtraPattern, if_true] at hcount hlast
      have hrest : Matcher.RestAdds E C O (name = some ·) (some (Inquiry.ofExtra name)) :=
        ofExtra_adds hC name
      refine (ih hreads.2 hunfit.2 (fun hO => ?_) hrest (fun hO hpos => ?_) left bound).imp
        fun after h hO => ?_
      · have := hcount hO
        omega
      · have := hcount hO
        omega
      · exact (h hO).congr fun x => by
          simp [Pattern.hasVariable_extra, hlast hO (by omega) x]
    | expr e =>
      simp only [List.countP_cons, Lowering.isExtraPattern, Bool.false_eq_true, if_false,
        Nat.add_zero] at hcount hlast
      unfold Inquiry.ofMembers
      split
      next hident => exact hunfit.1 (by rw [Pattern.fitsInSet, hident]; rfl)
      next hident =>
        have he : e ∈ (Pattern.expr e).reads :=
          Pattern.mem_reads_of_mem_literals (by simp [Pattern.literals, hident])
        have hname : ∀ x, ¬(Pattern.expr e).HasVariable x := by
          intro x hx
          rw [Pattern.hasVariable_of_parts_eq_nil rfl, Pattern.ownName_expr hident] at hx
          cases hx
        refine ⟨hreads.1 e he, fun member => ?_⟩
        dsimp only
        split
        next =>
          refine (ih hreads.2 hunfit.2 hcount hrest hlast _ bound).imp fun after h hO => ?_
          exact (h hO).congr fun x => by simp [hname x]
        next => exact hrefusal
    | exprs | array | tuple | dict | set => exact hunfit.1 rfl

end

namespace Pattern

theorem refuses_of_isMismatch {p : Pattern} (cause : Cause) (h : cause.isMismatch = true) :
    p.Refuses cause := Or.inl h

theorem consults_of_mem_reads {p : Pattern} (e : Expr) (h : e ∈ p.reads) : p.Consults e :=
  ⟨p, .self, h⟩

theorem ofLiterals_adds {p : Pattern} {es : List Expr} (hes : ∀ e ∈ es, e ∈ p.literals)
    (hnone : ∀ x, ¬p.HasVariable x) {O : Prop} (v : Value) (bound : Scope) :
    (Inquiry.ofLiterals (.mismatch v.text p.text) v bound es).Keeps p.Consults p.Refuses
      fun after => O → Scope.Adds p.HasVariable bound after := by
  have hconsults : ∀ e ∈ es, p.Consults e := fun e he =>
    consults_of_mem_reads e (mem_reads_of_mem_literals (hes e he))
  refine (ofLiterals_keeps (refuses_of_isMismatch _ rfl) hconsults).imp ?_
  rintro _ rfl _
  exact Scope.Adds.refl hnone

/-- A name is bound, and the value of another expression is asked for. -/
theorem expr_adds (e : Expr) (O : Prop) :
    Matcher.Adds (Pattern.expr e).Consults (Pattern.expr e).Refuses O (Pattern.expr e).HasVariable
      (Pattern.expr e).inquire := by
  intro v bound
  by_cases hident : e.isIdent = true
  · cases e with
    | ident name span =>
      rw [Pattern.inquire]
      split
      next hname =>
        refine fun _ => Scope.Adds.refl fun x hx => ?_
        rw [hasVariable_of_parts_eq_nil rfl, ownName, if_pos hname] at hx
        cases hx
      next hname =>
        refine (ofName_adds (O := O) refuses_of_isMismatch _ name v bound).imp fun after h hO => ?_
        refine (h hO).congr fun x => ?_
        rw [hasVariable_of_parts_eq_nil rfl, ownName, if_neg hname, Option.some.injEq, eq_comm]
    | _ => cases hident
  · have hinquire : (Pattern.expr e).inquire v bound =
        Inquiry.ofLiterals (.mismatch v.text (Pattern.expr e).text) v bound [e] := by
      cases e with
      | ident name span => exact absurd rfl hident
      | _ => rfl
    rw [hinquire]
    refine ofLiterals_adds (fun a ha => by rwa [literals, if_neg hident]) (fun x hx => ?_) v bound
    rw [hasVariable_of_parts_eq_nil rfl, ownName_expr hident] at hx
    cases hx

/-- The elements of a set are asked for, and the extra element is bound. -/
theorem set_adds (elements : List Pattern) :
    Matcher.Adds (Pattern.set elements).Consults (Pattern.set elements).Refuses
      (Pattern.set elements).Proper (Pattern.set elements).HasVariable
      (Pattern.set elements).inquire := by
  intro v bound
  cases v with
  | set members =>
    have hreads : ∀ q ∈ elements, ∀ e ∈ q.reads, (Pattern.set elements).Consults e :=
      fun q hq e he => ⟨q, .part hq .self, he⟩
    have hunfit : ∀ q ∈ elements, q.fitsInSet = false →
        (Pattern.set elements).Refuses (.unsupportedElement q.text) :=
      fun q hq hfit => Or.inr ⟨elements, q, .self, hq, hfit, rfl⟩
    have hcount : (Pattern.set elements).Proper → elements.countP Lowering.isExtraPattern ≤ 1 :=
      fun hp => hp _ .self
    refine (ofMembers_keeps (refuses_of_isMismatch _ rfl) refuses_of_isMismatch hreads hunfit hcount
      Matcher.restAdds_none (fun _ _ _ => id) members bound).imp fun after h hp => ?_
    refine (h hp).congr fun x => ?_
    rw [hasVariable_iff, false_or]
    simp [ownName, parts]
  | _ => exact refuses_of_isMismatch _ rfl

/-- Every match asks only for expressions that stand in its pattern and refuses only what the
pattern refuses. With one extra element at most in each structure, it adds the variables of the
pattern to the names bound before, and no others. -/
theorem inquire_keeps (p : Pattern) :
    Matcher.Adds p.Consults p.Refuses p.Proper p.HasVariable p.inquire := by
  induction p using Pattern.induction_parts with
  | h p ih =>
    have hparts : ∀ q ∈ p.parts,
        Matcher.Adds p.Consults p.Refuses p.Proper q.HasVariable q.inquire := by
      intro q hq v bound
      exact (ih q hq v bound).mono (fun _ => Consults.of_part hq) (fun _ => Refuses.of_part hq)
        fun after h hp => h (hp.part hq)
    have hslots := Pattern.slot_has consults_of_mem_reads hparts
    intro v bound
    have hrefusal : p.Refuses (.mismatch v.text p.text) := refuses_of_isMismatch _ rfl
    cases p with
    | expr e => exact expr_adds e _ v bound
    | exprs es =>
      refine ofLiterals_adds (fun _ => id) (fun x hx => ?_) v bound
      rw [hasVariable_of_parts_eq_nil rfl] at hx
      cases hx
    | extra name =>
      exact (ofExtra_adds refuses_of_isMismatch name v bound).imp fun after h hp =>
        (h hp).congr fun x => hasVariable_extra.symm
    | array slots =>
      rw [Pattern.inquire]
      cases v.items? with
      | none => exact hrefusal
      | some items =>
        dsimp only
        split
        next =>
          refine (inquireItems_keeps hrefusal hslots _ bound).imp fun after h hp => ?_
          exact (h hp).congr fun x => (hasVariable_iff_slots rfl rfl).symm
        next => exact hrefusal
    | tuple slots =>
      rw [Pattern.inquire]
      cases v.attrs? with
      | none => exact hrefusal
      | some attrs =>
        have hcount : (Pattern.tuple slots).Proper → slots.countP (·.2.isExtra) ≤ 1 :=
          fun hp => hp _ .self
        refine (inquireAttrs_keeps hrefusal (fun slot hs => hslots _ (List.mem_map_of_mem hs))
          hcount Matcher.restAdds_none (fun _ _ _ => id) attrs attrs bound).imp fun after h hp => ?_
        refine (h hp).congr fun x => ?_
        rw [hasVariable_iff_slots rfl rfl, false_or]
        simp only [Pattern.slots, List.mem_map, exists_exists_and_eq_and]
    | dict slots =>
      rw [Pattern.inquire]
      cases v.entries? with
      | none => exact hrefusal
      | some entries =>
        have hkeys : ∀ slot ∈ slots, ∀ key, slot.1 = some key → (Pattern.dict slots).Consults key :=
          fun slot hs key hkey => consults_of_mem_reads key
            (mem_reads_of_mem_keys (List.mem_filterMap.mpr ⟨slot, hs, hkey⟩))
        have hcount : (Pattern.dict slots).Proper → slots.countP (·.2.isExtra) ≤ 1 :=
          fun hp => (hp _ .self).1
        refine (inquireEntries_keeps hrefusal (fun slot hs => hslots _ (List.mem_map_of_mem hs))
          hkeys hcount (fun hp => (hp _ .self).2) Matcher.restAdds_none (fun _ _ _ => id) entries
          entries bound).imp fun after h hp => ?_
        refine (h hp).congr fun x => ?_
        rw [hasVariable_iff_slots rfl rfl, false_or]
        simp only [Pattern.slots, List.mem_map, exists_exists_and_eq_and]
    | set elements => exact set_adds elements v bound

end Pattern

/-! ## Lowered patterns -/

namespace Lowering

/-- Lowering puts one extra element at most into each structure. -/
theorem rules_proper : Rules (fun _ => True) Pattern.Proper fun _ => True := by
  constructor
  case exprPattern | exprsPattern | extraPattern =>
    intros
    exact .of_parts trivial nofun
  case arrayPattern =>
    intro slots hslots hextra
    exact .of_slots hextra rfl hslots
  case tuplePattern =>
    intro slots hslots hextra
    exact .of_slots hextra rfl (List.forall_mem_map.mpr hslots)
  case dictPattern =>
    intro slots hslots hextra
    exact .of_slots ⟨hextra, fun slot hslot => (hslots slot hslot).2.2⟩ rfl
      (List.forall_mem_map.mpr fun slot hslot => (hslots slot hslot).1)
  case setPattern =>
    intro elements helements hextra
    exact .of_parts hextra helements
  -- nothing is asked of expressions and places
  all_goals
    intros
    trivial

/-- If a lowered pattern matches a value, then the names that are bound are those of its
variables. -/
theorem lowered_binds_variables {fuel fuel' : Nat} {node : Node} {setting : Setting}
    {state state' : CompilerState} {pattern : Pattern} {scope bound : Scope} {v : Value}
    {next after : Identity}
    (hlower : lowerPattern fuel node setting state = (.done pattern, state'))
    (hbind : pattern.bindings fuel' scope v next = .done (bound, after)) (x : String) :
    bound.Binds x ↔ pattern.HasVariable x := by
  have terms : Terms (fun _ => True) (fun _ => True) Pattern.Proper (fun _ => True)
      setting.modules :=
    ⟨rules_proper, fun _ _ => ⟨trivial, fun _ => trivial, fun _ _ _ => trivial⟩,
      answersFrom_true.mpr ⟨fun _ => trivial, fun _ => trivial, fun _ => trivial⟩⟩
  have hproper : pattern.Proper :=
    ((lower_keeps terms fuel).pattern trivial).ensures () hlower
  have hrun := exists_bindings_iff.mp ⟨fuel', hbind⟩
  have hadds := (pattern.inquire_keeps v Scope.empty).of_done hrun hproper
  rw [hadds x]
  exact or_iff_right List.not_mem_nil

end Lowering

/-- The pattern `[x, y:true, ...rest]`. -/
def Samples.arrayWithRest : Node :=
  let x : Node := .embedded (.ident "x" .unknown) .unknown
  let y : Node := .branch [("IDENT", .one (.leaf ⟨⟨"", "y"⟩, 0, 1⟩)),
    ("fall", .one (.embedded (.literal (.bool true) .unknown) .unknown))] .unknown
  let rest : Node := .branch [("extra", .one
    (.branch [("ident", .one (.leaf ⟨⟨"", "rest"⟩, 0, 4⟩))] .unknown))] .unknown
  .branch [("array", .one (.branch [("first_item", .one x), ("item", .many [y, rest])] .unknown))]
    .unknown

/-- The pattern `[x, y:true, ...rest]` takes `[false, , false]`, whose second place is empty. -/
theorem Lowering.lowered_binds_variables_rest :
    let pattern : Pattern := .array [.mk (some (.expr (.ident "x" .unknown))) none,
      .mk (some (.expr (.ident "y" ⟨⟨"", "y"⟩, 0, 1⟩))) (some (.literal (.bool true) .unknown)),
      .mk (some (.extra (some "rest"))) none]
    let bound : Scope :=
      [("rest", .array [some (.bool false)]), ("x", .bool false), ("y", .bool true)]
    lowerPattern 4 Samples.arrayWithRest ⟨none, .deferred, .recording⟩ .initial =
      (.done pattern, .initial) ∧
    pattern.bindings 9 Scope.empty (.array [some (.bool false), none, some (.bool false)]) 0 =
      .done (bound, 0) ∧ ∀ x, bound.Binds x ↔ pattern.HasVariable x := by
  intro pattern bound
  have hlower : lowerPattern 4 Samples.arrayWithRest ⟨none, .deferred, .recording⟩ .initial =
      (.done pattern, .initial) := rfl
  have hbind : pattern.bindings 9 Scope.empty
      (.array [some (.bool false), none, some (.bool false)]) 0 = .done (bound, 0) := rfl
  exact ⟨hlower, hbind, lowered_binds_variables hlower hbind⟩

end Relational
