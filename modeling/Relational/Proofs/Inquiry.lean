import Relational.Proofs.Destructuring
import Relational.Proofs.Steps

/-!
# What a match asks for

Matching a pattern runs code: the literals, the keys and the fallbacks of the pattern are evaluated
on the way. This file takes the two apart. The `Inquiry` of a pattern and a value is all that
matching does by itself: it compares, makes bindings and refuses the value, and where it needs the
value of an expression it asks for it and goes on with the answer.

> `unbounded_bind_eq_run`: matching is its inquiry with the questions answered by evaluation.

An inquiry is defined by recursion on the pattern, without fuel and without an evaluator, so what
holds of every match is shown of the inquiry (`Keeps`). `ComesTo` is the course of a match: one step
for each answer. It tells the failure of a question from a refusal, whatever the two look like.
-/

namespace Relational

/-! ## Inquiries -/

/-- A match in progress. -/
inductive Inquiry (α : Type) where
  /-- It has ended with a result. -/
  | found (result : α)
  /-- It has ended without one, for a cause of its own. -/
  | refused (cause : Cause)
  /-- It needs the value of an expression, and goes on with the answer. -/
  | asks (e : Expr) (answer : Value → Inquiry α)

namespace Inquiry

variable {α β : Type}

/-- One inquiry after another. -/
protected def bind : Inquiry α → (α → Inquiry β) → Inquiry β
  | .found a, f => f a
  | .refused cause, _ => .refused cause
  | .asks e answer, f => .asks e fun v => (answer v).bind f

instance : Monad Inquiry where
  pure := .found
  bind := Inquiry.bind

/-- The run of an inquiry whose questions are answered by evaluation. -/
def run (eval : Expr → Run Value) : Inquiry α → Run α
  | .found a => pure a
  | .refused cause => Run.fail cause
  | .asks e answer => do
    let v ← eval e
    (answer v).run eval

theorem run_bind (eval : Expr → Run Value) (i : Inquiry α) (f : α → Inquiry β) :
    (i >>= f).run eval = i.run eval >>= fun a => (f a).run eval := by
  induction i with
  | found a => rfl
  | refused cause => rfl
  | asks e answer ih =>
    show (do let v ← eval e; ((answer v).bind f).run eval) =
      (do let v ← eval e; (answer v).run eval) >>= fun a => (f a).run eval
    rw [bind_assoc]
    exact congrArg (eval e >>= ·) (funext ih)

/-! ## The course of an inquiry -/

/-- From one identity on, evaluation answers all that is asked until the inquiry stands at
another one. -/
inductive ComesTo (eval : Expr → Run Value) : Inquiry α → Identity → Inquiry α → Identity → Prop
  | refl {i : Inquiry α} {next : Identity} : ComesTo eval i next i next
  | answered {e : Expr} {answer : Value → Inquiry α} {v : Value} {next between after : Identity}
      {i : Inquiry α} (h : eval e next = .done (v, between))
      (hrest : ComesTo eval (answer v) between i after) :
      ComesTo eval (.asks e answer) next i after

section

variable {eval : Expr → Run Value} {i j : Inquiry α} {next after : Identity}

/-- The answers given so far do not decide how the rest ends. -/
theorem ComesTo.run_eq (h : ComesTo eval i next j after) :
    i.run eval next = j.run eval after := by
  induction h with
  | refl => rfl
  | answered h _ ih =>
    rw [run, Run.bind_apply, h]
    exact ih

/-- An inquiry comes to its end, or to a question that has no answer. -/
theorem exists_comesTo (eval : Expr → Run Value) (i : Inquiry α) (next : Identity) :
    ∃ j after, ComesTo eval i next j after ∧
      ∀ e answer, j = .asks e answer → ∀ result, eval e after ≠ .done result := by
  induction i generalizing next with
  | found a => exact ⟨.found a, next, .refl, nofun⟩
  | refused cause => exact ⟨.refused cause, next, .refl, nofun⟩
  | asks e answer ih =>
    cases heval : eval e next with
    | done result =>
      -- the answer leads one step further
      obtain ⟨j, after, hj, hend⟩ := ih result.1 result.2
      exact ⟨j, after, .answered heval hj, hend⟩
    | failed | aborted | exhausted =>
      refine ⟨.asks e answer, next, .refl, ?_⟩
      rintro _ _ ⟨⟩ result hdone
      rw [heval] at hdone
      cases hdone

end

/-! ## What all courses have in common -/

/-- Whatever the answers are, the inquiry asks only for expressions with the first property, is
refused only for causes with the second, and its results have the third. -/
def Keeps (E : Expr → Prop) (C : Cause → Prop) (A : α → Prop) : Inquiry α → Prop
  | .found a => A a
  | .refused cause => C cause
  | .asks e answer => E e ∧ ∀ v, (answer v).Keeps E C A

section

variable {E E' : Expr → Prop} {C C' : Cause → Prop} {A A' : α → Prop} {B : β → Prop}
  {eval : Expr → Run Value} {i j : Inquiry α} {next after : Identity}

theorem Keeps.bind {f : α → Inquiry β} (hi : i.Keeps E C A) (hf : ∀ a, A a → (f a).Keeps E C B) :
    (i >>= f).Keeps E C B := by
  induction i with
  | found a => exact hf a hi
  | refused cause => exact hi
  | asks e answer ih => exact ⟨hi.1, fun v => ih v (hi.2 v)⟩

theorem Keeps.mono (hi : i.Keeps E C A) (hE : ∀ e, E e → E' e) (hC : ∀ c, C c → C' c)
    (hA : ∀ a, A a → A' a) : i.Keeps E' C' A' := by
  induction i with
  | found a => exact hA a hi
  | refused cause => exact hC cause hi
  | asks e answer ih => exact ⟨hE e hi.1, fun v => ih v (hi.2 v)⟩

theorem Keeps.imp (hi : i.Keeps E C A) (hA : ∀ a, A a → A' a) : i.Keeps E C A' :=
  hi.mono (fun _ => id) (fun _ => id) hA

theorem Keeps.comesTo (hi : i.Keeps E C A) (h : ComesTo eval i next j after) :
    j.Keeps E C A := by
  induction h with
  | refl => exact hi
  | answered _ _ ih => exact ih (hi.2 _)

theorem keeps_true (i : Inquiry α) : i.Keeps (fun _ => True) (fun _ => True) fun _ => True := by
  induction i with
  | found | refused => trivial
  | asks e answer ih => exact ⟨trivial, ih⟩

/-- The results of a run have the property. -/
theorem Keeps.of_done (hi : i.Keeps E C A) {a : α} (h : i.run eval next = .done (a, after)) :
    A a := by
  obtain ⟨j, last, hj, hend⟩ := exists_comesTo eval i next
  have hkeeps := hi.comesTo hj
  rw [hj.run_eq] at h
  cases j with
  | found b =>
    obtain ⟨rfl, -⟩ := Prod.mk.inj (Outcome.done.inj h)
    exact hkeeps
  | refused cause => cases h
  | asks e answer =>
    obtain ⟨v, between, hv, -⟩ := Run.bind_eq_done_iff.mp h
    exact absurd hv (hend e answer rfl _)

end

end Inquiry

/-! ## The inquiry of a pattern -/

/-- What matching asks about a value and binds, after the bindings made so far. -/
abbrev Matcher := Value → Scope → Inquiry Scope

namespace Inquiry

/-- Binds one more name. A name that is bound stays bound to an equal value. -/
def ofName (pattern : Pattern) (name : String) : Matcher := fun v bound =>
  match bound.get? name with
  | some old =>
    if old == v then .found (bound.bind name v)
    else .refused (.rebound v.text old.text pattern.text)
  | none => .found (bound.bind name v)

/-- Takes what is left, under a name or not. -/
def ofExtra (name : Option String) : Matcher := fun v bound =>
  match name with
  | none => .found bound
  | some name => ofName (.extra (some name)) name v bound

/-- Asks for expressions until one has the value. -/
def ofLiterals (refusal : Cause) (v : Value) (bound : Scope) : List Expr → Inquiry Scope
  | [] => .refused refusal
  | e :: es => .asks e fun candidate =>
    if candidate == v then .found bound else ofLiterals refusal v bound es

/-- A slot, if it is not left out, takes its part, or else the value of its fallback. -/
def ofSlot (refusal : Cause) (matcher : Option Matcher) (fallback : Option Expr)
    (part : Option Value) (bound : Scope) : Inquiry Scope :=
  match matcher with
  | none => .found bound
  | some matcher =>
    match part, fallback with
    | some part, _ => matcher part bound
    | none, some fallback => .asks fallback fun part => matcher part bound
    | none, none => .refused refusal

/-- What is left goes to the extra element. Without one nothing may be left. -/
def ofRest (refusal : Cause) (rest : Option Matcher) (isEmpty : Bool) (left : Value)
    (bound : Scope) : Inquiry Scope :=
  match rest with
  | some matcher => matcher left bound
  | none => if isEmpty then .found bound else .refused refusal

/-- Each element of a set takes away the member that has its value. -/
def ofMembers (refusal : Cause) :
    List Pattern → List Value → Option Matcher → Scope → Inquiry Scope
  | [], left, rest, bound => ofRest refusal rest left.isEmpty (.set left) bound
  | .extra name :: elements, left, _, bound =>
    ofMembers refusal elements left (some (ofExtra name)) bound
  | .expr e :: elements, left, rest, bound =>
    if e.isIdent then .refused (.unsupportedElement (Pattern.expr e).text)
    else .asks e fun member =>
      if OrderedSet.contains member left then
        ofMembers refusal elements (OrderedSet.erase member left) rest bound
      else .refused refusal
  | element :: _, _, _, _ => .refused (.unsupportedElement element.text)

end Inquiry

/-- Whether an array can have a number of items: as many as there are slots or fewer, which
fallbacks may replace, or, with an extra element, at least as many as there are other slots. -/
def Pattern.roomFor (slots : List Slot) (items : Nat) : Bool :=
  if slots.any Slot.isExtra then slots.length ≤ items + 1 else items ≤ slots.length

mutual

/-- The inquiry of a pattern and a value. -/
def Pattern.inquire : Pattern → Matcher
  | .expr (.ident name span), v, bound =>
    if name == "_" then .found bound
    else Inquiry.ofName (.expr (.ident name span)) name v bound
  | .expr e, v, bound =>
    Inquiry.ofLiterals (.mismatch v.text (Pattern.expr e).text) v bound [e]
  | .exprs es, v, bound =>
    Inquiry.ofLiterals (.mismatch v.text (Pattern.exprs es).text) v bound es
  | .extra name, v, bound => Inquiry.ofExtra name v bound
  | .array slots, v, bound =>
    let refusal := .mismatch v.text (Pattern.array slots).text
    match v.items? with
    | some items =>
      if Pattern.roomFor slots items.length then Pattern.inquireItems refusal slots items bound
      else .refused refusal
    | none => .refused refusal
  | .tuple slots, v, bound =>
    let refusal := .mismatch v.text (Pattern.tuple slots).text
    match v.attrs? with
    | some attrs => Pattern.inquireAttrs refusal attrs slots attrs none bound
    | none => .refused refusal
  | .dict slots, v, bound =>
    let refusal := .mismatch v.text (Pattern.dict slots).text
    match v.entries? with
    | some entries => Pattern.inquireEntries refusal entries slots entries none bound
    | none => .refused refusal
  | .set elements, v, bound =>
    let refusal := .mismatch v.text (Pattern.set elements).text
    match v with
    | .set members => Inquiry.ofMembers refusal elements members none bound
    | _ => .refused refusal
termination_by structural x => x

/-- The inquiry of the pattern of a slot. -/
def Slot.matcher : Slot → Option Matcher
  | .mk (some pattern) _ => some pattern.inquire
  | .mk none _ => none
termination_by structural x => x

/-- Slots take the parts in the same places. A slot beyond the parts has none. -/
def Pattern.inquireSlots (refusal : Cause) :
    List Slot → List (Option Value) → Scope → Inquiry Scope
  | [], _, bound => .found bound
  | slot :: slots, parts, bound => do
    let bound ← Inquiry.ofSlot refusal slot.matcher slot.fallback parts.head?.join bound
    Pattern.inquireSlots refusal slots parts.tail bound
termination_by structural x => x

/-- The slots before the extra element take the first items, those after it the last ones, and then
it takes the items between. -/
def Pattern.inquireItems (refusal : Cause) :
    List Slot → List (Option Value) → Scope → Inquiry Scope
  | [], _, bound => .found bound
  | slot :: slots, items, bound =>
    if slot.isExtra then do
      let tail := items.length - slots.length
      let bound ← Pattern.inquireSlots refusal slots (items.drop tail) bound
      Inquiry.ofRest refusal slot.matcher true (.array (items.take tail)) bound
    else do
      let bound ← Inquiry.ofSlot refusal slot.matcher slot.fallback items.head?.join bound
      Pattern.inquireItems refusal slots items.tail bound
termination_by structural x => x

/-- The slots of a tuple take attributes by their names. `left` holds those that no slot has taken
yet, and `rest` is the matcher for them. -/
def Pattern.inquireAttrs (refusal : Cause) (attrs : List (String × Value)) :
    List (String × Slot) → List (String × Value) → Option Matcher → Scope → Inquiry Scope
  | [], left, rest, bound => Inquiry.ofRest refusal rest left.isEmpty (.tuple left) bound
  | (name, slot) :: slots, left, rest, bound =>
    if slot.isExtra then Pattern.inquireAttrs refusal attrs slots left slot.matcher bound
    else do
      let part := OrderedMap.find? name attrs
      let bound ← Inquiry.ofSlot refusal slot.matcher slot.fallback part bound
      Pattern.inquireAttrs refusal attrs slots (OrderedMap.erase name left) rest bound
termination_by structural x => x

/-- The slots of a dictionary take the values under their keys. `left` holds the entries that no
slot has taken yet, and `rest` is the matcher for them. -/
def Pattern.inquireEntries (refusal : Cause) (entries : List (Value × Value)) :
    List (Option Expr × Slot) → List (Value × Value) → Option Matcher → Scope → Inquiry Scope
  | [], left, rest, bound => Inquiry.ofRest refusal rest left.isEmpty (.dict left) bound
  | (none, slot) :: slots, left, _, bound =>
    Pattern.inquireEntries refusal entries slots left slot.matcher bound
  | (some key, slot) :: slots, left, rest, bound => .asks key fun key => do
    let part := OrderedMap.find? key entries
    let bound ← Inquiry.ofSlot refusal slot.matcher slot.fallback part bound
    Pattern.inquireEntries refusal entries slots (OrderedMap.erase key left) rest bound
termination_by structural x => x

end

theorem Slot.matcher_eq (slot : Slot) : slot.matcher = slot.pattern.map Pattern.inquire := by
  obtain ⟨_ | pattern, fallback⟩ := slot <;> rfl

/-! ## Patterns inside patterns -/

namespace Pattern

/-- A pattern stands in another one, at some depth. -/
inductive Inside (q : Pattern) : Pattern → Prop
  | self : Inside q q
  | part {p r : Pattern} (hr : r ∈ p.parts) (h : Inside q r) : Inside q p

theorem sizeOf_lt_of_mem_parts {p q : Pattern} (h : q ∈ p.parts) : sizeOf q < sizeOf p := by
  have hslots : ∀ slots : List Slot, q ∈ slots.filterMap Slot.pattern →
      ∃ slot ∈ slots, sizeOf q < sizeOf slot := by
    intro slots hq
    obtain ⟨⟨_ | pattern, fallback⟩, hslot, hpattern⟩ := List.mem_filterMap.mp hq
    · cases hpattern
    · cases hpattern
      exact ⟨_, hslot, by simp only [Slot.mk.sizeOf_spec, Option.some.sizeOf_spec]; omega⟩
  cases p with
  | expr | exprs | extra => cases h
  | array slots =>
    obtain ⟨slot, hslot, hlt⟩ := hslots slots h
    have := List.sizeOf_lt_of_mem hslot
    simp only [Pattern.array.sizeOf_spec]
    omega
  | tuple slots =>
    obtain ⟨slot, hslot, hlt⟩ := hslots _ h
    obtain ⟨⟨name, slot⟩, hmem, rfl⟩ := List.mem_map.mp hslot
    have := List.sizeOf_lt_of_mem hmem
    simp only [Pattern.tuple.sizeOf_spec, Prod.mk.sizeOf_spec] at this hlt ⊢
    omega
  | dict slots =>
    obtain ⟨slot, hslot, hlt⟩ := hslots _ h
    obtain ⟨⟨key, slot⟩, hmem, rfl⟩ := List.mem_map.mp hslot
    have := List.sizeOf_lt_of_mem hmem
    simp only [Pattern.dict.sizeOf_spec, Prod.mk.sizeOf_spec] at this hlt ⊢
    omega
  | set elements =>
    have := List.sizeOf_lt_of_mem (show q ∈ elements from h)
    simp only [Pattern.set.sizeOf_spec]
    omega

/-- What holds of a pattern if it holds of its parts holds of every pattern. -/
theorem induction_parts {motive : Pattern → Prop}
    (h : ∀ p : Pattern, (∀ q ∈ p.parts, motive q) → motive p) (p : Pattern) : motive p :=
  h p fun q hq =>
    have _hlt : sizeOf q < sizeOf p := sizeOf_lt_of_mem_parts hq
    induction_parts h q
termination_by sizeOf p

end Pattern

/-! ## Matching answers the inquiry -/

/-- Matching a pattern is its inquiry, with the questions answered by evaluation. -/
def Pattern.Answered (scope : Scope) (p : Pattern) : Prop :=
  ∀ v bound, (p.inquire v bound).run (unbounded.eval · scope) = unbounded.bind p scope v bound

section

variable {scope : Scope} {whole : Pattern} {v : Value}

theorem run_ofName (eval : Expr → Run Value) (pattern : Pattern) (name : String) (bound : Scope) :
    (Inquiry.ofName pattern name v bound).run eval = bindName pattern name v bound := by
  unfold Inquiry.ofName bindName
  cases bound.get? name with
  | none => rfl
  | some old =>
    dsimp only
    split <;> rfl

theorem run_ofLiterals (bound : Scope) (es : List Expr) :
    (Inquiry.ofLiterals (.mismatch v.text whole.text) v bound es).run (unbounded.eval · scope) =
      (do if ← unbounded.meetsOne scope v es then pure bound else mismatch whole v) := by
  induction es with
  | nil => rfl
  | cons e es ih =>
    rw [Evaluator.meetsOne, bind_assoc]
    refine congrArg (unbounded.eval e scope >>= ·) (funext fun candidate => ?_)
    by_cases hmet : (candidate == v) = true
    · simp only [if_pos hmet]
      rfl
    · simp only [if_neg hmet]
      exact ih

theorem run_ofSlot {slot : Slot} (hslot : ∀ p, slot.pattern = some p → p.Answered scope)
    (part : Option Value) (bound : Scope) :
    (Inquiry.ofSlot (.mismatch v.text whole.text) slot.matcher slot.fallback part bound).run
      (unbounded.eval · scope) = unbounded.bindSlot whole scope v slot part bound := by
  obtain ⟨_ | p, fallback⟩ := slot
  · rfl
  · cases part with
    | some part => exact hslot p rfl part bound
    | none =>
      cases fallback with
      | none => rfl
      | some fallback =>
        exact congrArg (unbounded.eval fallback scope >>= ·)
          (funext fun part => hslot p rfl part bound)

theorem run_inquireSlots {slots : List Slot}
    (hslots : ∀ slot ∈ slots, ∀ p, slot.pattern = some p → p.Answered scope)
    (parts : List (Option Value)) (bound : Scope) :
    (Pattern.inquireSlots (.mismatch v.text whole.text) slots parts bound).run
      (unbounded.eval · scope) = unbounded.bindSlots whole scope v slots parts bound := by
  induction slots generalizing parts bound with
  | nil => rfl
  | cons slot slots ih =>
    rw [List.forall_mem_cons] at hslots
    rw [Pattern.inquireSlots, Inquiry.run_bind, run_ofSlot hslots.1, Evaluator.bindSlots]
    exact congrArg (_ >>= ·) (funext fun bound => ih hslots.2 parts.tail bound)

/-- Without an extra element the items are the parts of the slots. -/
theorem inquireItems_eq_inquireSlots {refusal : Cause} {slots : List Slot}
    (h : ∀ slot ∈ slots, slot.isExtra = false) (items : List (Option Value)) (bound : Scope) :
    Pattern.inquireItems refusal slots items bound =
      Pattern.inquireSlots refusal slots items bound := by
  induction slots generalizing items bound with
  | nil => rfl
  | cons slot slots ih =>
    rw [List.forall_mem_cons] at h
    rw [Pattern.inquireItems, h.1, Pattern.inquireSlots]
    exact congrArg (_ >>= ·) (funext fun bound => ih h.2 items.tail bound)

/-- With an extra element the items are those of the slots before it, its own, and those of the
slots after it. -/
theorem run_inquireItems_append (whole : Pattern) (v : Value) {before after : List Slot}
    {slot : Slot} (hbefore : ∀ s ∈ before, ∀ p, s.pattern = some p → p.Answered scope)
    (hafter : ∀ s ∈ after, ∀ p, s.pattern = some p → p.Answered scope)
    (hslot : ∀ p, slot.pattern = some p → p.Answered scope)
    (hnot : ∀ s ∈ before, s.isExtra = false) (hextra : slot.isExtra = true)
    (items : List (Option Value)) (hlength : before.length + after.length ≤ items.length)
    (bound : Scope) :
    (Pattern.inquireItems (.mismatch v.text whole.text) (before ++ slot :: after) items bound).run
      (unbounded.eval · scope) = (do
        let tail := items.length - after.length
        let bound ← unbounded.bindSlots whole scope v before (items.take before.length) bound
        let bound ← unbounded.bindSlots whole scope v after (items.drop tail) bound
        unbounded.bindExtra scope slot.pattern (.array ((items.take tail).drop before.length))
          bound) := by
  induction before generalizing items bound with
  | nil =>
    -- the items up to those of the slots behind it are its own
    rw [List.nil_append, Pattern.inquireItems, hextra, if_pos rfl, Inquiry.run_bind,
      run_inquireSlots hafter]
    refine congrArg (_ >>= ·) (funext fun bound => ?_)
    obtain ⟨_ | p, fallback⟩ := slot
    · rfl
    · exact hslot p rfl _ bound
  | cons s before ih =>
    rw [List.forall_mem_cons] at hbefore hnot
    cases items with
    | nil => simp at hlength
    | cons item items =>
      rw [List.length_cons, List.length_cons] at hlength
      have htail : (item :: items).length - after.length = items.length - after.length + 1 := by
        rw [List.length_cons]
        omega
      rw [List.cons_append, Pattern.inquireItems, hnot.1, if_neg Bool.false_ne_true,
        Inquiry.run_bind, run_ofSlot hbefore.1, htail]
      simp only [List.length_cons, List.take_succ_cons, List.drop_succ_cons, Evaluator.bindSlots,
        bind_assoc, List.tail_cons, List.head?_cons, Option.join_some]
      exact congrArg (_ >>= ·)
        (funext fun bound => ih hbefore.2 hnot.2 items (by omega) bound)

theorem run_inquire_array {slots : List Slot}
    (hslots : ∀ slot ∈ slots, ∀ p, slot.pattern = some p → p.Answered scope) :
    (Pattern.array slots).Answered scope := by
  intro v bound
  rw [unbounded_bind, bindStep_array, Pattern.inquire]
  cases v.items? with
  | none => rfl
  | some items =>
    dsimp only
    rw [Evaluator.bindArray]
    cases hfind : slots.findIdx? Slot.isExtra with
    -- without an extra element the array must not be longer than the pattern
    | none =>
      have hnot := List.findIdx?_eq_none_iff.mp hfind
      have hany : slots.any Slot.isExtra = false := List.any_eq_false.mpr fun s hs => by
        rw [hnot s hs]
        exact Bool.false_ne_true
      rw [Pattern.roomFor, hany, if_neg Bool.false_ne_true]
      dsimp only
      by_cases hlength : slots.length < items.length
      · rw [if_pos hlength, if_neg (by simpa using hlength)]
        rfl
      · rw [if_neg hlength, if_pos (by simpa using hlength), inquireItems_eq_inquireSlots hnot]
        exact run_inquireSlots hslots items bound
    -- with one it must not be shorter than the other slots together
    | some i =>
      obtain ⟨name, fallback, hget, hsplit⟩ := slots_eq_of_findIdx? hfind
      obtain ⟨_, _, hbefore⟩ := List.findIdx?_eq_some_iff_getElem.mp hfind
      have hany : slots.any Slot.isExtra = true :=
        List.any_eq_true.mpr ⟨_, List.mem_of_getElem? hget, rfl⟩
      have hcount : slots.length = (slots.take i).length + (slots.drop (i + 1)).length + 1 := by
        conv_lhs => rw [hsplit]
        simp only [List.length_append, List.length_cons]
        omega
      have hnot : ∀ s ∈ slots.take i, s.isExtra = false := by
        intro s hs
        obtain ⟨j, hj, rfl⟩ := List.mem_take_iff_getElem.mp hs
        exact Bool.eq_false_iff.mpr (hbefore j (by omega))
      rw [Pattern.roomFor, hany, if_pos rfl]
      dsimp only
      rw [hget]
      by_cases hlength : items.length < (slots.take i).length + (slots.drop (i + 1)).length
      · rw [if_pos hlength, if_neg (by simp only [decide_eq_true_eq]; omega)]
        rfl
      · rw [if_neg hlength, if_pos (by simp only [decide_eq_true_eq]; omega)]
        have hafter : ∀ s ∈ slots.drop (i + 1), ∀ p, s.pattern = some p → p.Answered scope :=
          fun s hs => hslots s (List.mem_of_mem_drop hs)
        have hrun := run_inquireItems_append (.array slots) v
          (fun s hs => hslots s (List.mem_of_mem_take hs)) hafter
          (hslots _ (List.mem_of_getElem? hget)) hnot rfl items (Nat.le_of_not_lt hlength) bound
        rwa [← hsplit] at hrun

theorem run_ofRest {rest : Option Pattern} (hrest : ∀ p, rest = some p → p.Answered scope)
    (isEmpty : Bool) (left : Value) (bound : Scope) :
    (Inquiry.ofRest (.mismatch v.text whole.text) (rest.map Pattern.inquire) isEmpty left
      bound).run (unbounded.eval · scope) =
      match rest with
      | some extra => unbounded.bind extra scope left bound
      | none => if isEmpty then pure bound else mismatch whole v := by
  cases rest with
  | some p => exact hrest p rfl left bound
  | none => cases isEmpty <;> rfl

theorem run_inquireAttrs {slots : List (String × Slot)}
    (hslots : ∀ slot ∈ slots, ∀ p, slot.2.pattern = some p → p.Answered scope)
    (attrs left : List (String × Value)) (rest : Option Pattern)
    (hrest : ∀ p, rest = some p → p.Answered scope) (bound : Scope) :
    (Pattern.inquireAttrs (.mismatch v.text whole.text) attrs slots left
      (rest.map Pattern.inquire) bound).run (unbounded.eval · scope) =
      unbounded.bindAttrs whole scope v attrs slots left rest bound := by
  induction slots generalizing left rest bound with
  | nil =>
    refine (run_ofRest hrest left.isEmpty (.tuple left) bound).trans ?_
    cases rest <;> rfl
  | cons attr slots ih =>
    obtain ⟨name, slot⟩ := attr
    rw [List.forall_mem_cons] at hslots
    rw [Pattern.inquireAttrs, Evaluator.bindAttrs]
    split
    next =>
      rw [Slot.matcher_eq]
      exact ih hslots.2 left _ hslots.1 bound
    next =>
      rw [Inquiry.run_bind, run_ofSlot hslots.1]
      exact congrArg (_ >>= ·)
        (funext fun bound => ih hslots.2 (OrderedMap.erase name left) rest hrest bound)

theorem run_inquireEntries {slots : List (Option Expr × Slot)}
    (hslots : ∀ slot ∈ slots, ∀ p, slot.2.pattern = some p → p.Answered scope)
    (entries left : List (Value × Value)) (rest : Option Pattern)
    (hrest : ∀ p, rest = some p → p.Answered scope) (bound : Scope) :
    (Pattern.inquireEntries (.mismatch v.text whole.text) entries slots left
      (rest.map Pattern.inquire) bound).run (unbounded.eval · scope) =
      unbounded.bindEntries whole scope v entries slots left rest bound := by
  induction slots generalizing left rest bound with
  | nil =>
    refine (run_ofRest hrest left.isEmpty (.dict left) bound).trans ?_
    cases rest <;> rfl
  | cons entry slots ih =>
    obtain ⟨_ | key, slot⟩ := entry
    · rw [List.forall_mem_cons] at hslots
      rw [Pattern.inquireEntries, Evaluator.bindEntries, Slot.matcher_eq]
      exact ih hslots.2 left _ hslots.1 bound
    · rw [List.forall_mem_cons] at hslots
      rw [Pattern.inquireEntries, Evaluator.bindEntries, Inquiry.run]
      refine congrArg (_ >>= ·) (funext fun key => ?_)
      dsimp only
      rw [Inquiry.run_bind, run_ofSlot hslots.1]
      exact congrArg (_ >>= ·)
        (funext fun bound => ih hslots.2 (OrderedMap.erase key left) rest hrest bound)

theorem answered_extra (name : Option String) : (Pattern.extra name).Answered scope := by
  intro v bound
  rw [unbounded_bind]
  cases name with
  | none => rfl
  | some name => exact run_ofName _ _ name bound

/-- An element of a set is asked for or refused, and only the extra element is matched. -/
theorem run_ofMembers (elements : List Pattern) (left : List Value) (rest : Option (Option String))
    (bound : Scope) :
    (Inquiry.ofMembers (.mismatch v.text whole.text) elements left (rest.map Inquiry.ofExtra)
      bound).run (unbounded.eval · scope) =
      unbounded.bindMembers whole scope v elements left (rest.map Pattern.extra) bound := by
  induction elements generalizing left rest bound with
  | nil =>
    cases rest with
    | none => cases left <;> rfl
    | some name => exact answered_extra name (.set left) bound
  | cons element elements ih =>
    cases element with
    | extra name => exact ih left (some name) bound
    | expr e =>
      unfold Inquiry.ofMembers Evaluator.bindMembers
      split
      next => rfl
      next =>
        refine congrArg (_ >>= ·) (funext fun member => ?_)
        by_cases hmember : OrderedSet.contains member left = true
        · simp only [if_pos hmember]
          exact ih _ rest bound
        · simp only [if_neg hmember]
          rfl
    | exprs | array | tuple | dict | set => rfl

/-- Matching is its inquiry with the questions answered by evaluation. -/
theorem unbounded_bind_eq_run (p : Pattern) (scope : Scope) (v : Value) (bound : Scope) :
    unbounded.bind p scope v bound = (p.inquire v bound).run (unbounded.eval · scope) := by
  suffices h : p.Answered scope from (h v bound).symm
  clear v bound
  induction p using Pattern.induction_parts with
  | h p ih =>
    have hslots : ∀ slot ∈ p.slots, ∀ q, slot.pattern = some q → q.Answered scope :=
      fun slot hslot => (Pattern.slot_has (E := fun _ => True) (fun _ _ => trivial) ih slot hslot).1
    have hnone : ∀ q : Pattern, none = some q → q.Answered scope := by
      intro q hq
      cases hq
    cases p with
    | expr e =>
      intro v bound
      rw [unbounded_bind]
      cases e with
      | ident name span =>
        rw [Pattern.inquire, Evaluator.bindStep]
        split
        next => rfl
        next => exact run_ofName _ _ name bound
      | _ => exact run_ofLiterals bound _
    | exprs es =>
      intro v bound
      rw [unbounded_bind]
      exact run_ofLiterals bound es
    | extra name => exact answered_extra name
    | array slots => exact run_inquire_array hslots
    | tuple slots =>
      intro v bound
      rw [unbounded_bind, bindStep_tuple, Pattern.inquire]
      cases v.attrs? with
      | none => rfl
      | some attrs =>
        exact run_inquireAttrs (fun slot hslot => hslots slot.2 (List.mem_map_of_mem hslot)) attrs
          attrs none hnone bound
    | dict slots =>
      intro v bound
      rw [unbounded_bind, bindStep_dict, Pattern.inquire]
      cases v.entries? with
      | none => rfl
      | some entries =>
        exact run_inquireEntries (fun slot hslot => hslots slot.2 (List.mem_map_of_mem hslot))
          entries entries none hnone bound
    | set elements =>
      intro v bound
      rw [unbounded_bind]
      cases v with
      | set members => exact run_ofMembers elements members none bound
      | _ => rfl

end

/-- With enough fuel a pattern makes the bindings that its inquiry makes. -/
theorem exists_bindings_iff {p : Pattern} {scope : Scope} {v : Value} {next : Identity}
    {result : Scope × Identity} :
    (∃ fuel, p.bindings fuel scope v next = .done result) ↔
      (p.inquire v Scope.empty).run (unbounded.eval · scope) next = .done result := by
  rw [← unbounded_bind_eq_run]
  exact (unbounded_bind_eq_iff (o := .done result) nofun).symm

end Relational
