import Relational.Eval.Basic

/-!
# The rules of evaluation are compositional

The rules of the language are written against an evaluator for the parts, so a family of
evaluators, one for each index, makes a family of runs out of every rule. This file shows once
what all arguments about such families need:

> `evalStep`, `callStep` and `bindStep` keep every property of families of runs that is kept by
> running one thing after another, by placing failures and by catching them for their causes.

Two uses are in `Fuel`: one evaluator approximating another (a family of two), and evaluators with
more and more fuel approaching one without a bound (a family indexed by the amounts). The third is
in `Unplaced`: evaluators that do the same up to the places of failures.
-/

namespace Relational

namespace Run

variable {α β : Type}

/-- One run after another, where a third one takes over from failures whose cause passes a test. -/
def rescue (test : Cause → Bool) (r : Run α) (f : α → Run β) (g : Run β) : Run β := do
  match ← attempt r with
  | .ok a => f a
  | .error failure => if test failure.cause then g else rethrow failure

variable {test : Cause → Bool} {r : Run α} {f : α → Run β} {g : Run β} {next : Identity}

theorem rescue_of_done {result : α × Identity} (h : r next = .done result) :
    rescue test r f g next = f result.1 result.2 := by
  simp only [rescue, bind_apply, attempt_apply, h]

theorem rescue_of_failed {failure : Failure} (h : r next = .failed failure) :
    rescue test r f g next = if test failure.cause then g next else .failed failure := by
  simp only [rescue, bind_apply, attempt_apply, h]
  split <;> rfl

theorem rescue_of_aborted {reason : Abort} (h : r next = .aborted reason) :
    rescue test r f g next = .aborted reason := by
  simp only [rescue, bind_apply, attempt_apply, h]

theorem rescue_of_exhausted (h : r next = .exhausted) :
    rescue test r f g next = .exhausted := by
  simp only [rescue, bind_apply, attempt_apply, h]

end Run

/-- A property of families of runs is compositional when it passes from the parts of a run to the
whole. -/
structure Compositional {I : Type} (Q : (α : Type) → (I → Run α) → Prop) : Prop where
  const {α : Type} (r : Run α) : Q α fun _ => r
  bind {α β : Type} {r : I → Run α} {f : I → α → Run β} (hr : Q α r)
    (hf : ∀ a, Q β fun i => f i a) : Q β fun i => r i >>= f i
  within {α : Type} {r : I → Run α} (span : Span) (hr : Q α r) :
    Q α fun i => Run.within span (r i)
  rescue {α β : Type} {r : I → Run α} {f : I → α → Run β} {g : I → Run β} (test : Cause → Bool)
    (hr : Q α r) (hf : ∀ a, Q β fun i => f i a) (hg : Q β g) :
    Q β fun i => Run.rescue test (r i) (f i) (g i)

/-- A family of evaluators whose runs all have a property. -/
structure Evaluator.Family {I : Type} (Q : (α : Type) → (I → Run α) → Prop)
    (ev : I → Evaluator) : Prop where
  eval (e : Expr) (scope : Scope) : Q Value fun i => (ev i).eval e scope
  call (f arg : Value) : Q Value fun i => (ev i).call f arg
  bind (pattern : Pattern) (scope : Scope) (v : Value) (bound : Scope) :
    Q Scope fun i => (ev i).bind pattern scope v bound

/-- A choice between families that does not depend on the index. -/
theorem family_ite {I : Type} {Q : (α : Type) → (I → Run α) → Prop} {α : Type} {c : Prop}
    [Decidable c] {x y : I → Run α} (hx : Q α x) (hy : Q α y) :
    Q α fun i => if c then x i else y i := by
  by_cases hc : c
  · simpa only [if_pos hc] using hx
  · simpa only [if_neg hc] using hy

namespace Compositional

variable {I : Type} {Q : (α : Type) → (I → Run α) → Prop} (hQ : Compositional Q)
  {α β : Type}

include hQ

/-! ## Runs over lists -/

theorem traverse {f : I → α → Run β} (hf : ∀ a, Q β fun i => f i a) :
    ∀ as : List α, Q (List β) fun i => Run.traverse (f i) as
  | [] => hQ.const _
  | a :: as => hQ.bind (hf a) fun _ => hQ.bind (traverse hf as) fun _ => hQ.const _

theorem traverseItems {f : I → α → Run β} (hf : ∀ a, Q β fun i => f i a) :
    ∀ as : List (Option α), Q (List (Option β)) fun i => Run.traverseItems (f i) as
  | [] => hQ.const _
  | none :: as => hQ.bind (traverseItems hf as) fun _ => hQ.const _
  | some a :: as => hQ.bind (hf a) fun _ => hQ.bind (traverseItems hf as) fun _ => hQ.const _

theorem filter {test : I → α → Run Bool} (ht : ∀ a, Q Bool fun i => test i a) :
    ∀ as : List α, Q (List α) fun i => Run.filter (test i) as
  | [] => hQ.const _
  | a :: as => hQ.bind (ht a) fun _ => hQ.bind (filter ht as) fun _ => hQ.const _

theorem foldl {f : I → β → α → Run β} (hf : ∀ b a, Q β fun i => f i b a) :
    ∀ (as : List α) (b : β), Q β fun i => Run.foldl (f i) b as
  | [], _ => hQ.const _
  | a :: as, b => hQ.bind (hf b a) fun b => foldl hf as b

end Compositional

namespace Evaluator

/-! ## Where failures are caught -/

theorem firstArm_cons (ev : Evaluator) (scope : Scope) (v : Value) (pattern : Pattern)
    (body : Expr) (arms : List (Pattern × Expr)) :
    ev.firstArm scope v ((pattern, body) :: arms) =
      Run.rescue Cause.isMismatch (ev.bindings pattern scope v)
        (fun bound => ev.eval body (scope.update bound)) (ev.firstArm scope v arms) := by
  rw [firstArm, Run.rescue]
  congr 1
  funext tried
  cases tried <;> rfl

theorem safeChain_cons (ev : Evaluator) (fallback : Expr) (scope : Scope) (v : Value)
    (s : SafeStep) (rest : List SafeStep) :
    ev.safeChain fallback scope v (s :: rest) =
      Run.rescue (fun cause => s.safe && cause.isAbsent) (ev.step scope v s)
        (fun next => ev.safeChain fallback scope next rest) (ev.eval fallback scope) := by
  rw [safeChain, Run.rescue]
  congr 1
  funext tried
  cases tried <;> rfl

variable {I : Type} {Q : (α : Type) → (I → Run α) → Prop} (hQ : Compositional Q)
  {ev : I → Evaluator} (h : Family Q ev)

include hQ h

/-! ## Entering functions and matching patterns -/

theorem enter_family (param : Pattern) (body : Expr) (scope : Scope) (v : Value) :
    Q Value fun i => (ev i).enter param body scope v :=
  hQ.bind (h.bind param scope v Scope.empty) fun bound => h.eval body (scope.update bound)

theorem apply_family (rhs : Expr) (scope : Scope) (v : Value) :
    Q Value fun i => (ev i).apply rhs scope v := by
  unfold apply
  split
  next param body _ => exact enter_family hQ h param body scope v
  next => exact h.eval rhs (scope.bind "." v)

theorem bindSlot_family (whole : Pattern) (scope : Scope) (v : Value) (slot : Slot)
    (part : Option Value) (bound : Scope) :
    Q Scope fun i => (ev i).bindSlot whole scope v slot part bound := by
  obtain ⟨pattern, fallback⟩ := slot
  cases pattern with
  | none => exact hQ.const _
  | some pattern =>
    cases part with
    | some part => exact h.bind pattern scope part bound
    | none =>
      cases fallback with
      | none => exact hQ.const _
      | some fallback =>
        exact hQ.bind (h.eval fallback scope) fun part => h.bind pattern scope part bound

theorem bindSlots_family (whole : Pattern) (scope : Scope) (v : Value) :
    ∀ (slots : List Slot) (parts : List (Option Value)) (bound : Scope),
      Q Scope fun i => (ev i).bindSlots whole scope v slots parts bound
  | [], _, _ => hQ.const _
  | slot :: slots, parts, bound =>
    hQ.bind (bindSlot_family hQ h whole scope v slot parts.head?.join bound) fun bound =>
      bindSlots_family whole scope v slots parts.tail bound

theorem bindExtra_family (scope : Scope) (extra : Option Pattern) (rest : Value)
    (bound : Scope) : Q Scope fun i => (ev i).bindExtra scope extra rest bound := by
  cases extra with
  | none => exact hQ.const _
  | some pattern => exact h.bind pattern scope rest bound

theorem bindArray_family (whole : Pattern) (scope : Scope) (v : Value) (slots : List Slot)
    (items : List (Option Value)) (bound : Scope) :
    Q Scope fun i => (ev i).bindArray whole scope v slots items bound := by
  unfold bindArray
  split
  next =>
    exact family_ite (hQ.const _) (bindSlots_family hQ h whole scope v slots items bound)
  next extra _ =>
    refine family_ite (hQ.const _) ?_
    exact hQ.bind (bindSlots_family hQ h whole scope v _ _ bound) fun bound =>
      hQ.bind (bindSlots_family hQ h whole scope v _ _ bound) fun bound =>
        bindExtra_family hQ h scope _ _ bound

theorem bindAttrs_family (whole : Pattern) (scope : Scope) (v : Value)
    (attrs : List (String × Value)) :
    ∀ (slots : List (String × Slot)) (left : List (String × Value)) (extra : Option Pattern)
      (bound : Scope),
      Q Scope fun i => (ev i).bindAttrs whole scope v attrs slots left extra bound
  | [], _, none, _ => family_ite (hQ.const _) (hQ.const _)
  | [], left, some extra, bound => h.bind extra scope (.tuple left) bound
  | (name, slot) :: slots, left, extra, bound =>
    family_ite (bindAttrs_family whole scope v attrs slots left slot.pattern bound)
      (hQ.bind (bindSlot_family hQ h whole scope v slot (OrderedMap.find? name attrs) bound)
        fun bound =>
          bindAttrs_family whole scope v attrs slots (OrderedMap.erase name left) extra bound)

theorem bindEntries_family (whole : Pattern) (scope : Scope) (v : Value)
    (entries : List (Value × Value)) :
    ∀ (slots : List (Option Expr × Slot)) (left : List (Value × Value)) (extra : Option Pattern)
      (bound : Scope),
      Q Scope fun i => (ev i).bindEntries whole scope v entries slots left extra bound
  | [], _, none, _ => family_ite (hQ.const _) (hQ.const _)
  | [], left, some extra, bound => h.bind extra scope (.dict left) bound
  | (none, slot) :: slots, left, _, bound =>
    bindEntries_family whole scope v entries slots left slot.pattern bound
  | (some key, slot) :: slots, left, extra, bound =>
    hQ.bind (h.eval key scope) fun key =>
      hQ.bind (bindSlot_family hQ h whole scope v slot (OrderedMap.find? key entries) bound)
        fun bound =>
          bindEntries_family whole scope v entries slots (OrderedMap.erase key left) extra bound

theorem bindMembers_family (whole : Pattern) (scope : Scope) (v : Value) :
    ∀ (elements : List Pattern) (left : List Value) (extra : Option Pattern) (bound : Scope),
      Q Scope fun i => (ev i).bindMembers whole scope v elements left extra bound
  | [], _, none, _ => family_ite (hQ.const _) (hQ.const _)
  | [], left, some extra, bound => h.bind extra scope (.set left) bound
  | .extra name :: elements, left, _, bound =>
    bindMembers_family whole scope v elements left (some (.extra name)) bound
  | .expr e :: elements, left, extra, bound =>
    family_ite (hQ.const _) (hQ.bind (h.eval e scope) fun member =>
      family_ite (bindMembers_family whole scope v elements (OrderedSet.erase member left) extra bound)
        (hQ.const _))
  | .exprs _ :: _, _, _, _ | .array _ :: _, _, _, _ | .tuple _ :: _, _, _, _
  | .dict _ :: _, _, _, _ | .set _ :: _, _, _, _ => hQ.const _

theorem meetsOne_family (scope : Scope) (v : Value) :
    ∀ es : List Expr, Q Bool fun i => (ev i).meetsOne scope v es
  | [] => hQ.const _
  | e :: es => hQ.bind (h.eval e scope) fun _ =>
    family_ite (hQ.const _) (meetsOne_family scope v es)

/-- Matching a pattern is compositional. -/
theorem bindStep_family (pattern : Pattern) (scope : Scope) (v : Value) (bound : Scope) :
    Q Scope fun i => (ev i).bindStep pattern scope v bound := by
  unfold bindStep
  split
  next => exact family_ite (hQ.const _) (hQ.const _)
  next e _ =>
    exact hQ.bind (meetsOne_family hQ h scope v [e]) fun met => family_ite (hQ.const _) (hQ.const _)
  next es =>
    exact hQ.bind (meetsOne_family hQ h scope v es) fun met => family_ite (hQ.const _) (hQ.const _)
  next => exact hQ.const _
  next => exact hQ.const _
  next slots =>
    split
    next items => exact bindArray_family hQ h _ scope _ slots items bound
    next => exact bindArray_family hQ h _ scope _ slots [] bound
    next => exact hQ.const _
  next slots =>
    split
    next attrs => exact bindAttrs_family hQ h _ scope _ attrs slots attrs none bound
    next => exact bindAttrs_family hQ h _ scope _ [] slots [] none bound
    next => exact hQ.const _
  next slots =>
    split
    next entries => exact bindEntries_family hQ h _ scope _ entries slots entries none bound
    next => exact bindEntries_family hQ h _ scope _ [] slots [] none bound
    next => exact hQ.const _
  next elements =>
    split
    next members => exact bindMembers_family hQ h _ scope _ elements members none bound
    next => exact hQ.const _

/-! ## Calls -/

theorem recursiveTuple_family (f : Value) : Q Value fun i => (ev i).recursiveTuple f := by
  refine hQ.bind (h.call f (.tuple [])) fun probe => ?_
  split
  next => exact hQ.const _
  next => exact hQ.const _

theorem callNative_family (function : Native) (arg : Value) :
    Q Value fun i => (ev i).callNative function arg := by
  unfold callNative
  split
  next => exact hQ.const _
  next => exact recursiveTuple_family hQ h arg
  next f =>
    exact hQ.bind (hQ.const _) fun this =>
      hQ.bind (h.call f this) fun unfolded => h.call unfolded arg
  next f attr =>
    exact hQ.bind (recursiveTuple_family hQ h f) fun this =>
      hQ.bind (h.call f this) fun unfolded =>
        hQ.bind (hQ.const _) fun function => h.call function arg
  next => exact hQ.const _
  next f => exact h.call f arg

/-- Calling a value is compositional. -/
theorem callStep_family (f arg : Value) : Q Value fun i => (ev i).callStep f arg := by
  unfold callStep
  split
  next param body captured => exact enter_family hQ h param body captured arg
  next function => exact callNative_family hQ h function arg
  next => exact hQ.const _

/-! ## Arrows, filters and aggregates -/

theorem mapElements_family (rhs : Expr) (scope : Scope) (v : Value) :
    Q Value fun i => (ev i).mapElements rhs scope v := by
  unfold mapElements
  split
  next members =>
    exact hQ.bind (hQ.traverse (fun v => apply_family hQ h rhs scope v) members) fun _ =>
      hQ.const _
  next items =>
    exact hQ.bind (hQ.traverseItems (fun v => apply_family hQ h rhs scope v) items) fun _ =>
      hQ.const _
  next entries =>
    exact hQ.bind (hQ.traverse (fun entry => apply_family hQ h rhs scope _) entries) fun _ =>
      hQ.const _
  next => exact hQ.const _

theorem mapAt_family (rhs : Expr) (strict : Bool) (scope : Scope) (key v : Value) :
    Q Value fun i => (ev i).mapAt rhs strict scope key v :=
  family_ite
    (hQ.bind (apply_family hQ h rhs scope key) fun function => h.call function v)
    (apply_family hQ h rhs scope v)

theorem mapItemsFrom_family (rhs : Expr) (strict : Bool) (scope : Scope) :
    ∀ (start : Nat) (items : List (Option Value)),
      Q (List (Option Value)) fun i => (ev i).mapItemsFrom rhs strict scope start items
  | _, [] => hQ.const _
  | start, none :: rest =>
    hQ.bind (mapItemsFrom_family rhs strict scope (start + 1) rest) fun _ => hQ.const _
  | start, some v :: rest =>
    hQ.bind (mapAt_family hQ h rhs strict scope (.number (.ofNat start)) v) fun _ =>
      hQ.bind (mapItemsFrom_family rhs strict scope (start + 1) rest) fun _ => hQ.const _

theorem mapSequence_family (rhs : Expr) (strict : Bool) (scope : Scope) (v : Value) :
    Q Value fun i => (ev i).mapSequence rhs strict scope v := by
  unfold mapSequence
  split
  next items =>
    exact hQ.bind (mapItemsFrom_family hQ h rhs strict scope 0 items) fun _ => hQ.const _
  next entries =>
    refine hQ.bind (hQ.traverse (fun entry => ?_) entries) fun _ => hQ.const _
    exact hQ.bind (mapAt_family hQ h rhs strict scope entry.1 entry.2) fun _ => hQ.const _
  next => exact hQ.const _
  next => exact hQ.const _

theorem mapAttrs_family (rhs : Expr) (scope : Scope) (v : Value) :
    Q Value fun i => (ev i).mapAttrs rhs scope v := by
  unfold mapAttrs
  split
  next attrs =>
    refine hQ.bind (hQ.traverse (fun attr => ?_) attrs) fun _ => hQ.const _
    exact hQ.bind (apply_family hQ h rhs scope attr.2) fun _ => hQ.const _
  next => exact hQ.const _

theorem passes_family (rhs : Expr) (scope : Scope) (v : Value) :
    Q Bool fun i => (ev i).passes rhs scope v :=
  hQ.bind (apply_family hQ h rhs scope v) fun _ => hQ.const _

theorem filterElements_family (rhs : Expr) (scope : Scope) (v : Value) :
    Q Value fun i => (ev i).filterElements rhs scope v := by
  unfold filterElements
  split
  next members =>
    exact hQ.bind (hQ.filter (fun v => passes_family hQ h rhs scope v) members) fun _ =>
      hQ.const _
  next items =>
    refine hQ.bind (hQ.traverseItems (fun v => ?_) items) fun _ => hQ.const _
    exact hQ.bind (passes_family hQ h rhs scope v) fun _ => hQ.const _
  next entries =>
    exact hQ.bind (hQ.filter (fun entry => passes_family hQ h rhs scope _) entries) fun _ =>
      hQ.const _
  next => exact hQ.const _

theorem aggregateElements_family (op : BinaryOp) (rhs : Expr) (scope : Scope) (v : Value) :
    Q Value fun i => (ev i).aggregateElements op rhs scope v := by
  refine hQ.bind (hQ.const _) fun elements => ?_
  refine hQ.bind (hQ.traverse (fun v => ?_) elements) fun _ => hQ.const _
  exact hQ.bind (apply_family hQ h rhs scope v) fun _ => hQ.const _

/-! ## Expressions -/

theorem binary_family (op : BinaryOp) (lhs rhs : Expr) (scope : Scope) :
    Q Value fun i => (ev i).binary op lhs rhs scope := by
  have hl := h.eval lhs scope
  have hr := h.eval rhs scope
  cases op with
  | and => exact hQ.bind hl fun l => family_ite hr (hQ.const _)
  | or => exact hQ.bind hl fun l => family_ite (hQ.const _) hr
  | arrow => exact hQ.bind hl fun l => apply_family hQ h rhs scope l
  | dArrow => exact hQ.bind hl fun l => mapElements_family hQ h rhs scope l
  | seqArrow strict => exact hQ.bind hl fun l => mapSequence_family hQ h rhs strict scope l
  | tupleMap => exact hQ.bind hl fun l => mapAttrs_family hQ h rhs scope l
  | where_ => exact hQ.bind hl fun l => filterElements_family hQ h rhs scope l
  | sum | max | mean | median | min =>
    exact hQ.bind hl fun l => aggregateElements_family hQ h _ rhs scope l
  | orderBy | order | rank | join | compose | joinCommon | joinExists | rightMatch | leftMatch
  | rightResidue | leftResidue | offset | addArrow => exact hQ.const _
  | _ => exact hQ.bind hl fun l => hQ.bind hr fun r => hQ.const _

theorem chain_family (span : Span) (scope : Scope) :
    ∀ (l : Value) (ops : List CompareOp) (args : List Expr),
      Q Value fun i => (ev i).chain span scope l ops args
  | _, _ :: ops, arg :: args =>
    hQ.bind (h.eval arg scope) fun r => hQ.bind (hQ.const _) fun _ =>
      family_ite (chain_family span scope r ops args) (hQ.const _)
  | _, [], [] | _, [], _ :: _ | _, _ :: _, [] => hQ.const _

theorem compareChain_family (args : List Expr) (ops : List CompareOp) (span : Span)
    (scope : Scope) : Q Value fun i => (ev i).compareChain args ops span scope := by
  unfold compareChain
  split
  next => exact hQ.const _
  next first rest =>
    refine family_ite ?_ (hQ.const _)
    exact hQ.bind (h.eval first scope) fun l => chain_family hQ h span scope l ops rest

theorem firstArm_family (scope : Scope) (v : Value) :
    ∀ arms : List (Pattern × Expr), Q Value fun i => (ev i).firstArm scope v arms
  | [] => hQ.const _
  | (pattern, body) :: arms => by
    simp only [firstArm_cons]
    exact hQ.rescue Cause.isMismatch (h.bind pattern scope v Scope.empty)
      (fun bound => h.eval body (scope.update bound)) (firstArm_family scope v arms)

theorem firstEntry_family (scope : Scope) :
    ∀ entries : List DictEntry, Q Value fun i => (ev i).firstEntry scope entries
  | [] => hQ.const _
  | entry :: entries =>
    family_ite (h.eval entry.value scope)
      (hQ.bind (h.eval entry.key scope) fun _ =>
        family_ite (h.eval entry.value scope) (firstEntry_family scope entries))

theorem condition_family (dict : Expr) (scope : Scope) :
    Q Value fun i => (ev i).condition dict scope := by
  unfold condition
  split
  next entries _ _ => exact firstEntry_family hQ h scope entries
  next => exact hQ.bind (h.eval dict scope) fun _ => hQ.const _

theorem callArgs_family (span : Span) (scope : Scope) (v : Value) (args : List Expr) :
    Q Value fun i => (ev i).callArgs span scope v args := by
  refine hQ.foldl (fun v arg => ?_) args v
  exact hQ.bind (h.eval arg scope) fun arg => hQ.within span (h.call v arg)

theorem step_family (scope : Scope) (v : Value) (s : SafeStep) :
    Q Value fun i => (ev i).step scope v s := by
  obtain ⟨safe, args, attr⟩ := s
  -- reading the attribute asks the evaluator for nothing
  cases args with
  | none => exact hQ.bind (hQ.const _) fun _ => hQ.const _
  | some call =>
    exact hQ.bind (callArgs_family hQ h call.2 scope v call.1) fun _ => hQ.const _

theorem safeChain_family (fallback : Expr) (scope : Scope) :
    ∀ (v : Value) (steps : List SafeStep),
      Q Value fun i => (ev i).safeChain fallback scope v steps
  | _, [] => hQ.const _
  | v, s :: rest => by
    simp only [safeChain_cons]
    exact hQ.rescue (fun cause => s.safe && cause.isAbsent) (step_family hQ h scope v s)
      (fun next => safeChain_family fallback scope next rest) (h.eval fallback scope)

theorem partText_family (span : Span) (scope : Scope) (part : TextPart) :
    Q String fun i => (ev i).partText span scope part := by
  cases part with
  | text s => exact hQ.const _
  | expr e format => exact hQ.bind (h.eval e scope) fun _ => hQ.const _

theorem recursion_family (name : String) (base fix fixt : Expr) (span : Span) (scope : Scope) :
    Q Value fun i => (ev i).recursion name base fix fixt span scope :=
  hQ.bind (hQ.const _) fun combinator => hQ.bind (hQ.const _) fun _ =>
    hQ.bind (h.eval combinator scope) fun combine => hQ.within span (h.call combine _)

/-- Evaluating an expression is compositional. -/
theorem evalStep_family (e : Expr) (scope : Scope) :
    Q Value fun i => (ev i).evalStep e scope := by
  cases e with
  | literal | ident | function => exact hQ.const _
  | dot lhs | project lhs | nest lhs => exact hQ.bind (h.eval lhs scope) fun _ => hQ.const _
  | unary _ operand | count operand | single operand =>
    exact hQ.bind (h.eval operand scope) fun _ => hQ.const _
  | call func arg span =>
    exact hQ.bind (h.eval func scope) fun f => hQ.bind (h.eval arg scope) fun a =>
      hQ.within span (h.call f a)
  | binary op lhs rhs span => exact hQ.within span (binary_family hQ h op lhs rhs scope)
  | package inner | paren inner => exact h.eval inner scope
  | compare args ops span => exact compareChain_family hQ h args ops span scope
  | ifElse ifTrue condition ifFalse =>
    exact hQ.bind (h.eval condition scope) fun _ =>
      family_ite (h.eval ifTrue scope) (h.eval ifFalse scope)
  | condControl control arms =>
    exact hQ.bind (h.eval control scope) fun v => firstArm_family hQ h scope v arms
  | cond dict => exact condition_family hQ h dict scope
  | safeTail fallback base steps =>
    exact hQ.bind (h.eval base scope) fun v => safeChain_family hQ h fallback scope v steps
  | relation names rows =>
    refine hQ.bind (hQ.traverse (fun values => ?_) rows) fun _ => hQ.const _
    refine hQ.bind (hQ.traverse (fun attr => ?_) (names.zip values)) fun _ => hQ.const _
    exact hQ.bind (h.eval attr.2 scope) fun _ => hQ.const _
  | set elements =>
    exact hQ.bind (hQ.traverse (fun e => h.eval e scope) elements) fun _ => hQ.const _
  | dict entries =>
    refine hQ.bind (hQ.traverse (fun entry => ?_) entries) fun _ => hQ.const _
    exact hQ.bind (h.eval entry.key scope) fun _ => hQ.bind (h.eval entry.value scope) fun _ =>
      hQ.const _
  | array items =>
    exact hQ.bind (hQ.traverseItems (fun e => h.eval e scope) items) fun _ => hQ.const _
  | bytes items =>
    refine hQ.bind (hQ.traverse (fun item => ?_) items) fun _ => hQ.const _
    exact hQ.bind (h.eval item scope) fun _ => hQ.const _
  | tuple attrs =>
    refine hQ.bind (hQ.traverse (fun attr => ?_) attrs) fun _ => hQ.const _
    exact hQ.bind (h.eval attr.2 scope) fun _ => hQ.const _
  | recursion name base fix fixt span =>
    exact recursion_family hQ h name base fix fixt span scope
  | xstr parts span =>
    exact hQ.bind (hQ.traverse (fun part => partText_family hQ h span scope part) parts)
      fun _ => hQ.const _

end Evaluator

end Relational
