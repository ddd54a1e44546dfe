import Relational.Proofs.OrderedSet
import Relational.Proofs.RecursiveTuple

/-!
# Dictionaries as sets of pairs

A dictionary is mapped and filtered by its pairs `(@: key, @value: value)`. The set of these answers
to the keys of the dictionary, so that one can stand for the other:

> `Value.dict_agrees_with_pairs`: a dictionary and the set of its pairs give the same answer to
> every argument, the same result under every right side of an arrow, and the same count. Filtering
> one of them and then taking the pairs is filtering the other.

Functions that a right side makes have identities of their own in each evaluation. Results without
functions are the same from whatever identity on the right side is evaluated, as long as all
functions that it can reach were made before.
-/

namespace Relational

/-! ## Ending for the same cause -/

/-- Two runs have ended with related results or for the same cause, or none of them has ended. -/
abbrev Outcome.Alike {α α' : Type} (Q : α → α' → Prop) : Outcome α → Outcome α' → Prop :=
  Outcome.EndsAlike (fun f f' => f.cause = f'.cause) Q

theorem Outcome.alike_comm {α α' : Type} {Q : α → α' → Prop} {o : Outcome α} {o' : Outcome α'} :
    o.Alike Q o' ↔ o'.Alike (fun a' a => Q a a') o := by
  constructor <;> intro h <;> cases h with
  | done h => exact .done h
  | failed h => exact .failed h.symm
  | aborted reason => exact .aborted reason
  | exhausted => exact .exhausted

namespace Run

variable {α α' β β' : Type} {r : Run α} {r' : Run α'} {next next' : Identity} {span : Span}
  {Q : α × Identity → α' × Identity → Prop}

/-- Placing a failure leaves its cause. -/
theorem alike_within_left_iff {o : Outcome (α' × Identity)} :
    (within span r next).Alike Q o ↔ (r next).Alike Q o := by
  rw [within_apply]
  cases r next with
  | failed f =>
    constructor
    · intro h
      cases h with
      | failed h => exact .failed ((f.cause_within span).symm.trans h)
    · intro h
      cases h with
      | failed h => exact .failed ((f.cause_within span).trans h)
  | _ => rfl

theorem alike_within_right_iff {o : Outcome (α × Identity)} :
    o.Alike Q (within span r' next') ↔ o.Alike Q (r' next') := by
  rw [Outcome.alike_comm, alike_within_left_iff, Outcome.alike_comm]

/-- Runs that end alike and go on alike end alike. -/
theorem alike_bind {f : α → Run β} {f' : α' → Run β'} {S : β × Identity → β' × Identity → Prop}
    (h : (r next).Alike Q (r' next'))
    (hf : ∀ a a', r next = .done a → Q a a' → (f a.1 a.2).Alike S (f' a'.1 a'.2)) :
    ((r >>= f) next).Alike S ((r' >>= f') next') := by
  rw [bind_apply, bind_apply]
  generalize r next = o at h hf ⊢
  generalize r' next' = o' at h ⊢
  cases h with
  | done h => exact hf _ _ rfl h
  | failed h => exact .failed h
  | aborted reason => exact .aborted reason
  | exhausted => exact .exhausted

theorem alike_self {S : α × Identity → α × Identity → Prop} (hS : ∀ a, S a a) (r : Run α)
    (next : Identity) : (r next).Alike S (r next) := by
  cases r next with
  | done a => exact .done (hS a)
  | failed f => exact .failed rfl
  | aborted reason => exact .aborted reason
  | exhausted => exact .exhausted

/-- Runs that follow each other end for the same cause. -/
theorem Sim.alike {N N' : Identity → Identity → Prop} {Q : α → α' → Prop} {Q' : α' → α → Prop}
    (h : Sim N Eq r r' Q) (hback : Sim N' Eq r' r Q') (hnext : N next next')
    (hnext' : N' next' next) : (r next).Alike (fun a a' => Q a.1 a'.1) (r' next') :=
  ((h next next' hnext).endsAlike (hback next' next hnext')).mono
    (fun _ _ h => congrArg Failure.cause h.eq) fun _ _ h => h.1.fst

theorem within_bind_of_done {f : α → Run β} {a : α} {last : Identity}
    (h : r next = .done (a, last)) : within span (r >>= f) next = within span (f a) last := by
  rw [within_apply, within_apply, bind_apply, h]

theorem traverse_map (f : β → Run α) (g : β' → β) (bs : List β') :
    traverse f (bs.map g) = traverse (fun b => f (g b)) bs := by
  induction bs with
  | nil => rfl
  | cons b bs ih =>
    rw [List.map_cons, traverse, traverse, ih]

theorem filter_map (test : β → Run Bool) (g : β' → β) (bs : List β') :
    filter test (bs.map g) = (do
      let kept ← filter (fun b => test (g b)) bs
      pure (kept.map g)) := by
  induction bs with
  | nil => rfl
  | cons b bs ih =>
    rw [List.map_cons, filter, filter, ih]
    simp only [bind_assoc, pure_bind]
    refine congrArg _ (funext fun keep => congrArg _ (funext fun kept => ?_))
    cases keep with
    | true => rfl
    | false => rfl

/-- A filter leaves the order of what it keeps. -/
theorem sublist_of_filter {test : α → Run Bool} {as kept : List α} {last : Identity}
    (h : filter test as next = .done (kept, last)) : kept.Sublist as := by
  induction as generalizing kept next last with
  | nil =>
    cases h
    exact .slnil
  | cons a as ih =>
    obtain ⟨keep, between, -, h⟩ := bind_eq_done_iff.mp h
    obtain ⟨others, stop, hothers, h⟩ := bind_eq_done_iff.mp h
    cases h
    cases keep with
    | true => exact (ih hothers).cons_cons a
    | false => exact (ih hothers).cons a

end Run

/-! ## The pairs of a dictionary -/

namespace Value

variable {entries : List (Value × Value)}

/-- The set of the pairs of a dictionary. -/
def pairs (entries : List (Value × Value)) : Value :=
  .set (entries.map fun entry => .pair entry.1 entry.2)

theorem compare_pair_of_lt {j k : Value} (h : compare j k = .lt) (v w : Value) :
    compare (pair j v) (pair k w) = .lt := by
  show ((Ord.compare "@" "@").then ((compare j k).then _)) = .lt
  rw [Std.compare_self, h]
  rfl

/-- Pairs are in the order of their keys. -/
theorem ascending_pairs (h : OrderedMap.Ascending entries) :
    OrderedSet.Ascending (entries.map fun entry => pair entry.1 entry.2) :=
  List.pairwise_map.mpr (h.imp fun hlt => compare_pair_of_lt hlt _ _)

theorem pairValue?_pair (arg k v : Value) :
    pairValue? arg (pair k v) = if compare k arg = .eq then some v else none := by
  show (if k == arg then some v else none) = _
  simp only [beq_iff]

/-- The pairs answer to the keys of the dictionary, each key to its value. -/
theorem lookup_pairs (h : OrderedMap.Ascending entries) (arg : Value) :
    (pairs entries).lookup arg = (dict entries).lookup arg := by
  have hanswers : (entries.map fun entry => pair entry.1 entry.2).filterMap (pairValue? arg) =
      (OrderedMap.find? arg entries).toList := by
    rw [List.filterMap_map, ← h.filterMap_eq_find? arg]
    exact congrArg (entries.filterMap ·) (funext fun entry => pairValue?_pair arg entry.1 entry.2)
  unfold pairs lookup
  dsimp only
  rw [hanswers]
  cases OrderedMap.find? arg entries with
  | none => rfl
  | some v => rfl

theorem count_pairs (entries : List (Value × Value)) :
    (pairs entries).count = (dict entries).count := by
  unfold pairs count
  dsimp only
  rw [List.length_map]

end Value

/-! ## Mapping and filtering -/

namespace Evaluator

variable (ev : Evaluator) (rhs : Expr) (scope : Scope)

/-- The entries of a dictionary that pass. -/
def keepEntries (entries : List (Value × Value)) : Run (List (Value × Value)) :=
  Run.filter (fun entry => ev.passes rhs scope (.pair entry.1 entry.2)) entries

theorem mapElements_pairs (entries : List (Value × Value)) :
    ev.mapElements rhs scope (.pairs entries) = ev.mapElements rhs scope (.dict entries) := by
  unfold Value.pairs mapElements
  dsimp only
  rw [Run.traverse_map]

theorem filterElements_dict (entries : List (Value × Value)) :
    ev.filterElements rhs scope (.dict entries) = (do
      let kept ← ev.keepEntries rhs scope entries
      pure (.dict kept)) := rfl

theorem filterElements_pairs (entries : List (Value × Value)) :
    ev.filterElements rhs scope (.pairs entries) = (do
      let kept ← ev.keepEntries rhs scope entries
      pure (.pairs kept)) := by
  unfold Value.pairs filterElements
  dsimp only
  rw [Run.filter_map, bind_assoc]
  rfl

end Evaluator

section Evaluating

variable {scope : Scope} {next last : Identity} {lhs : Expr} {v : Value}
  {entries : List (Value × Value)}

theorem apply_current (place : Span) (scope : Scope) (v : Value) :
    unbounded.apply (.current place) scope v = pure v := by
  show unbounded.eval (.ident "." place) (scope.bind "." v) = pure v
  have hget : (scope.bind "." v).get? "." = some v := by
    rw [Scope.get?, Scope.bind, OrderedMap.find?_insert, if_pos Std.compare_self]
  rw [unbounded_eval, Evaluator.evalStep, hget]

theorem eval_dArrow (h : unbounded.eval lhs scope next = .done (v, last)) (rhs : Expr)
    (span : Span) : unbounded.eval (.binary .dArrow lhs rhs span) scope next =
      Run.within span (unbounded.mapElements rhs scope v) last := by
  rw [unbounded_eval]
  exact Run.within_bind_of_done h

theorem eval_where (h : unbounded.eval lhs scope next = .done (v, last)) (rhs : Expr)
    (span : Span) : unbounded.eval (.binary .where_ lhs rhs span) scope next =
      Run.within span (unbounded.filterElements rhs scope v) last := by
  rw [unbounded_eval]
  exact Run.within_bind_of_done h

theorem eval_count (h : unbounded.eval lhs scope next = .done (v, last)) {n : Value}
    (hn : v.count = .ok n) (span : Span) :
    unbounded.eval (.count lhs span) scope next = .done (n, last) := by
  rw [unbounded_eval]
  refine Run.bind_eq_done_iff.mpr ⟨v, last, h, ?_⟩
  rw [hn]
  rfl

/-- Taking the current values of a dictionary gives its pairs. -/
theorem mapElements_current (h : OrderedMap.Ascending entries) (place : Span) (scope : Scope) :
    unbounded.mapElements (.current place) scope (.dict entries) = pure (.pairs entries) := by
  have htraverse : ∀ members : List Value,
      Run.traverse (unbounded.apply (.current place) scope) members = pure members := by
    intro members
    induction members with
    | nil => rfl
    | cons member members ih => rw [Run.traverse, apply_current, ih]; rfl
  rw [← Evaluator.mapElements_pairs]
  unfold Value.pairs Evaluator.mapElements
  dsimp only
  rw [htraverse, pure_bind, OrderedSet.ofList_of_ascending (Value.ascending_pairs h)]

end Evaluating

/-! ## Right sides that start from different identities -/

/-- The sides of an arrow whose functions have a property. -/
theorem Expr.Every.sides {F : Option String → Identity → Prop} {lhs rhs : Expr} {op : BinaryOp}
    {span : Span} (h : (Expr.binary op lhs rhs span).Every F) :
    lhs.Every F ∧ rhs.LikeRight (Expr.Kept F) (Pattern.Kept F) rhs := by
  cases h with
  | mk hexprs hpatterns =>
    have hsides : Expr.Kept F lhs lhs ∧ Expr.Kept F rhs rhs ∧
        rhs.LikeRight (Expr.Kept F) (Pattern.Kept F) rhs :=
      Expr.likeRight_self (fun e he => ⟨rfl, hexprs e he⟩) fun p hp => ⟨rfl, hpatterns p hp⟩
    exact ⟨hsides.1.2, hsides.2.2⟩

namespace Exchange

variable {F : Option String → Identity → Prop} {I : Option String → Identity → Identity → Prop}
  {N : Identity → Identity → Prop} (X : Exchange F I N)

include X

theorem truthy_eq {v v' : Value} (h : v.Exchanged F I v') : v.truthy = v'.truthy :=
  have L : Value.Likeness (Value.Exchanged F I) fun _ _ => True :=
    { shape := Value.Paired.shape
      build := .built
      order := Value.Paired.keepsOrder X.order
      text := fun _ => True.intro }
  L.truthy_eq h

variable {lhs rhs : Expr} {span : Span} {scope : Scope}
  (h : (Expr.binary .dArrow lhs rhs span).EveryIn F scope)

include h

theorem apply_sim {v : Value} (hv : v.Every F) :
    Run.Sim N Eq (unbounded.apply rhs scope v) (unbounded.apply rhs scope v)
      (Value.Exchanged F I) := by
  have hscope := X.scope h.captured
  rw [Evaluator.names_binary] at hscope
  exact Evaluator.apply_sim X.sim h.literals.sides.2 (Scope.like_append.mp hscope).2 (X.value hv)

theorem passes_sim {v : Value} (hv : v.Every F) :
    Run.Sim N Eq (unbounded.passes rhs scope v) (unbounded.passes rhs scope v) Eq :=
  (X.apply_sim h hv).bind fun _ _ hanswer => .pure (X.truthy_eq hanswer)

end Exchange

/-- An expression that reaches only functions made before ends alike from whatever identity on it is
evaluated, and its values differ in the identities of the functions that it makes. -/
theorem Expr.EveryIn.alike {e : Expr} {scope : Scope} {bound c k : Nat}
    (h : e.EveryIn (MadeBefore bound) scope) (hc : bound ≤ c) (hk : bound ≤ k) :
    (unbounded.eval e scope c).Alike
      (fun a a' => a.1.Exchanged (MadeBefore bound) (ShiftedAbove bound c k) a'.1)
      (unbounded.eval e scope k) := by
  have X := exchange_shift hc hk
  have hsim := X.sim.eval ⟨⟨rfl, h.literals⟩, X.scope h.captured⟩
  have hback := X.swap.sim.eval ⟨⟨rfl, h.literals⟩, X.swap.scope h.captured⟩
  exact Run.Sim.alike hsim hback (⟨0, rfl, rfl⟩ : Shifted c k c k) ⟨0, rfl, rfl⟩

/-- The expression that maps a dictionary by a right side. -/
def Expr.mapDict (entries : List (Value × Value)) (rhs : Expr) : Expr :=
  .binary .dArrow (.literal (.dict entries) .unknown) rhs .unknown

section Starting

variable {entries : List (Value × Value)} {rhs : Expr} {scope : Scope}

theorem every_pair {F : Option String → Identity → Prop}
    (h : (Expr.mapDict entries rhs).EveryIn F scope) {entry : Value × Value}
    (hentry : entry ∈ entries) : (Value.pair entry.1 entry.2).Every F := by
  have hdict : (Value.dict entries).Every F := by
    cases h.literals.sides.1 with
    | mk _ _ hliteral => exact hliteral _ _ rfl
  cases hdict with
  | built _ helements =>
    have hparts : ∀ w ∈ [entry.1, entry.2], w.Every F := fun w hw =>
      helements w (List.mem_flatMap.mpr ⟨entry, hentry, hw⟩)
    exact .built rfl hparts

/-- A right side keeps the same entries of a dictionary from whatever identity on it is
evaluated. -/
theorem keepEntries_alike {bound c k : Nat} (hc : bound ≤ c) (hk : bound ≤ k)
    (h : (Expr.mapDict entries rhs).EveryIn (MadeBefore bound) scope) :
    (unbounded.keepEntries rhs scope entries c).Alike (fun a a' => a.1 = a'.1)
      (unbounded.keepEntries rhs scope entries k) := by
  have hkept {I : Option String → Identity → Identity → Prop} {N : Identity → Identity → Prop}
      (X : Exchange (MadeBefore bound) I N) :
      Run.Sim N Eq (unbounded.keepEntries rhs scope entries)
        (unbounded.keepEntries rhs scope entries) (List.Forall₂ Eq) :=
    .filter (List.forall₂_same.mpr fun entry hentry =>
      ⟨rfl, X.passes_sim h (every_pair h hentry)⟩)
  have X := exchange_shift hc hk
  exact (Run.Sim.alike (hkept X) (hkept X.swap) ⟨0, rfl, rfl⟩ ⟨0, rfl, rfl⟩).mono
    (fun _ _ h => h) fun _ _ h => List.forall₂_eq_eq_eq ▸ h

/-- A right side without functions among its results maps a dictionary to the same set from whatever
identity on it is evaluated. -/
theorem mapElements_alike {bound c k : Nat} (hc : bound ≤ c) (hk : bound ≤ k)
    (h : (Expr.mapDict entries rhs).EveryIn (MadeBefore bound) scope) :
    (unbounded.mapElements rhs scope (.dict entries) c).Alike
      (fun a a' => a.1.hasFunction = false → a.1 = a'.1)
      (unbounded.mapElements rhs scope (.dict entries) k) := by
  have heval (next : Identity) : unbounded.eval (Expr.mapDict entries rhs) scope next =
      Run.within .unknown (unbounded.mapElements rhs scope (.dict entries)) next :=
    eval_dArrow (congrFun (unbounded_eval_literal _ _ _) next) rhs .unknown
  have halike := h.alike hc hk
  rw [heval, heval, Run.alike_within_left_iff, Run.alike_within_right_iff] at halike
  exact halike.mono (fun _ _ h => h) fun _ _ h hdata => h.eq_of_data hdata

/-- Two evaluations of a right side over a dictionary start from the same identity, or every
function that the right side can reach or the dictionary holds was made before both of them. -/
def StartAlike (entries : List (Value × Value)) (rhs : Expr) (scope : Scope) (c k : Nat) : Prop :=
  c = k ∨ ∃ bound, bound ≤ c ∧ bound ≤ k ∧
    (Expr.mapDict entries rhs).EveryIn (MadeBefore bound) scope

variable {c k : Nat} (h : StartAlike entries rhs scope c k)

include h

theorem StartAlike.keepEntries : (unbounded.keepEntries rhs scope entries c).Alike
    (fun a a' => a.1 = a'.1) (unbounded.keepEntries rhs scope entries k) := by
  rcases h with rfl | ⟨bound, hc, hk, hevery⟩
  · refine Run.alike_self ?_ _ _
    exact fun _ => rfl
  · exact keepEntries_alike hc hk hevery

theorem StartAlike.mapElements : (unbounded.mapElements rhs scope (.dict entries) c).Alike
    (fun a a' => c = k ∨ a.1.hasFunction = false → a.1 = a'.1)
    (unbounded.mapElements rhs scope (.dict entries) k) := by
  by_cases hck : c = k
  · obtain rfl := hck
    exact Run.alike_self (fun _ _ => rfl) _ _
  · obtain ⟨bound, hc, hk, hevery⟩ := h.resolve_left hck
    exact (mapElements_alike hc hk hevery).mono (fun _ _ h => h) fun _ _ h hor =>
      h (hor.resolve_left hck)

variable (hentries : OrderedMap.Ascending entries) {dict pairs : Expr} {next next' : Nat}
  (hdict : unbounded.eval dict scope next = .done (.dict entries, c))
  (hpairs : unbounded.eval pairs scope next' = .done (.pairs entries, k))

include hdict hpairs

/-- A right side maps a dictionary and its pairs to the same set. -/
theorem StartAlike.eval_map (span span' : Span) :
    (unbounded.eval (.binary .dArrow dict rhs span) scope next).Alike
      (fun a a' => c = k ∨ a.1.hasFunction = false → a.1 = a'.1)
      (unbounded.eval (.binary .dArrow pairs rhs span') scope next') := by
  rw [eval_dArrow hdict, eval_dArrow hpairs, Run.alike_within_left_iff, Run.alike_within_right_iff,
    Evaluator.mapElements_pairs]
  exact h.mapElements

include hentries

/-- The pairs of what is kept of a dictionary are what is kept of its pairs. -/
theorem StartAlike.eval_filter (place inner span span' : Span) :
    (unbounded.eval (.binary .dArrow (.binary .where_ dict rhs inner) (.current place) span) scope
        next).Alike (fun a a' => a.1 = a'.1)
      (unbounded.eval (.binary .where_ pairs rhs span') scope next') := by
  -- what is kept stays in the order of the entries, so its pairs are in order as well
  let keep := unbounded.keepEntries rhs scope entries
  have hkept : ((keep >>= fun kept => pure (Value.dict kept)) c).Alike
      (fun a a' => a.1 = Value.dict a'.1 ∧ a'.1.Sublist entries) ((keep >>= pure) k) :=
    Run.alike_bind h.keepEntries fun a a' ha heq =>
      .done ⟨congrArg Value.dict heq, heq ▸ Run.sublist_of_filter ha⟩
  rw [bind_pure, ← Evaluator.filterElements_dict, ← Run.alike_within_left_iff,
    ← eval_where hdict rhs inner] at hkept
  rw [unbounded_eval, eval_where hpairs, Run.alike_within_right_iff,
    Evaluator.filterElements_pairs]
  refine Run.alike_within_left_iff.mpr (Run.alike_bind hkept fun a a' _ hdict => ?_)
  rw [hdict.1, mapElements_current (hentries.sublist hdict.2)]
  exact .done rfl

end Starting

/-- A dictionary and the set of its pairs are interchangeable. The set is what the arrow gives for
the current value. It answers to every argument as the dictionary does. In every scope where two
expressions have the dictionary and the set for values, these have the same count, a right side
maps them to the same set, and to filter the dictionary and take the pairs is to filter the set.
What fails for one fails for the other, and the cause is the same.

From different identities on, the sets are the same if they hold no functions. -/
theorem Value.dict_agrees_with_pairs {entries : List (Value × Value)}
    (h : OrderedMap.Ascending entries) :
    (∀ arg, unbounded.call (.pairs entries) arg = unbounded.call (.dict entries) arg) ∧
    ∀ {dict : Expr} {scope : Scope} {next last : Nat},
      unbounded.eval dict scope next = .done (.dict entries, last) →
      (∀ place span, unbounded.eval (.binary .dArrow dict (.current place) span) scope next =
        .done (.pairs entries, last)) ∧
      ∀ {pairs : Expr} {next' last' : Nat},
        unbounded.eval pairs scope next' = .done (.pairs entries, last') → ∀ span span' : Span,
        (∃ n, unbounded.eval (.count dict span) scope next = .done (n, last) ∧
          unbounded.eval (.count pairs span') scope next' = .done (n, last')) ∧
        ∀ rhs : Expr, StartAlike entries rhs scope last last' →
          (unbounded.eval (.binary .dArrow dict rhs span) scope next).Alike
            (fun a a' => last = last' ∨ a.1.hasFunction = false → a.1 = a'.1)
            (unbounded.eval (.binary .dArrow pairs rhs span') scope next') ∧
          ∀ place inner : Span,
            (unbounded.eval (.binary .dArrow (.binary .where_ dict rhs inner) (.current place) span)
              scope next).Alike (fun a a' => a.1 = a'.1)
              (unbounded.eval (.binary .where_ pairs rhs span') scope next') := by
  refine ⟨fun arg => ?_, fun {dict scope next last} hdict => ⟨fun place span => ?_,
    fun {pairs next' last'} hpairs span span' => ⟨?_, fun rhs hstart => ?_⟩⟩⟩
  · rw [unbounded_call, unbounded_call]
    exact congrArg Run.ofExcept (lookup_pairs h arg)
  · rw [eval_dArrow hdict, mapElements_current h]
    rfl
  · exact ⟨_, eval_count hdict rfl span, eval_count hpairs (count_pairs entries) span'⟩
  · exact ⟨hstart.eval_map hdict hpairs span span', fun place inner =>
      hstart.eval_filter h hdict hpairs place inner span span'⟩

/-- The right side makes a function in each step and calls it. The dictionary is mapped from the
identity 0 on, and its pairs from the identity 7 on. -/
theorem Value.dict_agrees_with_pairs_called :
    let here := Span.unknown
    let entries : List (Value × Value) := [(.string "a", .string ""), (.string "b", .string "y")]
    let dict : Expr := .literal (.dict entries) here
    let pairs : Expr := .binary .dArrow dict (.current here) here
    let f : Expr := .function (.expr (.ident "x" here)) (.dot (.ident "x" here) "@value" here) here
    let rhs : Expr := .call f (.current here) here
    unbounded.eval pairs Scope.empty 7 = .done (.pairs entries, 7) ∧
    unbounded.call (.pairs entries) (.string "b") 0 = .done (.string "y", 0) ∧
    (∃ last, unbounded.eval (.binary .dArrow pairs rhs here) Scope.empty 7 =
      .done (.set [.string "", .string "y"], last)) ∧
    ∃ last, unbounded.eval (.binary .where_ pairs rhs here) Scope.empty 7 =
      .done (.pairs [(.string "b", .string "y")], last) := by
  intro here entries dict pairs f rhs
  have hentries : OrderedMap.Ascending entries := by decide
  have hdict (next : Identity) :
      unbounded.eval dict Scope.empty next = .done (.dict entries, next) :=
    congrFun (unbounded_eval_literal _ _ _) next
  have hbody : (Expr.dot (.ident "x" here) "@value" here).Every (MadeBefore 0) :=
    .mk (List.forall_mem_singleton.mpr (Expr.every_ident _ _)) (List.forall_mem_nil _) nofun
  have hf : f.Every (MadeBefore 0) := .mk (List.forall_mem_singleton.mpr hbody)
    (List.forall_mem_singleton.mpr (Pattern.every_name _ _)) nofun
  have hrhs : rhs.Every (MadeBefore 0) := .mk (List.forall_mem_cons.mpr
    ⟨hf, List.forall_mem_singleton.mpr (Expr.every_ident _ _)⟩) (List.forall_mem_nil _) nofun
  have hevery : (Expr.mapDict entries rhs).EveryIn (MadeBefore 0) Scope.empty :=
    ⟨.mk (List.forall_mem_cons.mpr ⟨Expr.every_literal (every_of_data rfl) _,
      List.forall_mem_singleton.mpr hrhs⟩) (List.forall_mem_nil _) nofun, fun _ _ _ => nofun⟩
  obtain ⟨hcall, hagrees⟩ := dict_agrees_with_pairs hentries
  have hpairs := (hagrees (hdict 7)).1 here here
  obtain ⟨-, hright⟩ := (hagrees (hdict 0)).2 hpairs here here
  obtain ⟨hmapped, hkept⟩ := hright rhs (.inr ⟨0, Nat.zero_le _, Nat.zero_le _, hevery⟩)
  have hvalues : OrderedSet.Ascending [Value.string "", .string "y"] :=
    List.pairwise_pair.mpr (by decide)
  have hmap : unbounded.eval (.binary .dArrow dict rhs here) Scope.empty 0 =
      .done (.set (OrderedSet.ofList [.string "", .string "y"]), 2) :=
    unbounded_eval_eq_done 9 rfl
  have hwhere : unbounded.eval (.binary .where_ dict rhs here) Scope.empty 0 =
      .done (.dict [(.string "b", .string "y")], 2) :=
    unbounded_eval_eq_done 9 rfl
  refine ⟨hpairs, ?_, ?_, ?_⟩
  · rw [hcall, unbounded_call]
    rfl
  · rw [hmap, OrderedSet.ofList_of_ascending hvalues] at hmapped
    obtain ⟨⟨w, last⟩, hw, heq⟩ := hmapped.exists_done
    obtain rfl : _ = w := heq (.inr rfl)
    exact ⟨last, hw⟩
  · have hsome : OrderedMap.Ascending [(Value.string "b", Value.string "y")] := by decide
    replace hkept := hkept here here
    rw [eval_dArrow hwhere, mapElements_current hsome] at hkept
    obtain ⟨⟨w, last⟩, hw, heq⟩ := hkept.exists_done
    obtain rfl : _ = w := heq
    exact ⟨last, hw⟩

end Relational
