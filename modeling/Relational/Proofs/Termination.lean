import Relational.Proofs.Lowered

/-!
# Lowering ends

Lowering goes down the tree, with two exceptions: the pattern of a function is asked of the function
itself, and a node that is no pattern of its own is lowered as an expression. A function without a
pattern goes round between the two and never ends (`function_exhausted`). Everywhere else
one of the two is followed by a step down, so two steps for each level of the tree are enough:

> `lower_terminates`: if every function in a tree has a pattern, lowering with the fuel for the tree
> ends with a result or an error, and more fuel changes nothing.

> `lower_endless`: if lowering runs out of the fuel for the tree, it does so with more fuel too, and
> a function in the tree has no pattern.
-/

namespace Relational

namespace Node

/-! ## The nodes in a tree -/

mutual

/-- A tree and all that stand in it. -/
def subtrees : Node → List Node
  | .branch children span => .branch children span :: subtreesTags children
  | .leaf span => [.leaf span]
  | .embedded expr span => [.embedded expr span]

def subtreesTags : List (String × Children) → List Node
  | [] => []
  | (_, .one node) :: rest => node.subtrees ++ subtreesTags rest
  | (_, .many nodes) :: rest => subtreesAll nodes ++ subtreesTags rest

def subtreesAll : List Node → List Node
  | [] => []
  | node :: rest => node.subtrees ++ subtreesAll rest

end

theorem mem_subtrees_self (node : Node) : node ∈ node.subtrees := by
  cases node <;> exact List.mem_cons_self ..

theorem mem_subtreesAll {n : Node} {nodes : List Node} :
    n ∈ subtreesAll nodes ↔ ∃ child ∈ nodes, n ∈ child.subtrees := by
  induction nodes with
  | nil => simp [subtreesAll]
  | cons child nodes ih => simp [subtreesAll, ih]

theorem mem_subtreesTags {n : Node} {children : List (String × Children)} :
    n ∈ subtreesTags children ↔ ∃ c ∈ children, ∃ child ∈ c.2.nodes, n ∈ child.subtrees := by
  induction children with
  | nil => simp [subtreesTags]
  | cons c children ih =>
    rcases c with ⟨tag, child | nodes⟩
    · simp [subtreesTags, Children.nodes, ih]
    · simp [subtreesTags, Children.nodes, ih, mem_subtreesAll]

/-- What stands under a tag is one of the children of a branch. -/
theorem get?_eq_some {node : Node} {tag : String} {children : Children}
    (h : node.get? tag = some children) :
    ∃ tagged span, node = .branch tagged span ∧ ∃ c ∈ tagged, c.2 = children := by
  cases node with
  | branch tagged span =>
    obtain ⟨c, hfind, hc⟩ := Option.map_eq_some_iff.mp h
    exact ⟨tagged, span, rfl, c, List.mem_of_find?_eq_some hfind, hc⟩
  | leaf => cases h
  | embedded => cases h

theorem subtrees_subset {node child : Node} {tag : String} {children : Children}
    (h : node.get? tag = some children) (hchild : child ∈ children.nodes) :
    child.subtrees ⊆ node.subtrees := by
  obtain ⟨tagged, span, rfl, c, hc, rfl⟩ := get?_eq_some h
  intro n hn
  rw [subtrees]
  exact List.mem_cons_of_mem _ (mem_subtreesTags.mpr ⟨c, hc, child, hchild, hn⟩)

/-! ## Height -/

theorem height_lt_heightAll {nodes : List Node} {child : Node} (h : child ∈ nodes) :
    child.height < heightAll nodes := by
  induction nodes with
  | nil => cases h
  | cons n nodes ih =>
    rw [heightAll]
    rcases List.mem_cons.mp h with rfl | hmem
    · omega
    · have := ih hmem
      omega

theorem height_lt_heightTags {children : List (String × Children)} {c : String × Children}
    {child : Node} (hc : c ∈ children) (h : child ∈ c.2.nodes) :
    child.height < heightTags children := by
  induction children with
  | nil => cases hc
  | cons d children ih =>
    rcases List.mem_cons.mp hc with rfl | hmem
    · rcases c with ⟨tag, n | nodes⟩ <;> rw [heightTags]
      · obtain rfl := List.mem_singleton.mp h
        omega
      · exact Nat.lt_of_lt_of_le (height_lt_heightAll h) (Nat.le_max_left ..)
    · have := ih hmem
      rcases d with ⟨tag, n | nodes⟩ <;> rw [heightTags] <;> omega

theorem height_lt {node child : Node} {tag : String} {children : Children}
    (h : node.get? tag = some children) (hchild : child ∈ children.nodes) :
    child.height < node.height := by
  obtain ⟨tagged, span, rfl, c, hc, rfl⟩ := get?_eq_some h
  rw [height]
  exact height_lt_heightTags hc hchild

/-- What stands in a tree that stands in another one stands in that one. -/
theorem subtrees_trans {n m node : Node} (hm : m ∈ node.subtrees) (hn : n ∈ m.subtrees) :
    n ∈ node.subtrees := by
  -- the induction is on the height, since a tree has its children under tags and in sequences
  induction hheight : node.height using Nat.strongRecOn generalizing node with
  | ind height ih =>
    cases node with
    | leaf | embedded =>
      obtain rfl := List.mem_singleton.mp hm
      exact hn
    | branch children span =>
      rw [subtrees] at hm ⊢
      rcases List.mem_cons.mp hm with rfl | hm
      · rwa [subtrees] at hn
      · obtain ⟨c, hc, child, hchild, hm⟩ := mem_subtreesTags.mp hm
        have hlt : child.height < height := hheight ▸ height_lt_heightTags hc hchild
        refine List.mem_cons_of_mem _ (mem_subtreesTags.mpr ⟨c, hc, child, hchild, ?_⟩)
        exact ih child.height hlt hm rfl

/-- Whether a node is a pattern of its own, and not an expression in the place of one. -/
def hasPattern (node : Node) : Bool :=
  match node.patternForm with
  | .expr => false
  | _ => true

theorem hasPattern_eq_false {node : Node} (h : node.patternForm = .expr) :
    node.hasPattern = false := by
  rw [hasPattern, h]

theorem patternForm_eq_expr {node : Node} (h : node.hasPattern = false) :
    node.patternForm = .expr := by
  unfold hasPattern at h
  split at h
  next hform => exact hform
  next => cases h

/-- A tree below a height in which every function has a pattern, unless `X` holds. -/
structure Bounded (X : Prop) (height : Nat) (node : Node) : Prop where
  height_lt : node.height < height
  functions : ∀ n ∈ node.subtrees, n.isFunction = true → n.hasPattern = true ∨ X

end Node

/-- Lowering has ended with a result or an error, or because the sink fails. -/
def Ending.IsAnswer {α : Type} (sink : Sink) : Ending α → Prop
  | .done _ => True
  | .rejected _ => True
  | .sinkFailed reason => sink = .failing reason
  | .exhausted => False

theorem Ending.Meets.isAnswer {α : Type} {sink : Sink} {S : Span → Prop} {A : α → Prop}
    {ending : Ending α} (h : ending.Meets sink S False A) : ending.IsAnswer sink := by
  cases ending with
  | done | rejected => exact True.intro
  | sinkFailed | exhausted => exact h

namespace Lowering

/-! ## Functions without a pattern -/

theorem exprStep_function {node : Node} (h : node.isFunction = true) (lo : Lowerer) :
    exprStep lo node = function lo node := by
  cases node with
  | branch children span =>
    unfold Node.isFunction at h
    split at h
    next form hform =>
      have hkind : form.kind = .function := by simpa using h
      simp only [exprStep, Node.embedded?, hform]
      show formStep lo (.branch children span) form = _
      rw [formStep, hkind]
    next => cases h
  | leaf => cases h
  | embedded => cases h

/-- What comes after a step that has no fuel is not reached. -/
theorem bind_exhausted {α β : Type} {l : Lowering α} {setting : Setting}
    {state state' : CompilerState} (h : l setting state = (.exhausted, state'))
    (f : α → Lowering β) : (l >>= f) setting state = (.exhausted, state') := by
  rw [bind_apply, h]

/-- A function without a pattern asks for its pattern, which asks for its expression, and so on: no
amount of fuel is enough. -/
theorem function_exhausted {node : Node} (hfunction : node.isFunction = true)
    (hpattern : node.patternForm = .expr) (setting : Setting) (state : CompilerState) (fuel : Nat) :
    lowerExpr fuel node setting state = (.exhausted, state) ∧
      lowerPattern fuel node setting state = (.exhausted, state) := by
  induction fuel with
  | zero => exact ⟨rfl, rfl⟩
  | succ fuel ih =>
    rw [lowerExpr, lowerPattern, exprStep_function hfunction, patternStep, hpattern]
    exact ⟨bind_exhausted ih.2 _, bind_exhausted ih.1 _⟩

/-- So however much fuel is left, both end in the same way. -/
theorem meets_of_patternless {node : Node} (hfunction : node.isFunction = true)
    (hpattern : node.patternForm = .expr) {setting : Setting} {S : Span → Prop} {X : Prop} (hX : X)
    (fuel : Nat) (E : Expr → Prop) (P : Pattern → Prop) :
    Meets setting S X (fun more : Nat => lowerExpr (more + fuel) node) E ∧
      Meets setting S X (fun more : Nat => lowerPattern (more + fuel) node) P := by
  have h := function_exhausted hfunction hpattern setting
  exact ⟨fun state => ⟨.exhausted, state, fun more => (h state (more + fuel)).1, hX⟩,
    fun state => ⟨.exhausted, state, fun more => (h state (more + fuel)).2, hX⟩⟩

/-! ## One level takes two steps -/

/-- The children of a tree below a height are below one less. -/
theorem above_bounded {X : Prop} {height : Nat} {node : Node} (h : node.Bounded X (height + 1)) :
    node.Above (Node.Bounded X height) (fun _ => True) (fun _ => True) where
  span := True.intro
  embedded? _ := True.intro
  get? hget child hchild := by
    have hlt := Node.height_lt hget hchild
    have hnode := h.height_lt
    exact ⟨by omega, fun n hn => h.functions n (Node.subtrees_subset hget hchild hn)⟩

theorem terms_bounded (X : Prop) (height : Nat) (modules : Modules) :
    Terms (Node.Bounded X height) (fun _ => True) (fun _ => True) (fun _ => True) modules where
  rules := by constructor <;> intros <;> trivial
  above n h :=
    ⟨True.intro, fun _ => True.intro,
      (above_bounded ⟨Nat.lt_succ_of_lt h.height_lt, h.functions⟩).get?⟩
  answers := ⟨fun _ _ => True.intro, fun _ _ => True.intro, fun _ _ => True.intro⟩

/-- With two steps for each level, lowering ends in the same way however much fuel is left, and it
ends for want of fuel only if `X` allows a function without a pattern. The induction is on the
height: a level takes one step more only where a function asks for its own pattern or an expression
stands in the place of a pattern, and both only in such a function. -/
theorem bounded_keeps (X : Prop) (setting : Setting) (height : Nat) :
    ∀ fuel, 2 * height ≤ fuel →
      Keeps (Node.Bounded X height) (fun _ => True) (fun _ => True) (fun _ => True) X setting
        fun more : Nat => ⟨lowerExpr (more + fuel), lowerPattern (more + fuel)⟩ := by
  induction height with
  | zero =>
    intro fuel _
    exact ⟨terms_bounded X 0 _, fun h => absurd h.height_lt (Nat.not_lt_zero _),
      fun h => absurd h.height_lt (Nat.not_lt_zero _)⟩
  | succ height ih =>
    intro fuel hfuel
    obtain ⟨fuel, rfl⟩ : ∃ rest, fuel = rest + 2 := ⟨fuel - 2, by omega⟩
    have hlower := ih fuel (by omega)
    have hmore := ih (fuel + 1) (by omega)
    have hround : ∀ {node : Node}, node.Bounded X (height + 1) → node.isFunction = true →
        node.patternForm = .expr → X := by
      intro node h hfunction hform
      rcases h.functions node node.mem_subtrees_self hfunction with hpattern | hX
      · exact absurd hpattern (by simp [Node.hasPattern_eq_false hform])
      · exact hX
    -- `hmore` is for the children, `hlower` for the children once the node itself took a step more
    refine ⟨terms_bounded X (height + 1) _, fun {node} h => ?_, fun {node} h => ?_⟩
    · refine exprStep_meets hmore (above_bounded h) fun hfunction => ?_
      refine patternStep_meets hlower (above_bounded h) fun hform => ?_
      have hX := hround h hfunction hform
      exact (meets_of_patternless hfunction hform hX fuel _ fun _ => True).1
    · refine patternStep_meets hmore (above_bounded h) fun hform => ?_
      refine exprStep_meets hlower (above_bounded h) fun hfunction => ?_
      have hX := hround h hfunction hform
      exact (meets_of_patternless hfunction hform hX fuel (fun _ => True) _).2

/-- A family that ends in the same way for all amounts of fuel from one on, at that amount. -/
theorem Meets.stable {α : Type} {setting : Setting} {S : Span → Prop} {X : Prop} {A : α → Prop}
    {l : Nat → Lowering α} {enough : Nat}
    (h : Meets setting S X (fun more => l (more + enough)) A) (state : CompilerState) :
    (l enough setting state).1.Meets setting.sink S X A ∧
      ∀ fuel, enough ≤ fuel → l fuel setting state = l enough setting state := by
  obtain ⟨ending, state', heq, hending⟩ := h state
  have hl : ∀ fuel, enough ≤ fuel → l fuel setting state = (ending, state') := by
    intro fuel hfuel
    obtain ⟨more, rfl⟩ := Nat.exists_eq_add_of_le' hfuel
    exact heq more
  refine ⟨?_, fun fuel hfuel => (hl fuel hfuel).trans (hl enough (Nat.le_refl _)).symm⟩
  rw [hl enough (Nat.le_refl _)]
  exact hending

section

variable {X : Prop} {node : Node}
  (hnode : ∀ n ∈ node.subtrees, n.isFunction = true → n.hasPattern = true ∨ X) (setting : Setting)
  (state : CompilerState)

include hnode

theorem lower_stable :
    (node.lower setting state).1.Meets setting.sink (fun _ => True) X (fun _ => True) ∧
      ∀ fuel, fuelFor node ≤ fuel → lowerExpr fuel node setting state = node.lower setting state :=
  Meets.stable (l := fun fuel => lowerExpr fuel node)
    ((bounded_keeps X setting (node.height + 1) (fuelFor node) (Nat.le_refl _)).expr
      ⟨Nat.lt_succ_self _, hnode⟩) state

theorem lowerPattern_stable :
    (node.lowerPattern setting state).1.Meets setting.sink (fun _ => True) X (fun _ => True) ∧
      ∀ fuel, fuelFor node ≤ fuel →
        lowerPattern fuel node setting state = node.lowerPattern setting state :=
  Meets.stable (l := fun fuel => lowerPattern fuel node)
    ((bounded_keeps X setting (node.height + 1) (fuelFor node) (Nat.le_refl _)).pattern
      ⟨Nat.lt_succ_self _, hnode⟩) state

end

/-- Lowering ends: if every function in a tree has a pattern, the tree is lowered to an expression
and to a pattern or refused with an error, in every setting and state. The fuel for the tree is
enough, and it depends on the height of the tree alone. -/
theorem lower_terminates {node : Node}
    (hnode : ∀ n ∈ node.subtrees, n.isFunction = true → n.hasPattern = true) (setting : Setting)
    (state : CompilerState) :
    ((node.lower setting state).1.IsAnswer setting.sink ∧
      (node.lowerPattern setting state).1.IsAnswer setting.sink) ∧
    ∀ fuel, 2 * (node.height + 1) ≤ fuel →
      lowerExpr fuel node setting state = node.lower setting state ∧
      lowerPattern fuel node setting state = node.lowerPattern setting state := by
  have hnode' : ∀ n ∈ node.subtrees, n.isFunction = true → n.hasPattern = true ∨ False :=
    fun n hn hfunction => Or.inl (hnode n hn hfunction)
  obtain ⟨hexpr, hexprFuel⟩ := lower_stable hnode' setting state
  obtain ⟨hpattern, hpatternFuel⟩ := lowerPattern_stable hnode' setting state
  exact ⟨⟨hexpr.isAnswer, hpattern.isAnswer⟩,
    fun fuel hfuel => ⟨hexprFuel fuel hfuel, hpatternFuel fuel hfuel⟩⟩

end Lowering

/-- The tree of `\x \y x`. -/
def Samples.curried : Node :=
  let source : Source := ⟨".", "\\x \\y x"⟩
  let name (start stop : Nat) : Node :=
    .branch [("IDENT", .one (.leaf ⟨source, start, stop⟩))] ⟨source, start, stop⟩
  let function (start : Nat) (body : Node) : Node :=
    .branch
      [("fn", .one (.leaf ⟨source, start, start + 1⟩)),
        ("pattern", .one (name (start + 1) (start + 2))), ("expr", .one body)] ⟨source, start, 7⟩
  function 0 (function 3 (name 6 7))

namespace Lowering

/-- A function that returns a function: both have a pattern, and however much fuel there is from
eight on, the tree is lowered to the same expression. -/
theorem lower_terminates_curried :
    ∃ param body span, ∀ fuel, 8 ≤ fuel →
      lowerExpr fuel Samples.curried ⟨none, .deferred, .recording⟩ .initial =
        (.done (.function param body span), .initial) := by
  have hfunctions : ∀ n ∈ Samples.curried.subtrees, n.isFunction = true → n.hasPattern = true := by
    decide
  obtain ⟨param, body, span, hlower⟩ : ∃ param body span,
      Samples.curried.lower ⟨none, .deferred, .recording⟩ .initial =
        (.done (.function param body span), .initial) := ⟨_, _, _, rfl⟩
  refine ⟨param, body, span, fun fuel hfuel => ?_⟩
  exact ((lower_terminates hfunctions _ _).2 fuel hfuel).1.trans hlower

/-- The fuel for a tree is enough for all that ends: what runs out of it runs out of more fuel too.
It does so over a function without a pattern. -/
theorem lower_endless {node : Node} {setting : Setting} {state : CompilerState}
    (h : (node.lower setting state).1 = .exhausted) :
    (∃ n ∈ node.subtrees, n.isFunction = true ∧ n.hasPattern = false) ∧
      ∀ fuel, fuelFor node ≤ fuel → (lowerExpr fuel node setting state).1 = .exhausted := by
  have hnode : ∀ n ∈ node.subtrees, n.isFunction = true → n.hasPattern = true ∨
      ∃ n ∈ node.subtrees, n.isFunction = true ∧ n.hasPattern = false := by
    intro n hn hfunction
    cases hpattern : n.hasPattern with
    | true => exact Or.inl rfl
    | false => exact Or.inr ⟨n, hn, hfunction, hpattern⟩
  obtain ⟨hmeets, hfuel⟩ := lower_stable hnode setting state
  rw [h] at hmeets
  exact ⟨hmeets, fun fuel hle => (congrArg Prod.fst (hfuel fuel hle)).trans h⟩

end Lowering

end Relational
