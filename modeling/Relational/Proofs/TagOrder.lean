import Mathlib.Data.List.Nodup
import Relational.Proofs.Isolation
import Relational.Proofs.OrderedMap
import Relational.Proofs.Termination

/-!
# The order of tags

A branch is read by its tags: which of them there are decides what the node is, in an order of
precedence that is the compiler's own. So where the tags of a branch are distinct, the order in
which the tree lists them says nothing:

> `Compiler.compileTree_reordered`: trees that differ in the order of distinct tags, at any depth,
> are lowered to the same expression, or both are refused with an error of one kind in one place.

The texts of the errors may differ, since a defect of a tree shows the node.
-/

namespace Relational

open Std

/-- Of entries with distinct keys the order does not matter to a map. -/
theorem OrderedMap.same_ofList_of_perm {κ ν : Type} [Ord κ] [TransOrd κ]
    {entries entries' : List (κ × ν)}
    (hdistinct : entries.Pairwise fun a b => compare a.1 b.1 ≠ .eq)
    (hperm : entries.Perm entries') : Same Eq (ofList entries) (ofList entries') := by
  have hdistinct' : entries'.Pairwise fun a b => compare a.1 b.1 ≠ .eq :=
    (hperm.pairwise_iff fun h heq => h (OrientedCmp.eq_symm heq)).mp hdistinct
  refine same_of_find? (Ascending.insertAll _ .nil) (Ascending.insertAll _ .nil) fun k => ?_
  by_cases hk : ∃ e ∈ entries, compare k e.1 = .eq
  · obtain ⟨e, he, hke⟩ := hk
    rw [ofList, ofList, find?_insertAll_of_mem _ hdistinct he hke,
      find?_insertAll_of_mem _ hdistinct' (hperm.mem_iff.mp he) hke]
    exact .some rfl
  · have hne : ∀ e ∈ entries, compare k e.1 ≠ .eq := fun e he heq => hk ⟨e, he, heq⟩
    rw [ofList, ofList, find?_insertAll_of_forall_ne _ hne,
      find?_insertAll_of_forall_ne _ fun e he => hne e (hperm.mem_iff.mpr he)]
    exact .none

/-- What stands under a tag as a value. -/
def Children.toValue : Children → Value
  | .one node => node.toValue
  | .many nodes => .ofItems (nodes.map Node.toValue)

theorem Children.Rel.imp_of_mem {R S : Node → Node → Prop} {children children' : Children}
    (h : children.Rel R children') (himp : ∀ n ∈ children.nodes, ∀ n', R n n' → S n n') :
    children.Rel S children' := by
  cases h with
  | one h => exact .one (himp _ (List.mem_singleton_self _) _ h)
  | many h => exact .many (forall₂_of_mem h himp)

theorem Children.Rel.toValue_eq {children children' : Children}
    (h : children.Rel (fun n n' => n.toValue = n'.toValue) children') :
    children.toValue = children'.toValue := by
  cases h with
  | one h => exact h
  | many h =>
    have hvalues := eq_of_forall₂_imp (fun _ _ => id)
      (List.forall₂_map_left_iff.mpr (List.forall₂_map_right_iff.mpr h))
    exact congrArg Value.ofItems hvalues

namespace Node

theorem valuesOf_eq_map (nodes : List Node) : valuesOf nodes = nodes.map toValue := by
  induction nodes with
  | nil => rfl
  | cons node nodes ih => rw [valuesOf, ih, List.map_cons]

theorem tagValues_eq_map (children : List (String × Children)) :
    tagValues children = children.map fun c => (c.1, c.2.toValue) := by
  induction children with
  | nil => rfl
  | cons c children ih =>
    obtain ⟨tag, node | nodes⟩ := c
    · rw [tagValues, ih]
      rfl
    · rw [tagValues, ih, valuesOf_eq_map]
      rfl

theorem heightAll_le_iff {nodes : List Node} {n : Nat} :
    heightAll nodes ≤ n ↔ ∀ node ∈ nodes, node.height < n := by
  induction nodes with
  | nil => simp [heightAll]
  | cons node nodes ih => rw [heightAll, List.forall_mem_cons, ← ih]; omega

theorem heightTags_le_iff {children : List (String × Children)} {n : Nat} :
    heightTags children ≤ n ↔ ∀ c ∈ children, ∀ node ∈ c.2.nodes, node.height < n := by
  induction children with
  | nil => simp [heightTags]
  | cons c children ih =>
    rw [List.forall_mem_cons, ← ih]
    obtain ⟨tag, node | nodes⟩ := c
    · rw [heightTags, Children.nodes, List.forall_mem_singleton]
      omega
    · rw [heightTags, Children.nodes, ← heightAll_le_iff]
      omega

theorem heightAll_eq_of_forall₂ {nodes nodes' : List Node}
    (h : List.Forall₂ (fun n n' => n.height = n'.height) nodes nodes') :
    heightAll nodes = heightAll nodes' := by
  induction h with
  | nil => rfl
  | cons hn _ ih => rw [heightAll, heightAll, hn, ih]

theorem heightTags_eq_of_forall₂ {children children' : List (String × Children)}
    (h : List.Forall₂ (Both Eq (Children.Rel fun n n' => n.height = n'.height)) children children') :
    heightTags children = heightTags children' := by
  induction h with
  | nil => rfl
  | @cons c c' _ _ hc _ ih =>
    obtain ⟨tag, under⟩ := c
    obtain ⟨tag', under'⟩ := c'
    cases hc.snd with
    | one hn => rw [heightTags, heightTags, hn, ih]
    | many hn => rw [heightTags, heightTags, heightAll_eq_of_forall₂ hn, ih]

/-! ## Trees that differ in the order of tags -/

/-- Tagged children in another order, unless a tag stands twice among them. -/
def Shuffled (children children' : List (String × Children)) : Prop :=
  children = children' ∨ (children.map (·.1)).Nodup ∧ children.Perm children'

/-- Trees that differ, at any depth, in the order in which distinct tags stand. -/
inductive Reordered : Node → Node → Prop
  | leaf (span : Span) : Reordered (.leaf span) (.leaf span)
  | embedded (expr : Expr) (span : Span) : Reordered (.embedded expr span) (.embedded expr span)
  | branch {children changed children' : List (String × Children)} {span : Span}
      (hchanged : List.Forall₂ (Both Eq (Children.Rel Reordered)) children changed)
      (hshuffled : Shuffled changed children') :
      Reordered (.branch children span) (.branch children' span)

namespace Shuffled

variable {children children' : List (String × Children)}

theorem find?_eq (h : Shuffled children children') (tag : String) :
    children.find? (·.1 == tag) = children'.find? (·.1 == tag) := by
  obtain rfl | ⟨hdistinct, hperm⟩ := h
  · rfl
  · -- an entry is found exactly if it is there, since no other one has its tag
    have hfind : ∀ {cs : List (String × Children)}, (cs.map (·.1)).Nodup → ∀ c,
        cs.find? (·.1 == tag) = some c ↔ c ∈ cs ∧ c.1 = tag := by
      intro cs hcs c
      constructor
      · intro hc
        exact ⟨List.mem_of_find?_eq_some hc, by simpa using List.find?_some hc⟩
      · rintro ⟨hc, rfl⟩
        have hsome : (cs.find? (·.1 == c.1)).isSome = true :=
          List.find?_isSome.mpr ⟨c, hc, beq_self_eq_true c.1⟩
        obtain ⟨d, hd⟩ := Option.isSome_iff_exists.mp hsome
        have htag : d.1 = c.1 := by simpa using List.find?_some hd
        rw [hd, List.inj_on_of_nodup_map hcs (List.mem_of_find?_eq_some hd) hc htag]
    have hdistinct' := hdistinct.perm (hperm.map (·.1))
    refine Option.ext fun c => ?_
    rw [hfind hdistinct, hfind hdistinct', hperm.mem_iff]

theorem heightTags_eq (h : Shuffled children children') :
    heightTags children = heightTags children' := by
  obtain rfl | ⟨-, hperm⟩ := h
  · rfl
  · have hle : ∀ n, heightTags children ≤ n ↔ heightTags children' ≤ n := by
      intro n
      rw [heightTags_le_iff, heightTags_le_iff]
      exact forall_congr' fun c => by rw [hperm.mem_iff]
    exact Nat.le_antisymm ((hle _).mpr (Nat.le_refl _)) ((hle _).mp (Nat.le_refl _))

theorem ofList_tagValues (h : Shuffled children children') :
    OrderedMap.ofList (tagValues children) = OrderedMap.ofList (tagValues children') := by
  obtain rfl | ⟨hdistinct, hperm⟩ := h
  · rfl
  · have hpairwise : (tagValues children).Pairwise fun a b => compare a.1 b.1 ≠ .eq := by
      rw [tagValues_eq_map, List.pairwise_map]
      exact (List.pairwise_map.mp hdistinct).imp fun hne heq => hne (Std.compare_eq_iff_eq.mp heq)
    have hvalues : (tagValues children).Perm (tagValues children') := by
      rw [tagValues_eq_map, tagValues_eq_map]
      exact hperm.map _
    have hsame := OrderedMap.same_ofList_of_perm hpairwise hvalues
    refine eq_of_forall₂_imp (fun a b hab => ?_) hsame
    exact Prod.ext (Std.compare_eq_iff_eq.mp hab.1) hab.2

end Shuffled

namespace Reordered

variable {n n' : Node}

/-- What holds of all trees that differ in the order of tags: for a branch, if it holds of what
stands under the tags. The induction is on the height. -/
theorem induct {P : Node → Node → Prop} (leaf : ∀ span, P (.leaf span) (.leaf span))
    (embedded : ∀ expr span, P (.embedded expr span) (.embedded expr span))
    (branch : ∀ children changed children' span,
      List.Forall₂ (Both Eq (Children.Rel P)) children changed → Shuffled changed children' →
      P (.branch children span) (.branch children' span)) (h : n.Reordered n') : P n n' := by
  induction hheight : n.height using Nat.strongRecOn generalizing n n' with
  | ind height ih =>
    cases h with
    | leaf span => exact leaf span
    | embedded expr span => exact embedded expr span
    | @branch children changed children' span hchanged hshuffled =>
      refine branch children changed children' span ?_ hshuffled
      refine forall₂_of_mem hchanged fun c hc c' hrel => ?_
      cases hrel with
      | mk htag hrel =>
        refine ⟨htag, hrel.imp_of_mem fun m hm m' hreordered => ?_⟩
        exact ih m.height (hheight ▸ height_lt_heightTags hc hm) hreordered rfl

theorem height_eq (h : n.Reordered n') : n.height = n'.height := by
  refine h.induct (P := fun n n' => n.height = n'.height) (fun _ => rfl) (fun _ _ => rfl) ?_
  intro children changed children' span hchanged hshuffled
  rw [height, height, ← hshuffled.heightTags_eq, heightTags_eq_of_forall₂ hchanged]

theorem toValue_eq (h : n.Reordered n') : n.toValue = n'.toValue := by
  refine h.induct (P := fun n n' => n.toValue = n'.toValue) (fun _ => rfl) (fun _ _ => rfl) ?_
  intro children changed children' span hchanged hshuffled
  have htags : tagValues children = tagValues changed := by
    rw [tagValues_eq_map, tagValues_eq_map]
    refine eq_of_forall₂_imp (fun _ _ => id)
      (List.forall₂_map_left_iff.mpr (List.forall₂_map_right_iff.mpr ?_))
    refine hchanged.imp fun c c' hc => ?_
    exact Prod.ext hc.fst hc.snd.toValue_eq
  rw [toValue, toValue, ← hshuffled.ofList_tagValues, htags]

theorem get? (h : n.Reordered n') (tag : String) :
    Option.Rel (Children.Rel Reordered) (n.get? tag) (n'.get? tag) := by
  cases h with
  | leaf => exact .none
  | embedded => exact .none
  | @branch children changed children' span hchanged hshuffled =>
    have hfind := find?_rel (p := (·.1 == tag)) (q := (·.1 == tag))
      (fun c c' hc => by rw [hc.fst]) hchanged
    unfold Node.get? Node.children
    rw [← hshuffled.find?_eq]
    dsimp only
    generalize children.find? (·.1 == tag) = found at hfind ⊢
    generalize changed.find? (·.1 == tag) = found' at hfind ⊢
    cases hfind with
    | none => exact .none
    | some hc => exact .some hc.snd

/-- Trees that differ in the order of tags can be lowered side by side. -/
theorem nodes {C : Sides} (hnode : C.node = Reordered) (hexpr : ∀ e, C.expr e e) : C.Nodes := by
  refine ⟨fun h => ?_, fun h => ?_, fun h tag => ?_, fun h => ?_⟩
  · rw [hnode] at h
    cases h <;> rfl
  · rw [hnode] at h
    cases h with
    | leaf => exact .none
    | embedded expr => exact .some (hexpr expr)
    | branch => exact .none
  · rw [hnode] at h ⊢
    exact h.get? tag
  · rw [hnode] at h
    exact h.toValue_eq

end Reordered

end Node

/-! ## Lowering -/

/-- The kinds of errors of compilation. -/
inductive CompileError.Kind where
  | malformed
  | unresolved
  | fallbackWithoutMark
  | arity
  | missingDirectory
  | unsupported
  | duplicateExtra
  | parse
  | module
  | internal

/-- The kind of an error. -/
def CompileError.kind : CompileError → CompileError.Kind
  | .malformed _ _ => .malformed
  | .unresolved _ _ _ => .unresolved
  | .fallbackWithoutMark _ => .fallbackWithoutMark
  | .arity _ _ => .arity
  | .missingDirectory _ _ => .missingDirectory
  | .unsupported _ _ => .unsupported
  | .duplicateExtra _ _ => .duplicateExtra
  | .parse _ => .parse
  | .module _ _ => .module
  | .internal _ => .internal

/-- Errors of one kind in one place. -/
def CompileError.Agrees (error error' : CompileError) : Prop :=
  error.kind = error'.kind ∧ error.span? = error'.span?

/-- Trees that differ in the order of tags, lowered from the same state. -/
def Runs.reordered (setting : Setting) : Runs where
  node := Node.Reordered
  expr := Eq
  pattern := Eq
  error := CompileError.Agrees
  state := Eq
  setting := setting

/-- Trees that differ in the order of tags, lowered from any two states. -/
def Runs.reorderedAnywhere (setting : Setting) : Runs where
  node := Node.Reordered
  expr := Expr.SameButLoaders
  pattern := Pattern.SameButLoaders
  error := CompileError.Agrees
  state _ _ := True
  setting := setting

theorem Runs.reordered_lawful (setting : Setting) : (Runs.reordered setting).Lawful where
  nodes := Node.Reordered.nodes rfl fun _ => rfl
  congruent := Sides.congruent_eq
  observed := Sides.observed_eq
  height h := Node.Reordered.height_eq h
  errorRefl _ := ⟨rfl, rfl⟩
  defect _ _ _ := ⟨rfl, rfl⟩
  answers h asked := by
    rw [show _ = _ from h]
    exact Tally.refl (fun _ => rfl) (fun _ => rfl) _
  noted h asked := congrArg (Runs.noted asked) h
  warn := Runs.warn_of_eq (fun _ => ⟨rfl, rfl⟩) rfl

theorem Runs.reorderedAnywhere_lawful {setting : Setting} (hsink : setting.sink = .recording)
    (hmodules : setting.modules.Consistent) : (Runs.reorderedAnywhere setting).Lawful where
  nodes := Node.Reordered.nodes rfl fun _ => rfl
  congruent := Sides.congruent_sameBut _
  observed := Sides.observed_sameButLoaders
  height h := Node.Reordered.height_eq h
  errorRefl _ := ⟨rfl, rfl⟩
  defect _ _ _ := ⟨rfl, rfl⟩
  answers _ asked := hmodules asked _ _
  noted _ _ := True.intro
  warn := Runs.warn_of_recording hsink fun _ _ => True.intro

namespace Compiler

/-- Trees that differ in the order of distinct tags are lowered to the same expression, or both are
refused with an error of one kind in one place. From states that differ, the loaders may differ. -/
theorem compileTree_reordered (compiler : Compiler) (directory : Option String) {tree tree' : Node}
    (h : tree.Reordered tree') :
    (∀ state, (compiler.compileTree directory tree state).1.Tally CompileError.Agrees Eq
      (compiler.compileTree directory tree' state).1) ∧
    (compiler.sink = .recording → compiler.modules.Consistent → ∀ state state',
      (compiler.compileTree directory tree state).1.Tally CompileError.Agrees Expr.SameButLoaders
        (compiler.compileTree directory tree' state').1) := by
  let setting : Setting := ⟨directory, compiler.modules, compiler.sink⟩
  have hspan : tree.span = tree'.span := by cases h <;> rfl
  constructor
  · intro state
    have hlower := (Runs.reordered_lawful setting).lower h state state rfl
    have hresult := hlower.fst.toCompiled (fun _ => ⟨rfl, rfl⟩) tree.span.filename
    unfold compileTree
    rwa [← hspan]
  · intro hsink hmodules state state'
    have L : (Runs.reorderedAnywhere setting).Lawful :=
      Runs.reorderedAnywhere_lawful hsink hmodules
    have hlower := L.lower h state state' True.intro
    have hresult := hlower.fst.toCompiled (fun _ => ⟨rfl, rfl⟩) tree.span.filename
    unfold compileTree
    rwa [← hspan]

end Compiler

namespace Samples

/-- An import whose tags stand in the given order, with another tag beside it. -/
def marked (path dot : String × Children) : Node :=
  .branch [("pkg", .one (.branch [path, dot] .unknown)), ("mark", .one (.leaf .unknown))] .unknown

/-- The same import, whose tags stand the other way round at both depths. -/
def markedBefore (path dot : String × Children) : Node :=
  .branch [("mark", .one (.leaf .unknown)), ("pkg", .one (.branch [dot, path] .unknown))] .unknown

theorem marked_reordered {a b : String} (hab : a ≠ b) :
    (marked (a, .one (.leaf .unknown)) (b, .one (.leaf .unknown))).Reordered
      (markedBefore (a, .one (.leaf .unknown)) (b, .one (.leaf .unknown))) := by
  have hleaf : ∀ tag : String, Both Eq (Children.Rel Node.Reordered)
      (tag, .one (.leaf .unknown)) (tag, .one (.leaf .unknown)) :=
    fun tag => ⟨rfl, .one (.leaf _)⟩
  have hinner : [a, b].Nodup := by simpa using hab
  have houter : ["pkg", "mark"].Nodup := by decide
  refine .branch (.cons ⟨rfl, .one ?_⟩ (.cons (hleaf "mark") .nil)) (.inr ⟨houter, .swap ..⟩)
  exact .branch (.cons (hleaf a) (.cons (hleaf b) .nil)) (.inr ⟨hinner, .swap ..⟩)

/-- The import is lowered to the same expression in both orders. -/
theorem compileTree_reordered_marked :
    let path : String × Children := ("PKGPATH", .one (.leaf .unknown))
    let dot : String × Children := ("dot", .one (.leaf .unknown))
    (marked path dot).Reordered (markedBefore path dot) ∧
      (Compiler.standard.compileTree none (marked path dot) .initial).1 = .ok (imported 0) ∧
      (Compiler.standard.compileTree none (markedBefore path dot) .initial).1 =
        .ok (imported 0) := by
  intro path dot
  have hreordered : (marked path dot).Reordered (markedBefore path dot) :=
    marked_reordered (by decide)
  have hfirst : (Compiler.standard.compileTree none (marked path dot) .initial).1 =
      .ok (imported 0) := rfl
  have h := (Compiler.compileTree_reordered .standard none hreordered).1 .initial
  rw [hfirst] at h
  generalize (Compiler.standard.compileTree none (markedBefore path dot) .initial).1 = result at h ⊢
  cases h with
  | ok heq => exact ⟨hreordered, hfirst, by rw [← heq]⟩

end Samples

end Relational
