import Relational.Proofs.Slices
import Relational.Proofs.Termination
import Relational.Proofs.WellFormed

/-!
# Compiling documents never breaks

The standard compiler reads a document and lowers its tree. Nothing in this can break: the places of
a document are cut at whole characters, lowering makes only such places of them, and a chain has an
operand for every index that is used. It ends unless it comes to a function without a pattern, which
goes on without end.

> `Document.parse_sliced`: every node of a document has a valid place and holds no expression.

> `Compiler.standard_compile_answers`: if every function has a pattern, the outcome is an expression
> or an error of the program or of its tree, and never an internal one.

> `Compiler.compile_endless`: a program that is compiled without end has a function without a
> pattern.
-/

namespace Relational

/-- One step after another succeeds if both do. -/
theorem Except.bind_eq_ok_iff {ε α β : Type} {x : Except ε α} {f : α → Except ε β} {b : β} :
    (x >>= f) = .ok b ↔ ∃ a, x = .ok a ∧ f a = .ok b := by
  constructor
  · intro h
    cases x with
    | ok a => exact ⟨a, rfl, h⟩
    | error => cases h
  · rintro ⟨a, rfl, h⟩
    exact h

/-! ## Documents -/

/-- Every node of the tree has a valid place, and none of them holds an expression. -/
def Node.Sliced (node : Node) : Prop := ∀ n ∈ node.subtrees, n.span.Valid ∧ n.embedded? = none

namespace Node

theorem Sliced.span {node : Node} (h : node.Sliced) : node.span.Valid :=
  (h node node.mem_subtrees_self).1

theorem sliced_leaf {span : Span} (h : span.Valid) : (leaf span).Sliced :=
  List.forall_mem_singleton.mpr ⟨h, rfl⟩

theorem sliced_branch {children : List (String × Children)} {span : Span} (hspan : span.Valid)
    (hchildren : ∀ c ∈ children, ∀ n ∈ c.2.nodes, n.Sliced) : (branch children span).Sliced := by
  rw [Sliced, subtrees]
  refine List.forall_mem_cons.mpr ⟨⟨hspan, rfl⟩, fun n hn => ?_⟩
  obtain ⟨c, hc, child, hchild, hn⟩ := mem_subtreesTags.mp hn
  exact hchildren c hc child hchild n hn

theorem valid_spanOfChildren {children : List (String × Children)}
    (h : ∀ c ∈ children, ∀ n ∈ c.2.nodes, n.Sliced) : (spanOfChildren children).Valid := by
  unfold spanOfChildren
  split
  next => exact Span.valid_ofOffsets _ _ _
  next first rest heq =>
    have hspans : ∀ span ∈ first :: rest, span.Valid := by
      intro span hspan
      rw [← heq] at hspan
      obtain ⟨⟨tag, c⟩, hc, hspan⟩ := List.mem_filterMap.mp hspan
      have hnodes : ∀ n ∈ c.nodes, n.Sliced := h (tag, c) hc
      dsimp only [Children.span?] at hspan
      split at hspan
      next => cases hspan
      next node nodes hcons =>
        rw [hcons] at hnodes
        obtain rfl := Option.some.inj hspan
        refine Span.valid_mergeOr (hnodes node (List.mem_cons_self ..)).span ?_
        exact List.forall_mem_map.mpr fun n hn => (hnodes n hn).span
    exact Span.valid_mergeOr (hspans first (List.mem_cons_self ..)) hspans

end Node

namespace Document

theorem offsetsSpan_valid {source : Source} {path : String} {json : Json} {span : Span}
    (h : offsetsSpan source path json = .ok span) : span.Valid := by
  unfold offsetsSpan at h
  split at h
  next => cases h
  next =>
    split at h
    next => cases h
    next => exact Except.ok.inj h ▸ Span.valid_ofOffsets _ _ _

theorem branchSpan_valid {source : Source} {path : String} {members : List (String × Json)}
    {span : Span} (h : branchSpan source path members = .ok (some span)) : span.Valid := by
  unfold branchSpan at h
  split at h
  next offsets _ =>
    cases hoffsets : offsetsSpan source path offsets with
    | error => rw [hoffsets] at h; cases h
    | ok found =>
      rw [hoffsets] at h
      exact Option.some.inj (Except.ok.inj h) ▸ offsetsSpan_valid hoffsets
  next =>
    split at h
    next => exact Option.some.inj (Except.ok.inj h) ▸ Span.valid_ofOffsets _ _ _
    next => cases h

theorem textLeaf_sliced (source : Source) (text : String) : (textLeaf source text).Sliced := by
  refine Node.sliced_leaf ?_
  cases hfind : Span.find? source text with
  | none => exact Span.valid_ofOffsets _ _ _
  | some span =>
    obtain ⟨start, -, rfl⟩ := Option.map_eq_some_iff.mp hfind
    exact Span.valid_ofOffsets _ _ _

/-- One tagged child, from what its value and the other members are read as. -/
theorem tag_sliced {source : Source} {path tag : String} {json : Json}
    {rest : List (String × Json)} {children : List (String × Children)}
    (hnode : ∀ path node, readNode source path json = .ok node → node.Sliced)
    (hitems : ∀ items, json = .array items → ∀ path index nodes,
      readNodes source path index items = .ok nodes → ∀ n ∈ nodes, n.Sliced)
    (hrest : ∀ others, readTags source path rest = .ok others →
      ∀ c ∈ others, ∀ n ∈ c.2.nodes, n.Sliced)
    (h : readTags source path ((tag, json) :: rest) = .ok children) :
    ∀ c ∈ children, ∀ n ∈ c.2.nodes, n.Sliced := by
  have hcons : ∀ (child : Children) (others : List (String × Children)),
      (∀ n ∈ child.nodes, n.Sliced) → readTags source path rest = .ok others →
        ∀ c ∈ (tag, child) :: others, ∀ n ∈ c.2.nodes, n.Sliced :=
    fun child others hchild hothers =>
      List.forall_mem_cons.mpr ⟨hchild, hrest others hothers⟩
  cases json with
  | array items =>
    rw [readTags] at h
    split at h
    next => exact hrest children h
    next =>
      split at h
      next =>
        obtain ⟨span, hspan, h⟩ := Except.bind_eq_ok_iff.mp h
        obtain ⟨others, hothers, h⟩ := Except.bind_eq_ok_iff.mp h
        have hleaf := Node.sliced_leaf (offsetsSpan_valid hspan)
        exact Except.ok.inj h ▸ hcons _ others (List.forall_mem_singleton.mpr hleaf) hothers
      next =>
        obtain ⟨nodes, hnodes, h⟩ := Except.bind_eq_ok_iff.mp h
        obtain ⟨others, hothers, h⟩ := Except.bind_eq_ok_iff.mp h
        exact Except.ok.inj h ▸ hcons _ others (hitems items rfl _ _ nodes hnodes) hothers
  -- all that is no array is read as one node
  | _ =>
    rw [readTags] at h
    · split at h
      next => exact hrest children h
      next =>
        obtain ⟨node, hread, h⟩ := Except.bind_eq_ok_iff.mp h
        obtain ⟨others, hothers, h⟩ := Except.bind_eq_ok_iff.mp h
        have hone := List.forall_mem_singleton.mpr (hnode _ node hread)
        exact Except.ok.inj h ▸ hcons _ others hone hothers
    · exact nofun

mutual

/-- What is read of a JSON value, as a node and as a sequence, is sliced. The induction is on the
value, along the three functions that read it. -/
theorem json_sliced (source : Source) : ∀ json : Json,
    (∀ path node, readNode source path json = .ok node → node.Sliced) ∧
      ∀ items, json = .array items → ∀ path index nodes,
        readNodes source path index items = .ok nodes → ∀ n ∈ nodes, n.Sliced
  | .object members => by
    refine ⟨fun path node h => ?_, nofun⟩
    rw [readNode] at h
    obtain ⟨children, hchildren, h⟩ := Except.bind_eq_ok_iff.mp h
    obtain ⟨span, hspan, h⟩ := Except.bind_eq_ok_iff.mp h
    obtain rfl := Except.ok.inj h
    have hsliced := tags_sliced source members path children hchildren
    refine Node.sliced_branch ?_ hsliced
    cases span with
    | none => exact Node.valid_spanOfChildren hsliced
    | some span => exact branchSpan_valid hspan
  | .array items => by
    refine ⟨fun path node h => ?_, fun _ heq => ?_⟩
    · rw [readNode] at h
      obtain ⟨span, hspan, h⟩ := Except.bind_eq_ok_iff.mp h
      exact Except.ok.inj h ▸ Node.sliced_leaf (offsetsSpan_valid hspan)
    · exact Json.array.inj heq ▸ items_sliced source items
  | .string text => by
    refine ⟨fun path node h => ?_, nofun⟩
    rw [readNode] at h
    exact Except.ok.inj h ▸ textLeaf_sliced source text
  | .null | .bool _ | .int _ | .float _ => ⟨fun _ _ h => by simp [readNode] at h, nofun⟩

theorem tags_sliced (source : Source) : ∀ (members : List (String × Json)) (path : String)
    (children : List (String × Children)), readTags source path members = .ok children →
      ∀ c ∈ children, ∀ n ∈ c.2.nodes, n.Sliced
  | [], path, children, h => by
    rw [readTags] at h
    exact Except.ok.inj h ▸ List.forall_mem_nil _
  | (tag, json) :: rest, path, children, h => by
    have hjson := json_sliced source json
    have hrest := tags_sliced source rest path
    exact tag_sliced hjson.1 hjson.2 hrest h

theorem items_sliced (source : Source) : ∀ (items : List Json) (path : String) (index : Nat)
    (nodes : List Node), readNodes source path index items = .ok nodes → ∀ n ∈ nodes, n.Sliced
  | [], path, index, nodes, h => by
    rw [readNodes] at h
    exact Except.ok.inj h ▸ List.forall_mem_nil _
  | json :: rest, path, index, nodes, h => by
    rw [readNodes] at h
    obtain ⟨node, hnode, h⟩ := Except.bind_eq_ok_iff.mp h
    obtain ⟨others, hothers, h⟩ := Except.bind_eq_ok_iff.mp h
    obtain rfl := Except.ok.inj h
    exact List.forall_mem_cons.mpr ⟨(json_sliced source json).1 _ node hnode,
      items_sliced source rest path _ others hothers⟩

end

theorem parse_sliced {text filename : String} {tree : Node} (h : parse text filename = .ok tree) :
    tree.Sliced := by
  unfold parse at h
  split at h
  next => cases h
  next doc _ =>
    split at h
    next read hread => exact Except.ok.inj h ▸ (json_sliced _ _).1 _ read hread
    next => cases h

end Document

/-! ## Lowering -/

namespace Lowering

theorem terms_sliced : Terms Node.Sliced (Expr.Formed Span.Valid) (Pattern.Formed Span.Valid)
    Span.Valid Modules.deferred where
  rules := rules_formed (Span.valid_ofOffsets _ _ _) Span.valid_mergeOr (·.extendLeft 1)
  above n h := by
    refine ⟨h.span, fun he => ?_, fun hget child hchild m hm => ?_⟩
    · rw [(h n n.mem_subtrees_self).2] at he
      cases he
    · exact h m (Node.subtrees_subset hget hchild hm)
  answers := answersFrom_deferred

/-- Lowering a node stays in range: all places that it is given, makes and blames are cut at whole
characters of their sources, a literal is cut behind its quote, and a chain is lowered with one
operand more than operators. -/
structure InRange (setting : Setting) (node : Node) : Prop where
  span : node.span.Valid
  literal (h : Text.readLiteral node.span.text ≠ node.span.text) :
    Text.isBoundary node.span.chars 1 = true
  expr (fuel : Nat) (state : CompilerState) :
    (lowerExpr fuel node setting state).1.Meets setting.sink Span.Valid True
      (Expr.Formed Span.Valid)
  pattern (fuel : Nat) (state : CompilerState) :
    (lowerPattern fuel node setting state).1.Meets setting.sink Span.Valid True
      (Pattern.Formed Span.Valid)
  operands (ops : List Node) (state : CompilerState) :
    (operands node ops setting state).1.Meets setting.sink Span.Valid False
      fun nodes => node.many "expr" = nodes.1 :: nodes.2 ∧ nodes.2.length = ops.length

theorem Meets.ending {α : Type} {setting : Setting} {S : Span → Prop} {X : Prop}
    {l : Lowering α} {A : α → Prop} (h : Meets setting S X (fun _ : Unit => l) A)
    (state : CompilerState) : (l setting state).1.Meets setting.sink S X A := by
  obtain ⟨ending, state', heq, hending⟩ := h state
  rw [show l setting state = (ending, state') from heq ()]
  exact hending

theorem inRange_of_sliced {node : Node} (h : node.Sliced) (directory : Option String)
    (sink : Sink) : InRange ⟨directory, .deferred, sink⟩ node where
  span := h.span
  literal := Text.isBoundary_one_of_readLiteral
  expr fuel := ((lower_keeps terms_sliced fuel).expr h).ending
  pattern fuel := ((lower_keeps terms_sliced fuel).pattern h).ending
  operands ops := (operands_meets (terms_sliced.above node h) ops).ending

end Lowering

/-! ## Compiling without end -/

theorem Ending.toCompiled_eq_endless_iff {α : Type} {path : String} {ending : Ending α} :
    ending.toCompiled path = .endless ↔ ending = .exhausted := by
  cases ending <;> simp [toCompiled]

/-- A program that is compiled without end has a function without a pattern, and no amount of fuel
is enough to lower it. -/
theorem Compiler.compile_endless {compiler : Compiler} {path text : String} {state : CompilerState}
    (h : (compiler.compile path text state).1 = .endless) :
    ∃ tree, compiler.grammar text (Path.filename path) = .ok tree ∧
      (∃ n ∈ tree.subtrees, n.isFunction = true ∧ n.hasPattern = false) ∧
      ∀ fuel, Lowering.fuelFor tree ≤ fuel →
        (Lowering.lowerExpr fuel tree ⟨Path.directory? path, compiler.modules, compiler.sink⟩
          state).1 = .exhausted := by
  unfold compile at h
  split at h
  next => cases h
  next tree htree =>
    exact ⟨tree, htree, Lowering.lower_endless (Ending.toCompiled_eq_endless_iff.mp h)⟩

/-! ## The standard compiler -/

/-- An ending in range, where the sink does not fail, is an expression or an error that is not
internal, if it is one at all. -/
theorem Ending.Meets.toCompiled {path : String} {ending : Ending Expr}
    (h : ending.Meets .recording Span.Valid True (Expr.Formed Span.Valid)) :
    (∃ e, ending.toCompiled path = .ok e ∧ e.Formed Span.Valid) ∨
      (∃ error, ending.toCompiled path = .error error ∧ (∀ detail, error ≠ .internal detail) ∧
        ∀ span, error.span? = some span → span.Valid) ∨
      ending.toCompiled path = .endless := by
  cases ending with
  | done e => exact Or.inl ⟨e, rfl, h⟩
  | rejected error =>
    obtain ⟨place, hplace, hvalid⟩ := h
    refine Or.inr (Or.inl ⟨error, rfl, ?_, fun span hspan => ?_⟩)
    · rintro detail rfl
      cases hplace
    · obtain rfl := Option.some.inj (hplace.symm.trans hspan)
      exact hvalid
  | sinkFailed => cases h
  | exhausted => exact Or.inr (Or.inr rfl)

/-- Whatever the document, the standard compiler makes no internal error of it. -/
theorem Compiler.standard_compile_cases (path text : String) (state : CompilerState) :
    (∃ e, (standard.compile path text state).1 = .ok e ∧ e.Formed Span.Valid) ∨
      (∃ error, (standard.compile path text state).1 = .error error ∧
        (∀ detail, error ≠ .internal detail) ∧ ∀ span, error.span? = some span → span.Valid) ∨
      (standard.compile path text state).1 = .endless := by
  unfold compile
  split
  next error _ => exact Or.inr (Or.inl ⟨.parse error, rfl, nofun, nofun⟩)
  next tree htree =>
    have hrange := (Lowering.inRange_of_sliced (Document.parse_sliced htree)
      (Path.directory? path) .recording).expr (Lowering.fuelFor tree) state
    exact hrange.toCompiled

/-- The standard compiler answers every document in which every function has a pattern, with an
expression or with an error that is not internal. On its way it stays in range at every node, so
that no slice of the source and no operand is missing. -/
theorem Compiler.standard_compile_answers {path text : String}
    (hfunctions : ∀ tree, Document.parse text (Path.filename path) = .ok tree →
      ∀ n ∈ tree.subtrees, n.isFunction = true → n.hasPattern = true)
    (state : CompilerState) :
    ((∃ e, (standard.compile path text state).1 = .ok e ∧ e.Formed Span.Valid) ∨
      ∃ error, (standard.compile path text state).1 = .error error ∧
        (∀ detail, error ≠ .internal detail) ∧ ∀ span, error.span? = some span → span.Valid) ∧
    ∀ tree, Document.parse text (Path.filename path) = .ok tree → ∀ n ∈ tree.subtrees,
      Lowering.InRange ⟨Path.directory? path, .deferred, .recording⟩ n := by
  refine ⟨?_, fun tree htree n hn => ?_⟩
  · rcases standard_compile_cases path text state with hok | herror | hendless
    · exact Or.inl hok
    · exact Or.inr herror
    · obtain ⟨tree, htree, ⟨n, hn, hfunction, hnone⟩, -⟩ := compile_endless hendless
      rw [hfunctions tree htree n hn hfunction] at hnone
      cases hnone
  · have hsliced : n.Sliced := fun m hm =>
      Document.parse_sliced htree m (Node.subtrees_trans hn hm)
    exact Lowering.inRange_of_sliced hsliced _ _

/-- A document of the program `\é é`, whose name takes two bytes. -/
def Samples.accentedDocument : String :=
  "[\"\\\\é é\",\x7b\"fn\":[0,1],\"pattern\":\x7b\"IDENT\":[1,3]\x7d," ++
  "\"expr\":\x7b\"IDENT\":[4,6]\x7d\x7d]"

/-- A function over a name that is no single byte: it is compiled, with its place over all of the
program, and all that it names is cut at whole characters. -/
theorem Compiler.standard_compile_answers_accented :
    ∃ e, (standard.compile "" Samples.accentedDocument .initial).1 = .ok e ∧
      e.Formed Span.Valid ∧ e.text = "\\é é" ∧ e.span.text = "\\é é" := by
  have hfunctions : ∀ tree,
      Document.parse Samples.accentedDocument (Path.filename "") = .ok tree →
        ∀ n ∈ tree.subtrees, n.isFunction = true → n.hasPattern = true := by
    have hcheck :
        ∀ n ∈ (Document.parse Samples.accentedDocument (Path.filename "")).toOption.elim []
          Node.subtrees, n.isFunction = true → n.hasPattern = true := by decide +kernel
    intro tree htree
    rwa [htree] at hcheck
  have hcompile : ((standard.compile "" Samples.accentedDocument .initial).1.map
      fun e => (e.text, e.span.text)) = .ok ("\\é é", "\\é é") := by decide +kernel
  obtain ⟨e, he, htexts⟩ := Compiled.map_eq_ok_iff.mp hcompile
  obtain ⟨htext, hspan⟩ := Prod.mk.inj htexts
  rcases (standard_compile_answers hfunctions .initial).1 with
    ⟨e', he', hformed⟩ | ⟨error, herror, -⟩
  · obtain rfl := Compiled.ok.inj (he.symm.trans he')
    exact ⟨e, he, hformed, htext, hspan⟩
  · cases he.symm.trans herror

/-- A document of the program `\x x` that has the tag of the pattern, but no pattern under it. -/
def Samples.hollowFunction : String :=
  "[\"\\\\x x\",\x7b\"fn\":[0,1],\"pattern\":[],\"expr\":\x7b\"IDENT\":[3,4]\x7d\x7d]"

/-- A function whose tag of the pattern holds no pattern is not compiled to an end: however much
fuel there is, lowering asks the function for its pattern and the pattern for the function. -/
theorem Compiler.standard_compile_hollowFunction :
    (standard.compile "" Samples.hollowFunction .initial).1 = .endless ∧
      ∃ tree, Document.parse Samples.hollowFunction (Path.filename "") = .ok tree ∧
        tree.isFunction = true ∧ tree.has "pattern" = true ∧
        ∀ setting state fuel,
          Lowering.lowerExpr fuel tree setting state = (.exhausted, state) := by
  have hparse : ((Document.parse Samples.hollowFunction (Path.filename "")).map fun tree =>
      (tree.isFunction, tree.has "pattern", tree.hasPattern)) = .ok (true, true, false) := by
    decide +kernel
  have hcompile : ((standard.compile "" Samples.hollowFunction .initial).1.map
      fun e => e.text) = .endless := by decide +kernel
  refine ⟨Compiled.map_eq_endless_iff.mp hcompile, ?_⟩
  cases htree : Document.parse Samples.hollowFunction (Path.filename "") with
  | error => rw [htree] at hparse; cases hparse
  | ok tree =>
    rw [htree] at hparse
    obtain ⟨hfunction, hrest⟩ := Prod.mk.inj (Except.ok.inj hparse)
    obtain ⟨htag, hpattern⟩ := Prod.mk.inj hrest
    refine ⟨tree, rfl, hfunction, htag, fun setting state fuel => ?_⟩
    have hform := Node.patternForm_eq_expr hpattern
    exact (Lowering.function_exhausted hfunction hform setting state fuel).1

end Relational
