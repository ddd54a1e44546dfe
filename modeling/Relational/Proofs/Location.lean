import Relational.Proofs.DocumentGrammar

/-!
# The file of a node

The places of a document are in the file that it is read under. A branch that gives no place of its
own takes one from its children, and only a branch with no children at all has nothing to take. An
object without members is given the start of the file. But an object that has members, with nothing
but empty arrays in them, is hollow: its place is the one that stands in no source.

> `parse_located`: all nodes of a document are in its file exactly if it has no hollow branch (or
> the file is called like the place that stands in no source). What is not in the file, be it a node
> or a place that compilation blames, stands in no source.
-/

namespace Relational

namespace Json

/-- The members of a branch that has no place to take: there are some, none is the key `@`, and each
one is an empty array. -/
structure Hollow (members : List (String × Json)) : Prop where
  ne_nil : members ≠ []
  span : OrderedMap.find? "@" members = none
  empty : ∀ m ∈ members, m.1 ≠ "@" → m.2 = .array []

/-- A hollow branch stands somewhere in the value. -/
inductive HasHollow : Json → Prop
  | here {members : List (String × Json)} (h : Hollow members) : HasHollow (.object members)
  | under {members : List (String × Json)} {m : String × Json} (hm : m ∈ members)
      (htag : m.1 ≠ "@") (h : HasHollow m.2) : HasHollow (.object members)
  | among {items : List Json} {item : Json} (hitem : item ∈ items) (h : HasHollow item) :
      HasHollow (.array items)

end Json

/-! ## Places made of others -/

section

variable {T : String → Prop}

theorem Span.mergeFrom_source {first acc merged : Span} {spans : List Span}
    (h : mergeFrom first acc spans = .ok merged) : merged.source = acc.source := by
  induction spans generalizing acc with
  | nil => rw [Except.ok.inj h]
  | cons span spans ih =>
    rw [mergeFrom] at h
    split at h
    next =>
      have hwidened := ih h
      exact hwidened
    next => cases h

/-- The common place of some places is in the file of the first one. -/
theorem Span.mergeOr_filename {fallback : Span} {spans : List Span} (hfallback : T fallback.filename)
    (hspans : ∀ span ∈ spans, T span.filename) : T (mergeOr fallback spans).filename := by
  unfold mergeOr
  split
  next merged hmerge =>
    cases spans with
    | nil => cases hmerge
    | cons first rest =>
      have hsource : merged.source = first.source := mergeFrom_source hmerge
      rw [filename, hsource]
      exact hspans first (List.mem_cons_self ..)
  next => exact hfallback

/-- The children under a tag have a common place unless there are none. -/
theorem Children.span?_filename {children : Children} {span : Span} (h : children.span? = some span)
    (hnodes : ∀ n ∈ children.nodes, T n.span.filename) : T span.filename := by
  unfold span? at h
  split at h
  next => cases h
  next first rest hcons =>
    rw [hcons] at hnodes
    obtain rfl := Option.some.inj h
    refine Span.mergeOr_filename (hnodes first (List.mem_cons_self ..)) ?_
    exact List.forall_mem_map.mpr hnodes

theorem Children.span?_eq_none_iff {children : Children} :
    children.span? = none ↔ children.nodes = [] := by
  unfold span?
  split
  next h => simp [h]
  next h => simp [h]

/-- A branch takes a place from its children, or stands in no source for want of any. -/
theorem Node.spanOfChildren_filename {children : List (String × Children)}
    (hnodes : ∀ c ∈ children, ∀ n ∈ c.2.nodes, T n.span.filename)
    (hempty : (∀ c ∈ children, c.2.nodes = []) → T Span.unknown.filename) :
    T (spanOfChildren children).filename := by
  unfold spanOfChildren
  split
  next heq =>
    refine hempty fun c hc => Children.span?_eq_none_iff.mp ?_
    exact List.filterMap_eq_nil_iff.mp heq c hc
  next first rest heq =>
    have hspans : ∀ span ∈ first :: rest, T span.filename := by
      intro span hspan
      rw [← heq] at hspan
      obtain ⟨c, hc, hspan⟩ := List.mem_filterMap.mp hspan
      exact Children.span?_filename hspan (hnodes c hc)
    exact Span.mergeOr_filename (hspans first (List.mem_cons_self ..)) hspans

/-- The place of a branch without children is the one that stands in no source. -/
theorem Node.spanOfChildren_eq_unknown {children : List (String × Children)}
    (h : ∀ c ∈ children, c.2.nodes = []) : spanOfChildren children = Span.unknown := by
  have hnone : children.filterMap (fun c => c.2.span?) = [] :=
    List.filterMap_eq_nil_iff.mpr fun c hc => Children.span?_eq_none_iff.mpr (h c hc)
  unfold spanOfChildren
  split
  next => rfl
  next heq => rw [hnone] at heq; cases heq

end

namespace Document

/-! ## Nodes of a document -/

section

variable {source : Source} {T : String → Prop}

theorem Covers.filename {json : Json} {span : Span} (h : Covers source json span) :
    span.filename = source.name := by
  cases h with
  | mk => rfl

theorem textLeaf_filename (source : Source) (text : String) :
    (textLeaf source text).span.filename = source.name := by
  unfold textLeaf
  cases hfind : Span.find? source text with
  | none => rfl
  | some span =>
    obtain ⟨start, -, rfl⟩ := Option.map_eq_some_iff.mp hfind
    rfl

theorem ReadsUnder.nodes_eq_nil_iff {json : Json} {child : Children}
    (h : ReadsUnder source json child) : child.nodes = [] ↔ json = .array [] := by
  cases h with
  | one h =>
    refine ⟨nofun, ?_⟩
    rintro rfl
    cases h with
    | leaf h => cases h
  | many h =>
    cases h with
    | nil => exact ⟨fun _ => rfl, fun _ => rfl⟩
    | cons => exact ⟨nofun, nofun⟩

/-- The members that are read as no nodes at all are empty arrays. -/
theorem ReadsTags.nodes_eq_nil_iff {members : List (String × Json)}
    {children : List (String × Children)} (h : ReadsTags source members children) :
    (∀ c ∈ children, c.2.nodes = []) ↔ ∀ m ∈ members, m.1 ≠ "@" → m.2 = .array [] := by
  induction members generalizing children with
  | nil =>
    cases h with
    | nil => simp
  | cons m members ih =>
    cases h with
    | span hrest =>
      rw [List.forall_mem_cons, ih hrest]
      exact ⟨fun h => ⟨fun htag => absurd rfl htag, h⟩, And.right⟩
    | tag htag h hrest =>
      rw [List.forall_mem_cons, List.forall_mem_cons, ih hrest, h.nodes_eq_nil_iff]
      exact and_congr_left' ⟨fun h _ => h, fun h => h htag⟩

/-- The value of each member but `@` is read as what stands under its tag. -/
theorem ReadsTags.exists_of_mem {members : List (String × Json)}
    {children : List (String × Children)} (h : ReadsTags source members children)
    {m : String × Json} (hm : m ∈ members) (htag : m.1 ≠ "@") :
    ∃ c ∈ children, ReadsUnder source m.2 c.2 := by
  induction members generalizing children with
  | nil => cases hm
  | cons first members ih =>
    cases h with
    | span hrest =>
      rcases List.mem_cons.mp hm with rfl | hm
      · exact absurd rfl htag
      · exact ih hrest hm
    | tag _ h hrest =>
      rcases List.mem_cons.mp hm with rfl | hm
      · exact ⟨_, List.mem_cons_self .., h⟩
      · obtain ⟨c, hc, hunder⟩ := ih hrest hm
        exact ⟨c, List.mem_cons_of_mem _ hc, hunder⟩

theorem ReadsAll.exists_of_mem {items : List Json} {nodes : List Node}
    (h : ReadsAll source items nodes) {item : Json} (hitem : item ∈ items) :
    ∃ node ∈ nodes, Reads source item node := by
  induction items generalizing nodes with
  | nil => cases hitem
  | cons first items ih =>
    cases h with
    | cons h hrest =>
      rcases List.mem_cons.mp hitem with rfl | hitem
      · exact ⟨_, List.mem_cons_self .., h⟩
      · obtain ⟨node, hnode, hread⟩ := ih hrest hitem
        exact ⟨node, List.mem_cons_of_mem _ hnode, hread⟩

/-- The place of a branch, from the files of its children and from whether it is hollow. -/
theorem GivesSpan.filename_getD {members : List (String × Json)}
    {children : List (String × Children)} {span : Option Span} (hname : T source.name)
    (h : GivesSpan source members span) (hread : ReadsTags source members children)
    (hnodes : ∀ c ∈ children, ∀ n ∈ c.2.nodes, T n.span.filename)
    (hhollow : Json.Hollow members → T Span.unknown.filename) :
    T (span.getD (Node.spanOfChildren children)).filename := by
  cases h with
  | explicit _ h => exact h.filename.symm ▸ hname
  | empty => exact hname
  | none hfind hne =>
    refine Node.spanOfChildren_filename hnodes fun hempty => ?_
    exact hhollow ⟨hne, hfind, hread.nodes_eq_nil_iff.mp hempty⟩

mutual

/-- Every node that is read is in the file, if that goes for the places of hollow branches as
well. -/
theorem Reads.filename {json : Json} {node : Node} (hname : T source.name) :
    Reads source json node → (json.HasHollow → T Span.unknown.filename) →
      ∀ n ∈ node.subtrees, T n.span.filename
  | .text s, _ => List.forall_mem_singleton.mpr ((textLeaf_filename source s).symm ▸ hname)
  | .leaf h, _ => List.forall_mem_singleton.mpr (h.filename.symm ▸ hname)
  | .branch hchildren hspan, hhollow => by
    have hnodes := hchildren.filename hname fun m hm htag h => hhollow (.under hm htag h)
    rw [Node.ofChildren, Node.subtrees]
    refine List.forall_mem_cons.mpr ⟨?_, fun n hn => ?_⟩
    · exact hspan.filename_getD hname hchildren
        (fun c hc n hn => hnodes c hc n hn n n.mem_subtrees_self) fun h => hhollow (.here h)
    · obtain ⟨c, hc, child, hchild, hn⟩ := Node.mem_subtreesTags.mp hn
      exact hnodes c hc child hchild n hn

theorem ReadsUnder.filename {json : Json} {child : Children} (hname : T source.name) :
    ReadsUnder source json child → (json.HasHollow → T Span.unknown.filename) →
      ∀ node ∈ child.nodes, ∀ n ∈ node.subtrees, T n.span.filename
  | .one h, hhollow => List.forall_mem_singleton.mpr (h.filename hname hhollow)
  | .many h, hhollow => h.filename hname fun _ hitem hitem' => hhollow (.among hitem hitem')

theorem ReadsTags.filename {members : List (String × Json)} {children : List (String × Children)}
    (hname : T source.name) : ReadsTags source members children →
      (∀ m ∈ members, m.1 ≠ "@" → m.2.HasHollow → T Span.unknown.filename) →
      ∀ c ∈ children, ∀ node ∈ c.2.nodes, ∀ n ∈ node.subtrees, T n.span.filename
  | .nil, _ => List.forall_mem_nil _
  | .span hrest, hhollow => hrest.filename hname (List.forall_mem_cons.mp hhollow).2
  | .tag htag h hrest, hhollow => by
    rw [List.forall_mem_cons] at hhollow
    exact List.forall_mem_cons.mpr
      ⟨h.filename hname (hhollow.1 htag), hrest.filename hname hhollow.2⟩

theorem ReadsAll.filename {items : List Json} {nodes : List Node} (hname : T source.name) :
    ReadsAll source items nodes → (∀ item ∈ items, item.HasHollow → T Span.unknown.filename) →
      ∀ node ∈ nodes, ∀ n ∈ node.subtrees, T n.span.filename
  | .nil, _ => List.forall_mem_nil _
  | .cons h hrest, hhollow => by
    rw [List.forall_mem_cons] at hhollow
    exact List.forall_mem_cons.mpr ⟨h.filename hname hhollow.1, hrest.filename hname hhollow.2⟩

end

/-- A hollow branch is read as one that stands in no source. -/
theorem ReadsUnder.exists_unknown {json : Json} (hhollow : json.HasHollow) {child : Children}
    (h : ReadsUnder source json child) :
    ∃ node ∈ child.nodes, ∃ n ∈ node.subtrees, n.span = Span.unknown := by
  induction hhollow generalizing child with
  | here hmembers =>
    cases h with
    | one h =>
      cases h with
      | leaf h => cases h
      | branch hchildren hspan =>
        have hnodes := hchildren.nodes_eq_nil_iff.mpr hmembers.empty
        refine ⟨_, List.mem_singleton_self _, _, Node.mem_subtrees_self _, ?_⟩
        cases hspan with
        | explicit hfind => rw [hmembers.span] at hfind; cases hfind
        | empty => exact absurd rfl hmembers.ne_nil
        | none => exact Node.spanOfChildren_eq_unknown hnodes
  | under hm htag _ ih =>
    cases h with
    | one h =>
      cases h with
      | leaf h => cases h
      | branch hchildren =>
        obtain ⟨c, hc, hunder⟩ := hchildren.exists_of_mem hm htag
        obtain ⟨node, hnode, n, hn, hspan⟩ := ih hunder
        refine ⟨_, List.mem_singleton_self _, n, List.mem_cons_of_mem _ ?_, hspan⟩
        exact Node.mem_subtreesTags.mpr ⟨c, hc, node, hnode, hn⟩
  | among hitem hhollow ih =>
    cases h with
    | one h =>
      -- offsets have no items that are objects
      cases h with
      | leaf h =>
        cases h with
        | mk =>
          rcases List.mem_pair.mp hitem with rfl | rfl
          · cases hhollow
          · cases hhollow
    | many h =>
      obtain ⟨node, hnode, hread⟩ := h.exists_of_mem hitem
      obtain ⟨read, hone, n, hn, hspan⟩ := ih (.one hread)
      rw [List.mem_singleton.mp hone] at hn
      exact ⟨node, hnode, n, hn, hspan⟩

end

theorem parse_eq_ok_iff {text filename : String} {tree : Node} :
    parse text filename = .ok tree ↔ ∃ doc, read? text = some doc ∧ doc.toTree filename = .ok tree := by
  unfold parse
  constructor
  · intro h
    split at h
    next => cases h
    next doc hdoc =>
      split at h
      next read hread => exact ⟨doc, hdoc, Except.ok.inj h ▸ hread⟩
      next => cases h
  · rintro ⟨doc, hdoc, htree⟩
    simp only [hdoc, htree]

end Document

/-! ## Places that compilation blames -/

/-- What lowering makes of places in some files is in these files. -/
theorem Lowering.rules_filename (T : String → Prop) :
    Rules (fun e => T e.span.filename) (fun _ => True) fun span => T span.filename where
  literal hspan _ := hspan
  ident hspan := hspan
  dot hspan _ := hspan
  project hspan _ := hspan
  call hspan _ _ := hspan
  binary hspan _ _ := hspan
  unary hspan _ := hspan
  package hspan _ := hspan
  compare hspan _ _ := hspan
  ifElse hspan _ _ _ := hspan
  condControl hspan _ _ := hspan
  cond hspan _ _ := hspan
  count hspan _ := hspan
  single hspan _ := hspan
  safeTail hspan _ _ _ _ := hspan
  relation hspan _ _ := hspan
  set hspan _ := hspan
  dict hspan _ := hspan
  array hspan _ := hspan
  bytes hspan _ := hspan
  tuple hspan _ := hspan
  function hspan _ _ := hspan
  recursion hspan _ := hspan
  paren hspan _ := hspan
  xstr hspan _ := hspan
  nest hspan _ := hspan
  exprPattern _ := True.intro
  exprsPattern _ := True.intro
  arrayPattern _ _ := True.intro
  tuplePattern _ _ := True.intro
  dictPattern _ _ := True.intro
  setPattern _ _ := True.intro
  extraPattern := True.intro
  exprSpan he := he
  mergeOr := Span.mergeOr_filename
  extendLeft hspan := hspan

theorem Lowering.answersFrom_filename (T : String → Prop) :
    AnswersFrom (fun span => T span.filename) (fun e => T e.span.filename) Modules.deferred where
  standardLibrary hspan h := Except.ok.inj h ▸ hspan
  localFile hspan h := Except.ok.inj h ▸ hspan
  externalContent hspan h := Except.ok.inj h ▸ hspan

/-- Every node of the tree is in one of the files, and none of them holds an expression. -/
def Node.In (T : String → Prop) (node : Node) : Prop :=
  ∀ n ∈ node.subtrees, T n.span.filename ∧ n.embedded? = none

theorem Lowering.terms_filename (T : String → Prop) :
    Terms (Node.In T) (fun e => T e.span.filename) (fun _ => True) (fun span => T span.filename)
      Modules.deferred where
  rules := rules_filename T
  above n h := by
    refine ⟨(h n n.mem_subtrees_self).1, fun he => ?_, fun hget child hchild m hm => ?_⟩
    · rw [(h n n.mem_subtrees_self).2] at he
      cases he
    · exact h m (Node.subtrees_subset hget hchild hm)
  answers := answersFrom_filename T

theorem Lowering.keeps_filename (T : String → Prop) (directory : Option String) (sink : Sink)
    (fuel : Nat) :
    Keeps (Node.In T) (fun e => T e.span.filename) (fun _ => True) (fun span => T span.filename) True
      ⟨directory, .deferred, sink⟩ fun _ : Unit => ⟨lowerExpr fuel, lowerPattern fuel⟩ :=
  lower_keeps (terms_filename T) fuel

theorem Ending.Meets.error_span {α : Type} {path : String} {ending : Ending α} {sink : Sink}
    {S : Span → Prop} {X : Prop} {A : α → Prop} (h : ending.Meets sink S X A) {error : CompileError}
    (herror : ending.toCompiled path = .error error) {span : Span} (hspan : error.span? = some span) :
    S span := by
  cases ending with
  | done => cases herror
  | rejected =>
    obtain rfl := Compiled.error.inj herror
    obtain ⟨place, hplace, hS⟩ := h
    exact Option.some.inj (hplace.symm.trans hspan) ▸ hS
  | sinkFailed =>
    obtain rfl := Compiled.error.inj herror
    cases hspan
  | exhausted => cases herror

namespace Compiler

/-- A compiler reports an error for a text under a file name: as a program at a path with that name,
or as a pattern. -/
inductive Reports (compiler : Compiler) (text filename : String) (error : CompileError) : Prop
  | program {path : String} {state : CompilerState} (hpath : Path.filename path = filename)
      (h : (compiler.compile path text state).1 = .error error)
  | pattern {directory : Option String} {state : CompilerState}
      (h : (compiler.compilePattern filename directory text state).1 = .error error)

/-- Errors are reported in the files that the nodes of the tree are in. -/
theorem Reports.filename {T : String → Prop} {sink : Sink} {text filename : String}
    {error : CompileError} (h : Reports ⟨Document.parse, .deferred, sink⟩ text filename error)
    (htree : ∀ tree, Document.parse text filename = .ok tree → tree.In T) {span : Span}
    (hspan : error.span? = some span) : T span.filename := by
  cases h with
  | @program path state hpath h =>
    unfold compile at h
    split at h
    next =>
      obtain rfl := Compiled.error.inj h
      cases hspan
    next tree hparse =>
      have hkeeps := Lowering.keeps_filename T (Path.directory? path) sink (Lowering.fuelFor tree)
      have hmeets := (hkeeps.expr (htree tree (hpath ▸ hparse))).ending state
      exact hmeets.error_span h hspan
  | @pattern directory state h =>
    unfold compilePattern at h
    split at h
    next =>
      obtain rfl := Compiled.error.inj h
      cases hspan
    next tree hparse =>
      have hkeeps := Lowering.keeps_filename T directory sink (Lowering.fuelFor tree)
      have hmeets := (hkeeps.pattern (htree tree hparse)).ending state
      exact hmeets.error_span h hspan

end Compiler

namespace Document

/-- The tree of a document is in the files that its name and its hollow branches are in. -/
theorem toTree_in {T : String → Prop} {doc : Document} {filename : String} {tree : Node}
    (hname : T filename) (hhollow : doc.tree.HasHollow → T Span.unknown.filename)
    (h : doc.toTree filename = .ok tree) : ∀ n ∈ tree.subtrees, T n.span.filename :=
  (toTree_eq_ok_iff.mp h).filename hname hhollow

/-- All nodes of a document are in its file exactly if none of its branches is hollow, unless the
file is called like the place that stands in no source. A node that is not in the file stands there,
and so does every error that is not reported in the file; this needs a hollow branch. -/
theorem parse_located {text filename : String} {doc : Document} {tree : Node}
    (hread : read? text = some doc) (hparse : parse text filename = .ok tree) :
    ((∀ n ∈ tree.subtrees, n.span.filename = filename) ↔
        (doc.tree.HasHollow → filename = Span.unknown.filename)) ∧
      (∀ n ∈ tree.subtrees,
        n.span.filename = filename ∨ n.span.filename = Span.unknown.filename) ∧
      ∀ (sink : Sink) (error : CompileError) (span : Span),
        Compiler.Reports ⟨parse, .deferred, sink⟩ text filename error → error.span? = some span →
          span.filename = filename ∨
            doc.tree.HasHollow ∧ span.filename = Span.unknown.filename := by
  obtain ⟨doc', hread', htree⟩ := parse_eq_ok_iff.mp hparse
  obtain rfl := Option.some.inj (hread.symm.trans hread')
  -- the files in which anything of this document is
  let T := fun name => name = filename ∨ doc.tree.HasHollow ∧ name = Span.unknown.filename
  have hnodes : ∀ n ∈ tree.subtrees, T n.span.filename :=
    toTree_in (.inl rfl) (fun hhollow => .inr ⟨hhollow, rfl⟩) htree
  refine ⟨⟨fun hlocated hhollow => ?_, fun hhollow => ?_⟩, fun n hn => ?_, ?_⟩
  · obtain ⟨node, hnode, n, hn, hspan⟩ :=
      ReadsUnder.exists_unknown hhollow (.one (toTree_eq_ok_iff.mp htree))
    rw [List.mem_singleton.mp hnode] at hn
    rw [← hlocated n hn, hspan]
  · exact toTree_in (T := (· = filename)) rfl (fun h => (hhollow h).symm) htree
  · exact (hnodes n hn).imp_right And.right
  · intro sink error span hreports hspan
    refine hreports.filename (T := T) (fun tree' htree' => ?_) hspan
    obtain rfl := Except.ok.inj (hparse.symm.trans htree')
    exact fun n hn => ⟨hnodes n hn, (parse_sliced hparse n hn).2⟩

end Document

namespace Samples

/-- A call whose argument is no text of the program, with a tag for an object without members, one
for an empty sequence, and a place that is given. -/
def callDocument : String :=
  "[\"f(1)\",\x7b\"expr\":\x7b\"IDENT\":\"f\",\"note\":\x7b\x7d\x7d,\"tail_op\":" ++
  "[\x7b\"tail\":\x7b\"call\":\x7b\"@\":[1,4],\"arg\":[\x7b\"expr\":\x7b\"NUM\":\"2\"\x7d\x7d]," ++
  "\"rest\":[]\x7d\x7d\x7d]\x7d]"

/-- A sum without operators and operands: a document whose only branch is hollow. -/
def hollowSum : String := "[\"1 + 2\",\x7b\"binop\":[],\"expr\":[]\x7d]"

end Samples

namespace Document

theorem parse_located_call :
    ∃ doc tree, read? Samples.callDocument = some doc ∧
      parse Samples.callDocument "call.arrai" = .ok tree ∧
      (∀ n ∈ tree.subtrees, n.span.filename = "call.arrai") ∧ ¬doc.tree.HasHollow := by
  have hlocated : ∀ n ∈ (parse Samples.callDocument "call.arrai").toOption.elim [] Node.subtrees,
      n.span.filename = "call.arrai" := by decide +kernel
  have hsome : (parse Samples.callDocument "call.arrai").isOk = true := by decide +kernel
  cases hparse : parse Samples.callDocument "call.arrai" with
  | error => rw [hparse] at hsome; cases hsome
  | ok tree =>
    rw [hparse] at hlocated
    obtain ⟨doc, hread, -⟩ := parse_eq_ok_iff.mp hparse
    refine ⟨doc, tree, hread, rfl, hlocated, fun hhollow => ?_⟩
    have hname := (parse_located hread hparse).1.mp hlocated hhollow
    exact absurd hname (by decide)

/-- The sum is read under the name `.` but stands in no source, and so does the error about it. -/
theorem hollowSum_unlocated :
    (∃ tree, parse Samples.hollowSum "." = .ok tree ∧ tree.span.filename = "<unknown>") ∧
      Compiler.Reports .standard Samples.hollowSum "." (.arity Span.unknown (.chain 0 0)) := by
  have hparse : (parse Samples.hollowSum ".").map (·.span.filename) = .ok "<unknown>" := by
    decide +kernel
  have hcompile : (Compiler.standard.compile "" Samples.hollowSum .initial).1.map (·.text) =
      .error (.arity Span.unknown (.chain 0 0)) := by decide +kernel
  constructor
  · cases htree : parse Samples.hollowSum "." with
    | error => rw [htree] at hparse; cases hparse
    | ok tree =>
      rw [htree] at hparse
      exact ⟨tree, rfl, Except.ok.inj hparse⟩
  · have hpath : Path.filename "" = "." := by decide +kernel
    have herror := Compiled.map_eq_error_iff.mp hcompile
    exact @Compiler.Reports.program _ _ _ _ "" .initial hpath herror

end Document

end Relational
