import Relational.Proofs.Totality

/-!
# The grammar of documents

What a JSON value is read as, said by rules and without regard to how it is read. An array under a
tag has two readings, as a leaf and as a sequence, and the reader looks ahead to tell them apart.
The rules need no such care: offsets are no nodes, so that no array has both.

> `readNode_eq_ok_iff`: a value is read as a node exactly if the rules say so.

> `toTree_isOk_iff`: a document is accepted exactly if its tree is a node of the grammar: a string, a
> pair of offsets inside the text, or an object of nodes and arrays of nodes whose key `@`, if it is
> there, holds such a pair.
-/

namespace Relational

/-! ## The grammar -/

namespace Json

/-- Two offsets, in order and inside a text of the given size. -/
inductive IsRange (size : Nat) : Json → Prop
  | mk {start stop : Nat} (horder : start ≤ stop) (hstop : stop ≤ size) :
      IsRange size (.array [.int start, .int stop])

mutual

/-- The nodes over a text of the given size. -/
inductive IsNode (size : Nat) : Json → Prop
  | text (s : String) : IsNode size (.string s)
  | leaf {json : Json} (h : json.IsRange size) : IsNode size json
  | branch {members : List (String × Json)}
      (hspan : ∀ offsets, OrderedMap.find? "@" members = some offsets → offsets.IsRange size)
      (hmembers : ∀ m ∈ members, m.1 ≠ "@" → IsMember size m.2) : IsNode size (.object members)

/-- What may stand under a tag: a node or an array of nodes. -/
inductive IsMember (size : Nat) : Json → Prop
  | one {json : Json} (h : IsNode size json) : IsMember size json
  | many {items : List Json} (h : ∀ item ∈ items, IsNode size item) : IsMember size (.array items)

end

end Json

namespace Document

/-! ## The rules of reading -/

/-- The span that a pair of offsets stands for. -/
inductive Covers (source : Source) : Json → Span → Prop
  | mk {start stop : Nat} (horder : start ≤ stop) (hstop : stop ≤ source.size) :
      Covers source (.array [.int start, .int stop]) (Span.ofOffsets source start stop)

/-- The span that is given to a branch: by its key `@`, or by its having no members at all. -/
inductive GivesSpan (source : Source) : List (String × Json) → Option Span → Prop
  | explicit {members : List (String × Json)} {offsets : Json} {span : Span}
      (hfind : OrderedMap.find? "@" members = some offsets) (h : Covers source offsets span) :
      GivesSpan source members (some span)
  | empty : GivesSpan source [] (some (Span.ofOffsets source 0 0))
  | none {members : List (String × Json)} (hfind : OrderedMap.find? "@" members = none)
      (hne : members ≠ []) : GivesSpan source members none

mutual

/-- The node that a JSON value stands for. -/
inductive Reads (source : Source) : Json → Node → Prop
  | text (s : String) : Reads source (.string s) (textLeaf source s)
  | leaf {json : Json} {span : Span} (h : Covers source json span) : Reads source json (.leaf span)
  | branch {members : List (String × Json)} {children : List (String × Children)}
      {span : Option Span} (hchildren : ReadsTags source members children)
      (hspan : GivesSpan source members span) :
      Reads source (.object members) (Node.ofChildren children span)

/-- What the value under a tag stands for: a single node, or the nodes of an array. -/
inductive ReadsUnder (source : Source) : Json → Children → Prop
  | one {json : Json} {node : Node} (h : Reads source json node) :
      ReadsUnder source json (.one node)
  | many {items : List Json} {nodes : List Node} (h : ReadsAll source items nodes) :
      ReadsUnder source (.array items) (.many nodes)

/-- The tagged children that the members of an object stand for. The key `@` is no tag. -/
inductive ReadsTags (source : Source) : List (String × Json) → List (String × Children) → Prop
  | nil : ReadsTags source [] []
  | span {json : Json} {rest : List (String × Json)} {others : List (String × Children)}
      (hrest : ReadsTags source rest others) : ReadsTags source (("@", json) :: rest) others
  | tag {tag : String} {json : Json} {child : Children} {rest : List (String × Json)}
      {others : List (String × Children)} (htag : tag ≠ "@") (h : ReadsUnder source json child)
      (hrest : ReadsTags source rest others) :
      ReadsTags source ((tag, json) :: rest) ((tag, child) :: others)

/-- The nodes that the items of an array stand for. -/
inductive ReadsAll (source : Source) : List Json → List Node → Prop
  | nil : ReadsAll source [] []
  | cons {json : Json} {node : Node} {items : List Json} {nodes : List Node}
      (h : Reads source json node) (hrest : ReadsAll source items nodes) :
      ReadsAll source (json :: items) (node :: nodes)

end

/-! ## The reader follows the rules -/

section

variable {source : Source} {path : String}

theorem offsets?_eq_some_iff {json : Json} {start stop : Nat} :
    offsets? json = some (start, stop) ↔ json = .array [.int start, .int stop] := by
  constructor
  · intro h
    unfold offsets? at h
    split at h
    next =>
      obtain ⟨rfl, rfl⟩ := Prod.mk.inj (Option.some.inj h)
      rfl
    next => cases h
  · rintro rfl
    rfl

theorem offsetsSpan_eq_ok_iff {json : Json} {span : Span} :
    offsetsSpan source path json = .ok span ↔ Covers source json span := by
  constructor
  · intro h
    unfold offsetsSpan at h
    split at h
    next => cases h
    next start stop hoffsets =>
      obtain rfl := offsets?_eq_some_iff.mp hoffsets
      split at h
      next => cases h
      next hrange =>
        obtain rfl := Except.ok.inj h
        simp only [Bool.or_eq_true, decide_eq_true_eq, not_or, Nat.not_lt] at hrange
        exact .mk hrange.1 hrange.2
  · intro h
    cases h with
    | @mk start stop horder hstop =>
      have hrange : ¬(decide (stop < start) || decide (source.size < stop)) = true := by
        simp only [Bool.or_eq_true, decide_eq_true_eq, not_or, Nat.not_lt]
        exact ⟨horder, hstop⟩
      exact if_neg hrange

theorem branchSpan_eq_ok_iff {members : List (String × Json)} {span : Option Span} :
    branchSpan source path members = .ok span ↔ GivesSpan source members span := by
  constructor
  · intro h
    unfold branchSpan at h
    split at h
    next offsets hfind =>
      cases hoffsets : offsetsSpan source path offsets with
      | error => rw [hoffsets] at h; cases h
      | ok found =>
        rw [hoffsets] at h
        exact Except.ok.inj h ▸ .explicit hfind (offsetsSpan_eq_ok_iff.mp hoffsets)
    next hfind =>
      obtain rfl := Except.ok.inj h
      cases members with
      | nil => exact .empty
      | cons m members => exact .none hfind (List.cons_ne_nil m members)
  · intro h
    unfold branchSpan
    cases h with
    | explicit hfind h =>
      rw [hfind]
      dsimp only
      rw [offsetsSpan_eq_ok_iff.mpr h]
      rfl
    | empty => rfl
    | none hfind hne =>
      rw [hfind]
      cases members with
      | nil => exact absurd rfl hne
      | cons => rfl

/-- Offsets that are read as such are no array of nodes. -/
theorem not_readsAll_of_offsets? {items : List Json} {nodes : List Node}
    (h : (offsets? (.array items)).isSome = true) : ¬ReadsAll source items nodes := by
  intro hall
  obtain ⟨⟨start, stop⟩, hoffsets⟩ := Option.isSome_iff_exists.mp h
  obtain rfl := Json.array.inj (offsets?_eq_some_iff.mp hoffsets)
  cases hall with
  | cons hfirst =>
    cases hfirst with
    | leaf hcovers => cases hcovers

theorem isSome_offsets?_of_covers {json : Json} {span : Span} (h : Covers source json span) :
    (offsets? json).isSome = true := by
  cases h with
  | mk => rfl

variable (source path)

/-- The value under a tag: an array is a sequence unless it gives offsets. -/
def readUnder : Json → Except ParseFault Children
  | .array items =>
    if (offsets? (.array items)).isSome then do
      let span ← offsetsSpan source path (.array items)
      .ok (.one (.leaf span))
    else do
      let nodes ← readNodes source path 0 items
      .ok (.many nodes)
  | json => do
    let node ← readNode source path json
    .ok (.one node)

theorem readTags_span (json : Json) (rest : List (String × Json)) :
    readTags source path (("@", json) :: rest) = readTags source path rest := by
  cases json <;> rw [readTags] <;> first | rfl | exact nofun

theorem readTags_tag {tag : String} (htag : tag ≠ "@") (json : Json)
    (rest : List (String × Json)) :
    readTags source path ((tag, json) :: rest) =
      readUnder source (path ++ "." ++ tag) json >>= fun child =>
        readTags source path rest >>= fun others => .ok ((tag, child) :: others) := by
  cases json with
  | array items =>
    rw [readTags, if_neg htag, readUnder]
    split
    next => cases offsetsSpan source (path ++ "." ++ tag) (.array items) <;> rfl
    next => cases readNodes source (path ++ "." ++ tag) 0 items <;> rfl
  | null | bool | int | float | string | object =>
    rw [readTags, if_neg htag, readUnder]
    · generalize readNode source (path ++ "." ++ tag) _ = node
      cases node <;> rfl
    all_goals exact nofun

end

/-- A value that is no array is read under a tag as the node that it is. -/
theorem readUnder_eq_ok_iff {source : Source} {json : Json} (hjson : ∀ items, json ≠ .array items)
    (hnode : ∀ path node, readNode source path json = .ok node ↔ Reads source json node)
    (path : String) (child : Children) :
    readUnder source path json = .ok child ↔ ReadsUnder source json child := by
  rw [readUnder]
  · rw [Except.bind_eq_ok_iff]
    constructor
    · rintro ⟨node, hread, hchild⟩
      exact Except.ok.inj hchild ▸ .one ((hnode path node).mp hread)
    · intro h
      cases h with
      | one h => exact ⟨_, (hnode path _).mpr h, rfl⟩
      | many => exact absurd rfl (hjson _)
  · exact hjson

mutual

/-- What a value is read as, as a node and under a tag. The induction is on the value, along the
functions that read it. -/
theorem json_reads (source : Source) : ∀ json : Json,
    (∀ path node, readNode source path json = .ok node ↔ Reads source json node) ∧
      ∀ path child, readUnder source path json = .ok child ↔ ReadsUnder source json child
  | .object members => by
    have hnode : ∀ path node,
        readNode source path (.object members) = .ok node ↔ Reads source (.object members) node := by
      intro path node
      have htags := tags_read source members path
      rw [readNode, Except.bind_eq_ok_iff]
      constructor
      · rintro ⟨children, hchildren, h⟩
        obtain ⟨span, hspan, h⟩ := Except.bind_eq_ok_iff.mp h
        have hchildren := (htags children).mp hchildren
        exact Except.ok.inj h ▸ .branch hchildren (branchSpan_eq_ok_iff.mp hspan)
      · intro h
        cases h with
        | leaf h => cases h
        | branch hchildren hspan =>
          refine ⟨_, (htags _).mpr hchildren, ?_⟩
          exact Except.bind_eq_ok_iff.mpr ⟨_, branchSpan_eq_ok_iff.mpr hspan, rfl⟩
    exact ⟨hnode, readUnder_eq_ok_iff nofun hnode⟩
  | .array items => by
    refine ⟨fun path node => ?_, fun path child => ?_⟩
    · rw [readNode, Except.bind_eq_ok_iff]
      constructor
      · rintro ⟨span, hspan, h⟩
        exact Except.ok.inj h ▸ .leaf (offsetsSpan_eq_ok_iff.mp hspan)
      · intro h
        cases h with
        | leaf h => exact ⟨_, offsetsSpan_eq_ok_iff.mpr h, rfl⟩
    · have hitems := items_read source items path 0
      rw [readUnder]
      split
      next hoffsets =>
        rw [Except.bind_eq_ok_iff]
        constructor
        · rintro ⟨span, hspan, h⟩
          exact Except.ok.inj h ▸ .one (.leaf (offsetsSpan_eq_ok_iff.mp hspan))
        · intro h
          cases h with
          | one h =>
            cases h with
            | leaf h => exact ⟨_, offsetsSpan_eq_ok_iff.mpr h, rfl⟩
          | many h => exact absurd h (not_readsAll_of_offsets? hoffsets)
      next hoffsets =>
        rw [Except.bind_eq_ok_iff]
        constructor
        · rintro ⟨nodes, hnodes, h⟩
          exact Except.ok.inj h ▸ .many ((hitems nodes).mp hnodes)
        · intro h
          cases h with
          | one h =>
            cases h with
            | leaf h => exact absurd (isSome_offsets?_of_covers h) hoffsets
          | many h => exact ⟨_, (hitems _).mpr h, rfl⟩
  | .string s => by
    have hnode : ∀ path node,
        readNode source path (.string s) = .ok node ↔ Reads source (.string s) node := by
      intro path node
      rw [readNode]
      constructor
      · exact fun h => Except.ok.inj h ▸ .text s
      · intro h
        cases h with
        | text => rfl
        | leaf h => cases h
    exact ⟨hnode, readUnder_eq_ok_iff nofun hnode⟩
  | .null | .bool _ | .int _ | .float _ => by
    -- a value of any other kind is refused, and there is no rule for it
    refine ⟨fun path node => ?_, readUnder_eq_ok_iff nofun fun path node => ?_⟩ <;>
    · constructor
      · intro h
        simp [readNode] at h
      · intro h
        cases h with
        | leaf h => cases h

theorem tags_read (source : Source) : ∀ (members : List (String × Json)) (path : String)
    (children : List (String × Children)),
    readTags source path members = .ok children ↔ ReadsTags source members children
  | [], path, children => by
    rw [readTags]
    constructor
    · exact fun h => Except.ok.inj h ▸ .nil
    · intro h
      cases h with
      | nil => rfl
  | (tag, json) :: rest, path, children => by
    have hrest := tags_read source rest path
    have hunder := (json_reads source json).2
    by_cases htag : tag = "@"
    · rw [htag, readTags_span, hrest]
      constructor
      · exact .span
      · intro h
        cases h with
        | span h => exact h
        | tag htag => exact absurd rfl htag
    · rw [readTags_tag source path htag, Except.bind_eq_ok_iff]
      constructor
      · rintro ⟨child, hchild, h⟩
        obtain ⟨others, hothers, h⟩ := Except.bind_eq_ok_iff.mp h
        exact Except.ok.inj h ▸ .tag htag ((hunder _ child).mp hchild) ((hrest others).mp hothers)
      · intro h
        cases h with
        | span => exact absurd rfl htag
        | tag _ hchild hothers =>
          refine ⟨_, (hunder _ _).mpr hchild, ?_⟩
          exact Except.bind_eq_ok_iff.mpr ⟨_, (hrest _).mpr hothers, rfl⟩

theorem items_read (source : Source) : ∀ (items : List Json) (path : String) (index : Nat)
    (nodes : List Node), readNodes source path index items = .ok nodes ↔ ReadsAll source items nodes
  | [], path, index, nodes => by
    rw [readNodes]
    constructor
    · exact fun h => Except.ok.inj h ▸ .nil
    · intro h
      cases h with
      | nil => rfl
  | json :: rest, path, index, nodes => by
    have hrest := items_read source rest path (index + 1)
    have hnode := (json_reads source json).1
    rw [readNodes, Except.bind_eq_ok_iff]
    constructor
    · rintro ⟨node, hread, h⟩
      obtain ⟨others, hothers, h⟩ := Except.bind_eq_ok_iff.mp h
      exact Except.ok.inj h ▸ .cons ((hnode _ node).mp hread) ((hrest others).mp hothers)
    · intro h
      cases h with
      | cons hread hothers =>
        refine ⟨_, (hnode _ _).mpr hread, ?_⟩
        exact Except.bind_eq_ok_iff.mpr ⟨_, (hrest _).mpr hothers, rfl⟩

end

/-- A value is read as a node exactly if the rules say so, whatever path leads to it. -/
theorem readNode_eq_ok_iff {source : Source} {path : String} {json : Json} {node : Node} :
    readNode source path json = .ok node ↔ Reads source json node :=
  (json_reads source json).1 path node

theorem toTree_eq_ok_iff {doc : Document} {filename : String} {tree : Node} :
    doc.toTree filename = .ok tree ↔ Reads ⟨filename, doc.source⟩ doc.tree tree :=
  readNode_eq_ok_iff

/-! ## What is accepted -/

section

variable {source : Source}

theorem exists_covers_iff {json : Json} :
    (∃ span, Covers source json span) ↔ json.IsRange source.size := by
  constructor
  · rintro ⟨span, hcovers⟩
    cases hcovers with
    | mk horder hstop => exact .mk horder hstop
  · intro h
    cases h with
    | mk horder hstop => exact ⟨_, .mk horder hstop⟩

theorem exists_givesSpan_iff {members : List (String × Json)} :
    (∃ span, GivesSpan source members span) ↔
      ∀ offsets, OrderedMap.find? "@" members = some offsets → offsets.IsRange source.size := by
  constructor
  · rintro ⟨span, hspan⟩ offsets hoffsets
    cases hspan with
    | explicit hfind h =>
      obtain rfl := Option.some.inj (hfind.symm.trans hoffsets)
      exact exists_covers_iff.mp ⟨_, h⟩
    | empty => cases hoffsets
    | none hfind => rw [hfind] at hoffsets; cases hoffsets
  · intro h
    cases hfind : OrderedMap.find? "@" members with
    | some offsets =>
      obtain ⟨span, hspan⟩ := exists_covers_iff.mpr (h offsets hfind)
      exact ⟨some span, .explicit hfind hspan⟩
    | none =>
      cases members with
      | nil => exact ⟨_, .empty⟩
      | cons m members => exact ⟨none, .none hfind (List.cons_ne_nil m members)⟩

mutual

/-- Whatever the rules read is in the grammar. -/
theorem Reads.isNode {json : Json} {node : Node} :
    Reads source json node → json.IsNode source.size
  | .text s => .text s
  | .leaf h => .leaf (exists_covers_iff.mp ⟨_, h⟩)
  | .branch hchildren hspan =>
    .branch (exists_givesSpan_iff.mp ⟨_, hspan⟩) (ReadsTags.isMember hchildren)

theorem ReadsUnder.isMember {json : Json} {child : Children} :
    ReadsUnder source json child → json.IsMember source.size
  | .one h => .one (Reads.isNode h)
  | .many h => .many (ReadsAll.isNode h)

theorem ReadsTags.isMember {members : List (String × Json)}
    {children : List (String × Children)} :
    ReadsTags source members children → ∀ m ∈ members, m.1 ≠ "@" → m.2.IsMember source.size
  | .nil => List.forall_mem_nil _
  | .span hrest => List.forall_mem_cons.mpr ⟨fun hne => absurd rfl hne, ReadsTags.isMember hrest⟩
  | .tag _ h hrest =>
    List.forall_mem_cons.mpr ⟨fun _ => ReadsUnder.isMember h, ReadsTags.isMember hrest⟩

theorem ReadsAll.isNode {items : List Json} {nodes : List Node} :
    ReadsAll source items nodes → ∀ item ∈ items, item.IsNode source.size
  | .nil => List.forall_mem_nil _
  | .cons h hrest => List.forall_mem_cons.mpr ⟨Reads.isNode h, ReadsAll.isNode hrest⟩

end

theorem exists_readsTags {members : List (String × Json)}
    (h : ∀ m ∈ members, m.1 ≠ "@" → ∃ child, ReadsUnder source m.2 child) :
    ∃ children, ReadsTags source members children := by
  induction members with
  | nil => exact ⟨[], .nil⟩
  | cons m members ih =>
    obtain ⟨tag, json⟩ := m
    obtain ⟨hfirst, hrest⟩ := List.forall_mem_cons.mp h
    obtain ⟨others, hothers⟩ := ih hrest
    by_cases htag : tag = "@"
    · exact ⟨others, htag ▸ .span hothers⟩
    · obtain ⟨child, hchild⟩ := hfirst htag
      exact ⟨(tag, child) :: others, .tag htag hchild hothers⟩

theorem exists_readsAll {items : List Json} (h : ∀ item ∈ items, ∃ node, Reads source item node) :
    ∃ nodes, ReadsAll source items nodes := by
  induction items with
  | nil => exact ⟨[], .nil⟩
  | cons item items ih =>
    obtain ⟨hfirst, hrest⟩ := List.forall_mem_cons.mp h
    obtain ⟨node, hnode⟩ := hfirst
    obtain ⟨nodes, hnodes⟩ := ih hrest
    exact ⟨node :: nodes, .cons hnode hnodes⟩

mutual

/-- Whatever is in the grammar is read by the rules. -/
theorem exists_reads_of_isNode {json : Json} :
    json.IsNode source.size → ∃ node, Reads source json node
  | .text s => ⟨_, .text s⟩
  | .leaf h => by
    obtain ⟨span, hspan⟩ := exists_covers_iff.mpr h
    exact ⟨_, .leaf hspan⟩
  | .branch hspan hmembers => by
    have hunder := fun m hm hne => exists_readsUnder_of_isMember (hmembers m hm hne)
    obtain ⟨children, hchildren⟩ := exists_readsTags hunder
    obtain ⟨span, hspan⟩ := exists_givesSpan_iff.mpr hspan
    exact ⟨_, .branch hchildren hspan⟩

theorem exists_readsUnder_of_isMember {json : Json} :
    json.IsMember source.size → ∃ child, ReadsUnder source json child
  | .one h => by
    obtain ⟨node, hnode⟩ := exists_reads_of_isNode h
    exact ⟨_, .one hnode⟩
  | .many h => by
    obtain ⟨nodes, hnodes⟩ := exists_readsAll fun item hitem => exists_reads_of_isNode (h item hitem)
    exact ⟨_, .many hnodes⟩

end

end

/-- **The reader accepts exactly the grammar**: whatever the text, the file name and the JSON value,
there is a tree exactly if the value is a node over a text of that many bytes. -/
theorem toTree_isOk_iff (doc : Document) (filename : String) :
    (∃ tree, doc.toTree filename = .ok tree) ↔ doc.tree.IsNode doc.source.utf8ByteSize := by
  have hsize : (⟨filename, doc.source⟩ : Source).size = doc.source.utf8ByteSize :=
    Text.byteLength_toList doc.source
  rw [← hsize]
  constructor
  · rintro ⟨tree, htree⟩
    exact (toTree_eq_ok_iff.mp htree).isNode
  · intro h
    obtain ⟨tree, htree⟩ := exists_reads_of_isNode h
    exact ⟨tree, toTree_eq_ok_iff.mpr htree⟩

end Document

end Relational
