import Relational.Proofs.DocumentGrammar

/-!
# Writing trees as documents

A tree of leaves and branches is written as JSON in the form that documents have: a leaf as its
offsets, a branch as the object of its tags, with its own offsets under the key `@`.

> `toTree_encode`: a tree over a source, with tags in order, is read back from what it is written as.
> The two-element sequences that look most like offsets are sequences again, and the empty ones stay.

Nothing is lost on the way since every node is written with its span: the places that the reader
works out for itself never come into it.
-/

namespace Relational

/-! ## The written form -/

namespace Span

/-- The offsets of a span. -/
def encode (span : Span) : Json := .array [.int span.start, .int span.stop]

theorem covers_encode {span : Span} (h : span.Valid) :
    Document.Covers span.source span.encode span := by
  have hcovers := Document.Covers.mk h.start_le_stop h.stop_le_size
  rwa [h.ofOffsets_eq] at hcovers

end Span

namespace Node

mutual

/-- A tree as JSON. An embedded expression has no written form. -/
def encode : Node → Json
  | .branch children span => .ofMembers (("@", span.encode) :: encodeTags children)
  | .leaf span => span.encode
  | .embedded _ _ => .null

/-- The members of a branch: a single child as it is written, a sequence as an array. -/
def encodeTags : List (String × Children) → List (String × Json)
  | [] => []
  | (tag, .one node) :: rest => (tag, node.encode) :: encodeTags rest
  | (tag, .many nodes) :: rest => (tag, .array (encodeAll nodes)) :: encodeTags rest

def encodeAll : List Node → List Json
  | [] => []
  | node :: rest => node.encode :: encodeAll rest

end

/-- A node that documents over a source have a form for: a leaf or a branch, at a place where the
text of the source can be cut. The tags of a branch are distinct and in order, and `@` is none of
them. -/
structure Writable (source : Source) (node : Node) : Prop where
  source : node.span.source = source
  valid : node.span.Valid
  plain : node.embedded? = none
  ascending : OrderedMap.Ascending node.children
  tags : "@" ∉ node.tags

theorem writable_iff {source : Source} {node : Node} :
    node.Writable source ↔ node.span.source = source ∧ node.span.Valid ∧
      node.embedded?.isNone = true ∧ OrderedMap.Ascending node.children ∧ "@" ∉ node.tags := by
  rw [Option.isNone_iff_eq_none]
  constructor
  · intro h
    exact ⟨h.source, h.valid, h.plain, h.ascending, h.tags⟩
  · rintro ⟨hsource, hvalid, hplain, hascending, htags⟩
    exact ⟨hsource, hvalid, hplain, hascending, htags⟩

instance (source : Source) (node : Node) : Decidable (node.Writable source) :=
  decidable_of_iff _ writable_iff.symm

theorem map_fst_encodeTags (children : List (String × Children)) :
    (encodeTags children).map (·.1) = children.map (·.1) := by
  induction children with
  | nil => rw [encodeTags]; rfl
  | cons c children ih =>
    rcases c with ⟨tag, node | nodes⟩ <;> rw [encodeTags, List.map_cons, List.map_cons, ih]

/-- The members of a branch in order are in order. -/
theorem ascending_encodeTags {children : List (String × Children)}
    (h : OrderedMap.Ascending children) : OrderedMap.Ascending (encodeTags children) := by
  have hkeys : (children.map (·.1)).Pairwise fun a b => compare a b = .lt := List.pairwise_map.mpr h
  rw [← map_fst_encodeTags] at hkeys
  exact List.pairwise_map.mp hkeys

/-- The object of a branch is the list of its members with the key `@` put in. -/
theorem ofList_encodeTags {children : List (String × Children)}
    (h : OrderedMap.Ascending children) (htags : "@" ∉ children.map (·.1)) (offsets : Json) :
    OrderedMap.ofList (("@", offsets) :: encodeTags children) =
      OrderedMap.insert "@" offsets (encodeTags children) := by
  refine OrderedMap.ofList_cons (ascending_encodeTags h) (fun m hm heq => htags ?_) offsets
  rw [← map_fst_encodeTags, Std.LawfulEqOrd.eq_of_compare heq]
  exact List.mem_map_of_mem hm

end Node

namespace Document

variable {source : Source}

/-- The key `@` changes nothing about the tags. -/
theorem ReadsTags.insert_span {members : List (String × Json)} {children : List (String × Children)}
    (json : Json) : ReadsTags source members children →
      ReadsTags source (OrderedMap.insert "@" json members) children := by
  induction members generalizing children with
  | nil =>
    intro h
    cases h with
    | nil => exact .span .nil
  | cons m members ih =>
    obtain ⟨key, value⟩ := m
    intro h
    rw [OrderedMap.insert]
    split
    next => exact .span h
    next heq =>
      obtain rfl : key = "@" := (Std.LawfulEqOrd.eq_of_compare heq).symm
      cases h with
      | span hrest => exact .span hrest
      | tag htag => exact absurd rfl htag
    next =>
      cases h with
      | span hrest => exact .span (ih hrest)
      | tag htag h hrest => exact .tag htag h (ih hrest)

mutual

/-- A tree over a source is what the rules read from its written form. The induction is on the tree,
through the children under a tag and those of a sequence. -/
theorem reads_encode : ∀ node : Node, (∀ n ∈ node.subtrees, n.Writable source) →
    Reads source node.encode node
  | .leaf span, h => by
    have hleaf := h _ (Node.mem_subtrees_self _)
    rw [Node.encode]
    exact .leaf (hleaf.source ▸ Span.covers_encode hleaf.valid)
  | .branch children span, h => by
    have hbranch := h _ (Node.mem_subtrees_self _)
    rw [Node.subtrees] at h
    have hascending : OrderedMap.Ascending children := hbranch.ascending
    have hchildren := readsTags_encode children (List.forall_mem_cons.mp h).2 hbranch.tags
    have hspan : Covers source span.encode span := hbranch.source ▸ Span.covers_encode hbranch.valid
    rw [Node.encode, Json.ofMembers, Node.ofList_encodeTags hascending hbranch.tags]
    refine .branch (hchildren.insert_span _) (.explicit ?_ hspan)
    rw [OrderedMap.find?_insert, if_pos Std.ReflCmp.compare_self]
  | .embedded e span, h => by
    cases (h _ (Node.mem_subtrees_self _)).plain

theorem readsTags_encode : ∀ children : List (String × Children),
    (∀ n ∈ Node.subtreesTags children, n.Writable source) → "@" ∉ children.map (·.1) →
    ReadsTags source (Node.encodeTags children) children
  | [], _, _ => by
    rw [Node.encodeTags]
    exact .nil
  | (tag, .one node) :: rest, h, htags => by
    rw [Node.subtreesTags, List.forall_mem_append] at h
    rw [List.map_cons, List.mem_cons, not_or] at htags
    rw [Node.encodeTags]
    exact .tag (Ne.symm htags.1) (.one (reads_encode node h.1)) (readsTags_encode rest h.2 htags.2)
  | (tag, .many nodes) :: rest, h, htags => by
    rw [Node.subtreesTags, List.forall_mem_append] at h
    rw [List.map_cons, List.mem_cons, not_or] at htags
    rw [Node.encodeTags]
    exact .tag (Ne.symm htags.1) (.many (readsAll_encode nodes h.1))
      (readsTags_encode rest h.2 htags.2)

theorem readsAll_encode : ∀ nodes : List Node,
    (∀ n ∈ Node.subtreesAll nodes, n.Writable source) →
    ReadsAll source (Node.encodeAll nodes) nodes
  | [], _ => by
    rw [Node.encodeAll]
    exact .nil
  | node :: rest, h => by
    rw [Node.subtreesAll, List.forall_mem_append] at h
    rw [Node.encodeAll]
    exact .cons (reads_encode node h.1) (readsAll_encode rest h.2)

end

/-- What is written comes back: the same tags, each with one node or a sequence as before, and the
same spans. -/
theorem toTree_encode (text filename : String) (tree : Node)
    (h : ∀ n ∈ tree.subtrees, n.Writable ⟨filename, text⟩) :
    toTree ⟨text, tree.encode⟩ filename = .ok tree :=
  toTree_eq_ok_iff.mpr (reads_encode tree h)

end Document

/-- A sum whose tags lie on both sides of `@` in the order of keys, with an empty sequence and one
of two leaves, over a text with a character of two bytes. -/
def Samples.sumTree : Node :=
  let source : Source := ⟨"sum.arrai", "é + x"⟩
  .branch
    [("", .one (.leaf ⟨source, 3, 4⟩)),
      ("IDENT", .many []),
      ("expr", .many [.leaf ⟨source, 0, 2⟩, .branch [] ⟨source, 5, 6⟩])]
    ⟨source, 0, 6⟩

namespace Document

theorem toTree_encode_sum :
    (∀ n ∈ Samples.sumTree.subtrees, n.Writable ⟨"sum.arrai", "é + x"⟩) ∧
      toTree ⟨"é + x", Samples.sumTree.encode⟩ "sum.arrai" = .ok Samples.sumTree := by
  have hwritable : ∀ n ∈ Samples.sumTree.subtrees, n.Writable ⟨"sum.arrai", "é + x"⟩ := by decide
  exact ⟨hwritable, toTree_encode _ _ _ hwritable⟩

end Document

end Relational
