import Relational.Span
import Relational.Text.Literal

/-!
# Places where a text can be cut

A text can be cut at a byte offset that falls between two characters, or at an end. A span is valid
when its source can be cut at both of its ends, in this order:

> `Span.Valid.cut`: the text before a valid span, the text under it and the text after it make up
> the source, and they take just the bytes that the offsets say.

> Every way of making spans gives valid ones (`valid_ofOffsets`), from valid ones (`valid_mergeOr`,
> `Valid.extendLeft`).
-/

namespace Relational

namespace Text

/-! ## Boundaries -/

theorem byteLength_append (before after : List Char) :
    byteLength (before ++ after) = byteLength before + byteLength after := by
  induction before with
  | nil => simp [byteLength]
  | cons c before ih => simp [byteLength, ih, Nat.add_assoc]

theorem byteLength_reverse (cs : List Char) : byteLength cs.reverse = byteLength cs := by
  induction cs with
  | nil => rfl
  | cons c cs ih => simp [byteLength_append, byteLength, ih, Nat.add_comm]

/-- A walk to the left over some characters takes off the bytes of all of them. -/
theorem foldl_sub_utf8Size (cs : List Char) (start : Nat) :
    cs.foldl (fun start c => start - c.utf8Size) start = start - byteLength cs := by
  induction cs generalizing start with
  | nil => rfl
  | cons c cs ih => rw [List.foldl_cons, ih, byteLength, Nat.sub_sub]

/-- The bytes of a text are those of its characters. -/
theorem byteLength_toList (s : String) : byteLength s.toList = s.utf8ByteSize := by
  have hchars : ∀ cs : List Char, byteLength cs = (String.ofList cs).utf8ByteSize := by
    intro cs
    induction cs with
    | nil => rfl
    | cons c cs ih =>
      rw [byteLength, ih, String.ofList_cons, String.utf8ByteSize_append,
        String.utf8ByteSize_singleton]
  rw [hchars, String.ofList_toList]

theorem isBoundary_cons_add (c : Char) (cs : List Char) (n : Nat) :
    isBoundary (c :: cs) (c.utf8Size + n) = isBoundary cs n := by
  obtain ⟨m, hm⟩ : ∃ m, c.utf8Size + n = m + 1 :=
    Nat.exists_eq_succ_of_ne_zero (by have := c.utf8Size_pos; omega)
  have hle : c.utf8Size ≤ m + 1 := by omega
  have hsub : m + 1 - c.utf8Size = n := by omega
  rw [hm, isBoundary, hsub, decide_eq_true hle, Bool.true_and]

theorem isBoundary_append_add (before after : List Char) (n : Nat) :
    isBoundary (before ++ after) (byteLength before + n) = isBoundary after n := by
  induction before with
  | nil => rw [List.nil_append, byteLength, Nat.zero_add]
  | cons c before ih =>
    rw [List.cons_append, byteLength, Nat.add_assoc, isBoundary_cons_add, ih]

theorem isBoundary_zero (cs : List Char) : isBoundary cs 0 = true := by
  cases cs <;> rfl

/-- An offset is a boundary exactly if some characters from the start take as many bytes. -/
theorem isBoundary_iff {cs : List Char} {n : Nat} :
    isBoundary cs n = true ↔ ∃ before after, cs = before ++ after ∧ byteLength before = n := by
  constructor
  · intro h
    induction cs generalizing n with
    | nil =>
      cases n with
      | zero => exact ⟨[], [], rfl, rfl⟩
      | succ n => cases h
    | cons c cs ih =>
      cases n with
      | zero => exact ⟨[], c :: cs, rfl, rfl⟩
      | succ n =>
        rw [isBoundary, Bool.and_eq_true, decide_eq_true_iff] at h
        obtain ⟨before, after, rfl, hlength⟩ := ih h.2
        exact ⟨c :: before, after, rfl, by rw [byteLength]; omega⟩
  · rintro ⟨before, after, rfl, rfl⟩
    exact (isBoundary_append_add before after 0).trans (isBoundary_zero after)

theorem takeBytes_append (before after : List Char) :
    takeBytes (before ++ after) (byteLength before) = before := by
  induction before with
  | nil =>
    cases after with
    | nil => rfl
    | cons c after => exact if_pos c.utf8Size_pos
  | cons c before ih =>
    rw [List.cons_append, byteLength, takeBytes, if_neg (by omega), Nat.add_sub_cancel_left, ih]

theorem dropBytes_append (before after : List Char) :
    dropBytes (before ++ after) (byteLength before) = after := by
  induction before with
  | nil => cases after <;> rfl
  | cons c before ih =>
    have := c.utf8Size_pos
    rw [List.cons_append, byteLength, dropBytes, if_neg (by omega), Nat.add_sub_cancel_left, ih]

theorem isBoundary_floorBoundary (cs : List Char) (n : Nat) :
    isBoundary cs (floorBoundary cs n) = true := by
  induction cs generalizing n with
  | nil => rfl
  | cons c cs ih =>
    rw [floorBoundary]
    split
    next => exact isBoundary_zero _
    next => exact (isBoundary_cons_add c cs _).trans (ih _)

theorem floorBoundary_le (cs : List Char) (n : Nat) : floorBoundary cs n ≤ n := by
  induction cs generalizing n with
  | nil => exact Nat.zero_le n
  | cons c cs ih =>
    rw [floorBoundary]
    split
    next => exact Nat.zero_le n
    next => have := ih (n - c.utf8Size); omega

theorem isBoundary_ceilBoundary (cs : List Char) (n : Nat) :
    isBoundary cs (ceilBoundary cs n) = true := by
  induction cs generalizing n with
  | nil => rfl
  | cons c cs ih =>
    rw [ceilBoundary]
    split
    next => exact isBoundary_zero _
    next => exact (isBoundary_cons_add c cs _).trans (ih _)

theorem floorBoundary_of_isBoundary {cs : List Char} {n : Nat} (h : isBoundary cs n = true) :
    floorBoundary cs n = n := by
  obtain ⟨before, after, rfl, rfl⟩ := isBoundary_iff.mp h
  clear h
  induction before with
  | nil =>
    cases after with
    | nil => rfl
    | cons c after => exact if_pos c.utf8Size_pos
  | cons c before ih =>
    rw [List.cons_append, byteLength, floorBoundary, if_neg (by omega), Nat.add_sub_cancel_left, ih]

theorem ceilBoundary_of_isBoundary {cs : List Char} {n : Nat} (h : isBoundary cs n = true) :
    ceilBoundary cs n = n := by
  obtain ⟨before, after, rfl, rfl⟩ := isBoundary_iff.mp h
  clear h
  induction before with
  | nil => cases after <;> rfl
  | cons c before ih =>
    have := c.utf8Size_pos
    rw [List.cons_append, byteLength, ceilBoundary, if_neg (by omega), Nat.add_sub_cancel_left, ih]

theorem le_byteLength_of_isBoundary {cs : List Char} {n : Nat} (h : isBoundary cs n = true) :
    n ≤ byteLength cs := by
  obtain ⟨before, after, rfl, rfl⟩ := isBoundary_iff.mp h
  rw [byteLength_append]
  exact Nat.le_add_right _ _

/-- A text that does not stand for itself starts with a quote, which is a single byte. -/
theorem isBoundary_one_of_readLiteral {cs : List Char}
    (h : readLiteral (String.ofList cs) ≠ String.ofList cs) : isBoundary cs 1 = true := by
  unfold readLiteral at h
  rw [String.toList_ofList] at h
  split at h
  next body => exact (isBoundary_cons_add '\'' body 0).trans (isBoundary_zero body)
  next body => exact (isBoundary_cons_add '"' body 0).trans (isBoundary_zero body)
  next body => exact (isBoundary_cons_add '`' body 0).trans (isBoundary_zero body)
  next => exact absurd rfl h

end Text

namespace Span

/-! ## Valid spans -/

/-- The source can be cut at the start of the span and, not before that, at its end. -/
structure Valid (span : Span) : Prop where
  start_le_stop : span.start ≤ span.stop
  start : Text.isBoundary span.source.chars span.start = true
  stop : Text.isBoundary span.source.chars span.stop = true

variable {span : Span}

theorem valid_iff : span.Valid ↔ span.start ≤ span.stop ∧
    Text.isBoundary span.source.chars span.start = true ∧
    Text.isBoundary span.source.chars span.stop = true := by
  constructor
  · intro h
    exact ⟨h.start_le_stop, h.start, h.stop⟩
  · rintro ⟨hle, hstart, hstop⟩
    exact ⟨hle, hstart, hstop⟩

instance : Decidable span.Valid := decidable_of_iff _ valid_iff.symm

/-- The source is the text before a valid span, the text under it and a rest, and the offsets say
where they end. -/
theorem Valid.cut (h : span.Valid) :
    ∃ after, span.source.chars = span.before ++ span.chars ++ after ∧
      Text.byteLength span.before = span.start ∧
      Text.byteLength (span.before ++ span.chars) = span.stop := by
  obtain ⟨before, rest, hsource, hstart⟩ := Text.isBoundary_iff.mp h.start
  have hstop := h.stop
  have hle := h.start_le_stop
  -- the end, counted from the start, is a boundary of what is left there
  obtain ⟨size, hsize⟩ := Nat.exists_eq_add_of_le h.start_le_stop
  rw [hsource, hsize, ← hstart, Text.isBoundary_append_add] at hstop
  obtain ⟨covered, after, rfl, hcovered⟩ := Text.isBoundary_iff.mp hstop
  have hbefore : span.before = before := by
    rw [Span.before, hsource, ← hstart, Text.takeBytes_append]
  have hchars : span.chars = covered := by
    rw [Span.chars, hsource, ← hstart, Text.dropBytes_append, hstart,
      show span.stop - span.start = Text.byteLength covered by omega, Text.takeBytes_append]
  refine ⟨after, ?_, ?_, ?_⟩
  · rw [hbefore, hchars, hsource, List.append_assoc]
  · rw [hbefore, hstart]
  · rw [hbefore, hchars, Text.byteLength_append]
    omega

theorem valid_ofOffsets (source : Source) (start stop : Nat) :
    (ofOffsets source start stop).Valid where
  start_le_stop := Nat.le_trans (Text.floorBoundary_le _ _) (Nat.min_le_right _ _)
  start := Text.isBoundary_floorBoundary _ _
  stop := Text.isBoundary_ceilBoundary _ _

theorem Valid.stop_le_size (h : span.Valid) : span.stop ≤ span.source.size :=
  Text.le_byteLength_of_isBoundary h.stop

/-- A valid span is the one of its own offsets. -/
theorem Valid.ofOffsets_eq (h : span.Valid) :
    ofOffsets span.source span.start span.stop = span := by
  have hstop : Text.ceilBoundary span.source.chars (min span.stop span.source.size) = span.stop := by
    rw [Nat.min_eq_left h.stop_le_size]
    exact Text.ceilBoundary_of_isBoundary h.stop
  have hstart : Text.floorBoundary span.source.chars (min span.start span.stop) = span.start := by
    rw [Nat.min_eq_left h.start_le_stop]
    exact Text.floorBoundary_of_isBoundary h.start
  show Span.mk _ (Text.floorBoundary _ (min _ (Text.ceilBoundary _ _)))
    (Text.ceilBoundary _ _) = span
  rw [hstop, hstart]

/-- The walk to the left ends after the characters that it does not pass. -/
theorem Valid.start_extendLeft (h : span.Valid) (count : Nat) :
    (span.extendLeft count).start =
      Text.byteLength (span.before.take (span.before.length - count)) := by
  obtain ⟨-, -, hstart, -⟩ := h.cut
  have hlength := Text.byteLength_append (span.before.take (span.before.length - count))
    (span.before.drop (span.before.length - count))
  rw [List.take_append_drop, hstart] at hlength
  show (span.before.reverse.take count).foldl _ span.start = _
  rw [Text.foldl_sub_utf8Size, List.take_reverse, Text.byteLength_reverse]
  omega

theorem Valid.extendLeft (h : span.Valid) (count : Nat) : (span.extendLeft count).Valid := by
  obtain ⟨after, hsource, hstart, -⟩ := h.cut
  -- the characters that are kept before the span, and those that it takes in
  let kept := span.before.take (span.before.length - count)
  let taken := span.before.drop (span.before.length - count)
  have hbefore : kept ++ taken = span.before := List.take_append_drop ..
  have hkept : (span.extendLeft count).start = Text.byteLength kept := h.start_extendLeft count
  refine ⟨?_, Text.isBoundary_iff.mpr ⟨kept, taken ++ span.chars ++ after, ?_, hkept.symm⟩, h.stop⟩
  · have hlength := Text.byteLength_append kept taken
    have hle := h.start_le_stop
    rw [hbefore, hstart] at hlength
    show (span.extendLeft count).start ≤ span.stop
    omega
  · rw [← List.append_assoc, ← List.append_assoc, hbefore]
    exact hsource

/-- Widening over one source keeps a span valid: either end is an end of one of the spans. -/
theorem mergeFrom_valid {first acc merged : Span} {spans : List Span}
    (h : mergeFrom first acc spans = .ok merged) (hsource : acc.source = first.source)
    (hacc : acc.Valid) (hspans : ∀ span ∈ spans, span.Valid) : merged.Valid := by
  induction spans generalizing acc with
  | nil => exact Except.ok.inj h ▸ hacc
  | cons span spans ih =>
    rw [List.forall_mem_cons] at hspans
    rw [mergeFrom] at h
    split at h
    next hsame =>
      have hspan : span.source = acc.source := (eq_of_beq hsame).symm.trans hsource.symm
      refine ih h hsource ⟨?_, ?_, ?_⟩ hspans.2
      · have hle := hacc.start_le_stop
        show min acc.start span.start ≤ max acc.stop span.stop
        omega
      · show Text.isBoundary acc.source.chars (min acc.start span.start) = true
        rcases Nat.le_total acc.start span.start with hle | hle
        · rw [Nat.min_eq_left hle]
          exact hacc.start
        · rw [Nat.min_eq_right hle, ← hspan]
          exact hspans.1.start
      · show Text.isBoundary acc.source.chars (max acc.stop span.stop) = true
        rcases Nat.le_total acc.stop span.stop with hle | hle
        · rw [Nat.max_eq_right hle, ← hspan]
          exact hspans.1.stop
        · rw [Nat.max_eq_left hle]
          exact hacc.stop
    next => cases h

theorem merge_valid {merged : Span} {spans : List Span} (h : merge spans = .ok merged)
    (hspans : ∀ span ∈ spans, span.Valid) : merged.Valid := by
  cases spans with
  | nil => cases h
  | cons first rest =>
    rw [List.forall_mem_cons] at hspans
    exact mergeFrom_valid h rfl hspans.1 hspans.2

theorem valid_mergeOr {fallback : Span} {spans : List Span} (hfallback : fallback.Valid)
    (hspans : ∀ span ∈ spans, span.Valid) : (mergeOr fallback spans).Valid := by
  unfold mergeOr
  split
  next merged hmerge => exact merge_valid hmerge hspans
  next => exact hfallback

end Span

end Relational
