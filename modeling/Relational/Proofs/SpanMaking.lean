import Mathlib.Data.List.TakeWhile
import Relational.Proofs.Covering

/-!
# The spans that can be made

Spans are made of offsets, of whole texts and of places that are found in a text, and of spans that
were made before. Whatever the offsets are, and in whatever order spans are made of spans, the text
of the source can be cut at both of their ends:

> `Span.made_iff_valid`: the spans that can be made are the valid ones.

Reading a span cuts the text of its source, and would fail where it cannot be cut. `Text.slice?`
cuts a text with that check, and `text?`, `lineColumn?` and `describe?` read a span with it:

> `Span.made_readable`: no reading of a span that can be made fails, and each gives what is read
> without the checks. Offsets in order and inside the text make the least span around them.
-/

namespace Relational

namespace Text

/-! ## Boundaries of the encoded text -/

/-- The boundaries of a text are the positions at which its encoding can be cut. -/
theorem isBoundary_iff_isValid {s : String} {n : Nat} :
    isBoundary s.toList n = true ↔ String.Pos.Raw.IsValid s ⟨n⟩ := by
  rw [isBoundary_iff, String.Pos.Raw.isValid_iff_exists_append]
  constructor
  · rintro ⟨before, after, hsplit, rfl⟩
    refine ⟨String.ofList before, String.ofList after, ?_, ?_⟩
    · rw [← String.ofList_append, ← hsplit, String.ofList_toList]
    · rw [String.Pos.Raw.ext_iff, String.byteIdx_rawEndPos, ← byteLength_toList,
        String.toList_ofList]
  · rintro ⟨before, after, rfl, hpos⟩
    refine ⟨before.toList, after.toList, String.toList_append, ?_⟩
    rw [String.Pos.Raw.ext_iff, String.byteIdx_rawEndPos] at hpos
    exact (byteLength_toList before).trans hpos.symm

/-! ## The boundaries next to an offset -/

theorem le_floorBoundary {cs : List Char} {b n : Nat} (hb : isBoundary cs b = true) (hle : b ≤ n) :
    b ≤ floorBoundary cs n := by
  obtain ⟨before, after, rfl, rfl⟩ := isBoundary_iff.mp hb
  clear hb
  induction before generalizing n with
  | nil => exact Nat.zero_le _
  | cons c before ih =>
    rw [byteLength] at hle ⊢
    have hrest := @ih (n - c.utf8Size) (by omega)
    rw [List.cons_append, floorBoundary, if_neg (by omega)]
    omega

theorem ceilBoundary_le {cs : List Char} {b n : Nat} (hb : isBoundary cs b = true) (hle : n ≤ b) :
    ceilBoundary cs n ≤ b := by
  obtain ⟨before, after, rfl, rfl⟩ := isBoundary_iff.mp hb
  clear hb
  induction before generalizing n with
  | nil =>
    obtain rfl : n = 0 := Nat.le_zero.mp hle
    cases after <;> exact Nat.le_refl 0
  | cons c before ih =>
    rw [byteLength] at hle ⊢
    have hrest := @ih (n - c.utf8Size) (by omega)
    rw [List.cons_append, ceilBoundary]
    split
    next => exact Nat.zero_le _
    next => omega

theorem le_ceilBoundary {cs : List Char} {n : Nat} (h : n ≤ byteLength cs) :
    n ≤ ceilBoundary cs n := by
  induction cs generalizing n with
  | nil => exact h
  | cons c cs ih =>
    rw [byteLength] at h
    have hrest := @ih (n - c.utf8Size) (by omega)
    rw [ceilBoundary]
    split
    next => omega
    next => omega

/-! ## Cutting with a check -/

/-- The characters from one offset up to another, if the text can be cut at both of them and they
are in order. -/
def slice? (cs : List Char) (start stop : Nat) : Option (List Char) :=
  if start ≤ stop ∧ isBoundary cs start = true ∧ isBoundary cs stop = true then
    some (takeBytes (dropBytes cs start) (stop - start))
  else none

theorem slice?_append (before covered after : List Char) :
    slice? (before ++ covered ++ after) (byteLength before) (byteLength (before ++ covered)) =
      some covered := by
  have hstart : isBoundary (before ++ covered ++ after) (byteLength before) = true :=
    isBoundary_iff.mpr ⟨before, covered ++ after, List.append_assoc .., rfl⟩
  have hstop : isBoundary (before ++ covered ++ after) (byteLength (before ++ covered)) = true :=
    isBoundary_iff.mpr ⟨before ++ covered, after, rfl, rfl⟩
  have hlength := byteLength_append before covered
  rw [slice?, if_pos ⟨by omega, hstart, hstop⟩, List.append_assoc, dropBytes_append, hlength,
    Nat.add_sub_cancel_left, takeBytes_append]

/-- The offset of the last line break of a text. -/
def lastBreak? : List Char → Option Nat
  | [] => none
  | c :: cs =>
    match lastBreak? cs with
    | some offset => some (c.utf8Size + offset)
    | none => if c = '\n' then some 0 else none

theorem lastBreak?_eq_none {cs : List Char} (h : '\n' ∉ cs) : lastBreak? cs = none := by
  induction cs with
  | nil => rfl
  | cons c cs ih =>
    rw [List.mem_cons, not_or] at h
    rw [lastBreak?, ih h.2]
    exact if_neg (Ne.symm h.1)

theorem lastBreak?_append {rest : List Char} (lines : List Char) (h : '\n' ∉ rest) :
    lastBreak? (lines ++ '\n' :: rest) = some (byteLength lines) := by
  induction lines with
  | nil =>
    rw [List.nil_append, lastBreak?, lastBreak?_eq_none h]
    rfl
  | cons c lines ih => rw [List.cons_append, lastBreak?, ih, byteLength]

/-- A text is without line breaks, or it has a last one. -/
theorem exists_last_break (cs : List Char) :
    '\n' ∉ cs ∨ ∃ lines rest, cs = lines ++ '\n' :: rest ∧ '\n' ∉ rest := by
  induction cs with
  | nil => exact .inl List.not_mem_nil
  | cons c cs ih =>
    rcases ih with hcs | ⟨lines, rest, rfl, hrest⟩
    · by_cases hc : c = '\n'
      · exact .inr ⟨[], cs, by rw [hc, List.nil_append], hcs⟩
      · exact .inl (List.not_mem_cons_of_ne_of_not_mem (Ne.symm hc) hcs)
    · exact .inr ⟨c :: lines, rest, rfl, hrest⟩

/-- The characters after the last line break, cut off with a check. -/
def lastLine? (cs : List Char) : Option (List Char) :=
  match lastBreak? cs with
  | some offset => slice? cs (offset + 1) (byteLength cs)
  | none => some cs

/-- A line break is a single byte, so that the text can be cut behind the last one. -/
theorem lastLine?_append {rest : List Char} (lines : List Char) (h : '\n' ∉ rest) :
    lastLine? (lines ++ '\n' :: rest) = some rest := by
  have hslice := slice?_append (lines ++ ['\n']) rest []
  rw [List.append_nil, List.append_assoc, List.singleton_append, byteLength_append] at hslice
  rw [lastLine?, lastBreak?_append lines h]
  exact hslice

theorem forall_ne_break {cs : List Char} (h : '\n' ∉ cs) :
    ∀ c ∈ cs.reverse, (c != '\n') = true := by
  intro c hc
  exact bne_iff_ne.mpr (ne_of_mem_of_not_mem (List.mem_reverse.mp hc) h)

theorem columnAfter_of_not_mem {cs : List Char} (h : '\n' ∉ cs) :
    columnAfter cs = cs.length + 1 := by
  rw [columnAfter, List.takeWhile_eq_self_iff.mpr (forall_ne_break h), List.length_reverse]

theorem columnAfter_append {rest : List Char} (lines : List Char) (h : '\n' ∉ rest) :
    columnAfter (lines ++ '\n' :: rest) = rest.length + 1 := by
  have hsplit : (lines ++ '\n' :: rest).reverse = rest.reverse ++ '\n' :: lines.reverse := by
    simp
  rw [columnAfter, hsplit, List.takeWhile_append_of_pos (forall_ne_break h),
    List.takeWhile_cons_of_neg (by decide), List.append_nil, List.length_reverse]

/-- The column is counted from the last line break, wherever that is. -/
theorem lastLine?_eq (cs : List Char) :
    ∃ line, lastLine? cs = some line ∧ columnAfter cs = line.length + 1 := by
  rcases exists_last_break cs with hcs | ⟨lines, rest, rfl, hrest⟩
  · refine ⟨cs, ?_, columnAfter_of_not_mem hcs⟩
    rw [lastLine?, lastBreak?_eq_none hcs]
  · exact ⟨rest, lastLine?_append lines hrest, columnAfter_append lines hrest⟩

end Text

namespace Span

variable {span : Span}

/-! ## Reading with checks -/

/-- The text covered, if the source can be cut at both ends. -/
def text? (span : Span) : Option String :=
  (Text.slice? span.source.chars span.start span.stop).map String.ofList

/-- The line and the column of the start, if the source can be cut there, and the part before it
behind its last line break. -/
def lineColumn? (span : Span) : Option (Nat × Nat) := do
  let before ← Text.slice? span.source.chars 0 span.start
  let line ← Text.lastLine? before
  return (before.count '\n' + 1, line.length + 1)

/-- The range and the quoted text, if the source can be cut at both ends. -/
def describe? (span : Span) : Option String :=
  span.text?.map fun text =>
    span.filename ++ ":" ++ toString span.start ++ ".." ++ toString span.stop ++ " " ++
      Text.quoted text

theorem Valid.text?_eq (h : span.Valid) : span.text? = some span.text := by
  obtain ⟨after, hsource, hstart, hstop⟩ := h.cut
  rw [text?, hsource, ← hstart, ← hstop, Text.slice?_append]
  rfl

theorem Valid.lineColumn?_eq (h : span.Valid) :
    span.lineColumn? = some (span.line, span.column) := by
  obtain ⟨after, hsource, hstart, -⟩ := h.cut
  have hbefore : Text.slice? span.source.chars 0 span.start = some span.before := by
    have hslice := Text.slice?_append [] span.before (span.chars ++ after)
    rwa [List.nil_append, ← List.append_assoc, ← hsource, hstart] at hslice
  obtain ⟨line, hline, hcolumn⟩ := Text.lastLine?_eq span.before
  rw [lineColumn?, hbefore, Option.bind_eq_bind, Option.bind_some, hline, column, hcolumn]
  rfl

theorem Valid.describe?_eq (h : span.Valid) : span.describe? = some span.describe := by
  rw [describe?, h.text?_eq]
  rfl

/-! ## Making spans -/

/-- The spans that come out of any sequence of ways to make them. -/
inductive Made : Span → Prop
  | ofOffsets (source : Source) (start stop : Nat) : Made (Span.ofOffsets source start stop)
  | whole (source : Source) : Made (Span.whole source)
  | unknown : Made Span.unknown
  | detached (name text : String) : Made (Span.detached name text)
  | find {source : Source} {needle : String} {span : Span} (h : find? source needle = some span) :
      Made span
  | extendLeft {span : Span} (h : Made span) (count : Nat) : Made (span.extendLeft count)
  | merge {spans : List Span} {merged : Span} (hspans : ∀ span ∈ spans, Made span)
      (h : Span.merge spans = .ok merged) : Made merged
  | mergeOr {fallback : Span} {spans : List Span} (hfallback : Made fallback)
      (hspans : ∀ span ∈ spans, Made span) : Made (Span.mergeOr fallback spans)

/-- Every way to make a span gives a valid one, of spans that are valid. -/
theorem Made.valid (h : span.Made) : span.Valid := by
  induction h with
  | ofOffsets source start stop => exact valid_ofOffsets source start stop
  | whole source => exact valid_ofOffsets source _ _
  | unknown => exact valid_ofOffsets _ _ _
  | detached name text => exact valid_ofOffsets _ _ _
  | find h =>
    obtain ⟨start, -, rfl⟩ := Option.map_eq_some_iff.mp h
    exact valid_ofOffsets _ _ _
  | extendLeft _ count ih => exact ih.extendLeft count
  | merge _ h ih => exact merge_valid h ih
  | mergeOr _ _ ihfallback ih => exact valid_mergeOr ihfallback ih

/-- The spans that can be made are the valid ones, since a valid span is that of its offsets. -/
theorem made_iff_valid : span.Made ↔ span.Valid :=
  ⟨Made.valid, fun h => h.ofOffsets_eq ▸ Made.ofOffsets _ _ _⟩

/-- Offsets in order and inside the text make the least valid span around them. -/
theorem isLeast_ofOffsets {source : Source} {start stop : Nat} (hle : start ≤ stop)
    (hstop : stop ≤ source.size) :
    IsLeast
      {span : Span | span.Valid ∧ span.source = source ∧ span.start ≤ start ∧ stop ≤ span.stop}
      (ofOffsets source start stop) := by
  have hmin : min stop source.size = stop := Nat.min_eq_left hstop
  have hceil : stop ≤ Text.ceilBoundary source.chars stop := Text.le_ceilBoundary hstop
  refine ⟨⟨valid_ofOffsets source start stop, rfl, ?_, ?_⟩, ?_⟩
  · exact Nat.le_trans (Text.floorBoundary_le _ _) (Nat.min_le_left _ _)
  · show stop ≤ Text.ceilBoundary source.chars (min stop source.size)
    rwa [hmin]
  · rintro span ⟨hvalid, rfl, hstart, hspan⟩
    refine ⟨rfl, Text.le_floorBoundary hvalid.start ?_, ?_⟩
    · rw [hmin]
      omega
    · show Text.ceilBoundary span.source.chars (min stop span.source.size) ≤ span.stop
      rw [hmin]
      exact Text.ceilBoundary_le hvalid.stop hspan

/-- However a span was made, its ends are in order, inside the text of its source and between two
characters of it. So no reading of the span cuts the text where it cannot be cut. Offsets in order
and inside the text make the least span that is cut like that and contains them. -/
theorem made_readable :
    (∀ span : Span, span.Made →
      (span.start ≤ span.stop ∧ span.stop ≤ span.source.text.utf8ByteSize ∧
        String.Pos.Raw.IsValid span.source.text ⟨span.start⟩ ∧
        String.Pos.Raw.IsValid span.source.text ⟨span.stop⟩) ∧
      span.text? = some span.text ∧
      span.lineColumn? = some (span.line, span.column) ∧
      span.describe? = some span.describe) ∧
    ∀ (source : Source) (start stop : Nat), start ≤ stop → stop ≤ source.text.utf8ByteSize →
      IsLeast
        {span : Span | span.Valid ∧ span.source = source ∧ span.start ≤ start ∧ stop ≤ span.stop}
        (ofOffsets source start stop) := by
  constructor
  · intro span hmade
    have hvalid := hmade.valid
    have hstop : span.stop ≤ span.source.text.utf8ByteSize := by
      rw [← Text.byteLength_toList]
      exact hvalid.stop_le_size
    exact ⟨⟨hvalid.start_le_stop, hstop, Text.isBoundary_iff_isValid.mp hvalid.start,
      Text.isBoundary_iff_isValid.mp hvalid.stop⟩, hvalid.text?_eq, hvalid.lineColumn?_eq,
      hvalid.describe?_eq⟩
  · intro source start stop hle hstop
    rw [← Text.byteLength_toList] at hstop
    exact isLeast_ofOffsets hle hstop

end Span

namespace Samples

/-- Characters of one, two and three bytes, on two lines. -/
def accented : Source := { name := "accented", text := "aé\n→b" }

/-- Offsets inside of a character make the span of the character, and this reaches over the line
break and the character before it if it is extended by two. -/
theorem made_readable_accented :
    ((Span.ofOffsets accented 5 6).extendLeft 2).Made ∧
      ((Span.ofOffsets accented 5 6).extendLeft 2).text? = some "é\n→" ∧
      ((Span.ofOffsets accented 5 6).extendLeft 2).lineColumn? = some (1, 2) ∧
      IsLeast
        {span : Span | span.Valid ∧ span.source = accented ∧ span.start ≤ 5 ∧ 6 ≤ span.stop}
        ⟨accented, 4, 7⟩ := by
  have hmade : ((Span.ofOffsets accented 5 6).extendLeft 2).Made :=
    (Span.Made.ofOffsets accented 5 6).extendLeft 2
  have hleast := Span.made_readable.2 accented 5 6 (by decide) (by decide)
  have hspan : Span.ofOffsets accented 5 6 = ⟨accented, 4, 7⟩ := by decide +kernel
  obtain ⟨-, htext, hline, -⟩ := Span.made_readable.1 _ hmade
  refine ⟨hmade, htext.trans ?_, hline.trans ?_, hspan ▸ hleast⟩
  · decide +kernel
  · decide +kernel

end Samples

end Relational
