import Relational.Proofs.SpanMaking

/-!
# Lines and columns

The start of a span is given to a reader as a line and a column. Both are counted in the text before
the span, so that with every character the position moves on: to the next column, or to the first
one of the next line.

> `Text.earlier_append`: the position after a text is earlier than the one after any longer text
> that begins with it.

The texts before two spans of one source begin alike, and one of them is the beginning of the other:

> `Span.start_lt_iff_earlier`: one span starts before another exactly if its position is earlier. So
> a position stands for one start, and is found by counting forward (`Text.offsetAt?`).
-/

namespace Relational

namespace Text

/-! ## The order of positions -/

/-- One position, a line and a column, comes before another: on an earlier line, or on the same line
and further to the left. -/
def Earlier (p q : Nat × Nat) : Prop := p.1 < q.1 ∨ p.1 = q.1 ∧ p.2 < q.2

theorem Earlier.trans {p q r : Nat × Nat} (hpq : Earlier p q) (hqr : Earlier q r) :
    Earlier p r := by
  unfold Earlier at *
  omega

theorem Earlier.asymm {p q : Nat × Nat} (hpq : Earlier p q) : ¬Earlier q p := by
  unfold Earlier at *
  omega

theorem lineAfter_concat (before : List Char) (c : Char) :
    lineAfter (before ++ [c]) = if c = '\n' then lineAfter before + 1 else lineAfter before := by
  rw [lineAfter, lineAfter, List.count_append, List.count_singleton]
  by_cases hc : c = '\n'
  · simp [hc]
  · simp [hc]

theorem columnAfter_concat (before : List Char) (c : Char) :
    columnAfter (before ++ [c]) = if c = '\n' then 1 else columnAfter before + 1 := by
  rw [columnAfter, columnAfter, List.reverse_append, List.reverse_singleton, List.singleton_append,
    List.takeWhile_cons]
  by_cases hc : c = '\n'
  · simp [hc]
  · simp [hc]

/-- The line and the column of the character that follows `before`. -/
def positionAfter (before : List Char) : Nat × Nat := (lineAfter before, columnAfter before)

/-- A character moves the position on. -/
theorem earlier_concat (before : List Char) (c : Char) :
    Earlier (positionAfter before) (positionAfter (before ++ [c])) := by
  unfold Earlier positionAfter
  rw [lineAfter_concat, columnAfter_concat]
  by_cases hc : c = '\n'
  · rw [if_pos hc]
    exact .inl (Nat.lt_succ_self _)
  · rw [if_neg hc, if_neg hc]
    exact .inr ⟨rfl, Nat.lt_succ_self _⟩

theorem earlier_append (before : List Char) {more : List Char} (h : more ≠ []) :
    Earlier (positionAfter before) (positionAfter (before ++ more)) := by
  induction more generalizing before with
  | nil => exact absurd rfl h
  | cons c more ih =>
    have hstep := earlier_concat before c
    rw [List.append_cons]
    by_cases hmore : more = []
    · rwa [hmore, List.append_nil]
    · exact hstep.trans (ih (before ++ [c]) hmore)

theorem byteLength_pos {cs : List Char} (h : cs ≠ []) : 0 < byteLength cs := by
  cases cs with
  | nil => exact absurd rfl h
  | cons c cs => exact Nat.add_pos_left c.utf8Size_pos _

/-! ## Counting forward -/

/-- The offset that is reached in a text by going past a number of line breaks and then past a
number of characters. There is none if the text ends before that. -/
def offsetAt? : (breaks chars : Nat) → List Char → Option Nat
  | 0, 0, _ => some 0
  | 0, _ + 1, [] => none
  | _ + 1, _, [] => none
  | 0, chars + 1, c :: cs => (offsetAt? 0 chars cs).map (c.utf8Size + ·)
  | breaks + 1, chars, c :: cs =>
    (offsetAt? (if c = '\n' then breaks else breaks + 1) chars cs).map (c.utf8Size + ·)

theorem offsetAt?_chars (line after : List Char) :
    offsetAt? 0 line.length (line ++ after) = some (byteLength line) := by
  induction line with
  | nil => rw [List.length_nil, offsetAt?, byteLength]
  | cons c line ih =>
    rw [List.length_cons, List.cons_append, offsetAt?, ih, Option.map_some, byteLength]

/-- The last of some line breaks is where the count of characters begins. -/
theorem offsetAt?_breaks (lines : List Char) (chars : Nat) (cs : List Char) :
    offsetAt? (lines.count '\n' + 1) chars (lines ++ '\n' :: cs) =
      (offsetAt? 0 chars cs).map (byteLength lines + '\n'.utf8Size + ·) := by
  induction lines with
  | nil => rw [List.nil_append, List.count_nil, Nat.zero_add, offsetAt?, if_pos rfl, byteLength,
      Nat.zero_add]
  | cons c lines ih =>
    have hcount : (if c = '\n' then (c :: lines).count '\n' else (c :: lines).count '\n' + 1) =
        lines.count '\n' + 1 := by
      rw [List.count_cons]
      by_cases hc : c = '\n'
      · simp [hc]
      · simp [hc]
    rw [List.cons_append, offsetAt?, hcount, ih, Option.map_map, byteLength]
    refine congrArg (Option.map · _) (funext fun n => ?_)
    show c.utf8Size + (byteLength lines + '\n'.utf8Size + n) = _
    omega

/-- Counting forward to a position ends behind the text that it is the position of. -/
theorem offsetAt?_positionAfter (before after : List Char) :
    offsetAt? (lineAfter before - 1) (columnAfter before - 1) (before ++ after) =
      some (byteLength before) := by
  rw [lineAfter, Nat.add_sub_cancel]
  rcases exists_last_break before with hbefore | ⟨lines, line, rfl, hline⟩
  · rw [columnAfter_of_not_mem hbefore, Nat.add_sub_cancel, List.count_eq_zero.mpr hbefore,
      offsetAt?_chars]
  · have hcount : (lines ++ '\n' :: line).count '\n' = lines.count '\n' + 1 := by
      rw [List.count_append, List.count_cons_self, List.count_eq_zero.mpr hline]
    rw [columnAfter_append lines hline, Nat.add_sub_cancel, hcount, List.append_assoc,
      List.cons_append, offsetAt?_breaks, offsetAt?_chars, Option.map_some, byteLength_append,
      byteLength, Nat.add_assoc]

end Text

namespace Span

variable {a b : Span}

/-- A span whose text before it begins with that of another one starts there or behind, and in the
second case at a later position. -/
theorem Valid.start_eq_or_earlier (ha : a.Valid) (hb : b.Valid) (h : a.before <+: b.before) :
    (a.start = b.start ∧ a.before = b.before) ∨
      (a.start < b.start ∧
        Text.Earlier (Text.positionAfter a.before) (Text.positionAfter b.before)) := by
  obtain ⟨more, hmore⟩ := h
  obtain ⟨-, -, hstart, -⟩ := ha.cut
  obtain ⟨-, -, hstart', -⟩ := hb.cut
  rw [← hmore, Text.byteLength_append, hstart] at hstart'
  by_cases hnil : more = []
  · rw [hnil, List.append_nil] at hmore
    exact .inl ⟨by rw [← hstart', hnil]; rfl, hmore⟩
  · have hpos := Text.byteLength_pos hnil
    exact .inr ⟨by omega, hmore ▸ Text.earlier_append a.before hnil⟩

/-- The texts before two spans over one text are beginnings of each other, in one order or the
other. -/
theorem Valid.before_prefix (ha : a.Valid) (hb : b.Valid) (htext : a.source.text = b.source.text) :
    a.before <+: b.before ∨ b.before <+: a.before := by
  obtain ⟨after, hsource, -⟩ := ha.cut
  obtain ⟨after', hsource', -⟩ := hb.cut
  have hchars : a.source.chars = b.source.chars := congrArg String.toList htext
  rw [List.append_assoc] at hsource hsource'
  exact List.prefix_or_prefix_of_prefix ⟨_, hsource.symm⟩ ⟨_, hchars ▸ hsource'.symm⟩

theorem start_lt_iff_earlier (ha : a.Valid) (hb : b.Valid)
    (htext : a.source.text = b.source.text) :
    a.start < b.start ↔ Text.Earlier (a.line, a.column) (b.line, b.column) := by
  show a.start < b.start ↔
    Text.Earlier (Text.positionAfter a.before) (Text.positionAfter b.before)
  rcases ha.before_prefix hb htext with h | h
  · rcases ha.start_eq_or_earlier hb h with ⟨hstart, hbefore⟩ | ⟨hlt, hearlier⟩
    · rw [hstart, hbefore]
      exact iff_of_false (Nat.lt_irrefl _) fun hself => hself.asymm hself
    · exact iff_of_true hlt hearlier
  · rcases hb.start_eq_or_earlier ha h with ⟨hstart, hbefore⟩ | ⟨hlt, hearlier⟩
    · rw [hstart, hbefore]
      exact iff_of_false (Nat.lt_irrefl _) fun hself => hself.asymm hself
    · exact iff_of_false (Nat.lt_asymm hlt) hearlier.asymm

/-- Lines and columns are in the order of the starts that they stand for. So the spans with the same
line and column have the same start, and counting forward over the text to a line and a column leads
to it. -/
theorem line_column_identify (ha : a.Made) (hb : b.Made)
    (htext : a.source.text = b.source.text) :
    (a.start < b.start ↔ a.line < b.line ∨ a.line = b.line ∧ a.column < b.column) ∧
      (a.line = b.line → a.column = b.column → a.start = b.start) ∧
      Text.offsetAt? (a.line - 1) (a.column - 1) a.source.chars = some a.start := by
  have hlt : a.start < b.start ↔ a.line < b.line ∨ a.line = b.line ∧ a.column < b.column :=
    start_lt_iff_earlier ha.valid hb.valid htext
  have hgt : b.start < a.start ↔ b.line < a.line ∨ b.line = a.line ∧ b.column < a.column :=
    start_lt_iff_earlier hb.valid ha.valid htext.symm
  refine ⟨hlt, fun hline hcolumn => ?_, ?_⟩
  · omega
  · obtain ⟨after, hsource, hstart, -⟩ := ha.valid.cut
    rw [hsource, List.append_assoc, ← hstart]
    exact Text.offsetAt?_positionAfter a.before (a.chars ++ after)

end Span

namespace Samples

/-- The end of a line with a two-byte character, and the start of the next one. -/
theorem line_column_identify_break :
    (Span.ofOffsets accented 3 3).line = 1 ∧ (Span.ofOffsets accented 3 3).column = 3 ∧
      (Span.ofOffsets accented 4 8).line = 2 ∧ (Span.ofOffsets accented 4 8).column = 1 ∧
      (Span.ofOffsets accented 3 3).start < (Span.ofOffsets accented 4 8).start ∧
      Text.offsetAt? 1 0 accented.chars = some (Span.ofOffsets accented 4 8).start := by
  have hline : (Span.ofOffsets accented 3 3).line = 1 := by decide +kernel
  have hcolumn : (Span.ofOffsets accented 3 3).column = 3 := by decide +kernel
  have hline' : (Span.ofOffsets accented 4 8).line = 2 := by decide +kernel
  have hcolumn' : (Span.ofOffsets accented 4 8).column = 1 := by decide +kernel
  have hidentify :=
    Span.line_column_identify (Span.Made.ofOffsets accented 3 3) (.ofOffsets accented 4 8) rfl
  have hoffset :=
    (Span.line_column_identify (Span.Made.ofOffsets accented 4 8) (.ofOffsets accented 4 8) rfl).2.2
  rw [hline', hcolumn'] at hoffset
  refine ⟨hline, hcolumn, hline', hcolumn', hidentify.1.mpr (.inl ?_), hoffset⟩
  rw [hline, hline']
  decide

end Samples

end Relational
