import Mathlib.Data.Nat.Digits.Defs
import Relational.Proofs.Quoting

/-!
# What escapes stand for

A decoder of escapes reads a text from left to right. What it comes to next stands for one
character: a backslash and a letter for a control character, a backslash, one of three letters and a
fixed number of places for a code point, any other character after a backslash for itself, and all
else for itself.

> `decode value?`: the decoder that finds the code point in a row of places by `value?`.

With `hexValue?`, all of the places are hexadecimal digits. `unescape` takes a plus sign in front of
them as well, as `signedValue?` does, and that is the only difference:

> `unescape_eq_decode_iff`: `unescape` decodes as if all places had to be digits, exactly where the
> decoder comes to no escape with a sign among its places.
-/

namespace Relational.Text

/-! ## A decoder of escapes -/

/-- The letters for control characters. -/
def controls : List (Char × Char) :=
  [('n', '\n'), ('t', '\t'), ('r', '\r'), ('0', '\x00'), ('a', '\x07'), ('b', '\x08'),
    ('f', '\x0c'), ('v', '\x0b')]

/-- The letters for code points, with the numbers of their places. -/
def codes : List (Char × Nat) := [('x', 2), ('u', 4), ('U', 8)]

/-- The hexadecimal digits in ascending order, with small and with capital letters. -/
def hexAlphabets : List (List Char) := ["0123456789abcdef".toList, "0123456789ABCDEF".toList]

/-- The value of a hexadecimal digit: its place in its alphabet. -/
def digitValue? (c : Char) : Option Nat := hexAlphabets.findSome? (·.idxOf? c)

/-- The number that a row of hexadecimal digits stands for. -/
def hexValue? (digits : List Char) : Option Nat :=
  (digits.mapM digitValue?).map fun values => Nat.ofDigits 16 values.reverse

/-- The number that a row of hexadecimal digits stands for, where a plus sign may stand in front. -/
def signedValue? : List Char → Option Nat
  | '+' :: digits => hexValue? digits
  | digits => hexValue? digits

section Decoding

variable (value? : List Char → Option Nat)

/-- The character whose code point stands in the next places of a text, and what follows them. -/
def coded? (text : List Char) (width : Nat) : Option (Char × List Char) :=
  if width ≤ text.length then
    ((value? (text.take width)).bind charOfCode?).map fun c => (c, text.drop width)
  else none

/-- The character that comes first in a text, and what follows it. -/
def first? : List Char → Option (Char × List Char)
  | [] => none
  | '\\' :: kind :: rest =>
    ((controls.lookup kind).map fun c => (c, rest)).or
      (((codes.lookup kind).bind (coded? value? rest)).or (some (kind, rest)))
  | c :: rest => some (c, rest)

variable {value?}

theorem eq_drop_of_coded? {text rest : List Char} {width : Nat} {c : Char}
    (h : coded? value? text width = some (c, rest)) : rest = text.drop width := by
  unfold coded? at h
  split at h
  next =>
    obtain ⟨_, -, heq⟩ := Option.map_eq_some_iff.mp h
    exact (Prod.mk.inj heq).2.symm
  next => cases h

theorem length_lt_of_first? {text rest : List Char} {c : Char}
    (h : first? value? text = some (c, rest)) : rest.length < text.length := by
  unfold first? at h
  split at h
  next => cases h
  next kind tail =>
    have hcases : rest = tail ∨ ∃ width, rest = tail.drop width := by
      rcases Option.or_eq_some_iff.mp h with h | ⟨-, h⟩
      · obtain ⟨_, -, heq⟩ := Option.map_eq_some_iff.mp h
        exact Or.inl (Prod.mk.inj heq).2.symm
      · rcases Option.or_eq_some_iff.mp h with h | ⟨-, h⟩
        · obtain ⟨width, -, h⟩ := Option.bind_eq_some_iff.mp h
          exact Or.inr ⟨width, eq_drop_of_coded? h⟩
        · exact Or.inl (Prod.mk.inj (Option.some.inj h)).2.symm
    rcases hcases with rfl | ⟨width, rfl⟩
    · simp only [List.length_cons]
      omega
    · simp only [List.length_cons, List.length_drop]
      omega
  next =>
    obtain ⟨-, rfl⟩ := Prod.mk.inj (Option.some.inj h)
    exact Nat.lt_succ_self _

variable (value?)

/-- The characters that a text stands for. -/
def decode (text : List Char) : List Char :=
  match _h : first? value? text with
  | none => []
  | some (c, rest) => c :: decode rest
termination_by text.length
decreasing_by exact length_lt_of_first? _h

/-- A decoder comes to a place of a text, given as what follows there. -/
inductive Reaches : List Char → List Char → Prop
  | here (text : List Char) : Reaches text text
  | next {text rest place : List Char} {c : Char} (h : first? value? text = some (c, rest))
      (hrest : Reaches rest place) : Reaches text place

variable {value?}

theorem decode_nil : decode value? [] = [] := by
  rw [decode]
  rfl

theorem decode_of_first? {text rest : List Char} {c : Char}
    (h : first? value? text = some (c, rest)) :
    decode value? text = c :: decode value? rest := by
  rw [decode]
  split
  next hnone => rw [h] at hnone; cases hnone
  next hsome =>
    rw [h] at hsome
    obtain ⟨rfl, rfl⟩ := Prod.mk.inj (Option.some.inj hsome)
    rfl

theorem first?_cons {c : Char} (hc : c ≠ '\\') (cs : List Char) :
    first? value? (c :: cs) = some (c, cs) := by
  unfold first?
  split
  next heq => cases heq
  next heq => exact absurd (List.cons.inj heq).1 hc
  next heq =>
    obtain ⟨rfl, rfl⟩ := List.cons.inj heq
    rfl

variable (value?) in
/-- There is a first character unless the text is empty. -/
theorem exists_first? {text : List Char} (h : text ≠ []) :
    ∃ c rest, first? value? text = some (c, rest) := by
  unfold first?
  split
  next => exact absurd rfl h
  next kind rest =>
    cases (controls.lookup kind).map fun c => (c, rest) with
    | some result => exact ⟨result.1, result.2, rfl⟩
    | none =>
      cases (codes.lookup kind).bind (coded? value? rest) with
      | some result => exact ⟨result.1, result.2, rfl⟩
      | none => exact ⟨kind, rest, rfl⟩
  next c rest _ => exact ⟨c, rest, rfl⟩

/-- What holds no backslash stands for itself. -/
theorem decode_append {cs : List Char} (h : '\\' ∉ cs) (rest : List Char) :
    decode value? (cs ++ rest) = cs ++ decode value? rest := by
  induction cs with
  | nil => rfl
  | cons c cs ih =>
    rw [List.mem_cons, not_or] at h
    rw [List.cons_append, decode_of_first? (first?_cons (fun heq => h.1 heq.symm) _), ih h.2]
    rfl

end Decoding

/-! ## Digits and code points -/

theorem mem_of_toNat_between {c : Char} {start count : Nat} {alphabet : List Char}
    (halphabet : ∀ n ∈ List.range' start count, Char.ofNat n ∈ alphabet) (hstart : start ≤ c.toNat)
    (hstop : c.toNat < start + count) : c ∈ alphabet := by
  have hc := halphabet c.toNat (List.mem_range'_1.mpr ⟨hstart, hstop⟩)
  rwa [Char.ofNat_toNat] at hc

theorem hexDigit?_eq_digitValue? (c : Char) : hexDigit? c = digitValue? c := by
  by_cases hc : c ∈ hexAlphabets.flatten
  · have hall : (hexAlphabets.flatten.all fun c => hexDigit? c == digitValue? c) = true := by decide
    exact eq_of_beq (List.all_eq_true.mp hall c hc)
  · have hnone : digitValue? c = none := by
      rw [digitValue?, List.findSome?_eq_none_iff]
      intro alphabet halphabet
      rw [List.idxOf?_eq_none_iff]
      exact fun hmem => hc (List.mem_flatten.mpr ⟨alphabet, halphabet, hmem⟩)
    have houtside (first : Char) (count : Nat)
        (h : ∀ n ∈ List.range' first.toNat (count + 1), Char.ofNat n ∈ hexAlphabets.flatten) :
        ¬(first ≤ c ∧ c.toNat ≤ first.toNat + count) :=
      fun hbounds => hc (mem_of_toNat_between h hbounds.1 (Nat.lt_succ_of_le hbounds.2))
    have hdigit : ¬('0' ≤ c ∧ c ≤ '9') := houtside '0' 9 (by decide)
    have hsmall : ¬('a' ≤ c ∧ c ≤ 'f') := houtside 'a' 5 (by decide)
    have hcapital : ¬('A' ≤ c ∧ c ≤ 'F') := houtside 'A' 5 (by decide)
    simp [hnone, hexDigit?, hdigit, hsmall, hcapital]

theorem hexDigits?_eq (acc : Nat) (cs : List Char) :
    hexDigits? acc cs = (cs.mapM digitValue?).map fun values =>
      Nat.ofDigits 16 (values.reverse ++ [acc]) := by
  induction cs generalizing acc with
  | nil => simp [hexDigits?]
  | cons c cs ih =>
    rw [hexDigits?, hexDigit?_eq_digitValue?, List.mapM_cons]
    cases digitValue? c with
    | none => rfl
    | some d =>
      show hexDigits? (16 * acc + d) cs = _
      rw [ih]
      cases cs.mapM digitValue? with
      | none => rfl
      | some values =>
        show some (Nat.ofDigits 16 (values.reverse ++ [16 * acc + d])) =
          some (Nat.ofDigits 16 ((d :: values).reverse ++ [acc]))
        rw [List.reverse_cons, List.append_assoc, Nat.ofDigits_append, Nat.ofDigits_append]
        simp [Nat.ofDigits_cons, Nat.add_comm]

theorem hexDigits?_zero (cs : List Char) : hexDigits? 0 cs = hexValue? cs := by
  rw [hexDigits?_eq, hexValue?]
  simp [Nat.ofDigits_append]

theorem charOfCode?_eq_some_iff {n : Nat} {c : Char} : charOfCode? n = some c ↔ n = c.toNat := by
  unfold charOfCode?
  constructor
  · intro h
    split at h
    next hvalid =>
      rw [← Option.some.inj h, Char.ofNat, dif_pos hvalid]
      rfl
    next => cases h
  · rintro rfl
    rw [if_pos (show c.toNat.isValidChar from c.valid), Char.ofNat_toNat]

/-! ## What `unescape` decodes -/

theorem simpleEscape?_eq_lookup (c : Char) : simpleEscape? c = controls.lookup c := by
  unfold simpleEscape?
  split
  case h_9 hn ht hr h0 ha hb hf hv =>
    refine (List.lookup_eq_none_iff.mpr ?_).symm
    simpa [controls] using ⟨hn, ht, hr, h0, ha, hb, hf, hv⟩
  all_goals rfl

theorem codeWidth?_eq_lookup (c : Char) : codeWidth? c = codes.lookup c := by
  unfold codeWidth?
  split
  case h_4 hx hu hU =>
    refine (List.lookup_eq_none_iff.mpr ?_).symm
    simpa [codes] using ⟨hx, hu, hU⟩
  all_goals rfl

theorem two_le_of_codeWidth? {c : Char} {width : Nat} (h : codeWidth? c = some width) :
    2 ≤ width := by
  unfold codeWidth? at h
  split at h <;> cases h <;> decide

theorem unescapeFrom_skip (n : Nat) (cs : List Char) :
    unescapeFrom n cs = unescapeFrom 0 (cs.drop n) := by
  induction n generalizing cs with
  | zero => rfl
  | succ n ih =>
    cases cs with
    | nil => rfl
    | cons c cs => exact ih cs

theorem digitValue?_plus : digitValue? '+' = none := by decide

theorem hexValue?_cons_plus (cs : List Char) : hexValue? ('+' :: cs) = none := by
  rw [hexValue?, List.mapM_cons, digitValue?_plus]
  rfl

theorem signedValue?_of_ne {c : Char} (hc : c ≠ '+') (cs : List Char) :
    signedValue? (c :: cs) = hexValue? (c :: cs) := by
  rw [signedValue?]
  exact fun _ heq => hc (List.cons.inj heq).1

theorem hexNumber?_eq_signedValue? {places : List Char} (h : 2 ≤ places.length) :
    hexNumber? places = signedValue? places := by
  cases places with
  | nil => cases h
  | cons c cs =>
    rw [hexNumber?]
    split
    next hc =>
      have hcs : cs.isEmpty = false := by
        cases cs with
        | nil => exact absurd h (Nat.not_succ_le_self 1)
        | cons => rfl
      rw [hc, hcs, hexDigits?_zero]
      rfl
    next hc => rw [hexDigits?_zero, signedValue?_of_ne hc]

theorem codeEscape?_eq_coded? {width : Nat} (h : 2 ≤ width) (tail : List Char) :
    codeEscape? width (tail.take width) = (coded? signedValue? tail width).map (·.1) := by
  unfold codeEscape? coded?
  have hlength : (tail.take width).length = width ↔ width ≤ tail.length := by
    rw [List.length_take]
    omega
  by_cases hle : width ≤ tail.length
  · rw [if_pos (hlength.mpr hle), if_pos hle,
      hexNumber?_eq_signedValue? (by rw [hlength.mpr hle]; exact h)]
    cases (signedValue? (tail.take width)).bind charOfCode? with
    | none => rfl
    | some c => rfl
  · rw [if_neg (fun heq => hle (hlength.mp heq)), if_neg hle]
    rfl

/-- `unescape` goes on where the decoder does. -/
theorem unescapeFrom_of_first? {text rest : List Char} {c : Char}
    (h : first? signedValue? text = some (c, rest)) :
    unescapeFrom 0 text = c :: unescapeFrom 0 rest := by
  unfold first? at h
  split at h
  next => cases h
  next kind tail =>
    conv => lhs; unfold unescapeFrom
    rw [if_pos rfl]
    dsimp only
    rw [← simpleEscape?_eq_lookup, ← codeWidth?_eq_lookup] at h
    cases hsimple : simpleEscape? kind with
    | some decoded =>
      rw [hsimple] at h
      obtain ⟨rfl, rfl⟩ := Prod.mk.inj (Option.some.inj h)
      rfl
    | none =>
      rw [hsimple] at h
      dsimp only
      cases hwidth : codeWidth? kind with
      | none =>
        rw [hwidth] at h
        obtain ⟨rfl, rfl⟩ := Prod.mk.inj (Option.some.inj h)
        rfl
      | some width =>
        rw [hwidth] at h
        dsimp only
        rw [codeEscape?_eq_coded? (two_le_of_codeWidth? hwidth)]
        replace h : (coded? signedValue? tail width).or (some (kind, tail)) = some (c, rest) := h
        cases hcoded : coded? signedValue? tail width with
        | some result =>
          rw [hcoded] at h
          obtain rfl := Option.some.inj h
          show c :: unescapeFrom width tail = _
          rw [unescapeFrom_skip, eq_drop_of_coded? hcoded]
        | none =>
          rw [hcoded] at h
          obtain ⟨rfl, rfl⟩ := Prod.mk.inj (Option.some.inj h)
          rfl
  next c' rest' hne =>
    obtain ⟨rfl, rfl⟩ := Prod.mk.inj (Option.some.inj h)
    by_cases hslash : c' = '\\'
    · subst hslash
      cases rest' with
      | nil => rfl
      | cons kind tail => exact (hne kind tail rfl rfl).elim
    · exact unescapeFrom_cons hslash rest'

/-- `unescape` is the decoder that takes signs. -/
theorem unescapeFrom_eq_decode (text : List Char) :
    unescapeFrom 0 text = decode signedValue? text := by
  by_cases hempty : text = []
  · rw [hempty, decode_nil]
    rfl
  · obtain ⟨c, rest, hfirst⟩ := exists_first? signedValue? hempty
    rw [unescapeFrom_of_first? hfirst, decode_of_first? hfirst, unescapeFrom_eq_decode rest]
termination_by text.length
decreasing_by exact length_lt_of_first? hfirst

/-! ## Escapes with a sign -/

/-- A place at which a code point is given by a plus sign and one digit less than it has places. -/
inductive Signed : List Char → Prop
  | mk {kind : Char} {digits : List Char} (rest : List Char) {c : Char}
      (hkind : codes.lookup kind = some (digits.length + 1))
      (hdigits : hexValue? digits = some c.toNat) :
      Signed ('\\' :: kind :: '+' :: (digits ++ rest))

theorem isSome_digitValue?_of_mapM {digits : List Char} {values : List Nat}
    (h : digits.mapM digitValue? = some values) : ∀ c ∈ digits, (digitValue? c).isSome = true := by
  induction digits generalizing values with
  | nil => exact List.forall_mem_nil _
  | cons c digits ih =>
    rw [List.mapM_cons] at h
    obtain ⟨d, hd, h⟩ := Option.bind_eq_some_iff.mp h
    obtain ⟨_, hdigits, -⟩ := Option.bind_eq_some_iff.mp h
    exact List.forall_mem_cons.mpr ⟨Option.isSome_of_eq_some hd, ih hdigits⟩

theorem backslash_not_mem_of_hexValue? {digits : List Char} {n : Nat}
    (h : hexValue? digits = some n) : '\\' ∉ digits := by
  obtain ⟨_, hvalues, -⟩ := Option.map_eq_some_iff.mp h
  exact fun hmem => absurd (isSome_digitValue?_of_mapM hvalues _ hmem) (by decide)

theorem controls_lookup_of_codes {kind : Char} {width : Nat} (h : codes.lookup kind = some width) :
    controls.lookup kind = none := by
  rw [← codeWidth?_eq_lookup] at h
  unfold codeWidth? at h
  split at h
  case h_4 => cases h
  all_goals rfl

theorem first?_of_codes {value? : List Char → Option Nat} {kind : Char} {width : Nat}
    (h : codes.lookup kind = some width) (rest : List Char) :
    first? value? ('\\' :: kind :: rest) = (coded? value? rest width).or (some (kind, rest)) := by
  rw [first?, controls_lookup_of_codes h, h]
  rfl

theorem coded?_hexValue?_plus (rest : List Char) (width : Nat) :
    coded? hexValue? ('+' :: rest) (width + 1) = none := by
  unfold coded?
  rw [List.take_succ_cons, hexValue?_cons_plus]
  exact ite_self none

theorem coded?_signedValue?_plus {rest after : List Char} {width : Nat} {c : Char} :
    coded? signedValue? ('+' :: rest) (width + 1) = some (c, after) ↔
      ∃ digits, rest = digits ++ after ∧ digits.length = width ∧
        hexValue? digits = some c.toNat := by
  unfold coded?
  rw [List.take_succ_cons, List.drop_succ_cons, signedValue?]
  constructor
  · intro h
    split at h
    next hle =>
      replace hle : width ≤ rest.length := Nat.le_of_succ_le_succ hle
      obtain ⟨_, hchar, heq⟩ := Option.map_eq_some_iff.mp h
      obtain ⟨rfl, rfl⟩ := Prod.mk.inj heq
      obtain ⟨n, hn, hchar⟩ := Option.bind_eq_some_iff.mp hchar
      have hdigits := charOfCode?_eq_some_iff.mp hchar ▸ hn
      exact ⟨rest.take width, (List.take_append_drop width rest).symm,
        List.length_take_of_le hle, hdigits⟩
    next => cases h
  · rintro ⟨digits, rfl, rfl, hdigits⟩
    have hle : digits.length + 1 ≤ ('+' :: (digits ++ after)).length := by
      rw [List.length_cons, List.length_append]
      omega
    rw [if_pos hle, List.take_left, List.drop_left, hdigits, Option.bind_some,
      charOfCode?_eq_some_iff.mpr rfl]
    rfl

/-- At an escape with a sign the two readings part: with signs the escape is taken as a whole, and
without them only its letter is. -/
theorem first?_of_signed {text : List Char} (h : Signed text) :
    ∃ c kind digits rest, '\\' ∉ digits ∧ first? signedValue? text = some (c, rest) ∧
      first? hexValue? text = some (kind, '+' :: digits ++ rest) := by
  cases h with
  | @mk kind digits rest c hkind hdigits =>
    refine ⟨c, kind, digits, rest, backslash_not_mem_of_hexValue? hdigits, ?_, ?_⟩
    · rw [first?_of_codes hkind, coded?_signedValue?_plus.mpr ⟨_, rfl, rfl, hdigits⟩]
      rfl
    · rw [first?_of_codes hkind, coded?_hexValue?_plus]
      rfl

theorem coded?_eq_of_not_signed {kind : Char} {width : Nat} (hkind : codes.lookup kind = some width)
    {rest : List Char} (h : ¬Signed ('\\' :: kind :: rest)) :
    coded? signedValue? rest width = coded? hexValue? rest width := by
  cases rest with
  | nil => unfold coded?; rw [List.take_nil]; rfl
  | cons d rest =>
    cases width with
    | zero => rfl
    | succ width =>
      by_cases hd : d = '+'
      · subst hd
        rw [coded?_hexValue?_plus]
        cases hcoded : coded? signedValue? ('+' :: rest) (width + 1) with
        | none => rfl
        | some result =>
          obtain ⟨digits, rfl, rfl, hdigits⟩ := coded?_signedValue?_plus.mp hcoded
          exact absurd (.mk result.2 hkind hdigits) h
      · unfold coded?
        rw [List.take_succ_cons, signedValue?_of_ne hd]

theorem first?_of_not_signed {text : List Char} (h : ¬Signed text) :
    first? signedValue? text = first? hexValue? text := by
  unfold first?
  split
  next => rfl
  next kind rest =>
    cases hkind : codes.lookup kind with
    | none => rfl
    | some width =>
      show _ = Option.or _ (Option.or (coded? hexValue? rest width) _)
      rw [← coded?_eq_of_not_signed hkind h]
      rfl
  next => rfl

/-- With a sign, the places of an escape are all read at once. Without one, they stand for
themselves. -/
theorem decode_of_signed {text : List Char} (h : Signed text) :
    ∃ c kind digits rest, rest.length < text.length ∧
      decode signedValue? text = c :: decode signedValue? rest ∧
      decode hexValue? text = kind :: ('+' :: digits ++ decode hexValue? rest) := by
  obtain ⟨c, kind, digits, rest, hdigits, hfirst, hplain⟩ := first?_of_signed h
  have hslash : '\\' ∉ '+' :: digits := by simpa using hdigits
  refine ⟨c, kind, digits, rest, length_lt_of_first? hfirst, decode_of_first? hfirst, ?_⟩
  rw [decode_of_first? hplain, decode_append hslash]

/-- With signs, no more characters are decoded than without them. -/
theorem length_decode_le (text : List Char) :
    (decode signedValue? text).length ≤ (decode hexValue? text).length := by
  by_cases hempty : text = []
  · rw [hempty, decode_nil, decode_nil]
  · by_cases hsigned : Signed text
    · obtain ⟨c, kind, digits, rest, hlength, hfirst, hplain⟩ := decode_of_signed hsigned
      have hrest := length_decode_le rest
      rw [hfirst, hplain]
      simp only [List.length_cons, List.length_append]
      omega
    · obtain ⟨c, rest, hfirst⟩ := exists_first? signedValue? hempty
      have hlength := length_lt_of_first? hfirst
      have hrest := length_decode_le rest
      have hplain := (first?_of_not_signed hsigned).symm.trans hfirst
      rw [decode_of_first? hfirst, decode_of_first? hplain]
      exact Nat.succ_le_succ hrest
termination_by text.length

theorem length_decode_lt_of_signed {text : List Char} (h : Signed text) :
    (decode signedValue? text).length < (decode hexValue? text).length := by
  obtain ⟨c, kind, digits, rest, -, hfirst, hplain⟩ := decode_of_signed h
  have hrest := length_decode_le rest
  rw [hfirst, hplain]
  simp only [List.length_cons, List.length_append]
  omega

/-- Each sign that is come to makes the text shorter. -/
theorem length_decode_lt {text place : List Char} (h : Reaches hexValue? text place)
    (hplace : Signed place) :
    (decode signedValue? text).length < (decode hexValue? text).length := by
  induction h with
  | here text => exact length_decode_lt_of_signed hplace
  | @next text rest place c hplain _ ih =>
    -- the readings go on side by side up to the first sign, which need not be the one at `place`
    by_cases hsigned : Signed text
    · exact length_decode_lt_of_signed hsigned
    · have hfirst := (first?_of_not_signed hsigned).trans hplain
      rw [decode_of_first? hfirst, decode_of_first? hplain]
      exact Nat.succ_lt_succ (ih hplace)

theorem decode_eq_of_forall_not_signed {text : List Char}
    (h : ∀ place, Reaches hexValue? text place → ¬Signed place) :
    decode signedValue? text = decode hexValue? text := by
  by_cases hempty : text = []
  · rw [hempty, decode_nil, decode_nil]
  · obtain ⟨c, rest, hplain⟩ := exists_first? hexValue? hempty
    have hfirst := (first?_of_not_signed (h text (.here text))).trans hplain
    have hrest := decode_eq_of_forall_not_signed fun place hplace => h place (.next hplain hplace)
    rw [decode_of_first? hfirst, decode_of_first? hplain, hrest]
termination_by text.length
decreasing_by exact length_lt_of_first? hplain

/-- `unescape` decodes escapes, and takes a plus sign in the first of the places of a code point. It
decodes as if all of the places had to be hexadecimal digits exactly where the decoder that asks for
that comes to no escape with such a sign. -/
theorem unescape_eq_decode_iff (s : String) :
    unescape s = String.ofList (decode signedValue? s.toList) ∧
    (unescape s = String.ofList (decode hexValue? s.toList) ↔
      ¬∃ place, Reaches hexValue? s.toList place ∧ Signed place) := by
  have hsigned : unescape s = String.ofList (decode signedValue? s.toList) := by
    rw [unescape, unescapeFrom_eq_decode]
  refine ⟨hsigned, ?_⟩
  rw [hsigned, String.ofList_inj]
  constructor
  · rintro heq ⟨place, hreaches, hplace⟩
    have hlt := length_decode_lt hreaches hplace
    rw [heq] at hlt
    exact Nat.lt_irrefl _ hlt
  · exact fun h => decode_eq_of_forall_not_signed fun place hreaches hplace =>
      h ⟨place, hreaches, hplace⟩

/-- A plus sign and one digit are taken for a code point of two digits. -/
theorem unescape_takes_sign :
    unescape "\\x+4" = "\x04" ∧ String.ofList (decode hexValue? "\\x+4".toList) = "x+4" := by
  refine ⟨by decide, ?_⟩
  have hfirst : first? hexValue? "\\x+4".toList = some ('x', ['+', '4']) := by decide
  have hrest : decode hexValue? ['+', '4'] = ['+', '4'] ++ decode hexValue? [] :=
    decode_append (show '\\' ∉ ['+', '4'] by decide) []
  rw [decode_of_first? hfirst, hrest, decode_nil]
  rfl

end Relational.Text
