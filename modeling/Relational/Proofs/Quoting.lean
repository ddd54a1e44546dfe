import Relational.Expr.Text

/-!
# Literals are read as they are written

A string is printed between single quotes, with escapes for four characters, or bare where it is the
name of an attribute and looks like one. It can also be written between backquotes, where the only
thing to be done is to double the backquotes in it.

> `readLiteral_inverts_quoting`: reading undoes all of them, whatever characters are in the string.

The quotes are taken off by looking at the first and the last character only, so nothing that stands
between them can end a literal early.
-/

namespace Relational.Text

/-! ## Between quotes -/

theorem dropLast_concat (mark : Char) (body : List Char) : dropLast mark (body ++ [mark]) = body := by
  rw [dropLast, List.getLast?_concat, if_pos rfl, List.dropLast_concat]

theorem unescapeFrom_cons {c : Char} (hc : c ≠ '\\') (cs : List Char) :
    unescapeFrom 0 (c :: cs) = c :: unescapeFrom 0 cs := by
  conv => lhs; unfold unescapeFrom
  exact if_neg hc

/-- The escape of a character is undone exactly. -/
theorem unescapeFrom_singleQuotedChar (c : Char) (cs : List Char) :
    unescapeFrom 0 (singleQuotedChar c ++ cs) = c :: unescapeFrom 0 cs := by
  unfold singleQuotedChar
  split
  next h => rw [h]; rfl
  next =>
    split
    next h => rw [h]; rfl
    next hslash =>
      split
      next h => rw [h]; rfl
      next =>
        split
        next h => rw [h]; rfl
        next => exact unescapeFrom_cons hslash cs

theorem unescapeFrom_flatMap (cs : List Char) :
    unescapeFrom 0 (cs.flatMap singleQuotedChar) = cs := by
  induction cs with
  | nil => rfl
  | cons c cs ih => rw [List.flatMap_cons, unescapeFrom_singleQuotedChar, ih]

/-- A string between single quotes reads as itself. -/
theorem readLiteral_singleQuoted (s : String) : readLiteral (singleQuoted s) = s := by
  have hchars : (singleQuoted s).toList =
      '\'' :: (s.toList.flatMap singleQuotedChar ++ ['\'']) := by
    rw [singleQuoted, String.toList_ofList]
    rfl
  unfold readLiteral
  rw [hchars]
  show String.ofList (unescapeFrom 0 (dropLast _ _)) = s
  rw [dropLast_concat, unescapeFrom_flatMap, String.ofList_toList]

/-! ## Between backquotes -/

/-- How a character stands between backquotes. -/
def backquotedChar (c : Char) : List Char := if c = '`' then ['`', '`'] else [c]

/-- A string between backquotes, with every backquote in it doubled. -/
def backquoted (s : String) : String :=
  String.ofList ('`' :: s.toList.flatMap backquotedChar ++ ['`'])

theorem undouble_cons {c : Char} (hc : c ≠ '`') (cs : List Char) :
    undouble (c :: cs) = c :: undouble cs := by
  rw [undouble]
  exact fun _ heq => absurd heq hc

/-- Each doubled backquote is read as one, since a run of them starts at its first one. -/
theorem undouble_flatMap (cs : List Char) : undouble (cs.flatMap backquotedChar) = cs := by
  induction cs with
  | nil => rfl
  | cons c cs ih =>
    rw [List.flatMap_cons, backquotedChar]
    split
    next h =>
      show undouble ('`' :: '`' :: cs.flatMap backquotedChar) = c :: cs
      rw [undouble, ih, h]
    next h =>
      show undouble (c :: cs.flatMap backquotedChar) = c :: cs
      rw [undouble_cons h, ih]

/-- A string between backquotes reads as itself. -/
theorem readLiteral_backquoted (s : String) : readLiteral (backquoted s) = s := by
  have hchars : (backquoted s).toList = '`' :: (s.toList.flatMap backquotedChar ++ ['`']) := by
    rw [backquoted, String.toList_ofList]
    rfl
  unfold readLiteral
  rw [hchars]
  show String.ofList (undouble (dropLast _ _)) = s
  rw [dropLast_concat, undouble_flatMap, String.ofList_toList]

/-! ## The names of attributes -/

/-- The name of an attribute reads as itself, bare or between quotes. -/
theorem readLiteral_attrName (s : String) : readLiteral (attrName s) = s := by
  unfold attrName
  split
  next hbare =>
    unfold isBareName at hbare
    unfold readLiteral
    cases hchars : s.toList with
    | nil => rfl
    | cons c cs =>
      rw [hchars, Bool.and_eq_true] at hbare
      have hstarts := hbare.1
      split
      next heq =>
        obtain ⟨rfl, -⟩ := List.cons.inj heq
        exact absurd hstarts (by decide)
      next heq =>
        obtain ⟨rfl, -⟩ := List.cons.inj heq
        exact absurd hstarts (by decide)
      next heq =>
        obtain ⟨rfl, -⟩ := List.cons.inj heq
        exact absurd hstarts (by decide)
      next => rfl
  next => exact readLiteral_singleQuoted s

theorem attrName_injective {s t : String} (h : attrName s = attrName t) : s = t := by
  rw [← readLiteral_attrName s, h, readLiteral_attrName]

/-- Reading a literal undoes every way in which a string is written: the text of the string as a
value, the string between backquotes, and its form as the name of an attribute. -/
theorem readLiteral_inverts_quoting (s : String) :
    readLiteral (Value.string s).text = s ∧ readLiteral (backquoted s) = s ∧
      readLiteral (attrName s) = s := by
  have htext : (Value.string s).text = singleQuoted s := by rw [Value.text]
  rw [htext]
  exact ⟨readLiteral_singleQuoted s, readLiteral_backquoted s, readLiteral_attrName s⟩

end Relational.Text
