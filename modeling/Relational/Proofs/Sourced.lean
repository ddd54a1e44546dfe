import Relational.Proofs.Correspondence
import Relational.Proofs.Quoting
import Relational.Proofs.Shape
import Relational.Proofs.Totality

/-!
# Literals and their places

Equality joins values that differ: the two zeros, and native functions with the same name and
identity. It does not join two literals that lowering makes at the same place. A number is read off
the text of its place, and so is the code point of a character; all other literals equal nothing but
themselves, and the functions among them are known by their names.

> `Value.StandsAt.eq_of_equal`: equal literals at the same place are the same.

> `Compiler.Sourced.compile`: all literals of a compiled expression stand at their places, if those
> do that the tree and the resolver bring in.
-/

namespace Relational

/-! ## Numbers that compare equal -/

namespace Number

/-- Numbers that compare equal are the same, but for the two zeros. -/
theorem eq_or_isZero_of_compare_eq {x y : Number} (h : x.compare y = .eq) :
    x = y ∨ (x.isZero = true ∧ y.isZero = true) := by
  have hkey : x.key = y.key := Std.compare_eq_iff_eq.mp h
  have hx := x.bits.toNat_lt
  have hy := y.bits.toNat_lt
  have heq : x.bits.toNat = y.bits.toNat → x = y := by
    intro hnat
    obtain ⟨bits⟩ := x
    obtain ⟨bits'⟩ := y
    exact congrArg Number.mk (UInt64.toNat_inj.mp hnat)
  simp only [key, isNegative, isZero, magnitude, decide_eq_true_eq, beq_iff_eq] at hkey ⊢
  by_cases hsign : signValue ≤ x.bits.toNat
  · by_cases hsign' : signValue ≤ y.bits.toNat
    · rw [if_pos hsign, if_pos hsign'] at hkey
      unfold signValue at hkey hsign hsign'
      exact Or.inl (heq (by omega))
    · rw [if_pos hsign, if_neg hsign'] at hkey
      unfold signValue at hkey ⊢
      omega
  · by_cases hsign' : signValue ≤ y.bits.toNat
    · rw [if_neg hsign, if_pos hsign'] at hkey
      unfold signValue at hkey ⊢
      omega
    · rw [if_neg hsign, if_neg hsign'] at hkey
      unfold signValue at hkey hsign hsign'
      exact Or.inl (heq (by omega))

/-- The number of a code point is zero only if the code point is. -/
theorem isZero_ofNat {n : Nat} (hn : n ≠ 0) (hlt : n < 2 ^ 21) : (ofNat n).isZero = false := by
  have hlog : n.log2 < 21 := (Nat.log2_lt hn).mpr hlt
  have hlow : 2 ^ n.log2 ≤ n := Nat.log2_self_le hn
  have hhigh : n < 2 ^ (n.log2 + 1) := Nat.lt_log2_self
  have hpow : 2 ^ n.log2 * 2 ^ (52 - n.log2) = exponentUnit := by
    rw [← Nat.pow_add, Nat.add_sub_cancel' (by omega)]
    rfl
  have hshift : max (((n.log2 + 1 : Nat) : Int) - 53) (-1074 - 0) = (n.log2 : Int) - 52 := by omega
  have hneg : ¬(0 : Int) ≤ (n.log2 : Int) - 52 := by omega
  have hleft : (-((n.log2 : Int) - 52)).toNat = 52 - n.log2 := by omega
  have hge : exponentUnit ≤ n * 2 ^ (52 - n.log2) := by
    rw [← hpow]
    exact Nat.mul_le_mul_right _ hlow
  have hlt' : n * 2 ^ (52 - n.log2) < 2 * exponentUnit := by
    calc n * 2 ^ (52 - n.log2) < 2 ^ (n.log2 + 1) * 2 ^ (52 - n.log2) :=
          Nat.mul_lt_mul_of_pos_right hhigh (Nat.two_pow_pos _)
      _ = 2 * exponentUnit := by rw [Nat.pow_succ', ← hpow, Nat.mul_assoc]
  have hexp : (0 + ((n.log2 : Int) - 52) + 1075).toNat = n.log2 + 1023 := by omega
  unfold ofNat ofScaled bitLength
  rw [if_neg hn, if_neg hn]
  dsimp only
  rw [hshift, if_neg hneg, hleft, Nat.shiftLeft_eq, if_neg (by omega), if_neg (by omega), hexp]
  simp only [isZero, ofMagnitude, magnitude, Bool.false_eq_true, if_false, beq_eq_false_iff_ne]
  rw [UInt64.toNat_ofNat']
  simp only [exponentUnit, signValue] at hge hlt' ⊢
  omega

theorem readDecimal_cons {c : Char} (hdigit : c.isDigit = false) (hpoint : c ≠ '.')
    (rest : List Char) : readDecimal (c :: rest) = none := by
  simp [readDecimal, hdigit, hpoint]

/-- A word is told from a number by its letters. -/
theorem readUnsigned_eq_readDecimal {cs : List Char} {c : Char} (hmem : c ∈ cs.take 2)
    (hc : c.toLower ∉ ['i', 'n', 'a']) : readUnsigned cs = readDecimal cs := by
  have hword : ∀ word : String, word ∈ ["inf", "infinity", "nan"] →
      String.ofList (cs.map Char.toLower) ≠ word := by
    intro word hmem' heq
    have hchars : (cs.map Char.toLower).take 2 = word.toList.take 2 := by
      rw [← heq, String.toList_ofList]
    have hlower : c.toLower ∈ word.toList.take 2 := by
      rw [← hchars, ← List.map_take]
      exact List.mem_map_of_mem hmem
    simp only [List.mem_cons, List.not_mem_nil, or_false] at hmem'
    rcases hmem' with rfl | rfl | rfl <;> simp_all
  unfold readUnsigned
  simp [hword]

/-- Nothing that has a backslash or a NUL in its first or second place is a number. -/
theorem readUnsigned_eq_none {d : Char} (hd : d = '\\' ∨ d = '\x00') (cs : List Char) :
    readUnsigned (d :: cs) = none ∧ ∀ mark, readUnsigned (mark :: d :: cs) = none := by
  have hlower : d.toLower ∉ ['i', 'n', 'a'] := by
    rcases hd with rfl | rfl <;> decide
  have hdigit : d.isDigit = false := by
    rcases hd with rfl | rfl <;> rfl
  have hpoint : d ≠ '.' := by
    rcases hd with rfl | rfl <;> decide
  have he : d ≠ 'e' ∧ d ≠ 'E' := by
    rcases hd with rfl | rfl <;> decide
  constructor
  · rw [readUnsigned_eq_readDecimal (by simp) hlower]
    exact readDecimal_cons hdigit hpoint cs
  · intro mark
    rw [readUnsigned_eq_readDecimal (by simp) hlower]
    cases hmark : mark.isDigit with
    -- the exponent would have to come after the digit
    | true => simp [readDecimal, readExponent, hmark, hdigit, hpoint, he]
    | false =>
      by_cases hfirst : mark = '.'
      · simp [readDecimal, hfirst, hdigit]
      · exact readDecimal_cons hmark hfirst _

/-- A number is read off the whole of its text, or off all but a sign. -/
theorem exists_readUnsigned_of_read {text : String} {x : Number} (h : read text = .ok x) :
    ∃ y, readUnsigned text.toList = some y ∨
      ∃ sign cs, text.toList = sign :: cs ∧ readUnsigned cs = some y := by
  unfold read at h
  dsimp only at h
  split at h
  next => cases h
  next =>
    split at h
    next y hnumber =>
      split at hnumber
      next cs hchars =>
        obtain ⟨z, hz, -⟩ := Option.map_eq_some_iff.mp hnumber
        exact ⟨z, Or.inr ⟨_, cs, hchars, hz⟩⟩
      next cs hchars => exact ⟨y, Or.inr ⟨_, cs, hchars, hnumber⟩⟩
      next => exact ⟨y, Or.inl hnumber⟩
    next => cases h

end Number

theorem Text.eq_of_unescapeFrom_nul {d : Char} {cs rest : List Char}
    (h : Text.unescapeFrom 0 (d :: cs) = '\x00' :: rest) : d = '\\' ∨ d = '\x00' := by
  by_cases hd : d = '\\'
  · exact Or.inl hd
  · rw [Text.unescapeFrom_cons hd] at h
    exact Or.inr (List.cons.inj h).1

/-- What can be read as a number and as a character is not the character NUL. -/
theorem Number.char_ne_nul_of_read {text : String} {x : Number} (hread : Number.read text = .ok x)
    {c : Char} {rest : List Char}
    (hchar : Text.unescapeFrom 0 (Lowering.afterMark text.toList) = c :: rest) : c ≠ '\x00' := by
  rintro rfl
  cases hchars : text.toList with
  | nil =>
    rw [hchars] at hchar
    cases hchar
  | cons mark cs =>
    rw [hchars, Lowering.afterMark] at hchar
    split at hchar
    next =>
      cases cs with
      | nil => cases hchar
      | cons d cs =>
        obtain ⟨hunsigned, hwhole⟩ := readUnsigned_eq_none (Text.eq_of_unescapeFrom_nul hchar) cs
        obtain ⟨y, hy | ⟨sign, tail, hsign, hy⟩⟩ := exists_readUnsigned_of_read hread
        · rw [hchars, hwhole] at hy
          cases hy
        · rw [hchars] at hsign
          obtain ⟨-, rfl⟩ := List.cons.inj hsign
          rw [hunsigned] at hy
          cases hy
    next => cases hchar


/-! ## Values that equal nothing but themselves -/

namespace Value

/-- A value that equals nothing but itself. -/
def Exact (v : Value) : Prop := ∀ w, v.Equal w → v = w

theorem exact_bool (b : Bool) : (Value.bool b).Exact := by
  intro w h
  cases h.sameKind with
  | bool _ c => rw [Std.compare_eq_iff_eq.mp (beq_iff.mp h : Ord.compare b c = .eq)]

theorem exact_string (s : String) : (Value.string s).Exact := by
  intro w h
  cases h.sameKind with
  | string _ t => rw [Std.compare_eq_iff_eq.mp (beq_iff.mp h : Ord.compare s t = .eq)]

theorem exact_bytes : (Value.bytes []).Exact := by
  intro w h
  cases h.sameKind with
  | bytes _ b =>
    cases b with
    | nil => rfl
    | cons => cases beq_iff.mp h

theorem exact_set : Value.nothing.Exact := by
  intro w h
  cases h.sameKind with
  | set _ members =>
    cases members with
    | nil => rfl
    | cons => cases beq_iff.mp h

theorem exact_dict : (Value.dict []).Exact := by
  intro w h
  cases h.sameKind with
  | dict _ entries =>
    cases entries with
    | nil => rfl
    | cons => cases beq_iff.mp h

theorem exact_array {items : List (Option Value)} (hitems : ∀ v, some v ∈ items → v.Exact) :
    (Value.array items).Exact := by
  intro w h
  cases h.sameKind with
  | array _ others =>
    refine congrArg Value.array (eq_of_forall₂_imp (fun _ _ => id)
      (forall₂_of_mem (array_beq_iff.mp h) ?_))
    intro item hitem other hpart
    cases hpart with
    | none => rfl
    | some hv => rw [hitems _ hitem _ hv]

theorem exact_tuple {attrs : List (String × Value)} (hattrs : ∀ attr ∈ attrs, attr.2.Exact) :
    (Value.tuple attrs).Exact := by
  intro w h
  cases h.sameKind with
  | tuple _ others =>
    refine congrArg Value.tuple (eq_of_forall₂_imp (fun _ _ => id)
      (forall₂_of_mem (tuple_beq_iff.mp h) ?_))
    intro attr hattr other hsame
    exact Prod.ext (Std.compare_eq_iff_eq.mp hsame.1) (hattrs attr hattr _ hsame.2)

theorem exact_toValue (node : Node) : node.toValue.Exact :=
  node.toValue_has ⟨exact_string, exact_array, exact_tuple⟩

theorem equal_native_iff {i j : Identity} {f g : Native} :
    Equal (.native i f) (.native j g) ↔ f.name = g.name ∧ i = j := by
  rw [Equal, beq_iff, Value.compare, Ordering.then_eq_eq, Std.compare_eq_iff_eq, Std.compare_eq_iff_eq]

end Value

/-! ## Literals at their places -/

/-- A number that is read off a text, as a number or as a character. -/
inductive Number.ReadFrom (text : String) : Number → Prop
  | number {x : Number} (h : Number.read text = .ok x) : ReadFrom text x
  | char {c : Char} {rest : List Char}
      (h : Text.unescapeFrom 0 (Lowering.afterMark text.toList) = c :: rest) :
      ReadFrom text (.ofNat c.toNat)

/-- A number that is read off a text is no other zero than what else is read off it. -/
theorem Number.ReadFrom.eq_of_compare_eq {text : String} {x y : Number} (hx : ReadFrom text x)
    (hy : ReadFrom text y) (h : x.compare y = .eq) : x = y := by
  have hchar : ∀ {x : Number} {c : Char} {rest : List Char}, Number.read text = .ok x →
      Text.unescapeFrom 0 (Lowering.afterMark text.toList) = c :: rest →
      (Number.ofNat c.toNat).isZero = false := by
    intro x c rest hread hchar
    refine isZero_ofNat (fun hzero => char_ne_nul_of_read hread hchar ?_) ?_
    · exact Char.ext (UInt32.toNat_inj.mp hzero)
    · have hvalid : c.toNat.isValidChar := c.valid
      unfold Nat.isValidChar at hvalid
      omega
  rcases eq_or_isZero_of_compare_eq h with heq | ⟨hzero, hzero'⟩
  · exact heq
  · cases hx with
    | number hread =>
      cases hy with
      | number hread' =>
        rw [hread] at hread'
        exact Except.ok.inj hread'
      | char hchar' => rw [hchar hread hchar'] at hzero'; cases hzero'
    | char hchars =>
      cases hy with
      | number hread' => rw [hchar hread' hchars] at hzero; cases hzero
      | char hchars' =>
        rw [hchars] at hchars'
        rw [(List.cons.inj hchars').1]

namespace Value

/-- The values of the literals that stand at a place: those that lowering makes there, the two
functions of recursion, and the functions of a resolver that puts loading off. -/
inductive StandsAt (span : Span) : Value → Prop
  | made {v : Value} (h : v.MadeAt span) : StandsAt span v
  | fix : StandsAt span (.native 0 .fix)
  | fixt : StandsAt span (.native 0 .fixt)
  | loader (i : Identity) {name : String} (hname : name ≠ "fix" ∧ name ≠ "fixt") :
      StandsAt span (.native i (.loader name))

theorem MadeAt.exact_or_number {span : Span} {v : Value} (h : v.MadeAt span) :
    v.Exact ∨ ∃ x, v = .number x ∧ x.ReadFrom span.text := by
  cases h with
  | bool b => exact Or.inl (exact_bool b)
  | string s => exact Or.inl (exact_string s)
  | number h => exact Or.inr ⟨_, rfl, .number h⟩
  | char h => exact Or.inr ⟨_, rfl, .char h⟩
  | bytes => exact Or.inl exact_bytes
  | array => exact Or.inl (exact_array fun _ hmem => absurd hmem List.not_mem_nil)
  | tuple => exact Or.inl (exact_tuple (List.forall_mem_nil _))
  | set => exact Or.inl exact_set
  | dict => exact Or.inl exact_dict
  | tree node h => exact Or.inl (h ▸ exact_toValue node)

/-- Where a literal stands it equals no other literal. -/
theorem StandsAt.eq_of_equal {span : Span} {v w : Value} (hv : v.StandsAt span)
    (hw : w.StandsAt span) (h : v.Equal w) : v = w := by
  have hmade : ∀ {v w : Value}, v.MadeAt span → w.StandsAt span → v.Equal w → v = w := by
    intro v w hv hw h
    rcases hv.exact_or_number with hexact | ⟨x, rfl, hx⟩
    · exact hexact w h
    · cases h.sameKind with
      | number _ y =>
        cases hw with
        | made hw =>
          rcases hw.exact_or_number with hexact | ⟨y, heq, hy⟩
          · exact (hexact _ (beq_equivalence.symm h)).symm
          · obtain rfl := Value.number.inj heq
            exact congrArg Value.number (hx.eq_of_compare_eq hy (beq_iff.mp h))
  cases hv with
  | made hv => exact hmade hv hw h
  | fix =>
    cases hw with
    | made hw => exact (hmade hw .fix (beq_equivalence.symm h)).symm
    | fix => rfl
    | fixt => exact absurd (equal_native_iff.mp h).1 (by decide)
    | loader i hname => exact absurd (equal_native_iff.mp h).1.symm hname.1
  | fixt =>
    cases hw with
    | made hw => exact (hmade hw .fixt (beq_equivalence.symm h)).symm
    | fix => exact absurd (equal_native_iff.mp h).1 (by decide)
    | fixt => rfl
    | loader i hname => exact absurd (equal_native_iff.mp h).1.symm hname.2
  | loader i hname =>
    cases hw with
    | made hw => exact (hmade hw (.loader i hname) (beq_equivalence.symm h)).symm
    | fix => exact absurd (equal_native_iff.mp h).1 hname.1
    | fixt => exact absurd (equal_native_iff.mp h).1 hname.2
    | loader j _ =>
      obtain ⟨hsame, rfl⟩ := equal_native_iff.mp h
      exact congrArg (fun name => Value.native i (.loader name)) hsame

end Value

/-! ## Expressions whose literals stand at their places -/

/-- A literal stands at its place. -/
def Expr.InPlace : Expr → Prop
  | .literal v span => v.StandsAt span
  | _ => True

mutual

/-- All literals of an expression stand at their places. -/
inductive Expr.Sourced : Expr → Prop
  | mk {e : Expr} (hexprs : ∀ c ∈ e.subexprs, Expr.Sourced c)
      (hpatterns : ∀ p ∈ e.subpatterns, Pattern.Sourced p) (hliteral : e.InPlace) : Expr.Sourced e

/-- All literals of a pattern stand at their places. -/
inductive Pattern.Sourced : Pattern → Prop
  | mk {p : Pattern} (hreads : ∀ e ∈ p.reads, Expr.Sourced e)
      (hparts : ∀ q ∈ p.parts, Pattern.Sourced q) : Pattern.Sourced p

end

namespace Expr.Sourced

variable {e : Expr}

theorem exprs (h : e.Sourced) : ∀ c ∈ e.subexprs, c.Sourced := by
  cases h
  assumption

theorem patterns (h : e.Sourced) : ∀ p ∈ e.subpatterns, p.Sourced := by
  cases h
  assumption

theorem inPlace (h : e.Sourced) : e.InPlace := by
  cases h
  assumption

theorem literal {v : Value} {span : Span} (h : v.StandsAt span) : (Expr.literal v span).Sourced :=
  .mk (List.forall_mem_nil _) (List.forall_mem_nil _) h

theorem ident (name : String) (span : Span) : (Expr.ident name span).Sourced :=
  .mk (List.forall_mem_nil _) (List.forall_mem_nil _) True.intro

/-- An expression that is made of expressions only. -/
theorem of_exprs (hpatterns : e.subpatterns = []) (hliteral : e.InPlace)
    (h : ∀ c ∈ e.subexprs, c.Sourced) : e.Sourced :=
  .mk h (hpatterns ▸ List.forall_mem_nil _) hliteral

theorem binary {op : BinaryOp} {lhs rhs : Expr} {span : Span} (hlhs : lhs.Sourced)
    (hrhs : rhs.Sourced) : (Expr.binary op lhs rhs span).Sourced := by
  cases rhs with
  -- a function on the right is taken apart
  | function param body place =>
    refine .mk ?_ hrhs.patterns True.intro
    exact List.forall_mem_cons.mpr ⟨hlhs, List.forall_mem_cons.mpr ⟨hrhs, hrhs.exprs⟩⟩
  | _ =>
    refine of_exprs rfl True.intro ?_
    exact List.forall_mem_cons.mpr ⟨hlhs, List.forall_mem_singleton.mpr hrhs⟩

theorem cond {conditions : Expr} {span : Span} (h : conditions.Sourced) :
    (Expr.cond conditions span).Sourced := by
  cases conditions with
  | dict entries conditional place => exact of_exprs rfl True.intro h.exprs
  | _ => exact of_exprs rfl True.intro (List.forall_mem_singleton.mpr h)

/-- Both operands of an operator, also a function that is taken apart. -/
theorem operands {op : BinaryOp} {lhs rhs : Expr} {span : Span}
    (h : (Expr.binary op lhs rhs span).Sourced) : lhs.Sourced ∧ rhs.Sourced := by
  have hexprs := h.exprs
  cases rhs with
  | function => exact ⟨hexprs _ (by simp [subexprs]), hexprs _ (by simp [subexprs])⟩
  | _ => exact ⟨hexprs _ (by simp [subexprs]), hexprs _ (by simp [subexprs])⟩

/-- The dictionary of a choice, which is taken apart. -/
theorem conditions {dict : Expr} {span : Span} (h : (Expr.cond dict span).Sourced) :
    dict.Sourced := by
  cases dict with
  | dict entries conditional place => exact of_exprs rfl True.intro h.exprs
  | _ => exact h.exprs _ (List.mem_singleton_self _)

end Expr.Sourced

namespace Pattern.Sourced

variable {p : Pattern}

theorem reads (h : p.Sourced) : ∀ e ∈ p.reads, e.Sourced := by
  cases h
  assumption

theorem parts (h : p.Sourced) : ∀ q ∈ p.parts, q.Sourced := by
  cases h
  assumption

theorem keys (h : p.Sourced) : ∀ e ∈ p.keys, e.Sourced :=
  fun e he => h.reads e (mem_reads_of_mem_keys he)

theorem slots (h : p.Sourced) : ∀ slot ∈ p.slots, slot.Has Expr.Sourced Pattern.Sourced :=
  slot_has h.reads h.parts

theorem exprs {es : List Expr} (h : (Pattern.exprs es).Sourced) : ∀ e ∈ es, e.Sourced :=
  fun e he => h.reads e (mem_reads_of_mem_literals he)

theorem expr {e : Expr} (h : (Pattern.expr e).Sourced) : e.Sourced := by
  cases e with
  | ident name span => exact .ident name span
  | _ => exact h.reads _ (mem_reads_of_mem_literals (List.mem_singleton_self _))

/-- A pattern of slots. -/
theorem of_slots (hkeys : ∀ e ∈ p.keys, e.Sourced) (hliterals : p.literals = [])
    (hparts : p.parts = p.slots.filterMap Slot.pattern)
    (hslots : ∀ slot ∈ p.slots, slot.Has Expr.Sourced Pattern.Sourced) : p.Sourced := by
  refine .mk ?_ ?_
  · unfold Pattern.reads
    rw [hliterals, List.append_nil]
    refine List.forall_mem_append.mpr ⟨hkeys, fun e he => ?_⟩
    obtain ⟨slot, hslot, hfallback⟩ := List.mem_filterMap.mp he
    exact (hslots slot hslot).2 e hfallback
  · rw [hparts]
    intro q hq
    obtain ⟨slot, hslot, hpattern⟩ := List.mem_filterMap.mp hq
    exact (hslots slot hslot).1 q hpattern

end Pattern.Sourced

/-- Lowering puts literals at their places. -/
theorem Lowering.rules_sourced : Rules Expr.Sourced Pattern.Sourced fun _ => True where
  literal _ hv := .literal (.made hv)
  ident _ := .ident _ _
  dot _ h := .of_exprs rfl True.intro (List.forall_mem_singleton.mpr h)
  project _ h := .of_exprs rfl True.intro (List.forall_mem_singleton.mpr h)
  call _ hfunc harg := .of_exprs rfl True.intro
    (List.forall_mem_cons.mpr ⟨hfunc, List.forall_mem_singleton.mpr harg⟩)
  binary _ hlhs hrhs := .binary hlhs hrhs
  unary _ h := .of_exprs rfl True.intro (List.forall_mem_singleton.mpr h)
  package _ h := .of_exprs rfl True.intro (List.forall_mem_singleton.mpr h)
  compare _ hargs _ := .of_exprs rfl True.intro hargs
  ifElse _ htrue hcondition hfalse := .of_exprs rfl True.intro
    (List.forall_mem_cons.mpr ⟨htrue,
      List.forall_mem_cons.mpr ⟨hcondition, List.forall_mem_singleton.mpr hfalse⟩⟩)
  condControl _ hcontrol harms := by
    refine .mk (List.forall_mem_cons.mpr ⟨hcontrol, ?_⟩) ?_ True.intro
    · exact List.forall_mem_map.mpr fun arm harm => (harms arm harm).2
    · exact List.forall_mem_map.mpr fun arm harm => (harms arm harm).1
  cond _ h _ := .cond h
  count _ h := .of_exprs rfl True.intro (List.forall_mem_singleton.mpr h)
  single _ h := .of_exprs rfl True.intro (List.forall_mem_singleton.mpr h)
  safeTail _ hfallback hbase hsteps _ := by
    refine .of_exprs rfl True.intro
      (List.forall_mem_cons.mpr ⟨hfallback, List.forall_mem_cons.mpr ⟨hbase, fun c hc => ?_⟩⟩)
    obtain ⟨step, hstep, harg⟩ := List.mem_flatMap.mp hc
    exact (hsteps step hstep).1 c harg
  relation _ _ hrows := by
    refine .of_exprs rfl True.intro fun c hc => ?_
    obtain ⟨row, hrow, hmem⟩ := List.mem_flatten.mp hc
    exact (hrows row hrow).2 c hmem
  set _ h := .of_exprs rfl True.intro h
  dict _ hentries := by
    refine .of_exprs rfl True.intro fun c hc => ?_
    obtain ⟨entry, hentry, hmem⟩ := List.mem_flatMap.mp hc
    obtain ⟨hkey, hvalue, -⟩ := hentries entry hentry
    exact List.forall_mem_cons.mpr ⟨hkey, List.forall_mem_singleton.mpr hvalue⟩ c hmem
  array _ hitems := by
    refine .of_exprs rfl True.intro fun c hc => ?_
    obtain ⟨item, hitem, heq⟩ := List.mem_filterMap.mp hc
    exact hitems c (heq ▸ hitem)
  bytes _ h := .of_exprs rfl True.intro h
  tuple _ h := .of_exprs rfl True.intro (List.forall_mem_map.mpr h)
  function _ hparam hbody := .mk (List.forall_mem_singleton.mpr hbody)
    (List.forall_mem_singleton.mpr hparam) True.intro
  recursion _ h := .of_exprs rfl True.intro
    (List.forall_mem_cons.mpr ⟨h, List.forall_mem_cons.mpr ⟨.literal .fix,
      List.forall_mem_singleton.mpr (.literal .fixt)⟩⟩)
  paren _ h := .of_exprs rfl True.intro (List.forall_mem_singleton.mpr h)
  xstr _ hparts := by
    refine .of_exprs rfl True.intro fun c hc => ?_
    obtain ⟨part, hpart, heq⟩ := List.mem_filterMap.mp hc
    cases part with
    | text s => cases heq
    | expr e format =>
      obtain rfl := Option.some.inj heq
      exact hparts e format hpart
  nest _ h := .of_exprs rfl True.intro (List.forall_mem_singleton.mpr h)
  exprPattern {e} h := by
    refine .mk (fun c hc => ?_) (List.forall_mem_nil _)
    cases hident : e.isIdent <;> simp_all [Pattern.reads, Pattern.keys, Pattern.literals, Pattern.slots]
  exprsPattern {es} h := by
    refine .mk (fun c hc => h c ?_) (List.forall_mem_nil _)
    simpa [Pattern.reads, Pattern.keys, Pattern.literals, Pattern.slots] using hc
  arrayPattern hslots _ := .of_slots (List.forall_mem_nil _) rfl rfl hslots
  tuplePattern hslots _ := .of_slots (List.forall_mem_nil _) rfl rfl (List.forall_mem_map.mpr hslots)
  dictPattern hslots _ := by
    refine .of_slots (fun key hkey => ?_) rfl rfl
      (List.forall_mem_map.mpr fun slot hslot => (hslots slot hslot).1)
    obtain ⟨slot, hslot, heq⟩ := List.mem_filterMap.mp hkey
    exact (hslots slot hslot).2.1 key heq
  setPattern h _ := .mk (List.forall_mem_nil _) h
  extraPattern := .mk (List.forall_mem_nil _) (List.forall_mem_nil _)
  exprSpan _ := True.intro
  mergeOr _ _ := True.intro
  extendLeft _ := True.intro

/-! ## Compilers -/

/-- The resolver that puts loading off answers with literals at their places. -/
theorem Lowering.answers_deferred_sourced : Answers Expr.Sourced Modules.deferred where
  standardLibrary h := Except.ok.inj h ▸
    .of_exprs rfl True.intro (List.forall_mem_singleton.mpr (.ident _ _))
  localFile {_ fromRoot _ _} h := by
    rw [← Except.ok.inj h]
    cases fromRoot with
    | false => exact .literal (.loader _ (by decide))
    | true => exact .literal (.loader _ (by decide))
  externalContent h := Except.ok.inj h ▸ .literal (.loader _ (by decide))

/-- No expression stands in the tree of a document. -/
theorem Node.Sliced.embeds {E : Expr → Prop} {node : Node} (h : node.Sliced) : node.Embeds E := by
  induction hheight : node.height using Nat.strongRecOn generalizing node with
  | ind height ih =>
    cases node with
    | leaf => exact True.intro
    | embedded e span => cases (h _ (mem_subtrees_self _)).2
    | branch children span =>
      refine embedsTags_iff.mpr fun c hc n hn => ?_
      have hlt : n.height < height := hheight ▸ height_lt_heightTags hc hn
      refine ih n.height hlt (fun m hm => h m ?_) rfl
      rw [subtrees]
      exact List.mem_cons_of_mem _ (mem_subtreesTags.mpr ⟨c, hc, n, hn, hm⟩)

/-- The grammar and the resolver of a compiler bring no literals in but such as stand at their
places. -/
structure Compiler.Sourced (compiler : Compiler) : Prop where
  grammar {text filename : String} {tree : Node} (h : compiler.grammar text filename = .ok tree) :
    tree.Embeds Expr.Sourced
  modules : Lowering.Answers Expr.Sourced compiler.modules

theorem Compiler.standard_sourced : Compiler.standard.Sourced where
  grammar h := (Document.parse_sliced h).embeds
  modules := Lowering.answers_deferred_sourced

/-- The literals of compiled expressions stand at their places. -/
theorem Compiler.Sourced.compile {compiler : Compiler} (h : compiler.Sourced) {path text : String}
    {state state' : CompilerState} {e : Expr}
    (hcompile : compiler.compile path text state = (.ok e, state')) : e.Sourced :=
  compile_has Lowering.rules_sourced h.modules (fun _ => h.grammar) hcompile

end Relational
