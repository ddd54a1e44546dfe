import Relational.Proofs.Extensionality
import Relational.Proofs.Pairing

/-!
# Values and the expressions that spell them

Every value without functions can be spelled: by an expression of arrays, tuples, sets, dictionaries
and bytes over literals, which has it for value. Values and expressions are printed separately.

> `Value.text_eq_spelled_iff`: a value and an expression that spells it have the same text exactly
> if all names of attributes in the value, at every depth, can be written without quotes.

An expression puts other names between quotes and a value does not. Quotes only make a text longer,
and nothing else differs, so a difference anywhere shows in the length of the whole text.
-/

namespace Relational

/-! ## Texts that differ by length -/

/-- Two texts are the same if a property holds, and the second one is longer if it does not. -/
inductive Lengthens (P : Prop) (s t : String) : Prop
  | same (h : s = t) (hP : P)
  | longer (h : s.length < t.length) (hP : ¬P)

namespace Lengthens

variable {P Q : Prop} {s t s' t' : String}

theorem refl (s : String) : Lengthens True s s := .same rfl True.intro

theorem eq_iff (h : Lengthens P s t) : s = t ↔ P := by
  cases h with
  | same h hP => exact iff_of_true h hP
  | longer h hP =>
    refine iff_of_false (fun heq => ?_) hP
    rw [heq] at h
    exact absurd h (Nat.lt_irrefl _)

theorem congr (h : Lengthens P s t) (hPQ : P ↔ Q) : Lengthens Q s t := by
  cases h with
  | same h hP => exact .same h (hPQ.mp hP)
  | longer h hP => exact .longer h fun hQ => hP (hPQ.mpr hQ)

theorem length_le (h : Lengthens P s t) : s.length ≤ t.length := by
  cases h with
  | same h => exact Nat.le_of_eq (congrArg String.length h)
  | longer h => exact Nat.le_of_lt h

/-- One difference is enough to make the whole text longer. -/
theorem append (h : Lengthens P s t) (h' : Lengthens Q s' t') :
    Lengthens (P ∧ Q) (s ++ s') (t ++ t') := by
  have hle := h.length_le
  have hle' := h'.length_le
  cases h with
  | longer h hP =>
    refine .longer ?_ fun hboth => hP hboth.1
    simp only [String.length_append]
    omega
  | same h hP =>
    cases h' with
    | longer h' hQ =>
      refine .longer ?_ fun hboth => hQ hboth.2
      simp only [String.length_append]
      omega
    | same h' hQ => exact .same (by rw [h, h']) ⟨hP, hQ⟩

theorem between (h : Lengthens P s t) (before after : String) :
    Lengthens P (before ++ s ++ after) (before ++ t ++ after) :=
  (((refl before).append h).append (refl after)).congr (by simp)

/-- Texts between commas differ if one of them does. -/
theorem commas {α β : Type} {P : α → Prop} {f : α → String} {g : β → String} {as : List α}
    {bs : List β} (h : List.Forall₂ (fun a b => Lengthens (P a) (f a) (g b)) as bs) :
    Lengthens (∀ a ∈ as, P a) (commas (as.map f)) (commas (bs.map g)) := by
  induction h with
  | nil => exact .same rfl (List.forall_mem_nil _)
  | @cons a b as bs hab hrest ih =>
    cases hrest with
    | nil =>
      simp only [List.map_cons, List.map_nil, Relational.commas, String.intercalate_singleton]
      exact hab.congr List.forall_mem_singleton.symm
    | cons =>
      simp only [List.map_cons, Relational.commas, String.intercalate_cons_cons] at ih ⊢
      refine ((hab.append (refl ", ")).append ih).congr ?_
      rw [and_true]
      exact List.forall_mem_cons.symm

end Lengthens

theorem Text.length_lt_singleQuoted (s : String) : s.length < (singleQuoted s).length := by
  have hchar (c : Char) : 1 ≤ (singleQuotedChar c).length := by
    unfold singleQuotedChar
    split_ifs <;> simp
  have hchars (cs : List Char) : cs.length ≤ (cs.flatMap singleQuotedChar).length := by
    induction cs with
    | nil => exact Nat.le_refl _
    | cons c cs ih =>
      have hc := hchar c
      rw [List.flatMap_cons, List.length_append, List.length_cons]
      omega
  have hs := hchars s.toList
  rw [singleQuoted, String.length_ofList, ← String.length_toList]
  simp only [List.length_append, List.length_cons, List.length_nil]
  omega

/-- Quotes make a name longer. -/
theorem lengthens_attrName (name : String) :
    Lengthens (Text.isBareName name = true) name (Text.attrName name) := by
  rw [Text.attrName]
  split
  next hbare => exact .same rfl hbare
  next hbare => exact .longer (Text.length_lt_singleQuoted name) hbare

/-! ## Texts of collections -/

namespace Value

theorem texts_eq_map (vs : List Value) : texts vs = vs.map text := by
  induction vs with
  | nil => rfl
  | cons v vs ih => rw [texts, ih, List.map_cons]

theorem itemTexts_eq_map (items : List (Option Value)) :
    itemTexts items = items.map fun item => item.elim "" text := by
  induction items with
  | nil => rfl
  | cons item items ih => cases item <;> rw [itemTexts, ih, List.map_cons] <;> rfl

theorem attrTexts_eq_map (attrs : List (String × Value)) :
    attrTexts attrs = attrs.map fun attr => attr.1 ++ ": " ++ attr.2.text := by
  induction attrs with
  | nil => rfl
  | cons attr attrs ih => rw [attrTexts, ih, List.map_cons]

theorem entryTexts_eq_map (entries : List (Value × Value)) :
    entryTexts entries = entries.map fun entry => entry.1.text ++ ": " ++ entry.2.text := by
  induction entries with
  | nil => rfl
  | cons entry entries ih => rw [entryTexts, ih, List.map_cons]

end Value

namespace Expr

theorem texts_eq_map (es : List Expr) : texts es = es.map text := by
  induction es with
  | nil => rfl
  | cons e es ih => rw [texts, ih, List.map_cons]

theorem itemTexts_eq_map (items : List (Option Expr)) :
    itemTexts items = items.map fun item => item.elim "" text := by
  induction items with
  | nil => rfl
  | cons item items ih => cases item <;> rw [itemTexts, ih, List.map_cons] <;> rfl

theorem attrTexts_eq_map (attrs : List (String × Expr)) :
    attrTexts attrs = attrs.map fun attr => Text.attrName attr.1 ++ ": " ++ attr.2.text := by
  induction attrs with
  | nil => rfl
  | cons attr attrs ih => rw [attrTexts, ih, List.map_cons]

theorem entryTexts_eq_map (entries : List DictEntry) :
    entryTexts entries = entries.map fun entry => entry.key.text ++ ": " ++ entry.value.text := by
  induction entries with
  | nil => rfl
  | cons entry entries ih =>
    cases entry with
    | mk key value span => rw [entryTexts, ih, List.map_cons]; rfl

end Expr

/-! ## Runs that end at once -/

namespace Run

variable {α β : Type} {f : α → Run β}

theorem traverse_eq_pure {as : List α} {bs : List β}
    (h : List.Forall₂ (fun b a => f a = pure b) bs as) : traverse f as = pure bs := by
  induction h with
  | nil => rfl
  | cons hab _ ih => rw [traverse, hab, ih, pure_bind, pure_bind]

theorem traverseItems_eq_pure {as : List (Option α)} {bs : List (Option β)}
    (h : List.Forall₂ (Option.Rel fun b a => f a = pure b) bs as) :
    traverseItems f as = pure bs := by
  induction h with
  | nil => rfl
  | cons hab _ ih =>
    cases hab with
    | none => rw [traverseItems, ih, pure_bind]
    | some hab => rw [traverseItems, hab, ih, pure_bind, pure_bind]

end Run

/-! ## Spelling -/

theorem exists_forall₂ {α β : Type} {R : α → β → Prop} {as : List α} (h : ∀ a ∈ as, ∃ b, R a b) :
    ∃ bs, List.Forall₂ R as bs := by
  induction as with
  | nil => exact ⟨[], .nil⟩
  | cons a as ih =>
    obtain ⟨b, hb⟩ := h a List.mem_cons_self
    obtain ⟨bs, hbs⟩ := ih fun a' ha' => h a' (List.mem_cons_of_mem a ha')
    exact ⟨b :: bs, .cons hb hbs⟩

/-- A number spells a byte. -/
inductive SpellsByte : UInt8 → Expr → Prop
  | mk (b : UInt8) (span : Span) : SpellsByte b (.literal (.number (.ofNat b.toNat)) span)

theorem SpellsByte.lengthens {b : UInt8} {e : Expr} (h : SpellsByte b e) :
    Lengthens True (toString b.toNat) e.text := by
  cases h with
  | mk span =>
    have htext : ∀ n < 256, (Number.ofNat n).text = toString n := by decide +kernel
    exact .same (htext b.toNat b.toNat_lt).symm True.intro

theorem SpellsByte.eval {b : UInt8} {e : Expr} (h : SpellsByte b e) (place : Span)
    (scope : Scope) :
    (do
      let v ← unbounded.eval e scope
      Run.within place (Run.ofExcept (Evaluator.byte v))) = pure b := by
  cases h with
  | mk span =>
    have hread : ∀ n < 256, (Number.ofNat n).toNat? = some n := by decide +kernel
    have hbyte : Evaluator.byte (.number (.ofNat b.toNat)) = .ok b := by
      have hle : b.toNat ≤ 255 := Nat.le_of_lt_succ b.toNat_lt
      simp [Evaluator.byte, Value.asNumber, bind, Except.bind, hread b.toNat b.toNat_lt, hle]
    rw [unbounded_eval, Evaluator.evalStep, pure_bind, hbyte]
    rfl

/-- An entry spells a key with its value. -/
inductive SpellsEntry (R : Value → Expr → Prop) : Value × Value → DictEntry → Prop
  | mk {k v : Value} {key value : Expr} (hkey : R k key) (hvalue : R v value) (span : Span) :
      SpellsEntry R (k, v) (.mk key value span)

theorem SpellsEntry.eval {entry : Value × Value} {c : DictEntry} {scope : Scope}
    (h : SpellsEntry (fun w c => unbounded.eval c scope = pure w) entry c) :
    (do
      let key ← unbounded.eval c.key scope
      let value ← unbounded.eval c.value scope
      pure (key, value)) = (pure entry : Run (Value × Value)) := by
  cases h with
  | mk hkey hvalue =>
    simp only [DictEntry.key, DictEntry.value, hkey, hvalue, pure_bind]

namespace Value

/-- An expression spells a value at the outermost level: a literal, or a collection whose elements
are related to those of the value, in the same order. -/
inductive SpelledBy (R : Value → Expr → Prop) : Value → Expr → Prop
  | bool (b : Bool) (span : Span) : SpelledBy R (.bool b) (.literal (.bool b) span)
  | number (x : Number) (span : Span) : SpelledBy R (.number x) (.literal (.number x) span)
  | string (s : String) (span : Span) : SpelledBy R (.string s) (.literal (.string s) span)
  | bytes {bs : List UInt8} {es : List Expr} (h : List.Forall₂ SpellsByte bs es) (span : Span) :
      SpelledBy R (.bytes bs) (.bytes es span)
  | array {items : List (Option Value)} {es : List (Option Expr)}
      (h : List.Forall₂ (Option.Rel R) items es) (span : Span) :
      SpelledBy R (.array items) (.array es span)
  | tuple {attrs : List (String × Value)} {es : List (String × Expr)}
      (h : List.Forall₂ (Both Eq R) attrs es) (span : Span) :
      SpelledBy R (.tuple attrs) (.tuple es span)
  | set {members : List Value} {es : List Expr} (h : List.Forall₂ R members es) (span : Span) :
      SpelledBy R (.set members) (.set es span)
  | dict {entries : List (Value × Value)} {es : List DictEntry}
      (h : List.Forall₂ (SpellsEntry R) entries es) (conditional : Bool) (span : Span) :
      SpelledBy R (.dict entries) (.dict es conditional span)

/-- An expression spells a value: literals do so at the leaves, and collections at every level. -/
inductive Spelled : Value → Expr → Prop
  | mk {v : Value} {e : Expr} (h : v.SpelledBy Spelled e) : Spelled v e

/-- The names of the attributes of a tuple. -/
def attrNames : Value → List String
  | .tuple attrs => attrs.map (·.1)
  | _ => []

/-- All names of attributes in a value, at every depth, can be written without quotes. -/
inductive BareNames : Value → Prop
  | mk {v : Value} (hnames : ∀ name ∈ v.attrNames, Text.isBareName name = true)
      (helements : ∀ w ∈ v.elements, BareNames w) : BareNames v

theorem bareNames_iff {v : Value} : v.BareNames ↔
    (∀ name ∈ v.attrNames, Text.isBareName name = true) ∧ ∀ w ∈ v.elements, w.BareNames := by
  constructor
  · rintro ⟨hnames, helements⟩
    exact ⟨hnames, helements⟩
  · rintro ⟨hnames, helements⟩
    exact ⟨hnames, helements⟩

namespace SpelledBy

variable {R S : Value → Expr → Prop} {v : Value} {e : Expr}

theorem isFunction_eq (h : v.SpelledBy R e) : v.isFunction = false := by
  cases h <;> rfl

/-- The elements of a spelled value may be related in another way. -/
theorem imp (h : v.SpelledBy R e) (himp : ∀ w ∈ v.elements, ∀ c, R w c → S w c) :
    v.SpelledBy S e := by
  cases h with
  | bool b span => exact .bool b span
  | number x span => exact .number x span
  | string s span => exact .string s span
  | bytes h span => exact .bytes h span
  | array h span =>
    refine .array (forall₂_of_mem h fun item hitem c hc => optionRel_imp (fun w hw => ?_) hc) span
    exact himp w (List.mem_filterMap.mpr ⟨item, hitem, hw⟩)
  | tuple h span =>
    refine .tuple (forall₂_of_mem h fun attr hattr c hc => ?_) span
    cases hc with
    | mk hname hvalue => exact ⟨hname, himp _ (List.mem_map_of_mem hattr) _ hvalue⟩
  | set h span => exact .set (forall₂_of_mem h himp) span
  | dict h conditional span =>
    refine .dict (forall₂_of_mem h fun entry hentry c hc => ?_) conditional span
    cases hc with
    | @mk k w key value hkey hvalue place =>
      have hparts : ∀ u ∈ [k, w], ∀ c, R u c → S u c := fun u hu =>
        himp u (List.mem_flatMap.mpr ⟨(k, w), hentry, hu⟩)
      exact .mk (hparts k (by simp) _ hkey) (hparts w (by simp) _ hvalue) place

/-- What spells the elements of a value can be put together. -/
theorem exists_of_elements (hv : v.isFunction = false) (h : ∀ w ∈ v.elements, ∃ c, R w c) :
    ∃ e, v.SpelledBy R e := by
  cases v with
  | bool b => exact ⟨_, .bool b .unknown⟩
  | number x => exact ⟨_, .number x .unknown⟩
  | string s => exact ⟨_, .string s .unknown⟩
  | bytes bs =>
    obtain ⟨es, hes⟩ := exists_forall₂ fun b (_ : b ∈ bs) => ⟨_, SpellsByte.mk b .unknown⟩
    exact ⟨_, .bytes hes .unknown⟩
  | array items =>
    have hitems : ∀ item ∈ items, ∃ c, Option.Rel R item c := by
      intro item hitem
      cases item with
      | none => exact ⟨none, .none⟩
      | some w =>
        obtain ⟨c, hc⟩ := h w (List.mem_filterMap.mpr ⟨some w, hitem, rfl⟩)
        exact ⟨some c, .some hc⟩
    obtain ⟨es, hes⟩ := exists_forall₂ hitems
    exact ⟨_, .array hes .unknown⟩
  | tuple attrs =>
    have hattrs : ∀ attr ∈ attrs, ∃ c, Both Eq R attr c := by
      intro attr hattr
      obtain ⟨c, hc⟩ := h attr.2 (List.mem_map_of_mem hattr)
      exact ⟨(attr.1, c), rfl, hc⟩
    obtain ⟨es, hes⟩ := exists_forall₂ hattrs
    exact ⟨_, .tuple hes .unknown⟩
  | set members =>
    obtain ⟨es, hes⟩ := exists_forall₂ h
    exact ⟨_, .set hes .unknown⟩
  | dict entries =>
    have hentries : ∀ entry ∈ entries, ∃ c, SpellsEntry R entry c := by
      intro entry hentry
      have hparts : ∀ u ∈ [entry.1, entry.2], ∃ c, R u c := fun u hu =>
        h u (List.mem_flatMap.mpr ⟨entry, hentry, hu⟩)
      obtain ⟨key, hkey⟩ := hparts entry.1 (by simp)
      obtain ⟨value, hvalue⟩ := hparts entry.2 (by simp)
      exact ⟨_, .mk hkey hvalue .unknown⟩
    obtain ⟨es, hes⟩ := exists_forall₂ hentries
    exact ⟨_, .dict hes false .unknown⟩
  | closure => cases hv
  | native => cases hv

/-- The text of a value differs from that of an expression by the names of its attributes, and by
the texts of its elements. -/
theorem lengthens {P : Value → Prop}
    (h : v.SpelledBy (fun w c => Lengthens (P w) w.text c.text) e) :
    Lengthens ((∀ name ∈ v.attrNames, Text.isBareName name = true) ∧ ∀ w ∈ v.elements, P w)
      v.text e.text := by
  cases h with
  | bool b span => exact .same rfl (by simp [attrNames, elements])
  | number x span => exact .same rfl (by simp [attrNames, elements])
  | string s span => exact .same rfl (by simp [attrNames, elements])
  | @bytes bs es h span =>
    have hbytes : List.Forall₂
        (fun (b : UInt8) (c : Expr) => Lengthens True (toString b.toNat) c.text) bs es :=
      h.imp fun b c hbyte => hbyte.lengthens
    rw [text, Expr.text, Expr.texts_eq_map]
    exact ((Lengthens.commas hbytes).between "<<" ">>").congr (by simp [attrNames, elements])
  | @array items es h span =>
    have hitems : List.Forall₂ (fun (item : Option Value) (c : Option Expr) =>
        Lengthens (∀ w ∈ item, P w) (item.elim "" text) (c.elim "" Expr.text)) items es := by
      refine h.imp fun item c hitem => ?_
      cases hitem with
      | none => exact (Lengthens.refl "").congr (by simp)
      | some hw => exact hw.congr (by simp)
    rw [text, Expr.text, itemTexts_eq_map, Expr.itemTexts_eq_map]
    refine ((Lengthens.commas hitems).between "[" "]").congr ?_
    simp only [attrNames, elements, present, List.not_mem_nil, List.mem_filterMap, id_eq,
      Option.mem_def]
    grind
  | @tuple attrs es h span =>
    have hattrs : List.Forall₂ (fun (attr : String × Value) (c : String × Expr) =>
        Lengthens (Text.isBareName attr.1 = true ∧ P attr.2) (attr.1 ++ ": " ++ attr.2.text)
          (Text.attrName c.1 ++ ": " ++ c.2.text)) attrs es := by
      refine h.imp fun attr c hattr => ?_
      rw [← hattr.fst]
      refine (((lengthens_attrName attr.1).append (.refl ": ")).append hattr.snd).congr ?_
      rw [and_true]
    rw [text, Expr.text, attrTexts_eq_map, Expr.attrTexts_eq_map]
    refine ((Lengthens.commas hattrs).between "(" ")").congr ?_
    simp only [attrNames, elements, List.forall_mem_map]
    exact forall₂_and
  | @set members es h span =>
    rw [text, Expr.text, texts_eq_map, Expr.texts_eq_map]
    exact ((Lengthens.commas h).between "\x7b" "\x7d").congr (by simp [attrNames, elements])
  | @dict entries es h conditional span =>
    have hentries : List.Forall₂ (fun (entry : Value × Value) (c : DictEntry) =>
        Lengthens (P entry.1 ∧ P entry.2) (entry.1.text ++ ": " ++ entry.2.text)
          (c.key.text ++ ": " ++ c.value.text)) entries es := by
      refine h.imp fun entry c hentry => ?_
      cases hentry with
      | mk hkey hvalue =>
        refine ((hkey.append (.refl ": ")).append hvalue).congr ?_
        rw [and_true]
    rw [text, Expr.text, entryTexts_eq_map, Expr.entryTexts_eq_map]
    refine ((Lengthens.commas hentries).between "\x7b" "\x7d").congr ?_
    simp only [attrNames, elements, List.not_mem_nil, List.mem_flatMap, List.mem_pair]
    grind

end SpelledBy

namespace Spelled

variable {v : Value} {e : Expr}

theorem isFunction_eq (h : Spelled v e) : v.isFunction = false := by
  cases h with
  | mk h => exact h.isFunction_eq

/-- The text of a value differs from that of an expression that spells it by the names of
attributes. -/
theorem lengthens (h : Spelled v e) : Lengthens v.BareNames v.text e.text := by
  induction v using induction_parts generalizing e with
  | step v ih =>
    rw [parts_eq_elements h.isFunction_eq] at ih
    cases h with
    | mk h =>
      exact (h.imp fun w hw c hc => ih w hw hc).lengthens.congr bareNames_iff.symm

end Spelled

theorem exists_spelled {v : Value} (hv : v.hasFunction = false) : ∃ e, Spelled v e := by
  induction v using induction_parts with
  | step v ih =>
    obtain ⟨hfunction, helements⟩ := hasFunction_eq_false_iff.mp hv
    rw [parts_eq_elements hfunction] at ih
    obtain ⟨e, he⟩ := SpelledBy.exists_of_elements hfunction fun w hw => ih w hw (helements w hw)
    exact ⟨e, .mk he⟩

/-! ## The value of what is spelled -/

theorem Canonical.of_mem_elements {v w : Value} (hv : v.Canonical) (hw : w ∈ v.elements) :
    w.Canonical := by
  cases hv with
  | array hitems =>
    obtain ⟨item, hitem, rfl⟩ := List.mem_filterMap.mp hw
    exact hitems w hitem
  | tuple hasc hattrs =>
    obtain ⟨attr, hattr, rfl⟩ := List.mem_map.mp hw
    exact hattrs attr hattr
  | set hasc hmembers => exact hmembers w hw
  | dict hasc hkeys hvalues =>
    obtain ⟨entry, hentry, hmem⟩ := List.mem_flatMap.mp hw
    rcases List.mem_pair.mp hmem with rfl | rfl
    · exact hkeys entry hentry
    · exact hvalues entry hentry
  | _ => cases hw

theorem SpelledBy.eval {v : Value} {e : Expr} {scope : Scope}
    (h : v.SpelledBy (fun w c => unbounded.eval c scope = pure w) e) (hv : v.Canonical) :
    unbounded.eval e scope = pure v := by
  rw [unbounded_eval]
  cases h with
  | bool b span => rfl
  | number x span => rfl
  | string s span => rfl
  | bytes h span =>
    have hbytes := Run.traverse_eq_pure (h.imp fun b c hbyte => hbyte.eval span scope)
    rw [Evaluator.evalStep, hbytes, pure_bind]
  | array h span => rw [Evaluator.evalStep, Run.traverseItems_eq_pure h, pure_bind]
  | tuple h span =>
    cases hv with
    | tuple hasc hattrs =>
      have hvalues := Run.traverse_eq_pure (f := fun (attr : String × Expr) => do
        let v ← unbounded.eval attr.2 scope
        pure (attr.1, v)) (h.imp fun attr c hattr => by
          rw [hattr.snd, pure_bind, ← hattr.fst])
      rw [Evaluator.evalStep, hvalues, pure_bind, OrderedMap.ofList_of_ascending hasc]
  | set h span =>
    cases hv with
    | set hasc hmembers =>
      rw [Evaluator.evalStep, Run.traverse_eq_pure h, pure_bind,
        OrderedSet.ofList_of_ascending hasc]
  | dict h conditional span =>
    cases hv with
    | dict hasc hkeys hvalues =>
      have hpairs := Run.traverse_eq_pure (f := fun (entry : DictEntry) => do
        let key ← unbounded.eval entry.key scope
        let value ← unbounded.eval entry.value scope
        pure (key, value)) (h.imp fun entry c hentry => hentry.eval)
      rw [Evaluator.evalStep, hpairs, pure_bind, OrderedMap.ofList_of_ascending hasc]

/-- An expression that spells a value has it for value, in every scope. -/
theorem Spelled.eval {v : Value} {e : Expr} (h : Spelled v e) (hv : v.Canonical) (scope : Scope) :
    unbounded.eval e scope = pure v := by
  induction v using induction_parts generalizing e with
  | step v ih =>
    rw [parts_eq_elements h.isFunction_eq] at ih
    cases h with
    | mk h => exact (h.imp fun w hw c hc => ih w hw hc (hv.of_mem_elements hw)).eval hv

/-- A value without functions can be spelled. What spells it has it for value, if it is in order,
and has the same text exactly if no name of an attribute needs quotes. -/
theorem text_eq_spelled_iff (v : Value) (hv : v.hasFunction = false) :
    (∃ e, Spelled v e) ∧ ∀ e, Spelled v e →
      (v.text = e.text ↔ v.BareNames) ∧
      (v.Canonical → ∀ scope, unbounded.eval e scope = pure v) :=
  ⟨exists_spelled hv, fun _ he => ⟨he.lengthens.eq_iff, fun hcanonical => he.eval hcanonical⟩⟩

/-- The value `(a: [<<255>>, , 'x'], b: {1: {true}})`, with its expression. -/
theorem text_eq_spelled_iff_nested :
    let v : Value := .tuple
      [("a", .array [some (.bytes [255]), none, some (.string "x")]),
        ("b", .dict [(.number (.ofNat 1), .set [.bool true])])]
    let e : Expr := .tuple
      [("a", .array [some (.bytes [.literal (.number (.ofNat 255)) .unknown] .unknown), none,
          some (.literal (.string "x") .unknown)] .unknown),
        ("b", .dict [.mk (.literal (.number (.ofNat 1)) .unknown)
          (.set [.literal (.bool true) .unknown] .unknown) .unknown] false .unknown)] .unknown
    v.hasFunction = false ∧ Spelled v e ∧ v.text = e.text := by
  intro v e
  have hv : v.hasFunction = false := rfl
  have he : Spelled v e := by
    refine ⟨.tuple (.cons ⟨rfl, ⟨.array ?_ _⟩⟩ (.cons ⟨rfl, ⟨.dict ?_ _ _⟩⟩ .nil)) _⟩
    · refine .cons (.some ⟨.bytes (.cons (.mk 255 _) .nil) _⟩) (.cons .none (.cons ?_ .nil))
      exact .some ⟨.string _ _⟩
    · refine .cons (.mk ⟨.number _ _⟩ ?_ _) .nil
      exact ⟨.set (.cons ⟨.bool _ _⟩ .nil) _⟩
  have hbare : v.BareNames := by
    have hnone : ∀ name ∈ ([] : List String), Text.isBareName name = true := List.forall_mem_nil _
    have hleaf : ∀ w ∈ ([] : List Value), w.BareNames := List.forall_mem_nil _
    have hpair {a b : Value} (ha : a.BareNames) (hb : b.BareNames) : ∀ w ∈ [a, b], w.BareNames :=
      List.forall_mem_cons.mpr ⟨ha, List.forall_mem_singleton.mpr hb⟩
    have hset : BareNames (.set [.bool true]) :=
      ⟨hnone, List.forall_mem_singleton.mpr ⟨hnone, hleaf⟩⟩
    have harray : BareNames (.array [some (.bytes [255]), none, some (.string "x")]) :=
      ⟨hnone, hpair ⟨hnone, hleaf⟩ ⟨hnone, hleaf⟩⟩
    have hdict : BareNames (.dict [(.number (.ofNat 1), .set [.bool true])]) :=
      ⟨hnone, hpair ⟨hnone, hleaf⟩ hset⟩
    have hnames : ∀ name ∈ ["a", "b"], Text.isBareName name = true := by decide +kernel
    exact ⟨hnames, hpair harray hdict⟩
  exact ⟨hv, he, ((text_eq_spelled_iff v hv).2 e he).1.mpr hbare⟩

/-- The name `two words` gets quotes in an expression and none in a value. -/
theorem text_ne_spelled_twoWords :
    let v : Value := .tuple [("two words", .number (.ofNat 1))]
    let e : Expr := .tuple [("two words", .literal (.number (.ofNat 1)) .unknown)] .unknown
    Spelled v e ∧ v.text = "(two words: 1)" ∧ e.text = "('two words': 1)" := by
  intro v e
  have he : Spelled v e := ⟨.tuple (.cons ⟨rfl, ⟨.number _ _⟩⟩ .nil) _⟩
  exact ⟨he, by decide +kernel, by decide +kernel⟩

end Value

end Relational
