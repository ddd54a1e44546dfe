import Relational.Proofs.Sides

/-!
# Expressions under other labels

Besides what it says, an expression carries labels: the place of each of its parts, and the
identities of the loaders that it was given, those of the host among them. A relabelling changes
these, wherever they stand, and leaves all else:

> `Expr.text_relabel`: an expression has the same text under all labels.

Two relabellings take labels away. Expressions that are the same without the identities of their
loaders are built alike at the same places, and expressions that are the same without places are
built alike.
-/

namespace Relational

/-- New labels for old ones: for the places, and for the identities of loaders. -/
structure Relabelling where
  place : Span → Span
  loader : Identity → Identity

section Relabel

variable (r : Relabelling)

mutual

/-- A value with other labels. -/
def Value.relabel : Value → Value
  | .bool b => .bool b
  | .number x => .number x
  | .string s => .string s
  | .bytes b => .bytes b
  | .array items => .array (Value.relabelItems items)
  | .tuple attrs => .tuple (Value.relabelAttrs attrs)
  | .set members => .set (Value.relabelAll members)
  | .dict entries => .dict (Value.relabelEntries entries)
  | .closure i param body captured =>
    .closure i param.relabel body.relabel (Value.relabelAttrs captured)
  | .native i .fix => .native i .fix
  | .native i .fixt => .native i .fixt
  | .native i (.unfold f) => .native i (.unfold f.relabel)
  | .native i (.unfoldAttr f attr) => .native i (.unfoldAttr f.relabel attr)
  | .native i (.loader name) => .native (r.loader i) (.loader name)
  | .native i (.hosted name f) => .native (r.loader i) (.hosted name f.relabel)

def Value.relabelItems : List (Option Value) → List (Option Value)
  | [] => []
  | none :: rest => none :: Value.relabelItems rest
  | some v :: rest => some v.relabel :: Value.relabelItems rest

def Value.relabelAttrs : List (String × Value) → List (String × Value)
  | [] => []
  | (name, v) :: rest => (name, v.relabel) :: Value.relabelAttrs rest

def Value.relabelAll : List Value → List Value
  | [] => []
  | v :: rest => v.relabel :: Value.relabelAll rest

def Value.relabelEntries : List (Value × Value) → List (Value × Value)
  | [] => []
  | (k, v) :: rest => (k.relabel, v.relabel) :: Value.relabelEntries rest

/-- An expression with other labels. -/
def Expr.relabel : Expr → Expr
  | .literal value span => .literal value.relabel (r.place span)
  | .ident name span => .ident name (r.place span)
  | .dot lhs attr span => .dot lhs.relabel attr (r.place span)
  | .project lhs inverse attrs span => .project lhs.relabel inverse attrs (r.place span)
  | .call func arg span => .call func.relabel arg.relabel (r.place span)
  | .binary op lhs rhs span => .binary op lhs.relabel rhs.relabel (r.place span)
  | .unary op operand span => .unary op operand.relabel (r.place span)
  | .package inner span => .package inner.relabel (r.place span)
  | .compare args ops span => .compare (Expr.relabelAll args) ops (r.place span)
  | .ifElse ifTrue condition ifFalse span =>
    .ifElse ifTrue.relabel condition.relabel ifFalse.relabel (r.place span)
  | .condControl control arms span =>
    .condControl control.relabel (Expr.relabelArms arms) (r.place span)
  | .cond dict span => .cond dict.relabel (r.place span)
  | .count operand span => .count operand.relabel (r.place span)
  | .single operand span => .single operand.relabel (r.place span)
  | .safeTail fallback base steps span =>
    .safeTail fallback.relabel base.relabel (Expr.relabelSteps steps) (r.place span)
  | .relation names rows span => .relation names (Expr.relabelRows rows) (r.place span)
  | .set elements span => .set (Expr.relabelAll elements) (r.place span)
  | .dict entries conditional span => .dict (Expr.relabelEntries entries) conditional (r.place span)
  | .array items span => .array (Expr.relabelItems items) (r.place span)
  | .bytes items span => .bytes (Expr.relabelAll items) (r.place span)
  | .tuple attrs span => .tuple (Expr.relabelAttrs attrs) (r.place span)
  | .function param body span => .function param.relabel body.relabel (r.place span)
  | .recursion name base fix fixt span =>
    .recursion name base.relabel fix.relabel fixt.relabel (r.place span)
  | .paren inner span => .paren inner.relabel (r.place span)
  | .xstr parts span => .xstr (Expr.relabelParts parts) (r.place span)
  | .nest lhs inverse attrs name span => .nest lhs.relabel inverse attrs name (r.place span)

def Expr.relabelAll : List Expr → List Expr
  | [] => []
  | e :: rest => e.relabel :: Expr.relabelAll rest

def Expr.relabelArms : List (Pattern × Expr) → List (Pattern × Expr)
  | [] => []
  | (p, e) :: rest => (p.relabel, e.relabel) :: Expr.relabelArms rest

/-- A step of safe navigation with other labels. -/
def SafeStep.relabel : SafeStep → SafeStep
  | .mk safe none attr => .mk safe none (attr.map (Prod.map id r.place))
  | .mk safe (some (args, span)) attr =>
    .mk safe (some (Expr.relabelAll args, r.place span)) (attr.map (Prod.map id r.place))

def Expr.relabelSteps : List SafeStep → List SafeStep
  | [] => []
  | step :: rest => step.relabel :: Expr.relabelSteps rest

def Expr.relabelRows : List (List Expr) → List (List Expr)
  | [] => []
  | row :: rest => Expr.relabelAll row :: Expr.relabelRows rest

def Expr.relabelEntries : List DictEntry → List DictEntry
  | [] => []
  | .mk key value span :: rest =>
    .mk key.relabel value.relabel (r.place span) :: Expr.relabelEntries rest

def Expr.relabelItems : List (Option Expr) → List (Option Expr)
  | [] => []
  | none :: rest => none :: Expr.relabelItems rest
  | some e :: rest => some e.relabel :: Expr.relabelItems rest

def Expr.relabelAttrs : List (String × Expr) → List (String × Expr)
  | [] => []
  | (name, e) :: rest => (name, e.relabel) :: Expr.relabelAttrs rest

def Expr.relabelParts : List TextPart → List TextPart
  | [] => []
  | .text s :: rest => .text s :: Expr.relabelParts rest
  | .expr e format :: rest => .expr e.relabel format :: Expr.relabelParts rest

/-- A pattern with other labels. -/
def Pattern.relabel : Pattern → Pattern
  | .expr e => .expr e.relabel
  | .exprs es => .exprs (Expr.relabelAll es)
  | .array items => .array (Pattern.relabelItems items)
  | .tuple attrs => .tuple (Pattern.relabelAttrs attrs)
  | .dict entries => .dict (Pattern.relabelEntries entries)
  | .set elements => .set (Pattern.relabelAll elements)
  | .extra name => .extra name

def Pattern.relabelAll : List Pattern → List Pattern
  | [] => []
  | p :: rest => p.relabel :: Pattern.relabelAll rest

/-- A slot with other labels. -/
def Slot.relabel : Slot → Slot
  | .mk none none => .mk none none
  | .mk none (some e) => .mk none (some e.relabel)
  | .mk (some p) none => .mk (some p.relabel) none
  | .mk (some p) (some e) => .mk (some p.relabel) (some e.relabel)

def Pattern.relabelItems : List Slot → List Slot
  | [] => []
  | slot :: rest => slot.relabel :: Pattern.relabelItems rest

def Pattern.relabelAttrs : List (String × Slot) → List (String × Slot)
  | [] => []
  | (name, slot) :: rest => (name, slot.relabel) :: Pattern.relabelAttrs rest

def Pattern.relabelEntries : List (Option Expr × Slot) → List (Option Expr × Slot)
  | [] => []
  | (none, slot) :: rest => (none, slot.relabel) :: Pattern.relabelEntries rest
  | (some key, slot) :: rest =>
    (some key.relabel, slot.relabel) :: Pattern.relabelEntries rest

end

/-! ## What stays -/

@[simp]
theorem Expr.span_relabel (e : Expr) : (e.relabel r).span = r.place e.span := by
  cases e <;> rfl

@[simp]
theorem Expr.ident?_relabel (e : Expr) : (e.relabel r).ident? = e.ident? := by
  cases e <;> rfl

@[simp]
theorem SafeStep.safe_relabel (step : SafeStep) : (step.relabel r).safe = step.safe := by
  obtain ⟨_, _ | _, _⟩ := step <;> rfl

@[simp]
theorem Slot.isExtra_relabel (slot : Slot) : (slot.relabel r).isExtra = slot.isExtra := by
  obtain ⟨_ | p, _ | e⟩ := slot
  · rfl
  · rfl
  · cases p <;> rfl
  · cases p <;> rfl

/-- The name that an attribute is read of. -/
def Expr.owner? : Expr → Option String
  | .dot lhs _ _ => lhs.ident?
  | _ => none

theorem Expr.owner?_relabel (e : Expr) : (e.relabel r).owner? = e.owner? := by
  cases e with
  | dot lhs => exact ident?_relabel r lhs
  | _ => rfl

/-- A package of the standard library is written as it is, and all else in parentheses. -/
theorem Expr.text_package (inner : Expr) (span : Span) :
    (Expr.package inner span).text =
      if inner.owner? = some "//" then inner.text else "(//" ++ inner.text ++ ")" := by
  show ite (_ = true) inner.text ("(//" ++ inner.text ++ ")") = _
  congr 1
  split
  next => exact (eq_true rfl).trans (eq_true rfl).symm
  next hother =>
    refine (eq_false Bool.false_ne_true).trans (eq_false fun howner => ?_).symm
    cases inner with
    | dot lhs attr place =>
      cases lhs with
      | ident name place =>
        cases Option.some.inj howner
        exact hother _ _ _ rfl
      | _ => cases howner
    | _ => cases howner

mutual

theorem Value.text_relabel : ∀ v : Value, (v.relabel r).text = v.text
  | .bool _ | .number _ | .string _ | .bytes _ => rfl
  | .array items => congrArg (fun t => "[" ++ commas t ++ "]") (Value.itemTexts_relabel items)
  | .tuple attrs => congrArg (fun t => "(" ++ commas t ++ ")") (Value.attrTexts_relabel attrs)
  | .set members =>
    congrArg (fun t => "\x7b" ++ commas t ++ "\x7d") (Value.texts_relabel members)
  | .dict entries =>
    congrArg (fun t => "\x7b" ++ commas t ++ "\x7d") (Value.entryTexts_relabel entries)
  | .closure _ param body _ =>
    congrArg₂ (fun p t => "\\" ++ p ++ " " ++ t) (Pattern.text_relabel param)
      (Expr.text_relabel body)
  | .native _ .fix | .native _ .fixt | .native _ (.unfold _) | .native _ (.unfoldAttr _ _)
  | .native _ (.loader _) | .native _ (.hosted _ _) => rfl

theorem Value.itemTexts_relabel : ∀ items : List (Option Value),
    Value.itemTexts (Value.relabelItems r items) = Value.itemTexts items
  | [] => rfl
  | none :: rest => congrArg ("" :: ·) (Value.itemTexts_relabel rest)
  | some v :: rest =>
    congrArg₂ List.cons (Value.text_relabel v) (Value.itemTexts_relabel rest)

theorem Value.attrTexts_relabel : ∀ attrs : List (String × Value),
    Value.attrTexts (Value.relabelAttrs r attrs) = Value.attrTexts attrs
  | [] => rfl
  | (name, v) :: rest =>
    congrArg₂ (fun t ts => (name ++ ": " ++ t) :: ts) (Value.text_relabel v)
      (Value.attrTexts_relabel rest)

theorem Value.texts_relabel : ∀ members : List Value,
    Value.texts (Value.relabelAll r members) = Value.texts members
  | [] => rfl
  | v :: rest => congrArg₂ List.cons (Value.text_relabel v) (Value.texts_relabel rest)

theorem Value.entryTexts_relabel : ∀ entries : List (Value × Value),
    Value.entryTexts (Value.relabelEntries r entries) = Value.entryTexts entries
  | [] => rfl
  | (k, v) :: rest =>
    congrArg₂ List.cons
      (congrArg₂ (fun k t => k ++ ": " ++ t) (Value.text_relabel k) (Value.text_relabel v))
      (Value.entryTexts_relabel rest)

theorem Expr.text_relabel : ∀ e : Expr, (e.relabel r).text = e.text
  | .literal value _ => Value.text_relabel value
  | .ident _ _ => rfl
  | .dot lhs attr _ => by
    show (if (lhs.relabel r).ident? = some "." then _ else (lhs.relabel r).text ++ "." ++ _) = _
    rw [Expr.ident?_relabel, Expr.text_relabel lhs]
    rfl
  | .project lhs inverse attrs _ =>
    congrArg (fun t => t ++ "." ++ barredNames inverse attrs) (Expr.text_relabel lhs)
  | .call func arg _ =>
    congrArg₂ (fun f t => f ++ "(" ++ t ++ ")") (Expr.text_relabel func)
      (Expr.text_relabel arg)
  | .binary op lhs rhs _ =>
    congrArg₂ (fun l r => "(" ++ l ++ " " ++ op.symbol ++ " " ++ r ++ ")")
      (Expr.text_relabel lhs) (Expr.text_relabel rhs)
  | .unary op operand _ =>
    congrArg (fun t => "(" ++ op.symbol ++ t ++ ")") (Expr.text_relabel operand)
  | .package inner span => by
    show (Expr.package (inner.relabel r) span).text = _
    rw [Expr.text_package, Expr.text_package, Expr.owner?_relabel, Expr.text_relabel inner]
  | .compare args ops _ =>
    congrArg (fun ts => "(" ++ chainText ops ts ++ ")") (Expr.texts_relabel args)
  | .ifElse ifTrue condition ifFalse _ =>
    congrArg₂ (fun t f => t ++ " else " ++ f ++ ")")
      (congrArg₂ (fun t c => "(" ++ t ++ " if " ++ c) (Expr.text_relabel ifTrue)
        (Expr.text_relabel condition))
      (Expr.text_relabel ifFalse)
  | .condControl control arms _ =>
    congrArg₂ (fun c ts => "cond " ++ c ++ " \x7b" ++ commas ts ++ "\x7d")
      (Expr.text_relabel control) (Expr.armTexts_relabel arms)
  | .cond dict _ => congrArg ("cond " ++ ·) (Expr.text_relabel dict)
  | .count operand _ => congrArg (fun t => "(" ++ t ++ " count)") (Expr.text_relabel operand)
  | .single operand _ => congrArg (fun t => "(" ++ t ++ " single)") (Expr.text_relabel operand)
  | .safeTail fallback base steps _ =>
    congrArg₂ (fun t f => t ++ ":" ++ f ++ ")")
      (congrArg₂ (fun b ts => "(" ++ b ++ String.join ts) (Expr.text_relabel base)
        (Expr.stepTexts_relabel steps))
      (Expr.text_relabel fallback)
  | .relation names rows _ =>
    congrArg (fun ts => "\x7b" ++ barredNames false names ++ " " ++ commas ts ++ "\x7d")
      (Expr.rowTexts_relabel rows)
  | .set elements _ =>
    congrArg (fun ts => "\x7b" ++ commas ts ++ "\x7d") (Expr.texts_relabel elements)
  | .dict entries _ _ =>
    congrArg (fun ts => "\x7b" ++ commas ts ++ "\x7d") (Expr.entryTexts_relabel entries)
  | .array items _ => congrArg (fun ts => "[" ++ commas ts ++ "]") (Expr.itemTexts_relabel items)
  | .bytes items _ => congrArg (fun ts => "<<" ++ commas ts ++ ">>") (Expr.texts_relabel items)
  | .tuple attrs _ => congrArg (fun ts => "(" ++ commas ts ++ ")") (Expr.attrTexts_relabel attrs)
  | .function param body _ =>
    congrArg₂ (fun p t => "\\" ++ p ++ " " ++ t) (Pattern.text_relabel param)
      (Expr.text_relabel body)
  | .recursion name base _ _ _ =>
    congrArg (fun t => "rec " ++ name ++ " " ++ t) (Expr.text_relabel base)
  | .paren inner _ => congrArg (fun t => "(" ++ t ++ ")") (Expr.text_relabel inner)
  | .xstr parts _ =>
    congrArg (fun ts => "$\"" ++ String.join ts ++ "\"") (Expr.partTexts_relabel parts)
  | .nest lhs inverse attrs name _ =>
    congrArg (fun t => "(" ++ t ++ " nest " ++ barredNames inverse attrs ++ " " ++ name ++ ")")
      (Expr.text_relabel lhs)

theorem Expr.texts_relabel : ∀ es : List Expr,
    Expr.texts (Expr.relabelAll r es) = Expr.texts es
  | [] => rfl
  | e :: rest => congrArg₂ List.cons (Expr.text_relabel e) (Expr.texts_relabel rest)

theorem Expr.armTexts_relabel : ∀ arms : List (Pattern × Expr),
    Expr.armTexts (Expr.relabelArms r arms) = Expr.armTexts arms
  | [] => rfl
  | (p, e) :: rest =>
    congrArg₂ List.cons
      (congrArg₂ (fun p t => p ++ ": " ++ t) (Pattern.text_relabel p) (Expr.text_relabel e))
      (Expr.armTexts_relabel rest)

theorem SafeStep.label_relabel : ∀ step : SafeStep, (step.relabel r).label = step.label
  | .mk _ none none => rfl
  | .mk _ none (some _) => rfl
  | .mk _ (some (args, _)) none =>
    congrArg (fun ts => "(" ++ commas ts ++ ")" ++ "") (Expr.texts_relabel args)
  | .mk _ (some (args, _)) (some (attr, _)) =>
    congrArg (fun ts => "(" ++ commas ts ++ ")" ++ ("." ++ Text.attrName attr))
      (Expr.texts_relabel args)

theorem Expr.stepTexts_relabel : ∀ steps : List SafeStep,
    Expr.stepTexts (Expr.relabelSteps r steps) = Expr.stepTexts steps
  | [] => rfl
  | step :: rest => by
    show ((if (step.relabel r).safe then "?" else "") ++ (step.relabel r).label) :: _ = _
    rw [SafeStep.safe_relabel, SafeStep.label_relabel step, Expr.stepTexts_relabel rest]
    rfl

theorem Expr.rowTexts_relabel : ∀ rows : List (List Expr),
    Expr.rowTexts (Expr.relabelRows r rows) = Expr.rowTexts rows
  | [] => rfl
  | row :: rest =>
    congrArg₂ (fun ts rows => ("(" ++ commas ts ++ ")") :: rows) (Expr.texts_relabel row)
      (Expr.rowTexts_relabel rest)

theorem Expr.entryTexts_relabel : ∀ entries : List DictEntry,
    Expr.entryTexts (Expr.relabelEntries r entries) = Expr.entryTexts entries
  | [] => rfl
  | .mk key value _ :: rest =>
    congrArg₂ List.cons
      (congrArg₂ (fun k t => k ++ ": " ++ t) (Expr.text_relabel key) (Expr.text_relabel value))
      (Expr.entryTexts_relabel rest)

theorem Expr.itemTexts_relabel : ∀ items : List (Option Expr),
    Expr.itemTexts (Expr.relabelItems r items) = Expr.itemTexts items
  | [] => rfl
  | none :: rest => congrArg ("" :: ·) (Expr.itemTexts_relabel rest)
  | some e :: rest => congrArg₂ List.cons (Expr.text_relabel e) (Expr.itemTexts_relabel rest)

theorem Expr.attrTexts_relabel : ∀ attrs : List (String × Expr),
    Expr.attrTexts (Expr.relabelAttrs r attrs) = Expr.attrTexts attrs
  | [] => rfl
  | (name, e) :: rest =>
    congrArg₂ (fun t ts => (Text.attrName name ++ ": " ++ t) :: ts) (Expr.text_relabel e)
      (Expr.attrTexts_relabel rest)

theorem Expr.partTexts_relabel : ∀ parts : List TextPart,
    Expr.partTexts (Expr.relabelParts r parts) = Expr.partTexts parts
  | [] => rfl
  | .text s :: rest => congrArg (s :: ·) (Expr.partTexts_relabel rest)
  | .expr e none :: rest =>
    congrArg₂ (fun t ts => ("$\x7b" ++ t ++ "\x7d") :: ts) (Expr.text_relabel e)
      (Expr.partTexts_relabel rest)
  | .expr e (some format) :: rest =>
    congrArg₂ (fun t ts => ("$\x7b" ++ t ++ ":" ++ format ++ "\x7d") :: ts)
      (Expr.text_relabel e) (Expr.partTexts_relabel rest)

theorem Pattern.text_relabel : ∀ p : Pattern, (p.relabel r).text = p.text
  | .expr e => Expr.text_relabel e
  | .exprs es => congrArg (fun ts => " | ".intercalate ts) (Expr.texts_relabel es)
  | .array items =>
    congrArg (fun ts => "[" ++ commas ts ++ "]") (Pattern.itemTexts_relabel items)
  | .tuple attrs =>
    congrArg (fun ts => "(" ++ commas ts ++ ")") (Pattern.attrTexts_relabel attrs)
  | .dict entries =>
    congrArg (fun ts => "\x7b" ++ commas ts ++ "\x7d") (Pattern.entryTexts_relabel entries)
  | .set elements =>
    congrArg (fun ts => "\x7b" ++ commas ts ++ "\x7d") (Pattern.texts_relabel elements)
  | .extra _ => rfl

theorem Pattern.texts_relabel : ∀ ps : List Pattern,
    Pattern.texts (Pattern.relabelAll r ps) = Pattern.texts ps
  | [] => rfl
  | p :: rest => congrArg₂ List.cons (Pattern.text_relabel p) (Pattern.texts_relabel rest)

theorem Slot.texts_relabel : ∀ slot : Slot,
    (slot.relabel r).patternText = slot.patternText ∧ (slot.relabel r).fallbackText = slot.fallbackText
  | .mk none none => ⟨rfl, rfl⟩
  | .mk none (some e) => ⟨rfl, congrArg some (Expr.text_relabel e)⟩
  | .mk (some p) none => ⟨Pattern.text_relabel p, rfl⟩
  | .mk (some p) (some e) => ⟨Pattern.text_relabel p, congrArg some (Expr.text_relabel e)⟩

theorem Pattern.itemTexts_relabel : ∀ items : List Slot,
    Pattern.itemTexts (Pattern.relabelItems r items) = Pattern.itemTexts items
  | [] => rfl
  | slot :: rest =>
    congrArg₂ List.cons
      (congrArg₂ itemSlotText (Slot.texts_relabel slot).1 (Slot.texts_relabel slot).2)
      (Pattern.itemTexts_relabel rest)

theorem Pattern.attrTexts_relabel : ∀ attrs : List (String × Slot),
    Pattern.attrTexts (Pattern.relabelAttrs r attrs) = Pattern.attrTexts attrs
  | [] => rfl
  | (name, slot) :: rest => by
    obtain ⟨hpattern, hfallback⟩ := Slot.texts_relabel slot
    show attrSlotText name (slot.relabel r).patternText (slot.relabel r).fallbackText
      (slot.relabel r).isExtra :: _ = _
    rw [hpattern, hfallback, Slot.isExtra_relabel, Pattern.attrTexts_relabel rest]
    rfl

theorem Pattern.entryTexts_relabel : ∀ entries : List (Option Expr × Slot),
    Pattern.entryTexts (Pattern.relabelEntries r entries) = Pattern.entryTexts entries
  | [] => rfl
  | (none, slot) :: rest => by
    obtain ⟨hpattern, hfallback⟩ := Slot.texts_relabel slot
    rw [Pattern.relabelEntries, Pattern.entryTexts, Pattern.entryTexts, hpattern, hfallback,
      Pattern.entryTexts_relabel rest]
  | (some key, slot) :: rest => by
    obtain ⟨hpattern, hfallback⟩ := Slot.texts_relabel slot
    show keySlotText (key.relabel r).text (slot.relabel r).patternText (slot.relabel r).fallbackText ::
      _ = _
    rw [Expr.text_relabel key, hpattern, hfallback, Pattern.entryTexts_relabel rest]
    rfl

end

end Relabel

/-! ## Same but for labels -/

/-- Expressions that are the same under the new labels. -/
abbrev Expr.SameBut (r : Relabelling) (e e' : Expr) : Prop := e.relabel r = e'.relabel r

/-- Patterns that are the same under the new labels. -/
abbrev Pattern.SameBut (r : Relabelling) (p p' : Pattern) : Prop := p.relabel r = p'.relabel r

/-- Takes the identities of loaders away. -/
def Relabelling.anonymous : Relabelling := ⟨id, fun _ => 0⟩

/-- Expressions that differ in the identities of their loaders at most. -/
abbrev Expr.SameButLoaders : Expr → Expr → Prop := Expr.SameBut .anonymous

/-- Patterns that differ in the identities of their loaders at most. -/
abbrev Pattern.SameButLoaders : Pattern → Pattern → Prop := Pattern.SameBut .anonymous

/-- Takes places away. -/
def Relabelling.unplaced : Relabelling := ⟨fun _ => .unknown, id⟩

/-- Expressions that differ in places at most. -/
abbrev Expr.SameButPlaces : Expr → Expr → Prop := Expr.SameBut .unplaced

/-- Patterns that differ in places at most. -/
abbrev Pattern.SameButPlaces : Pattern → Pattern → Prop := Pattern.SameBut .unplaced

section Lists

variable {α β : Type} {f : α → β} {g : List α → List β}

/-- A function that goes through a list does the same with lists whose elements it does the same
with. -/
theorem eq_of_forall₂ (hnil : g [] = []) (hcons : ∀ a as, g (a :: as) = f a :: g as)
    {as as' : List α} (h : List.Forall₂ (fun a a' => f a = f a') as as') : g as = g as' := by
  induction h with
  | nil => rw [hnil]
  | cons ha _ ih => rw [hcons, hcons, ha, ih]

/-- And the other way round. -/
theorem forall₂_of_eq (hnil : g [] = []) (hcons : ∀ a as, g (a :: as) = f a :: g as)
    {as as' : List α} (h : g as = g as') : List.Forall₂ (fun a a' => f a = f a') as as' := by
  induction as generalizing as' with
  | nil =>
    cases as' with
    | nil => exact .nil
    | cons a' as' =>
      rw [hnil, hcons] at h
      cases h
  | cons a as ih =>
    cases as' with
    | nil =>
      rw [hnil, hcons] at h
      cases h
    | cons a' as' =>
      rw [hcons, hcons] at h
      obtain ⟨ha, has⟩ := List.cons.inj h
      exact .cons ha (ih has)

end Lists

variable {r : Relabelling}

namespace Expr

theorem relabelAll_eq {es es' : List Expr} (h : List.Forall₂ (SameBut r) es es') :
    relabelAll r es = relabelAll r es' := eq_of_forall₂ rfl (fun _ _ => rfl) h

theorem relabelItems_eq {items items' : List (Option Expr)}
    (h : List.Forall₂ (Option.Rel (SameBut r)) items items') :
    relabelItems r items = relabelItems r items' := by
  refine eq_of_forall₂ (f := Option.map (relabel r)) rfl ?_ (h.imp fun _ _ hitem => ?_)
  · rintro (_ | e) items <;> rfl
  · cases hitem with
    | none => rfl
    | some he => exact congrArg some he

theorem relabelAttrs_eq {attrs attrs' : List (String × Expr)}
    (h : List.Forall₂ (Both Eq (SameBut r)) attrs attrs') :
    relabelAttrs r attrs = relabelAttrs r attrs' :=
  eq_of_forall₂ (f := fun attr => (attr.1, (attr.2.relabel r))) rfl (fun _ _ => rfl)
    (h.imp fun _ _ hattr => Prod.ext hattr.fst hattr.snd)

theorem relabelArms_eq {arms arms' : List (Pattern × Expr)}
    (h : List.Forall₂ (Both (Pattern.SameBut r) (SameBut r)) arms arms') :
    relabelArms r arms = relabelArms r arms' :=
  eq_of_forall₂ (f := fun arm => ((arm.1.relabel r), (arm.2.relabel r))) rfl (fun _ _ => rfl)
    (h.imp fun _ _ harm => Prod.ext harm.fst harm.snd)

theorem relabelSteps_eq {steps steps' : List SafeStep}
    (h : List.Forall₂ (SafeStep.Like (SameBut r)) steps steps') :
    relabelSteps r steps = relabelSteps r steps' := by
  refine eq_of_forall₂ (f := (SafeStep.relabel r)) rfl (fun _ _ => rfl) (h.imp fun _ _ hstep => ?_)
  cases hstep with
  | get => rfl
  | call hargs => rw [SafeStep.relabel, SafeStep.relabel, relabelAll_eq hargs]

theorem relabelRows_eq {rows rows' : List (List Expr)}
    (h : List.Forall₂ (List.Forall₂ (SameBut r)) rows rows') :
    relabelRows r rows = relabelRows r rows' :=
  eq_of_forall₂ (f := relabelAll r) rfl (fun _ _ => rfl) (h.imp fun _ _ => relabelAll_eq)

theorem relabelEntries_eq {entries entries' : List DictEntry}
    (h : List.Forall₂ (DictEntry.Beside (SameBut r)) entries entries') :
    relabelEntries r entries = relabelEntries r entries' := by
  induction h with
  | nil => rfl
  | cons hentry _ ih =>
    cases hentry with
    | mk hkey hvalue => rw [relabelEntries, relabelEntries, hkey, hvalue, ih]

theorem relabelParts_eq {parts parts' : List TextPart}
    (h : List.Forall₂ (TextPart.Like (SameBut r)) parts parts') :
    relabelParts r parts = relabelParts r parts' := by
  induction h with
  | nil => rfl
  | cons hpart _ ih =>
    cases hpart with
    | text s => rw [relabelParts, relabelParts, ih]
    | expr he => rw [relabelParts, relabelParts, he, ih]

end Expr

theorem Slot.relabel_eq {slot slot' : Slot}
    (h : slot.Like (Expr.SameBut r) (Pattern.SameBut r) slot') :
    (slot.relabel r) = (slot'.relabel r) := by
  cases h with
  | mk hpattern hfallback =>
    cases hpattern with
    | none =>
      cases hfallback with
      | none => rfl
      | some he => exact congrArg (fun e => Slot.mk none (some e)) he
    | some hp =>
      cases hfallback with
      | none => exact congrArg (fun p => Slot.mk (some p) none) hp
      | some he => exact congrArg₂ (fun p e => Slot.mk (some p) (some e)) hp he

namespace Pattern

theorem relabelAll_eq {ps ps' : List Pattern} (h : List.Forall₂ (SameBut r) ps ps') :
    relabelAll r ps = relabelAll r ps' := eq_of_forall₂ rfl (fun _ _ => rfl) h

theorem relabelItems_eq {items items' : List Slot}
    (h : List.Forall₂ (Slot.Like (Expr.SameBut r) (SameBut r)) items items') :
    relabelItems r items = relabelItems r items' :=
  eq_of_forall₂ (f := (Slot.relabel r)) rfl (fun _ _ => rfl) (h.imp fun _ _ => Slot.relabel_eq)

theorem relabelAttrs_eq {attrs attrs' : List (String × Slot)}
    (h : List.Forall₂ (Both Eq (Slot.Like (Expr.SameBut r) (SameBut r))) attrs attrs') :
    relabelAttrs r attrs = relabelAttrs r attrs' :=
  eq_of_forall₂ (f := fun attr => (attr.1, (attr.2.relabel r))) rfl (fun _ _ => rfl)
    (h.imp fun _ _ hattr => Prod.ext hattr.fst (Slot.relabel_eq hattr.snd))

theorem relabelEntries_eq {entries entries' : List (Option Expr × Slot)}
    (h : List.Forall₂ (Both (Option.Rel (Expr.SameBut r))
      (Slot.Like (Expr.SameBut r) (SameBut r))) entries entries') :
    relabelEntries r entries = relabelEntries r entries' := by
  refine eq_of_forall₂ (f := fun entry => (entry.1.map (Expr.relabel r), (entry.2.relabel r))) rfl ?_
    (h.imp fun entry entry' hentry => Prod.ext ?_ (Slot.relabel_eq hentry.snd))
  · rintro ⟨_ | key, slot⟩ entries <;> rfl
  · have hkey := hentry.fst
    show entry.1.map (Expr.relabel r) = entry'.1.map (Expr.relabel r)
    generalize entry.1 = key at hkey ⊢
    generalize entry'.1 = key' at hkey ⊢
    cases hkey with
    | none => rfl
    | some hkey => exact congrArg some hkey

end Pattern

namespace Sides

/-- What is built alike of expressions that differ in their labels differs in them only. -/
theorem congruent_sameBut (r : Relabelling) :
    Congruent (Expr.SameBut r) (Pattern.SameBut r) where
  literal _ := rfl
  ident _ _ := rfl
  dot h attr span := congrArg (Expr.dot · attr (r.place span)) h
  project h inverse attrs span := congrArg (Expr.project · inverse attrs (r.place span)) h
  call hfunc harg span := congrArg₂ (Expr.call · · (r.place span)) hfunc harg
  binary op hlhs hrhs span := congrArg₂ (Expr.binary op · · (r.place span)) hlhs hrhs
  unary op h span := congrArg (Expr.unary op · (r.place span)) h
  package h span := congrArg (Expr.package · (r.place span)) h
  compare h ops span := congrArg (Expr.compare · ops (r.place span)) (Expr.relabelAll_eq h)
  ifElse htrue hcondition hfalse span := by
    rw [Expr.SameBut, Expr.relabel, Expr.relabel, htrue, hcondition, hfalse]
  condControl hcontrol harms span :=
    congrArg₂ (Expr.condControl · · (r.place span)) hcontrol (Expr.relabelArms_eq harms)
  cond h span := congrArg (Expr.cond · (r.place span)) h
  count h span := congrArg (Expr.count · (r.place span)) h
  single h span := congrArg (Expr.single · (r.place span)) h
  safeTail hfallback hbase hsteps span := by
    rw [Expr.SameBut, Expr.relabel, Expr.relabel, hfallback, hbase,
      Expr.relabelSteps_eq hsteps]
  relation names h span := congrArg (Expr.relation names · (r.place span)) (Expr.relabelRows_eq h)
  set h span := congrArg (Expr.set · (r.place span)) (Expr.relabelAll_eq h)
  dict h conditional span :=
    congrArg (Expr.dict · conditional (r.place span)) (Expr.relabelEntries_eq h)
  array h span := congrArg (Expr.array · (r.place span)) (Expr.relabelItems_eq h)
  bytes h span := congrArg (Expr.bytes · (r.place span)) (Expr.relabelAll_eq h)
  tuple h span := congrArg (Expr.tuple · (r.place span)) (Expr.relabelAttrs_eq h)
  function hparam hbody span := congrArg₂ (Expr.function · · (r.place span)) hparam hbody
  recursion name h span :=
    congrArg (fun base => Expr.recursion name base (.literal (.native 0 .fix) (r.place .unknown))
      (.literal (.native 0 .fixt) (r.place .unknown)) (r.place span)) h
  paren h span := congrArg (Expr.paren · (r.place span)) h
  xstr h span := congrArg (Expr.xstr · (r.place span)) (Expr.relabelParts_eq h)
  nest h inverse attrs name span := congrArg (Expr.nest · inverse attrs name (r.place span)) h
  exprPattern h := congrArg Pattern.expr h
  exprsPattern h := congrArg Pattern.exprs (Expr.relabelAll_eq h)
  arrayPattern h := congrArg Pattern.array (Pattern.relabelItems_eq h)
  tuplePattern h := congrArg Pattern.tuple (Pattern.relabelAttrs_eq h)
  dictPattern h := congrArg Pattern.dict (Pattern.relabelEntries_eq h)
  setPattern h := congrArg Pattern.set (Pattern.relabelAll_eq h)
  extraPattern _ := rfl

theorem observed_sameButLoaders : Observed Expr.SameButLoaders Pattern.SameButLoaders where
  exprSpan {e e'} h := by
    have hspan : (e.relabel .anonymous).span = (e'.relabel .anonymous).span := by rw [h]
    rwa [e.span_relabel, e'.span_relabel] at hspan
  exprText {e e'} h := by rw [← e.text_relabel .anonymous, h, e'.text_relabel .anonymous]
  impliedName? {e e'} h := by
    have hname : ∀ e : Expr,
        Lowering.impliedName? (e.relabel .anonymous) = Lowering.impliedName? e := by
      intro e
      cases e <;> rfl
    rw [← hname e, h, hname e']
  patternText {p p'} h := by rw [← p.text_relabel .anonymous, h, p'.text_relabel .anonymous]
  patternName? {p p'} h := by
    have hname : ∀ p : Pattern,
        Lowering.patternName? (p.relabel .anonymous) = Lowering.patternName? p := by
      intro p
      cases p with
      | expr e => exact e.ident?_relabel .anonymous
      | _ => rfl
    rw [← hname p, h, hname p']
  isExtra {p p'} h := by
    have hextra : ∀ p : Pattern,
        Lowering.isExtraPattern (p.relabel .anonymous) = Lowering.isExtraPattern p := by
      intro p
      cases p <;> rfl
    rw [← hextra p, h, hextra p']

end Sides

end Relational
