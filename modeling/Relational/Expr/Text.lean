import Relational.Expr.Basic
import Relational.Number.Decimal
import Relational.Text.Literal

/-!
# The text of expressions, patterns and values

Every construct has one written form. Operators stand in parentheses with their operands, so that
the text shows how an expression is nested.
-/

namespace Relational

/-- Texts separated by commas. -/
def commas (texts : List String) : String := ", ".intercalate texts

/-- Operands with the symbols of their operators between them. Where an operator is missing, a
question mark stands for it. -/
def chainText (ops : List CompareOp) : List String → String
  | [] => ""
  | [last] => last
  | first :: rest =>
    let symbol := match ops with
      | [] => "?"
      | op :: _ => op.symbol
    first ++ " " ++ symbol ++ " " ++ chainText ops.tail rest

/-- The mark in front of names that are left out rather than kept. -/
def inverseMark (inverse : Bool) : String := if inverse then "~" else ""

/-- Names between bars. -/
def barredNames (inverse : Bool) (names : List String) : String :=
  inverseMark inverse ++ "|" ++ commas names ++ "|"

/-- The text of a slot that may have a key: the key and the pattern are named only once when they
are the same. -/
def attrSlotText (name pattern : String) (fallback : Option String) (isExtra : Bool) : String :=
  match fallback with
  | none =>
    if isExtra || name == pattern then pattern else Text.attrName name ++ ": " ++ pattern
  | some fallback =>
    if isExtra then pattern
    else Text.attrName name ++ "?: " ++ pattern ++ ":" ++ fallback

/-- The text of a slot under a key. -/
def keySlotText (key pattern : String) : Option String → String
  | none => key ++ ": " ++ pattern
  | some fallback => key ++ "?: " ++ pattern ++ ":" ++ fallback

/-- The text of a slot of an array pattern. -/
def itemSlotText (pattern : String) : Option String → String
  | none => pattern
  | some fallback => pattern ++ "?:" ++ fallback

mutual

/-- The text of a value. -/
def Value.text : Value → String
  | .bool b => if b then "true" else "false"
  | .number x => x.text
  | .string s => Text.singleQuoted s
  | .bytes b => "<<" ++ commas (b.map fun byte => toString byte.toNat) ++ ">>"
  | .array items => "[" ++ commas (Value.itemTexts items) ++ "]"
  | .tuple attrs => "(" ++ commas (Value.attrTexts attrs) ++ ")"
  | .set members => "\x7b" ++ commas (Value.texts members) ++ "\x7d"
  | .dict entries => "\x7b" ++ commas (Value.entryTexts entries) ++ "\x7d"
  | .closure _ param body _ => "\\" ++ param.text ++ " " ++ body.text
  | .native _ function => "<native " ++ function.name ++ ">"

def Value.itemTexts : List (Option Value) → List String
  | [] => []
  | none :: rest => "" :: Value.itemTexts rest
  | some v :: rest => v.text :: Value.itemTexts rest

def Value.attrTexts : List (String × Value) → List String
  | [] => []
  | (name, v) :: rest => (name ++ ": " ++ v.text) :: Value.attrTexts rest

def Value.texts : List Value → List String
  | [] => []
  | v :: rest => v.text :: Value.texts rest

def Value.entryTexts : List (Value × Value) → List String
  | [] => []
  | (k, v) :: rest => (k.text ++ ": " ++ v.text) :: Value.entryTexts rest

/-- The text of an expression. -/
def Expr.text : Expr → String
  | .literal value _ => value.text
  | .ident name _ => name
  | .dot lhs attr _ =>
    if lhs.ident? = some "." then "." ++ Text.attrName attr
    else lhs.text ++ "." ++ Text.attrName attr
  | .project lhs inverse attrs _ => lhs.text ++ "." ++ barredNames inverse attrs
  | .call func arg _ => func.text ++ "(" ++ arg.text ++ ")"
  | .binary op lhs rhs _ => "(" ++ lhs.text ++ " " ++ op.symbol ++ " " ++ rhs.text ++ ")"
  | .unary op operand _ => "(" ++ op.symbol ++ operand.text ++ ")"
  | .package inner _ =>
    let bare := match inner with
      | .dot (.ident "//" _) _ _ => true
      | _ => false
    if bare then inner.text else "(//" ++ inner.text ++ ")"
  | .compare args ops _ => "(" ++ chainText ops (Expr.texts args) ++ ")"
  | .ifElse ifTrue condition ifFalse _ =>
    "(" ++ ifTrue.text ++ " if " ++ condition.text ++ " else " ++ ifFalse.text ++ ")"
  | .condControl control arms _ =>
    "cond " ++ control.text ++ " \x7b" ++ commas (Expr.armTexts arms) ++ "\x7d"
  | .cond dict _ => "cond " ++ dict.text
  | .count operand _ => "(" ++ operand.text ++ " count)"
  | .single operand _ => "(" ++ operand.text ++ " single)"
  | .safeTail fallback base steps _ =>
    "(" ++ base.text ++ String.join (Expr.stepTexts steps) ++ ":" ++ fallback.text ++ ")"
  | .relation names rows _ =>
    "\x7b" ++ barredNames false names ++ " " ++ commas (Expr.rowTexts rows) ++ "\x7d"
  | .set elements _ => "\x7b" ++ commas (Expr.texts elements) ++ "\x7d"
  | .dict entries _ _ => "\x7b" ++ commas (Expr.entryTexts entries) ++ "\x7d"
  | .array items _ => "[" ++ commas (Expr.itemTexts items) ++ "]"
  | .bytes items _ => "<<" ++ commas (Expr.texts items) ++ ">>"
  | .tuple attrs _ => "(" ++ commas (Expr.attrTexts attrs) ++ ")"
  | .function param body _ => "\\" ++ param.text ++ " " ++ body.text
  | .recursion name base _ _ _ => "rec " ++ name ++ " " ++ base.text
  | .paren inner _ => "(" ++ inner.text ++ ")"
  | .xstr parts _ => "$\"" ++ String.join (Expr.partTexts parts) ++ "\""
  | .nest lhs inverse attrs name _ =>
    "(" ++ lhs.text ++ " nest " ++ barredNames inverse attrs ++ " " ++ name ++ ")"

def Expr.texts : List Expr → List String
  | [] => []
  | e :: rest => e.text :: Expr.texts rest

def Expr.armTexts : List (Pattern × Expr) → List String
  | [] => []
  | (p, e) :: rest => (p.text ++ ": " ++ e.text) :: Expr.armTexts rest

/-- What a step of safe navigation does, as text, without its mark. -/
def SafeStep.label : SafeStep → String
  | .mk _ args attr =>
    (match args with
      | none => ""
      | some (args, _) => "(" ++ commas (Expr.texts args) ++ ")") ++
    (match attr with
      | none => ""
      | some (attr, _) => "." ++ Text.attrName attr)

def Expr.stepTexts : List SafeStep → List String
  | [] => []
  | step :: rest => ((if step.safe then "?" else "") ++ step.label) :: Expr.stepTexts rest

def Expr.rowTexts : List (List Expr) → List String
  | [] => []
  | row :: rest => ("(" ++ commas (Expr.texts row) ++ ")") :: Expr.rowTexts rest

def Expr.entryTexts : List DictEntry → List String
  | [] => []
  | .mk key value _ :: rest => (key.text ++ ": " ++ value.text) :: Expr.entryTexts rest

def Expr.itemTexts : List (Option Expr) → List String
  | [] => []
  | none :: rest => "" :: Expr.itemTexts rest
  | some e :: rest => e.text :: Expr.itemTexts rest

def Expr.attrTexts : List (String × Expr) → List String
  | [] => []
  | (name, e) :: rest => (Text.attrName name ++ ": " ++ e.text) :: Expr.attrTexts rest

def Expr.partTexts : List TextPart → List String
  | [] => []
  | .text s :: rest => s :: Expr.partTexts rest
  | .expr e none :: rest => ("$\x7b" ++ e.text ++ "\x7d") :: Expr.partTexts rest
  | .expr e (some format) :: rest =>
    ("$\x7b" ++ e.text ++ ":" ++ format ++ "\x7d") :: Expr.partTexts rest

/-- The text of a pattern. -/
def Pattern.text : Pattern → String
  | .expr e => e.text
  | .exprs es => " | ".intercalate (Expr.texts es)
  | .array items => "[" ++ commas (Pattern.itemTexts items) ++ "]"
  | .tuple attrs => "(" ++ commas (Pattern.attrTexts attrs) ++ ")"
  | .dict entries => "\x7b" ++ commas (Pattern.entryTexts entries) ++ "\x7d"
  | .set elements => "\x7b" ++ commas (Pattern.texts elements) ++ "\x7d"
  | .extra name => "..." ++ name.getD ""

def Pattern.texts : List Pattern → List String
  | [] => []
  | p :: rest => p.text :: Pattern.texts rest

/-- The text of a slot's pattern; nothing for a place that is left out. -/
def Slot.patternText : Slot → String
  | .mk none _ => ""
  | .mk (some p) _ => p.text

/-- The text of a slot's fallback. -/
def Slot.fallbackText : Slot → Option String
  | .mk _ none => none
  | .mk _ (some e) => some e.text

def Pattern.itemTexts : List Slot → List String
  | [] => []
  | slot :: rest => itemSlotText slot.patternText slot.fallbackText :: Pattern.itemTexts rest

def Pattern.attrTexts : List (String × Slot) → List String
  | [] => []
  | (name, slot) :: rest =>
    attrSlotText name slot.patternText slot.fallbackText slot.isExtra :: Pattern.attrTexts rest

def Pattern.entryTexts : List (Option Expr × Slot) → List String
  | [] => []
  | (none, slot) :: rest =>
    (slot.patternText ++ (match slot.fallbackText with
      | none => ""
      | some fallback => ":" ++ fallback)) :: Pattern.entryTexts rest
  | (some key, slot) :: rest =>
    keySlotText key.text slot.patternText slot.fallbackText :: Pattern.entryTexts rest

end

end Relational
