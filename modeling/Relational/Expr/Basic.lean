import Relational.Number.Basic
import Relational.Operator
import Relational.Span

/-!
# Expressions, patterns and values

The three are defined together: a literal holds a value, a closure holds a pattern, a body and the
names it captured, and a pattern holds expressions for its keys, literals and fallbacks.

Collections of values are lists in canonical form. Attributes of a tuple and captured names are in
ascending order of names; members of a set and keys of a dictionary are in ascending order of
values, without repetition. The operations that build them keep that form.

Functions are told apart by an `Identity`, given when they are made: a closure equals itself and
its copies and no other closure, however alike their texts are.
-/

namespace Relational

/-- What tells one function from another. -/
abbrev Identity := Nat

mutual

/-- A value of the language. -/
inductive Value where
  | bool (b : Bool)
  | number (x : Number)
  | string (s : String)
  | bytes (b : List UInt8)
  /-- A sequence with holes. -/
  | array (items : List (Option Value))
  | tuple (attrs : List (String × Value))
  | set (members : List Value)
  | dict (entries : List (Value × Value))
  | closure (identity : Identity) (param : Pattern) (body : Expr)
      (captured : List (String × Value))
  | native (identity : Identity) (function : Native)

/-- A function that is not written in the language. -/
inductive Native where
  /-- Makes a recursive function of a function of itself. -/
  | fix
  /-- Makes a tuple of recursive functions of a function of itself. -/
  | fixt
  /-- The recursive function of `f`: each call unfolds `f` once. -/
  | unfold (f : Value)
  /-- An attribute of the recursive tuple of `f`: each call unfolds `f` once. -/
  | unfoldAttr (f : Value) (attr : String)
  /-- A loader of modules with nothing to load from: each call fails. -/
  | loader (name : String)
  /-- A function that the host brings under a name of its own: each call does what `f` does. -/
  | hosted (name : String) (f : Value)

/-- An expression with its place in the source. -/
inductive Expr where
  | literal (value : Value) (span : Span)
  | ident (name : String) (span : Span)
  | dot (lhs : Expr) (attr : String) (span : Span)
  | project (lhs : Expr) (inverse : Bool) (attrs : List String) (span : Span)
  | call (func arg : Expr) (span : Span)
  | binary (op : BinaryOp) (lhs rhs : Expr) (span : Span)
  | unary (op : UnaryOp) (operand : Expr) (span : Span)
  | package (inner : Expr) (span : Span)
  /-- A chain of comparisons: one operand more than operators. -/
  | compare (args : List Expr) (ops : List CompareOp) (span : Span)
  | ifElse (ifTrue condition ifFalse : Expr) (span : Span)
  | condControl (control : Expr) (arms : List (Pattern × Expr)) (span : Span)
  | cond (dict : Expr) (span : Span)
  | count (operand : Expr) (span : Span)
  | single (operand : Expr) (span : Span)
  | safeTail (fallback base : Expr) (steps : List SafeStep) (span : Span)
  | relation (names : List String) (rows : List (List Expr)) (span : Span)
  | set (elements : List Expr) (span : Span)
  | dict (entries : List DictEntry) (conditional : Bool) (span : Span)
  | array (items : List (Option Expr)) (span : Span)
  | bytes (items : List Expr) (span : Span)
  | tuple (attrs : List (String × Expr)) (span : Span)
  | function (param : Pattern) (body : Expr) (span : Span)
  | recursion (name : String) (base fix fixt : Expr) (span : Span)
  | paren (inner : Expr) (span : Span)
  | xstr (parts : List TextPart) (span : Span)
  | nest (lhs : Expr) (inverse : Bool) (attrs : List String) (name : String) (span : Span)

/-- A step of safe navigation: a call, an attribute, or a call and then an attribute, each with
its place. A safe step ends the chain when there is no value; any other step fails then. -/
inductive SafeStep where
  | mk (safe : Bool) (args : Option (List Expr × Span)) (attr : Option (String × Span))

/-- An entry of a dictionary. -/
inductive DictEntry where
  | mk (key value : Expr) (span : Span)

/-- A part of a text with substitutions. -/
inductive TextPart where
  | text (s : String)
  | expr (expr : Expr) (format : Option String)

/-- A pattern that values are matched with. -/
inductive Pattern where
  /-- An identifier, which binds, or any other expression, whose value has to be met. -/
  | expr (e : Expr)
  /-- Expressions one of whose values has to be met. -/
  | exprs (es : List Expr)
  | array (items : List Slot)
  | tuple (attrs : List (String × Slot))
  /-- Entries with keys, and at most one without, which takes the other entries. -/
  | dict (entries : List (Option Expr × Slot))
  | set (elements : List Pattern)
  /-- All the elements that no other slot takes. -/
  | extra (name : Option String)

/-- A place in a structural pattern: a pattern, unless the place is left out, and what is taken
when the value has nothing there. -/
inductive Slot where
  | mk (pattern : Option Pattern) (fallback : Option Expr)

end

namespace SafeStep

/-- Whether the step ends the chain when there is no value. -/
def safe : SafeStep → Bool
  | .mk safe _ _ => safe

/-- The arguments of the step's call, with its place. -/
def args : SafeStep → Option (List Expr × Span)
  | .mk _ args _ => args

/-- The step's attribute, with its place. -/
def attr : SafeStep → Option (String × Span)
  | .mk _ _ attr => attr

end SafeStep

namespace DictEntry

def key : DictEntry → Expr
  | .mk key _ _ => key

def value : DictEntry → Expr
  | .mk _ value _ => value

def span : DictEntry → Span
  | .mk _ _ span => span

end DictEntry

namespace Slot

def pattern : Slot → Option Pattern
  | .mk pattern _ => pattern

def fallback : Slot → Option Expr
  | .mk _ fallback => fallback

/-- The slot of a place that is left out. -/
def elided : Slot := .mk none none

/-- Whether the slot takes all the elements that no other slot takes. -/
def isExtra : Slot → Bool
  | .mk (some (.extra _)) _ => true
  | _ => false

end Slot

namespace Expr

/-- The place of an expression in its source. -/
def span : Expr → Span
  | .literal _ span | .ident _ span | .dot _ _ span | .project _ _ _ span | .call _ _ span
  | .binary _ _ _ span | .unary _ _ span | .package _ span | .compare _ _ span
  | .ifElse _ _ _ span | .condControl _ _ span | .cond _ span | .count _ span | .single _ span
  | .safeTail _ _ _ span | .relation _ _ span | .set _ span | .dict _ _ span | .array _ span
  | .bytes _ span | .tuple _ span | .function _ _ span | .recursion _ _ _ _ span
  | .paren _ span | .xstr _ span | .nest _ _ _ _ span => span

/-- The name of an identifier. -/
def ident? : Expr → Option String
  | .ident name _ => some name
  | _ => none

/-- Whether an expression is an identifier. -/
def isIdent (e : Expr) : Bool := e.ident?.isSome

/-- The current value, which arrows bind. -/
def current (span : Span) : Expr := .ident "." span

end Expr

namespace Value

/-- The empty set stands for no value. -/
def nothing : Value := .set []

/-- Whether a value is the empty set. -/
def isNothing : Value → Bool
  | .set [] => true
  | _ => false

/-- The array of the given items, without holes. -/
def ofItems (items : List Value) : Value := .array (items.map some)

/-- The name of a value's kind. -/
def typeName : Value → String
  | .bool _ => "bool"
  | .number _ => "number"
  | .string _ => "string"
  | .bytes _ => "bytes"
  | .array _ => "array"
  | .tuple _ => "tuple"
  | .set _ => "set"
  | .dict _ => "dict"
  | .closure _ _ _ _ => "closure"
  | .native _ _ => "native function"

/-- Whether a value counts as true: it is neither false, nor zero, nor empty. -/
def truthy : Value → Bool
  | .bool b => b
  | .number x => !x.isZero
  | .string s => !s.isEmpty
  | .bytes b => !b.isEmpty
  | .array items => !items.isEmpty
  | .tuple attrs => !attrs.isEmpty
  | .set members => !members.isEmpty
  | .dict entries => !entries.isEmpty
  | .closure _ _ _ _ | .native _ _ => true

end Value

/-- The name under which a native function is shown. -/
def Native.name : Native → String
  | .fix => "fix"
  | .fixt => "fixt"
  | .unfold _ => "fix(f)"
  | .unfoldAttr _ attr => "fixt." ++ attr
  | .loader name | .hosted name _ => name

end Relational
