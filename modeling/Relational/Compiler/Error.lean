import Relational.Tree.Document

/-!
# Errors of compilation

An error says what is wrong with a tree and where. Some of them are defects of the tree, which no
correct grammar produces; the others are errors of the program.
-/

namespace Relational

/-- A defect of a syntax tree. Nodes are given as text. -/
inductive TreeDefect where
  | noTag (node : String)
  | emptySequence (tag node : String)
  | missingChild (tag node : String)
  | manyExprs (found : Nat)
  | letExprs (found : Nat)
  | attrWithoutName (get : String)
  | unknownStep (step : String)
  | conditionWithoutPattern (condition : String)
  | badNumber (text reason : String)
  | emptyChar (text : String)
  | notEmbedded
  | badPackage
  | emptyTail
  | safeOpWithoutTail (op : String)
deriving DecidableEq

/-- The wording of a defect. -/
def TreeDefect.message : TreeDefect → String
  | .noTag node => "no recognised tag in " ++ node
  | .emptySequence tag node => "empty " ++ tag ++ " sequence in " ++ node
  | .missingChild tag node => "missing " ++ Text.quoted tag ++ " in " ++ node
  | .manyExprs found => "expected one expr child, found " ++ toString found
  | .letExprs found => "let expects two expr children, found " ++ toString found
  | .attrWithoutName get => "attribute access without a name: " ++ get
  | .unknownStep step => "unrecognised arrow step " ++ step
  | .conditionWithoutPattern condition => "cond condition without pattern: " ++ condition
  | .badNumber text reason => "NUM " ++ Text.quoted text ++ ": " ++ reason
  | .emptyChar text => "CHAR " ++ Text.quoted text ++ " is empty"
  | .notEmbedded => "macro value is not an embedded expression"
  | .badPackage => "malformed package AST"
  | .emptyTail => "no tail"
  | .safeOpWithoutTail op => "safe tail op without tail: " ++ op

/-- The tables of operators. -/
inductive OperatorTable where
  | unary
  | binary
  | compare
deriving DecidableEq

/-- The name of a table. -/
def OperatorTable.name : OperatorTable → String
  | .unary => "unary"
  | .binary => "binary"
  | .compare => "compare"

/-- A count that is not what it has to be. -/
inductive ArityFault where
  | chain (operators operands : Nat)
  | repeatedName (name : String)
  | row (values names : Nat)
  | dictPair
  | arms (conditions values : Nat)
  | armWithoutValue
deriving DecidableEq

/-- The wording of a wrong count. -/
def ArityFault.message : ArityFault → String
  | .chain operators operands =>
    toString operators ++ " operators need " ++ toString (operators + 1) ++ " operands, found " ++
      toString operands
  | .repeatedName name => "relation names must be unique, " ++ Text.quoted name ++ " repeats"
  | .row values names =>
    "relation tuple has " ++ toString values ++ " values, expected " ++ toString names
  | .dictPair => "dictionary pair needs both a key and a value"
  | .arms conditions values =>
    "mismatch between conditions and values: " ++ toString conditions ++ " vs " ++ toString values
  | .armWithoutValue => "cond value without expression"

/-- A construct that is not supported. -/
inductive Unsupported where
  | unnest
  | touch
  | postfixOp (op : String)
  | unnamedAttr (expr : String)
  | recursivePattern (pattern : String)
deriving DecidableEq

/-- The wording for a construct that is not supported. -/
def Unsupported.message : Unsupported → String
  | .unnest => "unnest"
  | .touch => "touch"
  | .postfixOp op => "postfix operator " ++ Text.quoted op
  | .unnamedAttr expr => "unnamed attr expression must be name or end in .name: " ++ expr
  | .recursivePattern pattern => "let rec binding must be a single name, got " ++ pattern

/-- The patterns that may have an extra element. -/
inductive Structure where
  | array
  | tuple
  | dict
  | set
deriving DecidableEq

/-- The name of a kind of structural pattern. -/
def Structure.name : Structure → String
  | .array => "array"
  | .tuple => "tuple"
  | .dict => "dict"
  | .set => "set"

/-- Why a program does not compile. -/
inductive CompileError where
  | malformed (span : Span) (defect : TreeDefect)
  | unresolved (span : Span) (table : OperatorTable) (op : String)
  | fallbackWithoutMark (span : Span)
  | arity (span : Span) (fault : ArityFault)
  | missingDirectory (span : Span) (path : String)
  | unsupported (span : Span) (what : Unsupported)
  | duplicateExtra (span : Span) (structure_ : Structure)
  | parse (error : ParseError)
  | module (span : Span) (reason : String)
  | internal (detail : String)
deriving DecidableEq

namespace CompileError

/-- The place of an error. -/
def span? : CompileError → Option Span
  | .malformed span _ | .unresolved span _ _ | .fallbackWithoutMark span | .arity span _
  | .missingDirectory span _ | .unsupported span _ | .duplicateExtra span _ | .module span _ =>
    some span
  | .parse _ | .internal _ => none

/-- Whether the error shows a defect of the tree or of the compiler, and none of the program. -/
def isInternal : CompileError → Bool
  | .malformed _ _ | .unresolved _ _ _ | .internal _ => true
  | _ => false

/-- What an error says about its place. -/
def detail : CompileError → String
  | .malformed _ defect => "misshapen node AST: " ++ defect.message
  | .unresolved _ table op => table.name ++ " operator " ++ Text.quoted op ++ " not found"
  | .fallbackWithoutMark _ => "fallback item does not match"
  | .arity _ fault => fault.message
  | .missingDirectory _ path =>
    "local import " ++ Text.quoted path ++ " invalid; no local context"
  | .unsupported _ what => "unsupported construct: " ++ what.message
  | .duplicateExtra _ s => "more than one extra-element pattern in " ++ s.name ++ " pattern"
  | .parse error => error.message
  | .module _ reason => reason
  | .internal detail => "internal compiler error: " ++ detail

/-- The wording of an error, with its place in front. -/
def message (e : CompileError) : String :=
  match e.span? with
  | some span => span.position ++ ": " ++ e.detail
  | none => e.detail

end CompileError

end Relational
