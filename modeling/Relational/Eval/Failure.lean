import Relational.Expr.Text

/-!
# Failures of evaluation

A failure has a cause and, once it has left the construct that raised it, the place of that
construct. The place is given once: a failure that has one keeps it on its way out.

> Two causes say that there is no value: `noReturn` and `missingAttr`. Safe navigation turns these
> into its fallback, and no other.

A cause holds what the message shows and not the values themselves, so two runs fail alike exactly
when they report alike.
-/

namespace Relational

/-- How a value looked when something went wrong with it. -/
structure Shown where
  kind : String
  text : String
deriving DecidableEq

/-- The look of a value. -/
def Value.shown (v : Value) : Shown := ⟨v.typeName, v.text⟩

/-- The kind and the text of a value. -/
def Shown.description (s : Shown) : String := s.kind ++ " " ++ s.text

/-- What went wrong. -/
inductive Cause where
  /-- A call has no result. -/
  | noReturn
  | missingAttr (attr : String) (available : List String)
  | unbound (name : String)
  | notNumber (got : Shown)
  | notSet (got : Shown)
  /-- An operation got a value of the wrong kind. -/
  | unexpected (operation wanted : String) (got : Shown)
  | noAttrs (attr : String) (got : Shown)
  | notCallable (got : Shown)
  | manyResults (func arg : String)
  | memberOfNonSet (got : String)
  | emptyChain
  | chainArity (operands operators : Nat)
  | notByte (got : String)
  | notSingle (got : String)
  | recursionBase (base : String)
  | recursionResult (got : Shown)
  | mismatch (value pattern : String)
  /-- A pattern names something twice and the two values differ. -/
  | rebound (value bound pattern : String)
  | noBackend (loader arg : String)
  | unsupportedOperator (symbol : String)
  | unsupportedPowerSet (size : Nat)
  | unsupportedFormat (spec : String)
  | unsupportedElement (pattern : String)
deriving DecidableEq

/-- The kinds of causes. -/
inductive CauseKind where
  | noReturn
  | missingAttr
  | unbound
  | type
  | mismatch
  | module
  | unsupported
deriving DecidableEq

namespace Cause

/-- The kind of a cause. -/
def kind : Cause → CauseKind
  | .noReturn => .noReturn
  | .missingAttr _ _ => .missingAttr
  | .unbound _ => .unbound
  | .mismatch _ _ | .rebound _ _ _ => .mismatch
  | .noBackend _ _ => .module
  | .unsupportedOperator _ | .unsupportedPowerSet _ | .unsupportedFormat _
  | .unsupportedElement _ => .unsupported
  | .notNumber _ | .notSet _ | .unexpected _ _ _ | .noAttrs _ _ | .notCallable _
  | .manyResults _ _ | .memberOfNonSet _ | .emptyChain | .chainArity _ _ | .notByte _
  | .notSingle _ | .recursionBase _ | .recursionResult _ => .type

/-- Whether the cause says that there is no value. -/
def isAbsent (c : Cause) : Bool := c.kind == .noReturn || c.kind == .missingAttr

/-- Whether the cause says that a value does not fit a pattern. -/
def isMismatch (c : Cause) : Bool := c.kind == .mismatch

/-- The end of every message about something that is left to a full implementation. -/
def unsupportedText (what : String) : String :=
  what ++ " is not supported by the reference evaluator"

/-- The wording of a cause. -/
def message : Cause → String
  | .noReturn => "no return value"
  | .missingAttr attr available =>
    "missing attr " ++ Text.quoted attr ++ " (available: " ++ Text.quotedList available ++ ")"
  | .unbound name => "name " ++ Text.quoted name ++ " not found in scope"
  | .notNumber got => "expected a number, got " ++ got.description
  | .notSet got => "expected a set, got " ++ got.description
  | .unexpected operation wanted got =>
    operation ++ ": expected " ++ wanted ++ ", got " ++ got.description
  | .noAttrs attr got => "cannot get attr " ++ Text.quoted attr ++ " from " ++ got.description
  | .notCallable got => got.description ++ " is not callable"
  | .manyResults func arg => "call of " ++ func ++ " with " ++ arg ++ " has more than one result"
  | .memberOfNonSet got => "<: rhs not a set: " ++ got
  | .emptyChain => "empty compare chain"
  | .chainArity operands operators =>
    "compare chain has " ++ toString operands ++ " operands for " ++ toString operators ++
      " operators"
  | .notByte got => got ++ " is not a byte"
  | .notSingle got => "single: " ++ got ++ " does not have exactly one element"
  | .recursionBase base => "recursion over " ++ base ++ " requires a function or a tuple"
  | .recursionResult got =>
    "fixt: recursive binding must produce a tuple, got " ++ got.description
  | .mismatch value pattern => value ++ " does not match pattern " ++ pattern
  | .rebound value bound pattern =>
    value ++ " (already bound to " ++ bound ++ ") does not match pattern " ++ pattern
  | .noBackend loader arg => loader ++ ": no module backend configured to load " ++ arg
  | .unsupportedOperator symbol => unsupportedText ("operator " ++ symbol)
  | .unsupportedPowerSet size => unsupportedText ("power set of " ++ toString size ++ " elements")
  | .unsupportedFormat spec => unsupportedText ("format " ++ Text.quoted spec)
  | .unsupportedElement pattern => unsupportedText ("set pattern element " ++ pattern)

end Cause

/-- A failure: its cause and, if known, its place. -/
structure Failure where
  span : Option Span
  cause : Cause
deriving DecidableEq

namespace Failure

/-- The failure at a place, unless it has one already. -/
def within (f : Failure) (span : Span) : Failure :=
  match f.span with
  | some _ => f
  | none => { f with span := some span }

/-- The wording of a failure. -/
def message (f : Failure) : String :=
  match f.span with
  | some span => span.position ++ ": " ++ f.cause.message
  | none => f.cause.message

end Failure

end Relational
