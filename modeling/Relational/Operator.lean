/-!
# Operators

The operators of the language and the tokens that stand for them. Each table is given once, by the
list of all operators and their symbols; reading a token searches that list.

> Every operator is found under its own symbol, and under no other.
-/

namespace Relational

/-- Operators before one operand. -/
inductive UnaryOp where
  | pos
  | neg
  | powerSet
  | not
  | eval
deriving DecidableEq

/-- The token of a unary operator. -/
def UnaryOp.symbol : UnaryOp → String
  | .pos => "+"
  | .neg => "-"
  | .powerSet => "^"
  | .not => "!"
  | .eval => "*"

/-- Operators between two operands. -/
inductive BinaryOp where
  | arrow
  | dArrow
  | seqArrow (strict : Bool)
  | tupleMap
  | orderBy
  | order
  | rank
  | where_
  | sum
  | max
  | mean
  | median
  | min
  | with_
  | without
  | and
  | or
  | add
  | sub
  | concat
  | difference
  | symmetricDiff
  | intersect
  | union
  | join
  | compose
  | joinCommon
  | joinExists
  | rightMatch
  | leftMatch
  | rightResidue
  | leftResidue
  | mul
  | div
  | mod
  | subMod
  | intDiv
  | pow
  | offset
  | addArrow
deriving DecidableEq

namespace BinaryOp

/-- The token of a binary operator. -/
def symbol : BinaryOp → String
  | .arrow => "->"
  | .dArrow => "=>"
  | .seqArrow false => ">>"
  | .seqArrow true => ">>>"
  | .tupleMap => ":>"
  | .orderBy => "orderby"
  | .order => "order"
  | .rank => "rank"
  | .where_ => "where"
  | .sum => "sum"
  | .max => "max"
  | .mean => "mean"
  | .median => "median"
  | .min => "min"
  | .with_ => "with"
  | .without => "without"
  | .and => "&&"
  | .or => "||"
  | .add => "+"
  | .sub => "-"
  | .concat => "++"
  | .difference => "&~"
  | .symmetricDiff => "~~"
  | .intersect => "&"
  | .union => "|"
  | .join => "<&>"
  | .compose => "<->"
  | .joinCommon => "-&-"
  | .joinExists => "---"
  | .rightMatch => "-&>"
  | .leftMatch => "<&-"
  | .rightResidue => "-->"
  | .leftResidue => "<--"
  | .mul => "*"
  | .div => "/"
  | .mod => "%"
  | .subMod => "-%"
  | .intDiv => "//"
  | .pow => "^"
  | .offset => "\\"
  | .addArrow => "+>"

/-- All binary operators. -/
def all : List BinaryOp :=
  [.arrow, .dArrow, .seqArrow false, .seqArrow true, .tupleMap, .orderBy, .order, .rank, .where_,
   .sum, .max, .mean, .median, .min, .with_, .without, .and, .or, .add, .sub, .concat, .difference,
   .symmetricDiff, .intersect, .union, .join, .compose, .joinCommon, .joinExists, .rightMatch,
   .leftMatch, .rightResidue, .leftResidue, .mul, .div, .mod, .subMod, .intDiv, .pow, .offset,
   .addArrow]

/-- The binary operator of a token. -/
def ofSymbol? (token : String) : Option BinaryOp := all.find? (·.symbol == token)

theorem ofSymbol?_symbol (op : BinaryOp) : ofSymbol? op.symbol = some op := by
  cases op with
  | seqArrow strict => cases strict <;> decide
  | _ => decide

/-- A token stands for the operator whose symbol it is, and for no other. -/
theorem ofSymbol?_eq_some_iff {token : String} {op : BinaryOp} :
    ofSymbol? token = some op ↔ op.symbol = token := by
  constructor
  · intro h
    simpa using List.find?_some h
  · rintro rfl
    exact ofSymbol?_symbol op

end BinaryOp

/-- What may stand before an operand: an operator of its own, the package marker, or an arrow
whose left side is the current value. -/
inductive LeadingOp where
  | unary (op : UnaryOp)
  | package
  | current (op : BinaryOp)
deriving DecidableEq

/-- The meaning of a token before an operand. -/
def LeadingOp.ofSymbol? (token : String) : Option LeadingOp :=
  match token with
  | "+" => some (.unary .pos)
  | "-" => some (.unary .neg)
  | "^" => some (.unary .powerSet)
  | "!" => some (.unary .not)
  | "*" => some (.unary .eval)
  | "//" => some .package
  | "=>" => some (.current .dArrow)
  | ">>" => some (.current (.seqArrow false))
  | ":>" => some (.current .tupleMap)
  | _ => none

/-- Comparisons. Those of sets are inclusions. -/
inductive CompareOp where
  | member
  | notMember
  | eq
  | ne
  | lt
  | gt
  | le
  | ge
  | subset
  | superset
  | subsetEq
  | supersetEq
  | comparable
  | comparableEq
  | notSubset
  | notSuperset
  | notSubsetEq
  | notSupersetEq
  | notComparable
  | notComparableEq
deriving DecidableEq

namespace CompareOp

/-- The token of a comparison. -/
def symbol : CompareOp → String
  | .member => "<:"
  | .notMember => "!<:"
  | .eq => "="
  | .ne => "!="
  | .lt => "<"
  | .gt => ">"
  | .le => "<="
  | .ge => ">="
  | .subset => "(<)"
  | .superset => "(>)"
  | .subsetEq => "(<=)"
  | .supersetEq => "(>=)"
  | .comparable => "(<>)"
  | .comparableEq => "(<>=)"
  | .notSubset => "!(<)"
  | .notSuperset => "!(>)"
  | .notSubsetEq => "!(<=)"
  | .notSupersetEq => "!(>=)"
  | .notComparable => "!(<>)"
  | .notComparableEq => "!(<>=)"

/-- All comparisons. -/
def all : List CompareOp :=
  [.member, .notMember, .eq, .ne, .lt, .gt, .le, .ge, .subset, .superset, .subsetEq, .supersetEq,
   .comparable, .comparableEq, .notSubset, .notSuperset, .notSubsetEq, .notSupersetEq,
   .notComparable, .notComparableEq]

/-- The comparison of a token. -/
def ofSymbol? (token : String) : Option CompareOp := all.find? (·.symbol == token)

end CompareOp

end Relational
