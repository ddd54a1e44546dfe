import Relational.Expr.Text
import Relational.Ordered.Map
import Relational.Value.Order

/-!
# Scopes

A scope gives values to names. It is never changed: extending a scope makes a new one, in which
the new bindings hide the old ones of the same name.
-/

namespace Relational

/-- The bindings of names, in ascending order of the names. -/
abbrev Scope := List (String × Value)

namespace Scope

/-- The scope that binds nothing. -/
def empty : Scope := []

/-- The value of a name. -/
def get? (scope : Scope) (name : String) : Option Value := OrderedMap.find? name scope

/-- The scope with one more binding. -/
def bind (scope : Scope) (name : String) (value : Value) : Scope :=
  OrderedMap.insert name value scope

/-- The scope with all the bindings of another one. -/
def update (scope other : Scope) : Scope := OrderedMap.insertAll scope other

/-- The bindings as text. -/
def describe (scope : Scope) : String :=
  "\x7b" ++ commas (scope.map fun (name, value) => Text.quoted name ++ ": " ++ value.text) ++
    "\x7d"

end Scope

end Relational
