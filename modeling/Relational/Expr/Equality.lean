import Relational.Expr.Text
import Relational.Value.Order

/-!
# Equality of expressions

Expressions are equal when they are built alike at the same places of the source. Literals are
compared as values, and steps of safe navigation by their text.
-/

namespace Relational

/-- Whether two steps of safe navigation read alike. -/
def SafeStep.equal (a b : SafeStep) : Bool := a.label == b.label && a.safe == b.safe

mutual

/-- Whether two expressions are equal. -/
def Expr.equal : Expr → Expr → Bool
  | .literal v s, .literal w t => v == w && s == t
  | .ident m s, .ident n t => m == n && s == t
  | .dot a m s, .dot b n t => a.equal b && m == n && s == t
  | .project a i ms s, .project b j ns t => a.equal b && i == j && ms == ns && s == t
  | .call f a s, .call g b t => f.equal g && a.equal b && s == t
  | .binary o a b s, .binary p c d t => o == p && a.equal c && b.equal d && s == t
  | .unary o a s, .unary p b t => o == p && a.equal b && s == t
  | .package a s, .package b t => a.equal b && s == t
  | .compare as os s, .compare bs ps t => Expr.equalAll as bs && os == ps && s == t
  | .ifElse a b c s, .ifElse d e f t => a.equal d && b.equal e && c.equal f && s == t
  | .condControl a as s, .condControl b bs t => a.equal b && Expr.equalArms as bs && s == t
  | .cond a s, .cond b t => a.equal b && s == t
  | .count a s, .count b t => a.equal b && s == t
  | .single a s, .single b t => a.equal b && s == t
  | .safeTail a b ss s, .safeTail c d ts t =>
    a.equal c && b.equal d && ss.isEqv ts SafeStep.equal && s == t
  | .relation ms rs s, .relation ns qs t => ms == ns && Expr.equalRows rs qs && s == t
  | .set as s, .set bs t => Expr.equalAll as bs && s == t
  | .dict es c s, .dict fs d t => Expr.equalEntries es fs && c == d && s == t
  | .array as s, .array bs t => Expr.equalItems as bs && s == t
  | .bytes as s, .bytes bs t => Expr.equalAll as bs && s == t
  | .tuple as s, .tuple bs t => Expr.equalAttrs as bs && s == t
  | .function p a s, .function q b t => p.equal q && a.equal b && s == t
  | .recursion m a b c s, .recursion n d e f t =>
    m == n && a.equal d && b.equal e && c.equal f && s == t
  | .paren a s, .paren b t => a.equal b && s == t
  | .xstr ps s, .xstr qs t => Expr.equalParts ps qs && s == t
  | .nest a i ms m s, .nest b j ns n t => a.equal b && i == j && ms == ns && m == n && s == t
  | _, _ => false
termination_by structural x => x

def Expr.equalAll : List Expr → List Expr → Bool
  | [], [] => true
  | a :: as, b :: bs => a.equal b && Expr.equalAll as bs
  | _, _ => false
termination_by structural x => x

def Expr.equalArms : List (Pattern × Expr) → List (Pattern × Expr) → Bool
  | [], [] => true
  | (p, a) :: as, (q, b) :: bs => p.equal q && a.equal b && Expr.equalArms as bs
  | _, _ => false
termination_by structural x => x

def Expr.equalRows : List (List Expr) → List (List Expr) → Bool
  | [], [] => true
  | a :: as, b :: bs => Expr.equalAll a b && Expr.equalRows as bs
  | _, _ => false
termination_by structural x => x

def Expr.equalEntries : List DictEntry → List DictEntry → Bool
  | [], [] => true
  | .mk j a s :: as, .mk k b t :: bs =>
    j.equal k && a.equal b && s == t && Expr.equalEntries as bs
  | _, _ => false
termination_by structural x => x

def Expr.equalItems : List (Option Expr) → List (Option Expr) → Bool
  | [], [] => true
  | none :: as, none :: bs => Expr.equalItems as bs
  | some a :: as, some b :: bs => a.equal b && Expr.equalItems as bs
  | _, _ => false
termination_by structural x => x

def Expr.equalAttrs : List (String × Expr) → List (String × Expr) → Bool
  | [], [] => true
  | (m, a) :: as, (n, b) :: bs => m == n && a.equal b && Expr.equalAttrs as bs
  | _, _ => false
termination_by structural x => x

def Expr.equalParts : List TextPart → List TextPart → Bool
  | [], [] => true
  | .text s :: as, .text t :: bs => s == t && Expr.equalParts as bs
  | .expr a f :: as, .expr b g :: bs => a.equal b && f == g && Expr.equalParts as bs
  | _, _ => false
termination_by structural x => x

/-- Whether two patterns are equal. -/
def Pattern.equal : Pattern → Pattern → Bool
  | .expr a, .expr b => a.equal b
  | .exprs as, .exprs bs => Expr.equalAll as bs
  | .array as, .array bs => Pattern.equalSlots as bs
  | .tuple as, .tuple bs => Pattern.equalAttrs as bs
  | .dict as, .dict bs => Pattern.equalEntries as bs
  | .set as, .set bs => Pattern.equalAll as bs
  | .extra m, .extra n => m == n
  | _, _ => false
termination_by structural x => x

def Pattern.equalAll : List Pattern → List Pattern → Bool
  | [], [] => true
  | p :: ps, q :: qs => p.equal q && Pattern.equalAll ps qs
  | _, _ => false
termination_by structural x => x

/-- Whether two slots are equal. -/
def Slot.equal : Slot → Slot → Bool
  | .mk none none, .mk none none => true
  | .mk none (some a), .mk none (some b) => a.equal b
  | .mk (some p) none, .mk (some q) none => p.equal q
  | .mk (some p) (some a), .mk (some q) (some b) => p.equal q && a.equal b
  | _, _ => false
termination_by structural x => x

def Pattern.equalSlots : List Slot → List Slot → Bool
  | [], [] => true
  | a :: as, b :: bs => a.equal b && Pattern.equalSlots as bs
  | _, _ => false
termination_by structural x => x

def Pattern.equalAttrs : List (String × Slot) → List (String × Slot) → Bool
  | [], [] => true
  | (m, a) :: as, (n, b) :: bs => m == n && a.equal b && Pattern.equalAttrs as bs
  | _, _ => false
termination_by structural x => x

def Pattern.equalEntries : List (Option Expr × Slot) → List (Option Expr × Slot) → Bool
  | [], [] => true
  | (none, a) :: as, (none, b) :: bs => a.equal b && Pattern.equalEntries as bs
  | (some j, a) :: as, (some k, b) :: bs =>
    j.equal k && a.equal b && Pattern.equalEntries as bs
  | _, _ => false
termination_by structural x => x

end

instance : BEq Expr := ⟨Expr.equal⟩

instance : BEq Pattern := ⟨Pattern.equal⟩

end Relational
