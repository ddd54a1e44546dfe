import Relational.Expr.Equality
import Relational.Proofs.Relabel
import Relational.Proofs.Sourced

/-!
# What equality of expressions leaves open

Expressions are compared part by part, and literals as values. Where literals stand at their places
this leaves nothing open. Steps of safe navigation are compared by their labels, which show the
arguments as text and no places:

> `Text.readLiteral_attrName`: the name of an attribute can be read off its text.

So a label tells whether there is a call and which attribute is read, but the text of the arguments
may stand for others. What is left open are the arguments of the steps, and the places in them:

> `Expr.sameButPlaces_of_equal`: equal expressions, whose literals stand at their places, are the
> same but for places, if the arguments of their steps are.
-/

namespace Relational

/-! ## Labels -/

/-- The text of the attribute that a step reads. -/
def SafeStep.attrText : Option (String × Span) → String
  | none => ""
  | some (attr, _) => "." ++ Text.attrName attr

/-- The rows of arguments of a step: one if it makes a call, or none. -/
def SafeStep.calls (step : SafeStep) : List (List Expr) := (step.args.map (·.1)).toList

namespace SafeStep

theorem label_get (safe : Bool) (attr : Option (String × Span)) :
    (SafeStep.mk safe none attr).label = attrText attr := String.empty_append

theorem label_call (safe : Bool) (args : List Expr) (span : Span)
    (attr : Option (String × Span)) :
    (SafeStep.mk safe (some (args, span)) attr).label =
      "(" ++ commas (Expr.texts args) ++ ")" ++ attrText attr := rfl

/-- The text of an attribute starts with a point. -/
theorem attrText_ne_call (attr : Option (String × Span)) (rest : String) :
    attrText attr ≠ "(" ++ rest := by
  intro h
  have hchars := congrArg String.toList h
  rw [String.toList_append] at hchars
  cases attr with
  | none => cases hchars
  | some attr =>
    rw [attrText, String.toList_append] at hchars
    cases hchars

/-- The text of an attribute tells the attribute, but not its place. -/
theorem map_fst_of_attrText_eq {attr attr' : Option (String × Span)}
    (h : attrText attr = attrText attr') : attr.map (·.1) = attr'.map (·.1) := by
  have hsome : ∀ attr : String × Span, attrText none ≠ attrText (some attr) := by
    intro attr heq
    have hchars := congrArg String.toList heq
    rw [attrText, attrText, String.toList_append] at hchars
    cases hchars
  cases attr with
  | none =>
    cases attr' with
    | none => rfl
    | some attr' => exact absurd h (hsome attr')
  | some attr =>
    cases attr' with
    | none => exact absurd h.symm (hsome attr)
    | some attr' =>
      have hname : Text.attrName attr.1 = Text.attrName attr'.1 := (String.append_right_inj _).mp h
      exact congrArg some (Text.attrName_injective hname)

end SafeStep

/-! ## The arguments of steps -/

mutual

/-- The rows of arguments of the steps in an expression, in order. Steps inside of arguments are
left to these. -/
def Expr.stepCalls : Expr → List (List Expr)
  | .literal _ _ | .ident _ _ => []
  | .dot lhs _ _ | .project lhs _ _ _ | .nest lhs _ _ _ _ => lhs.stepCalls
  | .unary _ operand _ | .count operand _ | .single operand _ => operand.stepCalls
  | .package inner _ | .paren inner _ => inner.stepCalls
  | .cond dict _ => dict.stepCalls
  | .call func arg _ => func.stepCalls ++ arg.stepCalls
  | .binary _ lhs rhs _ => lhs.stepCalls ++ rhs.stepCalls
  | .compare args _ _ | .set args _ | .bytes args _ => Expr.stepCallsAll args
  | .ifElse ifTrue condition ifFalse _ =>
    ifTrue.stepCalls ++ (condition.stepCalls ++ ifFalse.stepCalls)
  | .condControl control arms _ => control.stepCalls ++ Expr.stepCallsArms arms
  | .safeTail fallback base steps _ =>
    fallback.stepCalls ++ (base.stepCalls ++ steps.flatMap SafeStep.calls)
  | .relation _ rows _ => Expr.stepCallsRows rows
  | .dict entries _ _ => Expr.stepCallsEntries entries
  | .array items _ => Expr.stepCallsItems items
  | .tuple attrs _ => Expr.stepCallsAttrs attrs
  | .function param body _ => param.stepCalls ++ body.stepCalls
  | .recursion _ base fix fixt _ => base.stepCalls ++ (fix.stepCalls ++ fixt.stepCalls)
  | .xstr parts _ => Expr.stepCallsParts parts

def Expr.stepCallsAll : List Expr → List (List Expr)
  | [] => []
  | e :: rest => e.stepCalls ++ Expr.stepCallsAll rest

def Expr.stepCallsArms : List (Pattern × Expr) → List (List Expr)
  | [] => []
  | (p, e) :: rest => p.stepCalls ++ (e.stepCalls ++ Expr.stepCallsArms rest)

def Expr.stepCallsRows : List (List Expr) → List (List Expr)
  | [] => []
  | row :: rest => Expr.stepCallsAll row ++ Expr.stepCallsRows rest

def Expr.stepCallsEntries : List DictEntry → List (List Expr)
  | [] => []
  | .mk key value _ :: rest => key.stepCalls ++ (value.stepCalls ++ Expr.stepCallsEntries rest)

def Expr.stepCallsItems : List (Option Expr) → List (List Expr)
  | [] => []
  | none :: rest => Expr.stepCallsItems rest
  | some e :: rest => e.stepCalls ++ Expr.stepCallsItems rest

def Expr.stepCallsAttrs : List (String × Expr) → List (List Expr)
  | [] => []
  | (_, e) :: rest => e.stepCalls ++ Expr.stepCallsAttrs rest

def Expr.stepCallsParts : List TextPart → List (List Expr)
  | [] => []
  | .text _ :: rest => Expr.stepCallsParts rest
  | .expr e _ :: rest => e.stepCalls ++ Expr.stepCallsParts rest

/-- The rows of arguments of the steps in a pattern, in order. -/
def Pattern.stepCalls : Pattern → List (List Expr)
  | .expr e => e.stepCalls
  | .exprs es => Expr.stepCallsAll es
  | .array slots => Pattern.stepCallsSlots slots
  | .tuple slots => Pattern.stepCallsAttrs slots
  | .dict slots => Pattern.stepCallsEntries slots
  | .set elements => Pattern.stepCallsAll elements
  | .extra _ => []

def Pattern.stepCallsAll : List Pattern → List (List Expr)
  | [] => []
  | p :: rest => p.stepCalls ++ Pattern.stepCallsAll rest

/-- The rows of arguments of the steps in a slot, in order. -/
def Slot.stepCalls : Slot → List (List Expr)
  | .mk none none => []
  | .mk none (some e) => e.stepCalls
  | .mk (some p) none => p.stepCalls
  | .mk (some p) (some e) => p.stepCalls ++ e.stepCalls

def Pattern.stepCallsSlots : List Slot → List (List Expr)
  | [] => []
  | slot :: rest => slot.stepCalls ++ Pattern.stepCallsSlots rest

def Pattern.stepCallsAttrs : List (String × Slot) → List (List Expr)
  | [] => []
  | (_, slot) :: rest => slot.stepCalls ++ Pattern.stepCallsAttrs rest

def Pattern.stepCallsEntries : List (Option Expr × Slot) → List (List Expr)
  | [] => []
  | (none, slot) :: rest => slot.stepCalls ++ Pattern.stepCallsEntries rest
  | (some key, slot) :: rest =>
    key.stepCalls ++ (slot.stepCalls ++ Pattern.stepCallsEntries rest)

end

/-! ## Equal expressions -/

section Grants

variable {α : Type} {R : α → α → Prop} {as bs as' bs' : List α} {P Q : Prop}

/-- Two rows at the start of longer ones grant a statement: if the longer rows are related, it
holds, and what is left of them is related. -/
def Grants (R : α → α → Prop) (as bs : List α) (P : Prop) : Prop :=
  ∀ rest rest', List.Forall₂ R (as ++ rest) (bs ++ rest') → P ∧ List.Forall₂ R rest rest'

theorem Grants.nil (h : P) : Grants R [] [] P := fun _ _ hrest => ⟨h, hrest⟩

theorem Grants.single {a b : α} : Grants R [a] [b] (R a b) := by
  intro rest rest' h
  cases h with
  | cons hab hrest => exact ⟨hab, hrest⟩

theorem Grants.append (h : Grants R as bs P) (h' : Grants R as' bs' Q) :
    Grants R (as ++ as') (bs ++ bs') (P ∧ Q) := by
  intro rest rest' hall
  rw [List.append_assoc, List.append_assoc] at hall
  obtain ⟨hP, hall⟩ := h _ _ hall
  obtain ⟨hQ, hrest⟩ := h' _ _ hall
  exact ⟨⟨hP, hQ⟩, hrest⟩

theorem Grants.imp (h : Grants R as bs P) (hPQ : P → Q) : Grants R as bs Q :=
  fun rest rest' hall => ⟨hPQ (h rest rest' hall).1, (h rest rest' hall).2⟩

/-- Related rows grant what they are to grant. -/
theorem Grants.holds (h : Grants R as bs P) (hall : List.Forall₂ R as bs) : P := by
  refine (h [] [] ?_).1
  rwa [List.append_nil, List.append_nil]

end Grants

/-- The arguments of two rows of steps grant a statement. -/
abbrev GrantedBy (calls calls' : List (List Expr)) (P : Prop) : Prop :=
  Grants (List.Forall₂ Expr.SameButPlaces) calls calls' P

/-- Steps with equal labels are the same but for places, if their arguments are. -/
theorem SafeStep.granted {step step' : SafeStep} (h : step.equal step' = true) :
    GrantedBy step.calls step'.calls (step.relabel .unplaced = step'.relabel .unplaced) := by
  obtain ⟨hlabel, hsafe⟩ := Bool.and_eq_true_iff.mp h
  replace hlabel := eq_of_beq hlabel
  replace hsafe := eq_of_beq hsafe
  obtain ⟨safe, args, attr⟩ := step
  obtain ⟨safe', args', attr'⟩ := step'
  obtain rfl : safe = safe' := hsafe
  have hattr : attrText attr = attrText attr' → attr.map (Prod.map id fun _ => Span.unknown) =
      attr'.map (Prod.map id fun _ => Span.unknown) := by
    intro htext
    have hplace : ∀ attr : Option (String × Span), attr.map (Prod.map id fun _ => Span.unknown) =
        (attr.map (·.1)).map fun name => (name, Span.unknown) := by
      intro attr
      cases attr <;> rfl
    rw [hplace, hplace, map_fst_of_attrText_eq htext]
  cases args with
  | none =>
    rw [label_get] at hlabel
    cases args' with
    | none =>
      rw [label_get] at hlabel
      exact .nil (congrArg (SafeStep.mk safe none) (hattr hlabel))
    | some call =>
      rw [label_call, String.append_assoc, String.append_assoc] at hlabel
      exact absurd hlabel (attrText_ne_call _ _)
  | some call =>
    obtain ⟨args, span⟩ := call
    rw [label_call] at hlabel
    cases args' with
    | none =>
      rw [label_get, String.append_assoc, String.append_assoc] at hlabel
      exact absurd hlabel.symm (attrText_ne_call _ _)
    | some call =>
      obtain ⟨args', span'⟩ := call
      rw [label_call] at hlabel
      refine Grants.single.imp fun hargs => ?_
      -- the same arguments have the same text, and what comes after it is the attribute
      have hall := Expr.relabelAll_eq hargs
      have htexts : Expr.texts args = Expr.texts args' := by
        rw [← Expr.texts_relabel .unplaced args, hall, Expr.texts_relabel]
      rw [htexts] at hlabel
      have htext := (String.append_right_inj _).mp hlabel
      exact congrArg₂ (fun args attr => SafeStep.mk safe (some (args, Span.unknown)) attr) hall
        (hattr htext)

theorem Expr.steps_granted {steps steps' : List SafeStep}
    (h : steps.isEqv steps' SafeStep.equal = true) :
    GrantedBy (steps.flatMap SafeStep.calls) (steps'.flatMap SafeStep.calls)
      (Expr.relabelSteps .unplaced steps = Expr.relabelSteps .unplaced steps') := by
  induction steps generalizing steps' with
  | nil =>
    cases steps' with
    | nil => exact .nil rfl
    | cons => cases h
  | cons step steps ih =>
    cases steps' with
    | nil => cases h
    | cons step' steps' =>
      obtain ⟨hstep, hsteps⟩ := Bool.and_eq_true_iff.mp h
      exact ((SafeStep.granted hstep).append (ih hsteps)).imp fun hboth =>
        congrArg₂ List.cons hboth.1 hboth.2

/-! ## All parts -/

mutual

/-- Equal expressions are the same but for places, if the arguments of their steps are. The
recursion follows that of equality, and each part uses up its own rows of arguments. -/
theorem Expr.granted : ∀ a b : Expr, a.equal b = true → a.Sourced → b.Sourced →
    GrantedBy a.stepCalls b.stepCalls (a.SameButPlaces b)
  | .literal v s, b, h, ha, hb => by
    cases b with
    | literal w t =>
      obtain ⟨hvalue, hspan⟩ := Bool.and_eq_true_iff.mp h
      obtain rfl := eq_of_beq hspan
      have heq := Value.StandsAt.eq_of_equal ha.inPlace hb.inPlace hvalue
      exact .nil (congrArg (fun v => Expr.relabel .unplaced (.literal v s)) heq)
    | _ => cases h
  | .ident m s, b, h, ha, hb => by
    cases b with
    | ident n t =>
      obtain ⟨hname, -⟩ := Bool.and_eq_true_iff.mp h
      exact .nil (congrArg (Expr.ident · .unknown) (eq_of_beq hname))
    | _ => cases h
  | .dot a m s, b, h, ha, hb => by
    cases b with
    | dot c n t =>
      obtain ⟨hrest, -⟩ := Bool.and_eq_true_iff.mp h
      obtain ⟨hlhs, hattr⟩ := Bool.and_eq_true_iff.mp hrest
      obtain rfl := eq_of_beq hattr
      exact (Expr.granted a c hlhs (ha.exprs a (List.mem_singleton_self _))
        (hb.exprs c (List.mem_singleton_self _))).imp (congrArg (Expr.dot · m .unknown))
    | _ => cases h
  | .project a i ms s, b, h, ha, hb => by
    cases b with
    | project c j ns t =>
      obtain ⟨hrest, -⟩ := Bool.and_eq_true_iff.mp h
      obtain ⟨hrest, hattrs⟩ := Bool.and_eq_true_iff.mp hrest
      obtain ⟨hlhs, hinverse⟩ := Bool.and_eq_true_iff.mp hrest
      obtain rfl := eq_of_beq hattrs
      obtain rfl := eq_of_beq hinverse
      exact (Expr.granted a c hlhs (ha.exprs a (List.mem_singleton_self _))
        (hb.exprs c (List.mem_singleton_self _))).imp (congrArg (Expr.project · i ms .unknown))
    | _ => cases h
  | .call f a s, b, h, ha, hb => by
    cases b with
    | call g c t =>
      obtain ⟨hrest, -⟩ := Bool.and_eq_true_iff.mp h
      obtain ⟨hfunc, harg⟩ := Bool.and_eq_true_iff.mp hrest
      obtain ⟨hf, ha⟩ := List.forall_mem_cons.mp ha.exprs
      obtain ⟨hg, hb⟩ := List.forall_mem_cons.mp hb.exprs
      exact ((Expr.granted f g hfunc hf hg).append (Expr.granted a c harg
        (ha a (List.mem_singleton_self _)) (hb c (List.mem_singleton_self _)))).imp fun hboth =>
          congrArg₂ (Expr.call · · .unknown) hboth.1 hboth.2
    | _ => cases h
  | .binary o l r s, b, h, ha, hb => by
    cases b with
    | binary o' l' r' t =>
      obtain ⟨hrest, -⟩ := Bool.and_eq_true_iff.mp h
      obtain ⟨hrest, hright⟩ := Bool.and_eq_true_iff.mp hrest
      obtain ⟨hop, hleft⟩ := Bool.and_eq_true_iff.mp hrest
      obtain rfl := eq_of_beq hop
      obtain ⟨hl, hr⟩ := ha.operands
      obtain ⟨hl', hr'⟩ := hb.operands
      exact ((Expr.granted l l' hleft hl hl').append (Expr.granted r r' hright hr hr')).imp
        fun hboth => congrArg₂ (Expr.binary o · · .unknown) hboth.1 hboth.2
    | _ => cases h
  | .unary o a s, b, h, ha, hb => by
    cases b with
    | unary p c t =>
      obtain ⟨hrest, -⟩ := Bool.and_eq_true_iff.mp h
      obtain ⟨hop, hoperand⟩ := Bool.and_eq_true_iff.mp hrest
      obtain rfl := eq_of_beq hop
      exact (Expr.granted a c hoperand (ha.exprs a (List.mem_singleton_self _))
        (hb.exprs c (List.mem_singleton_self _))).imp (congrArg (Expr.unary o · .unknown))
    | _ => cases h
  | .package a s, b, h, ha, hb => by
    cases b with
    | package c t =>
      obtain ⟨hinner, -⟩ := Bool.and_eq_true_iff.mp h
      exact (Expr.granted a c hinner (ha.exprs a (List.mem_singleton_self _))
        (hb.exprs c (List.mem_singleton_self _))).imp (congrArg (Expr.package · .unknown))
    | _ => cases h
  | .compare as os s, b, h, ha, hb => by
    cases b with
    | compare bs ps t =>
      obtain ⟨hrest, -⟩ := Bool.and_eq_true_iff.mp h
      obtain ⟨hargs, hops⟩ := Bool.and_eq_true_iff.mp hrest
      obtain rfl := eq_of_beq hops
      exact (Expr.grantedAll as bs hargs ha.exprs hb.exprs).imp
        (congrArg (Expr.compare · os .unknown))
    | _ => cases h
  | .ifElse a c d s, b, h, ha, hb => by
    cases b with
    | ifElse a' c' d' t =>
      obtain ⟨hrest, -⟩ := Bool.and_eq_true_iff.mp h
      obtain ⟨hrest, hfalse⟩ := Bool.and_eq_true_iff.mp hrest
      obtain ⟨htrue, hcondition⟩ := Bool.and_eq_true_iff.mp hrest
      obtain ⟨ha, hrest⟩ := List.forall_mem_cons.mp ha.exprs
      obtain ⟨hc, hd⟩ := List.forall_mem_cons.mp hrest
      obtain ⟨ha', hrest⟩ := List.forall_mem_cons.mp hb.exprs
      obtain ⟨hc', hd'⟩ := List.forall_mem_cons.mp hrest
      refine ((Expr.granted a a' htrue ha ha').append ((Expr.granted c c' hcondition hc hc').append
        (Expr.granted d d' hfalse (hd d (List.mem_singleton_self _))
          (hd' d' (List.mem_singleton_self _))))).imp fun hall => ?_
      exact congrFun (congr (congrArg₂ Expr.ifElse hall.1 hall.2.1) hall.2.2) .unknown
    | _ => cases h
  | .condControl a arms s, b, h, ha, hb => by
    cases b with
    | condControl c arms' t =>
      obtain ⟨hrest, -⟩ := Bool.and_eq_true_iff.mp h
      obtain ⟨hcontrol, harms⟩ := Bool.and_eq_true_iff.mp hrest
      obtain ⟨hsource, hbodies⟩ := List.forall_mem_cons.mp ha.exprs
      obtain ⟨hsource', hbodies'⟩ := List.forall_mem_cons.mp hb.exprs
      exact ((Expr.granted a c hcontrol hsource hsource').append (Expr.grantedArms arms arms' harms
        ha.patterns hbodies hb.patterns hbodies')).imp fun hboth =>
          congrArg₂ (Expr.condControl · · .unknown) hboth.1 hboth.2
    | _ => cases h
  | .cond a s, b, h, ha, hb => by
    cases b with
    | cond c t =>
      obtain ⟨hdict, -⟩ := Bool.and_eq_true_iff.mp h
      exact (Expr.granted a c hdict ha.conditions hb.conditions).imp
        (congrArg (Expr.cond · .unknown))
    | _ => cases h
  | .count a s, b, h, ha, hb => by
    cases b with
    | count c t =>
      obtain ⟨hinner, -⟩ := Bool.and_eq_true_iff.mp h
      exact (Expr.granted a c hinner (ha.exprs a (List.mem_singleton_self _))
        (hb.exprs c (List.mem_singleton_self _))).imp (congrArg (Expr.count · .unknown))
    | _ => cases h
  | .single a s, b, h, ha, hb => by
    cases b with
    | single c t =>
      obtain ⟨hinner, -⟩ := Bool.and_eq_true_iff.mp h
      exact (Expr.granted a c hinner (ha.exprs a (List.mem_singleton_self _))
        (hb.exprs c (List.mem_singleton_self _))).imp (congrArg (Expr.single · .unknown))
    | _ => cases h
  | .safeTail a c steps s, b, h, ha, hb => by
    cases b with
    | safeTail a' c' steps' t =>
      obtain ⟨hrest, -⟩ := Bool.and_eq_true_iff.mp h
      obtain ⟨hrest, hsteps⟩ := Bool.and_eq_true_iff.mp hrest
      obtain ⟨hfallback, hbase⟩ := Bool.and_eq_true_iff.mp hrest
      obtain ⟨ha, hrest⟩ := List.forall_mem_cons.mp ha.exprs
      obtain ⟨ha', hrest'⟩ := List.forall_mem_cons.mp hb.exprs
      have hc := (List.forall_mem_cons.mp hrest).1
      have hc' := (List.forall_mem_cons.mp hrest').1
      refine ((Expr.granted a a' hfallback ha ha').append ((Expr.granted c c' hbase hc hc').append
        (Expr.steps_granted hsteps))).imp fun hall => ?_
      exact congrFun (congr (congrArg₂ Expr.safeTail hall.1 hall.2.1) hall.2.2) .unknown
    | _ => cases h
  | .relation ms rows s, b, h, ha, hb => by
    cases b with
    | relation ns rows' t =>
      obtain ⟨hrest, -⟩ := Bool.and_eq_true_iff.mp h
      obtain ⟨hnames, hrows⟩ := Bool.and_eq_true_iff.mp hrest
      obtain rfl := eq_of_beq hnames
      exact (Expr.grantedRows rows rows' hrows ha.exprs hb.exprs).imp
        (congrArg (Expr.relation ms · .unknown))
    | _ => cases h
  | .set as s, b, h, ha, hb => by
    cases b with
    | set bs t =>
      obtain ⟨hall, -⟩ := Bool.and_eq_true_iff.mp h
      exact (Expr.grantedAll as bs hall ha.exprs hb.exprs).imp (congrArg (Expr.set · .unknown))
    | _ => cases h
  | .dict as d s, b, h, ha, hb => by
    cases b with
    | dict bs d' t =>
      obtain ⟨hrest, -⟩ := Bool.and_eq_true_iff.mp h
      obtain ⟨hentries, hconditional⟩ := Bool.and_eq_true_iff.mp hrest
      obtain rfl := eq_of_beq hconditional
      exact (Expr.grantedEntries as bs hentries ha.exprs hb.exprs).imp
        (congrArg (Expr.dict · d .unknown))
    | _ => cases h
  | .array as s, b, h, ha, hb => by
    cases b with
    | array bs t =>
      obtain ⟨hall, -⟩ := Bool.and_eq_true_iff.mp h
      exact (Expr.grantedItems as bs hall ha.exprs hb.exprs).imp (congrArg (Expr.array · .unknown))
    | _ => cases h
  | .bytes as s, b, h, ha, hb => by
    cases b with
    | bytes bs t =>
      obtain ⟨hall, -⟩ := Bool.and_eq_true_iff.mp h
      exact (Expr.grantedAll as bs hall ha.exprs hb.exprs).imp (congrArg (Expr.bytes · .unknown))
    | _ => cases h
  | .tuple as s, b, h, ha, hb => by
    cases b with
    | tuple bs t =>
      obtain ⟨hall, -⟩ := Bool.and_eq_true_iff.mp h
      exact (Expr.grantedAttrs as bs hall ha.exprs hb.exprs).imp (congrArg (Expr.tuple · .unknown))
    | _ => cases h
  | .function p a s, b, h, ha, hb => by
    cases b with
    | function q c t =>
      obtain ⟨hrest, -⟩ := Bool.and_eq_true_iff.mp h
      obtain ⟨hparam, hbody⟩ := Bool.and_eq_true_iff.mp hrest
      exact ((Pattern.granted p q hparam (ha.patterns p (List.mem_singleton_self _))
        (hb.patterns q (List.mem_singleton_self _))).append (Expr.granted a c hbody
          (ha.exprs a (List.mem_singleton_self _)) (hb.exprs c (List.mem_singleton_self _)))).imp
            fun hboth => congrArg₂ (Expr.function · · .unknown) hboth.1 hboth.2
    | _ => cases h
  | .recursion m a c d s, b, h, ha, hb => by
    cases b with
    | recursion n a' c' d' t =>
      obtain ⟨hrest, -⟩ := Bool.and_eq_true_iff.mp h
      obtain ⟨hrest, hfixt⟩ := Bool.and_eq_true_iff.mp hrest
      obtain ⟨hrest, hfix⟩ := Bool.and_eq_true_iff.mp hrest
      obtain ⟨hname, hbase⟩ := Bool.and_eq_true_iff.mp hrest
      obtain rfl := eq_of_beq hname
      obtain ⟨ha, hrest⟩ := List.forall_mem_cons.mp ha.exprs
      obtain ⟨hc, hd⟩ := List.forall_mem_cons.mp hrest
      obtain ⟨ha', hrest⟩ := List.forall_mem_cons.mp hb.exprs
      obtain ⟨hc', hd'⟩ := List.forall_mem_cons.mp hrest
      refine ((Expr.granted a a' hbase ha ha').append ((Expr.granted c c' hfix hc hc').append
        (Expr.granted d d' hfixt (hd d (List.mem_singleton_self _))
          (hd' d' (List.mem_singleton_self _))))).imp fun hall => ?_
      exact congrFun (congr (congrArg₂ (Expr.recursion m) hall.1 hall.2.1) hall.2.2) .unknown
    | _ => cases h
  | .paren a s, b, h, ha, hb => by
    cases b with
    | paren c t =>
      obtain ⟨hinner, -⟩ := Bool.and_eq_true_iff.mp h
      exact (Expr.granted a c hinner (ha.exprs a (List.mem_singleton_self _))
        (hb.exprs c (List.mem_singleton_self _))).imp (congrArg (Expr.paren · .unknown))
    | _ => cases h
  | .xstr as s, b, h, ha, hb => by
    cases b with
    | xstr bs t =>
      obtain ⟨hall, -⟩ := Bool.and_eq_true_iff.mp h
      exact (Expr.grantedParts as bs hall ha.exprs hb.exprs).imp (congrArg (Expr.xstr · .unknown))
    | _ => cases h
  | .nest a i ms m s, b, h, ha, hb => by
    cases b with
    | nest c j ns n t =>
      obtain ⟨hrest, -⟩ := Bool.and_eq_true_iff.mp h
      obtain ⟨hrest, hname⟩ := Bool.and_eq_true_iff.mp hrest
      obtain ⟨hrest, hattrs⟩ := Bool.and_eq_true_iff.mp hrest
      obtain ⟨hlhs, hinverse⟩ := Bool.and_eq_true_iff.mp hrest
      obtain rfl := eq_of_beq hname
      obtain rfl := eq_of_beq hattrs
      obtain rfl := eq_of_beq hinverse
      exact (Expr.granted a c hlhs (ha.exprs a (List.mem_singleton_self _))
        (hb.exprs c (List.mem_singleton_self _))).imp (congrArg (Expr.nest · i ms m .unknown))
    | _ => cases h
termination_by structural x => x

theorem Expr.grantedAll : ∀ as bs : List Expr, Expr.equalAll as bs = true →
    (∀ e ∈ as, e.Sourced) → (∀ e ∈ bs, e.Sourced) →
    GrantedBy (Expr.stepCallsAll as) (Expr.stepCallsAll bs)
      (Expr.relabelAll .unplaced as = Expr.relabelAll .unplaced bs)
  | [], [], _, _, _ => .nil rfl
  | a :: as, b :: bs, h, ha, hb => by
    obtain ⟨hfirst, hrest⟩ := Bool.and_eq_true_iff.mp h
    obtain ⟨ha, has⟩ := List.forall_mem_cons.mp ha
    obtain ⟨hb, hbs⟩ := List.forall_mem_cons.mp hb
    exact ((Expr.granted a b hfirst ha hb).append (Expr.grantedAll as bs hrest has hbs)).imp
      fun hboth => congrArg₂ List.cons hboth.1 hboth.2
termination_by structural x => x

theorem Expr.grantedArms : ∀ as bs : List (Pattern × Expr), Expr.equalArms as bs = true →
    (∀ p ∈ as.map (·.1), p.Sourced) → (∀ e ∈ as.map (·.2), e.Sourced) →
    (∀ p ∈ bs.map (·.1), p.Sourced) → (∀ e ∈ bs.map (·.2), e.Sourced) →
    GrantedBy (Expr.stepCallsArms as) (Expr.stepCallsArms bs)
      (Expr.relabelArms .unplaced as = Expr.relabelArms .unplaced bs)
  | [], [], _, _, _, _, _ => .nil rfl
  | (p, a) :: as, (q, b) :: bs, h, hp, ha, hq, hb => by
    obtain ⟨hfirst, hrest⟩ := Bool.and_eq_true_iff.mp h
    obtain ⟨hpattern, hbody⟩ := Bool.and_eq_true_iff.mp hfirst
    obtain ⟨hp, hps⟩ := List.forall_mem_cons.mp hp
    obtain ⟨ha, has⟩ := List.forall_mem_cons.mp ha
    obtain ⟨hq, hqs⟩ := List.forall_mem_cons.mp hq
    obtain ⟨hb, hbs⟩ := List.forall_mem_cons.mp hb
    exact ((Pattern.granted p q hpattern hp hq).append ((Expr.granted a b hbody ha hb).append
      (Expr.grantedArms as bs hrest hps has hqs hbs))).imp fun hall =>
        congrArg₂ List.cons (Prod.ext hall.1 hall.2.1) hall.2.2
termination_by structural x => x

theorem Expr.grantedRows : ∀ as bs : List (List Expr), Expr.equalRows as bs = true →
    (∀ e ∈ as.flatten, e.Sourced) → (∀ e ∈ bs.flatten, e.Sourced) →
    GrantedBy (Expr.stepCallsRows as) (Expr.stepCallsRows bs)
      (Expr.relabelRows .unplaced as = Expr.relabelRows .unplaced bs)
  | [], [], _, _, _ => .nil rfl
  | a :: as, b :: bs, h, ha, hb => by
    obtain ⟨hfirst, hrest⟩ := Bool.and_eq_true_iff.mp h
    obtain ⟨ha, has⟩ := List.forall_mem_append.mp ha
    obtain ⟨hb, hbs⟩ := List.forall_mem_append.mp hb
    exact ((Expr.grantedAll a b hfirst ha hb).append (Expr.grantedRows as bs hrest has hbs)).imp
      fun hboth => congrArg₂ List.cons hboth.1 hboth.2
termination_by structural x => x

theorem Expr.grantedEntries : ∀ as bs : List DictEntry, Expr.equalEntries as bs = true →
    (∀ e ∈ as.flatMap fun entry => [entry.key, entry.value], e.Sourced) →
    (∀ e ∈ bs.flatMap fun entry => [entry.key, entry.value], e.Sourced) →
    GrantedBy (Expr.stepCallsEntries as) (Expr.stepCallsEntries bs)
      (Expr.relabelEntries .unplaced as = Expr.relabelEntries .unplaced bs)
  | [], [], _, _, _ => .nil rfl
  | .mk j a s :: as, .mk k b t :: bs, h, ha, hb => by
    obtain ⟨hfirst, hrest⟩ := Bool.and_eq_true_iff.mp h
    obtain ⟨hfirst, -⟩ := Bool.and_eq_true_iff.mp hfirst
    obtain ⟨hkey, hvalue⟩ := Bool.and_eq_true_iff.mp hfirst
    obtain ⟨hj, ha⟩ := List.forall_mem_cons.mp ha
    obtain ⟨ha, has⟩ := List.forall_mem_cons.mp ha
    obtain ⟨hk, hb⟩ := List.forall_mem_cons.mp hb
    obtain ⟨hb, hbs⟩ := List.forall_mem_cons.mp hb
    exact ((Expr.granted j k hkey hj hk).append ((Expr.granted a b hvalue ha hb).append
      (Expr.grantedEntries as bs hrest has hbs))).imp fun hall =>
        congrArg₂ List.cons (congrArg₂ (DictEntry.mk · · .unknown) hall.1 hall.2.1) hall.2.2
termination_by structural x => x

theorem Expr.grantedItems : ∀ as bs : List (Option Expr), Expr.equalItems as bs = true →
    (∀ e ∈ as.filterMap id, e.Sourced) → (∀ e ∈ bs.filterMap id, e.Sourced) →
    GrantedBy (Expr.stepCallsItems as) (Expr.stepCallsItems bs)
      (Expr.relabelItems .unplaced as = Expr.relabelItems .unplaced bs)
  | [], [], _, _, _ => .nil rfl
  | none :: as, none :: bs, h, ha, hb =>
    (Expr.grantedItems as bs h ha hb).imp (congrArg (none :: ·))
  | some a :: as, some b :: bs, h, ha, hb => by
    obtain ⟨hfirst, hrest⟩ := Bool.and_eq_true_iff.mp h
    obtain ⟨ha, has⟩ := List.forall_mem_cons.mp ha
    obtain ⟨hb, hbs⟩ := List.forall_mem_cons.mp hb
    exact ((Expr.granted a b hfirst ha hb).append (Expr.grantedItems as bs hrest has hbs)).imp
      fun hboth => congrArg₂ (fun e rest => some e :: rest) hboth.1 hboth.2
termination_by structural x => x

theorem Expr.grantedAttrs : ∀ as bs : List (String × Expr), Expr.equalAttrs as bs = true →
    (∀ e ∈ as.map (·.2), e.Sourced) → (∀ e ∈ bs.map (·.2), e.Sourced) →
    GrantedBy (Expr.stepCallsAttrs as) (Expr.stepCallsAttrs bs)
      (Expr.relabelAttrs .unplaced as = Expr.relabelAttrs .unplaced bs)
  | [], [], _, _, _ => .nil rfl
  | (m, a) :: as, (n, b) :: bs, h, ha, hb => by
    obtain ⟨hfirst, hrest⟩ := Bool.and_eq_true_iff.mp h
    obtain ⟨hname, hvalue⟩ := Bool.and_eq_true_iff.mp hfirst
    obtain ⟨ha, has⟩ := List.forall_mem_cons.mp ha
    obtain ⟨hb, hbs⟩ := List.forall_mem_cons.mp hb
    exact ((Expr.granted a b hvalue ha hb).append (Expr.grantedAttrs as bs hrest has hbs)).imp
      fun hboth => congrArg₂ List.cons (Prod.ext (eq_of_beq hname) hboth.1) hboth.2
termination_by structural x => x

theorem Expr.grantedParts : ∀ as bs : List TextPart, Expr.equalParts as bs = true →
    (∀ e ∈ as.filterMap TextPart.expr?, e.Sourced) →
    (∀ e ∈ bs.filterMap TextPart.expr?, e.Sourced) →
    GrantedBy (Expr.stepCallsParts as) (Expr.stepCallsParts bs)
      (Expr.relabelParts .unplaced as = Expr.relabelParts .unplaced bs)
  | [], [], _, _, _ => .nil rfl
  | .text s :: as, .text t :: bs, h, ha, hb => by
    obtain ⟨hfirst, hrest⟩ := Bool.and_eq_true_iff.mp h
    obtain rfl := eq_of_beq hfirst
    exact (Expr.grantedParts as bs hrest ha hb).imp (congrArg (TextPart.text s :: ·))
  | .expr a f :: as, .expr b g :: bs, h, ha, hb => by
    obtain ⟨hfirst, hrest⟩ := Bool.and_eq_true_iff.mp h
    obtain ⟨hexpr, hformat⟩ := Bool.and_eq_true_iff.mp hfirst
    obtain rfl := eq_of_beq hformat
    obtain ⟨ha, has⟩ := List.forall_mem_cons.mp ha
    obtain ⟨hb, hbs⟩ := List.forall_mem_cons.mp hb
    exact ((Expr.granted a b hexpr ha hb).append (Expr.grantedParts as bs hrest has hbs)).imp
      fun hboth => congrArg₂ (fun e rest => TextPart.expr e f :: rest) hboth.1 hboth.2
termination_by structural x => x

theorem Pattern.granted : ∀ p q : Pattern, p.equal q = true → p.Sourced → q.Sourced →
    GrantedBy p.stepCalls q.stepCalls (p.SameButPlaces q)
  | .expr a, .expr b, h, hp, hq =>
    (Expr.granted a b h hp.expr hq.expr).imp (congrArg Pattern.expr)
  | .exprs as, .exprs bs, h, hp, hq =>
    (Expr.grantedAll as bs h hp.exprs hq.exprs).imp (congrArg Pattern.exprs)
  | .array as, .array bs, h, hp, hq =>
    (Pattern.grantedSlots as bs h hp.slots hq.slots).imp (congrArg Pattern.array)
  | .tuple as, .tuple bs, h, hp, hq =>
    (Pattern.grantedAttrs as bs h hp.slots hq.slots).imp (congrArg Pattern.tuple)
  | .dict as, .dict bs, h, hp, hq =>
    (Pattern.grantedEntries as bs h hp.keys hp.slots hq.keys hq.slots).imp (congrArg Pattern.dict)
  | .set as, .set bs, h, hp, hq =>
    (Pattern.grantedAll as bs h hp.parts hq.parts).imp (congrArg Pattern.set)
  | .extra _, .extra _, h, _, _ => .nil (congrArg Pattern.extra (eq_of_beq h))
termination_by structural x => x

theorem Pattern.grantedAll : ∀ ps qs : List Pattern, Pattern.equalAll ps qs = true →
    (∀ p ∈ ps, p.Sourced) → (∀ q ∈ qs, q.Sourced) →
    GrantedBy (Pattern.stepCallsAll ps) (Pattern.stepCallsAll qs)
      (Pattern.relabelAll .unplaced ps = Pattern.relabelAll .unplaced qs)
  | [], [], _, _, _ => .nil rfl
  | p :: ps, q :: qs, h, hp, hq => by
    obtain ⟨hfirst, hrest⟩ := Bool.and_eq_true_iff.mp h
    obtain ⟨hp, hps⟩ := List.forall_mem_cons.mp hp
    obtain ⟨hq, hqs⟩ := List.forall_mem_cons.mp hq
    exact ((Pattern.granted p q hfirst hp hq).append (Pattern.grantedAll ps qs hrest hps hqs)).imp
      fun hboth => congrArg₂ List.cons hboth.1 hboth.2
termination_by structural x => x

theorem Slot.granted : ∀ slot slot' : Slot, slot.equal slot' = true →
    slot.Has Expr.Sourced Pattern.Sourced → slot'.Has Expr.Sourced Pattern.Sourced →
    GrantedBy slot.stepCalls slot'.stepCalls (slot.relabel .unplaced = slot'.relabel .unplaced)
  | .mk none none, .mk none none, _, _, _ => .nil rfl
  | .mk none (some a), .mk none (some b), h, hs, ht =>
    (Expr.granted a b h (hs.2 a rfl) (ht.2 b rfl)).imp
      (congrArg fun e => Slot.mk none (some e))
  | .mk (some p) none, .mk (some q) none, h, hs, ht =>
    (Pattern.granted p q h (hs.1 p rfl) (ht.1 q rfl)).imp
      (congrArg fun p => Slot.mk (some p) none)
  | .mk (some p) (some a), .mk (some q) (some b), h, hs, ht => by
    obtain ⟨hpattern, hfallback⟩ := Bool.and_eq_true_iff.mp h
    exact ((Pattern.granted p q hpattern (hs.1 p rfl) (ht.1 q rfl)).append
      (Expr.granted a b hfallback (hs.2 a rfl) (ht.2 b rfl))).imp fun hboth =>
        congrArg₂ (fun p e => Slot.mk (some p) (some e)) hboth.1 hboth.2
termination_by structural x => x

theorem Pattern.grantedSlots : ∀ as bs : List Slot, Pattern.equalSlots as bs = true →
    (∀ slot ∈ as, slot.Has Expr.Sourced Pattern.Sourced) →
    (∀ slot ∈ bs, slot.Has Expr.Sourced Pattern.Sourced) →
    GrantedBy (Pattern.stepCallsSlots as) (Pattern.stepCallsSlots bs)
      (Pattern.relabelItems .unplaced as = Pattern.relabelItems .unplaced bs)
  | [], [], _, _, _ => .nil rfl
  | a :: as, b :: bs, h, ha, hb => by
    obtain ⟨hfirst, hrest⟩ := Bool.and_eq_true_iff.mp h
    obtain ⟨ha, has⟩ := List.forall_mem_cons.mp ha
    obtain ⟨hb, hbs⟩ := List.forall_mem_cons.mp hb
    exact ((Slot.granted a b hfirst ha hb).append (Pattern.grantedSlots as bs hrest has hbs)).imp
      fun hboth => congrArg₂ List.cons hboth.1 hboth.2
termination_by structural x => x

theorem Pattern.grantedAttrs : ∀ as bs : List (String × Slot), Pattern.equalAttrs as bs = true →
    (∀ slot ∈ as.map (·.2), slot.Has Expr.Sourced Pattern.Sourced) →
    (∀ slot ∈ bs.map (·.2), slot.Has Expr.Sourced Pattern.Sourced) →
    GrantedBy (Pattern.stepCallsAttrs as) (Pattern.stepCallsAttrs bs)
      (Pattern.relabelAttrs .unplaced as = Pattern.relabelAttrs .unplaced bs)
  | [], [], _, _, _ => .nil rfl
  | (_, a) :: as, (_, b) :: bs, h, ha, hb => by
    obtain ⟨hfirst, hrest⟩ := Bool.and_eq_true_iff.mp h
    obtain ⟨hname, hslot⟩ := Bool.and_eq_true_iff.mp hfirst
    obtain ⟨ha, has⟩ := List.forall_mem_cons.mp ha
    obtain ⟨hb, hbs⟩ := List.forall_mem_cons.mp hb
    exact ((Slot.granted a b hslot ha hb).append (Pattern.grantedAttrs as bs hrest has hbs)).imp
      fun hboth => congrArg₂ List.cons (Prod.ext (eq_of_beq hname) hboth.1) hboth.2
termination_by structural x => x

theorem Pattern.grantedEntries : ∀ as bs : List (Option Expr × Slot),
    Pattern.equalEntries as bs = true → (∀ e ∈ as.filterMap (·.1), e.Sourced) →
    (∀ slot ∈ as.map (·.2), slot.Has Expr.Sourced Pattern.Sourced) →
    (∀ e ∈ bs.filterMap (·.1), e.Sourced) →
    (∀ slot ∈ bs.map (·.2), slot.Has Expr.Sourced Pattern.Sourced) →
    GrantedBy (Pattern.stepCallsEntries as) (Pattern.stepCallsEntries bs)
      (Pattern.relabelEntries .unplaced as = Pattern.relabelEntries .unplaced bs)
  | [], [], _, _, _, _, _ => .nil rfl
  | (none, a) :: as, (none, b) :: bs, h, hj, ha, hk, hb => by
    obtain ⟨hslot, hrest⟩ := Bool.and_eq_true_iff.mp h
    obtain ⟨ha, has⟩ := List.forall_mem_cons.mp ha
    obtain ⟨hb, hbs⟩ := List.forall_mem_cons.mp hb
    exact ((Slot.granted a b hslot ha hb).append
      (Pattern.grantedEntries as bs hrest hj has hk hbs)).imp fun hboth =>
        congrArg₂ (fun slot rest => (none, slot) :: rest) hboth.1 hboth.2
  | (some j, a) :: as, (some k, b) :: bs, h, hj, ha, hk, hb => by
    obtain ⟨hfirst, hrest⟩ := Bool.and_eq_true_iff.mp h
    obtain ⟨hkey, hslot⟩ := Bool.and_eq_true_iff.mp hfirst
    obtain ⟨hj, hjs⟩ := List.forall_mem_cons.mp hj
    obtain ⟨ha, has⟩ := List.forall_mem_cons.mp ha
    obtain ⟨hk, hks⟩ := List.forall_mem_cons.mp hk
    obtain ⟨hb, hbs⟩ := List.forall_mem_cons.mp hb
    exact ((Expr.granted j k hkey hj hk).append ((Slot.granted a b hslot ha hb).append
      (Pattern.grantedEntries as bs hrest hjs has hks hbs))).imp fun hall =>
        congrArg₂ List.cons (congrArg₂ (fun key slot => (some key, slot)) hall.1 hall.2.1) hall.2.2
termination_by structural x => x

end

end Relational
