import Relational.Lowering.Expr

/-!
# How operators group

A chain of operators is folded into a tree, from the left, from the right, or around one operand.
Each tree is told by unwinding it: what stands between the operands and what the operands are, in
the order of the source.

> A step of a fold resolves one operator and, between operands, lowers one more operand; it puts
> both next to what was folded before. So nothing that a chain lists is lost, used twice or moved.

> `Lowering.chains_nest`: a chain is lowered exactly if it has one operand more than operators, all
> of its operands can be lowered and all of its operators are known. The tree nests to the left, to
> the right or around the operand, and reads as the chain does. With any other number of operands
> the chain is rejected before anything of it is looked at.
-/

namespace Relational

/-! ## Nested trees -/

namespace Expr

/-- Operands that are joined from the left, with the symbols of the operators between them. -/
inductive LeftNested : List String → List Expr → Expr → Prop
  | operand (e : Expr) : LeftNested [] [e] e
  | join {symbols : List String} {operands : List Expr} {lhs : Expr}
      (h : LeftNested symbols operands lhs) (op : BinaryOp) (rhs : Expr) (span : Span) :
      LeftNested (symbols ++ [op.symbol]) (operands ++ [rhs]) (.binary op lhs rhs span)

/-- Operands that are joined from the right, with the symbols of the operators between them. -/
inductive RightNested : List String → List Expr → Expr → Prop
  | operand (e : Expr) : RightNested [] [e] e
  | join {symbols : List String} {operands : List Expr} {rhs : Expr}
      (h : RightNested symbols operands rhs) (op : BinaryOp) (lhs : Expr) (span : Span) :
      RightNested (op.symbol :: symbols) (lhs :: operands) (.binary op lhs rhs span)

/-- An operand with operators before it, given by their symbols. -/
inductive Prefixed : List String → Expr → Expr → Prop
  | operand (e : Expr) : Prefixed [] e e
  | apply {symbols : List String} {operand e : Expr} (h : Prefixed symbols operand e)
      {symbol : String} {op : LeadingOp} (hop : LeadingOp.ofSymbol? symbol = some op)
      (span : Span) : Prefixed (symbol :: symbols) operand (Lowering.leading op e span)

/-- The symbols and operands of a tree that is unwound along its left operands. -/
def readLeft : Nat → Expr → Option (List String × List Expr)
  | 0, e => some ([], [e])
  | n + 1, .binary op lhs rhs _ =>
    (readLeft n lhs).map fun read => (read.1 ++ [op.symbol], read.2 ++ [rhs])
  | _ + 1, _ => none

/-- The symbols and operands of a tree that is unwound along its right operands. -/
def readRight : Nat → Expr → Option (List String × List Expr)
  | 0, e => some ([], [e])
  | n + 1, .binary op lhs rhs _ =>
    (readRight n rhs).map fun read => (op.symbol :: read.1, lhs :: read.2)
  | _ + 1, _ => none

/-- The symbols before an operand, and the operand. -/
def readPrefixed : Nat → Expr → Option (List String × Expr)
  | 0, e => some ([], e)
  | n + 1, .unary op operand _ =>
    (readPrefixed n operand).map fun read => (op.symbol :: read.1, read.2)
  | n + 1, .package operand _ => (readPrefixed n operand).map fun read => ("//" :: read.1, read.2)
  | n + 1, .binary op _ operand _ =>
    (readPrefixed n operand).map fun read => (op.symbol :: read.1, read.2)
  | _ + 1, _ => none

variable {symbols : List String} {operands : List Expr} {e : Expr}

theorem LeftNested.read (h : LeftNested symbols operands e) :
    e.readLeft symbols.length = some (symbols, operands) := by
  induction h with
  | operand e => rfl
  | join h op rhs span ih => rw [List.length_append, List.length_singleton, readLeft, ih]; rfl

theorem RightNested.read (h : RightNested symbols operands e) :
    e.readRight symbols.length = some (symbols, operands) := by
  induction h with
  | operand e => rfl
  | join h op lhs span ih => rw [List.length_cons, readRight, ih]; rfl

theorem Prefixed.read {operand : Expr} (h : Prefixed symbols operand e) :
    e.readPrefixed symbols.length = some (symbols, operand) := by
  induction h with
  | operand e => rfl
  | @apply symbols operand e h symbol op hop span ih =>
    rw [List.length_cons]
    unfold LeadingOp.ofSymbol? at hop
    split at hop <;> cases hop <;> (unfold Lowering.leading; rw [readPrefixed, ih]; rfl)

end Expr

/-- A child is found under a tag exactly if it is the only one. -/
theorem Node.one?_eq_some_iff {node child : Node} {tag : String} :
    node.one? tag = some child ↔ node.many tag = [child] := by
  unfold Node.one? Node.many
  rcases node.get? tag with _ | only | _ | ⟨only, _ | ⟨other, others⟩⟩ <;> simp [Children.nodes]

namespace Lowering

variable {lo : Lowerer} {setting : Setting} {state state' : CompilerState}

/-! ## Steps -/

theorem resolve_eq_done_iff {α : Type} {table : OperatorTable} {ofSymbol? : String → Option α}
    {symbol : String} {span : Span} {op : α} :
    resolve table ofSymbol? symbol span setting state = (.done op, state') ↔
      ofSymbol? symbol = some op ∧ state = state' := by
  unfold resolve
  cases h : ofSymbol? symbol with
  | none =>
    constructor
    · intro hdone
      cases hdone
    · rintro ⟨hsome, -⟩
      cases hsome
  | some op' =>
    rw [Option.some_inj]
    exact pure_eq_done_iff

theorem exprs_cons_eq_done_iff {node : Node} {nodes : List Node} {es : List Expr} :
    lo.exprs (node :: nodes) setting state = (.done es, state') ↔
      ∃ e between others, lo.expr node setting state = (.done e, between) ∧
        lo.exprs nodes setting between = (.done others, state') ∧ es = e :: others := by
  unfold Lowerer.exprs
  rw [traverse, bind_eq_done_iff]
  constructor
  · rintro ⟨e, between, he, h⟩
    obtain ⟨others, stop, hothers, h⟩ := bind_eq_done_iff.mp h
    obtain ⟨rfl, rfl⟩ := pure_eq_done_iff.mp h
    exact ⟨e, between, others, he, hothers, rfl⟩
  · rintro ⟨e, between, others, he, hothers, rfl⟩
    exact ⟨e, between, he, bind_eq_done_iff.mpr ⟨others, state', hothers, rfl⟩⟩

/-- The operators of a chain all have a meaning. -/
def Known {α : Type} (ofSymbol? : String → Option α) (ops : List Node) : Prop :=
  ∀ op ∈ ops, (ofSymbol? op.tokenText).isSome

instance {α : Type} (ofSymbol? : String → Option α) (ops : List Node) :
    Decidable (Known ofSymbol? ops) :=
  decidable_of_iff ((ops.all fun op => (ofSymbol? op.tokenText).isSome) = true) List.all_eq_true

theorem known_reverse {α : Type} {ofSymbol? : String → Option α} {ops : List Node} :
    Known ofSymbol? ops.reverse = Known ofSymbol? ops := by
  simp [Known]

/-- A step of a chain between operands. What it makes of the operator, of what was folded before and
of one more operand is given. -/
def joinStep (lo : Lowerer) (build : Node → BinaryOp → Expr → Expr → Expr) (folded : Expr)
    (step : Node × Node) : Lowering Expr := do
  let op ← binaryOp step.1.token
  let operand ← lo.expr step.2
  pure (build step.1.token op folded operand)

section Joining

variable {build : Node → BinaryOp → Expr → Expr → Expr}

theorem joinStep_eq_done_iff {folded e : Expr} {step : Node × Node} :
    joinStep lo build folded step setting state = (.done e, state') ↔
      ∃ op operand, op.symbol = step.1.tokenText ∧
        lo.expr step.2 setting state = (.done operand, state') ∧
        e = build step.1.token op folded operand := by
  unfold joinStep binaryOp
  rw [bind_eq_done_iff]
  constructor
  · rintro ⟨op, between, hop, h⟩
    obtain ⟨hsymbol, rfl⟩ := resolve_eq_done_iff.mp hop
    obtain ⟨operand, stop, hoperand, h⟩ := bind_eq_done_iff.mp h
    obtain ⟨rfl, rfl⟩ := pure_eq_done_iff.mp h
    exact ⟨op, operand, BinaryOp.ofSymbol?_eq_some_iff.mp hsymbol, hoperand, rfl⟩
  · rintro ⟨op, operand, hop, hoperand, rfl⟩
    exact ⟨op, state, resolve_eq_done_iff.mpr ⟨BinaryOp.ofSymbol?_eq_some_iff.mpr hop, rfl⟩,
      bind_eq_done_iff.mpr ⟨operand, state', hoperand, rfl⟩⟩

/-- A fold over operators and operands has a result exactly if the operands have, and the operators
are known. -/
theorem foldl_joinStep_isDone_iff {steps : List (Node × Node)} {folded : Expr} :
    (∃ e, foldl (joinStep lo build) folded steps setting state = (.done e, state')) ↔
      (∃ operands, lo.exprs (steps.map Prod.snd) setting state = (.done operands, state')) ∧
        Known BinaryOp.ofSymbol? (steps.map Prod.fst) := by
  induction steps generalizing folded state with
  | nil =>
    constructor
    · rintro ⟨e, h⟩
      obtain ⟨-, rfl⟩ := pure_eq_done_iff.mp h
      exact ⟨⟨[], rfl⟩, List.forall_mem_nil _⟩
    · rintro ⟨⟨operands, h⟩, -⟩
      obtain ⟨-, rfl⟩ := pure_eq_done_iff.mp h
      exact ⟨folded, rfl⟩
  | cons step steps ih =>
    constructor
    · rintro ⟨e, h⟩
      obtain ⟨next, between, hnext, h⟩ := bind_eq_done_iff.mp h
      obtain ⟨op, operand, hop, hoperand, rfl⟩ := joinStep_eq_done_iff.mp hnext
      obtain ⟨⟨operands, hoperands⟩, hknown⟩ := ih.mp ⟨e, h⟩
      refine ⟨⟨operand :: operands, ?_⟩, List.forall_mem_cons.mpr ⟨?_, hknown⟩⟩
      · exact exprs_cons_eq_done_iff.mpr ⟨operand, between, operands, hoperand, hoperands, rfl⟩
      · rw [← hop, BinaryOp.ofSymbol?_symbol]
        rfl
    · rintro ⟨⟨operands, h⟩, hknown⟩
      obtain ⟨hop, hknown⟩ := List.forall_mem_cons.mp hknown
      obtain ⟨op, hop⟩ := Option.isSome_iff_exists.mp hop
      obtain ⟨operand, between, others, hoperand, hothers, -⟩ := exprs_cons_eq_done_iff.mp h
      obtain ⟨e, he⟩ := ih.mpr ⟨⟨others, hothers⟩, hknown⟩
      exact ⟨e, bind_eq_done_iff.mpr ⟨_, between, joinStep_eq_done_iff.mpr
        ⟨op, operand, BinaryOp.ofSymbol?_eq_some_iff.mp hop, hoperand, rfl⟩, he⟩⟩

/-- A property of trees with their operators and operands, in the order in which they are folded,
holds of the result of a fold if each step keeps it. -/
theorem foldl_joinStep_keeps {N : List String → List Expr → Expr → Prop}
    (hN : ∀ {symbols operands folded}, N symbols operands folded → ∀ token op operand,
      N (symbols ++ [op.symbol]) (operands ++ [operand]) (build token op folded operand))
    {steps : List (Node × Node)} {symbols : List String} {operands : List Expr} {folded e : Expr}
    (hfolded : N symbols operands folded)
    (h : foldl (joinStep lo build) folded steps setting state = (.done e, state')) :
    ∃ others, lo.exprs (steps.map Prod.snd) setting state = (.done others, state') ∧
      N (symbols ++ (steps.map Prod.fst).map Node.tokenText) (operands ++ others) e := by
  induction steps generalizing folded symbols operands state with
  | nil =>
    obtain ⟨rfl, rfl⟩ := pure_eq_done_iff.mp h
    refine ⟨[], rfl, ?_⟩
    rwa [List.map_nil, List.map_nil, List.append_nil, List.append_nil]
  | cons step steps ih =>
    obtain ⟨next, between, hnext, h⟩ := bind_eq_done_iff.mp h
    obtain ⟨op, operand, hop, hoperand, rfl⟩ := joinStep_eq_done_iff.mp hnext
    -- what is folded so far grows at its end, in the order of the steps
    obtain ⟨others, hothers, hnested⟩ := ih (hN hfolded step.1.token op operand) h
    refine ⟨operand :: others,
      exprs_cons_eq_done_iff.mpr ⟨operand, between, others, hoperand, hothers, rfl⟩, ?_⟩
    rw [hop, List.append_assoc, List.append_assoc] at hnested
    exact hnested

end Joining

/-- A step of a chain before an operand. -/
def leadStep (folded : Expr) (op : Node) : Lowering Expr := do
  let token := op.token
  let span := Span.mergeOr token.span [token.span, folded.span]
  let op ← resolve .unary LeadingOp.ofSymbol? token.text span
  pure (leading op folded span)

theorem leadStep_eq_done_iff {folded e : Expr} {op : Node} :
    leadStep folded op setting state = (.done e, state') ↔
      ∃ lead, LeadingOp.ofSymbol? op.tokenText = some lead ∧ state = state' ∧
        e = leading lead folded (Span.mergeOr op.token.span [op.token.span, folded.span]) := by
  unfold leadStep
  rw [bind_eq_done_iff]
  constructor
  · rintro ⟨lead, between, hlead, h⟩
    obtain ⟨hsymbol, rfl⟩ := resolve_eq_done_iff.mp hlead
    obtain ⟨rfl, rfl⟩ := pure_eq_done_iff.mp h
    exact ⟨lead, hsymbol, rfl, rfl⟩
  · rintro ⟨lead, hsymbol, rfl, rfl⟩
    exact ⟨lead, state, resolve_eq_done_iff.mpr ⟨hsymbol, rfl⟩, rfl⟩

theorem foldl_leadStep_isDone_iff {ops : List Node} {folded : Expr} :
    (∃ e, foldl leadStep folded ops setting state = (.done e, state')) ↔
      state = state' ∧ Known LeadingOp.ofSymbol? ops := by
  induction ops generalizing folded with
  | nil =>
    constructor
    · rintro ⟨e, h⟩
      exact ⟨(pure_eq_done_iff.mp h).2, List.forall_mem_nil _⟩
    · rintro ⟨rfl, -⟩
      exact ⟨folded, rfl⟩
  | cons op ops ih =>
    constructor
    · rintro ⟨e, h⟩
      obtain ⟨next, between, hnext, h⟩ := bind_eq_done_iff.mp h
      obtain ⟨lead, hlead, rfl, -⟩ := leadStep_eq_done_iff.mp hnext
      obtain ⟨rfl, hknown⟩ := ih.mp ⟨e, h⟩
      exact ⟨rfl, List.forall_mem_cons.mpr ⟨Option.isSome_iff_exists.mpr ⟨lead, hlead⟩, hknown⟩⟩
    · rintro ⟨rfl, hknown⟩
      obtain ⟨hop, hknown⟩ := List.forall_mem_cons.mp hknown
      obtain ⟨lead, hlead⟩ := Option.isSome_iff_exists.mp hop
      obtain ⟨e, he⟩ := ih.mpr ⟨rfl, hknown⟩
      exact ⟨e, bind_eq_done_iff.mpr
        ⟨_, state, leadStep_eq_done_iff.mpr ⟨lead, hlead, rfl, rfl⟩, he⟩⟩

/-- Operators that are put before a tree one by one stand there in the reverse order. -/
theorem foldl_leadStep_prefixed {ops : List Node} {symbols : List String} {operand folded e : Expr}
    (hfolded : Expr.Prefixed symbols operand folded)
    (h : foldl leadStep folded ops setting state = (.done e, state')) :
    Expr.Prefixed ((ops.map Node.tokenText).reverse ++ symbols) operand e := by
  induction ops generalizing folded symbols state with
  | nil =>
    obtain ⟨rfl, -⟩ := pure_eq_done_iff.mp h
    exact hfolded
  | cons op ops ih =>
    obtain ⟨next, between, hnext, h⟩ := bind_eq_done_iff.mp h
    obtain ⟨lead, hlead, -, rfl⟩ := leadStep_eq_done_iff.mp hnext
    have hprefixed := ih (hfolded.apply hlead _) h
    rwa [List.map_cons, List.reverse_cons, List.append_assoc]

/-! ## Chains -/

/-- How a chain is lowered from a state. Its operands are given in the order in which they are
lowered. -/
structure FoldsTo (lo : Lowerer) (chain : Lowering Expr) (args : List Node) (counted known : Prop)
    (Shape : List Expr → Expr → Prop) (setting : Setting) (state : CompilerState) : Prop where
  /-- The chain has a result exactly if its operands are as many as they have to be, all of them
  have results and its operators are known. -/
  isDone_iff : (∃ e state', chain setting state = (.done e, state')) ↔
    counted ∧ (∃ operands state', lo.exprs args setting state = (.done operands, state')) ∧ known
  /-- The result is built of the results of the operands, and leaves the state that these leave. -/
  result {e : Expr} {state' : CompilerState} (h : chain setting state = (.done e, state')) :
    ∃ operands, lo.exprs args setting state = (.done operands, state') ∧ Shape operands e

variable {chain : Lowering Expr} {args : List Node} {counted known : Prop}
  {Shape : List Expr → Expr → Prop}

theorem FoldsTo.imp {Shape' : List Expr → Expr → Prop}
    (h : FoldsTo lo chain args counted known Shape setting state)
    (himp : ∀ operands e, Shape operands e → Shape' operands e) :
    FoldsTo lo chain args counted known Shape' setting state :=
  ⟨h.isDone_iff, fun hdone => (h.result hdone).imp fun _ ⟨hoperands, hshape⟩ =>
    ⟨hoperands, himp _ _ hshape⟩⟩

theorem FoldsTo.of_reject {error : CompileError} (hchain : chain = reject error)
    (hcounted : ¬ counted) : FoldsTo lo chain args counted known Shape setting state := by
  rw [hchain]
  refine ⟨⟨?_, fun h => absurd h.1 hcounted⟩, ?_⟩
  · rintro ⟨e, state', h⟩
    cases h
  · intro e state' h
    cases h

/-- A chain between operands starts from one of them and joins the others to it. -/
theorem FoldsTo.of_foldl {build : Node → BinaryOp → Expr → Expr → Expr} {start : Node}
    {steps : List (Node × Node)} {N : List String → List Expr → Expr → Prop}
    (hstart : ∀ e, N [] [e] e)
    (hN : ∀ {symbols operands folded}, N symbols operands folded → ∀ token op operand,
      N (symbols ++ [op.symbol]) (operands ++ [operand]) (build token op folded operand))
    (hchain : chain = lo.expr start >>= fun e => foldl (joinStep lo build) e steps)
    (hcounted : counted) :
    FoldsTo lo chain (start :: steps.map Prod.snd) counted
      (Known BinaryOp.ofSymbol? (steps.map Prod.fst))
      (N ((steps.map Prod.fst).map Node.tokenText)) setting state := by
  rw [hchain]
  refine ⟨⟨?_, ?_⟩, ?_⟩
  · rintro ⟨e, state', h⟩
    obtain ⟨first, between, hfirst, h⟩ := bind_eq_done_iff.mp h
    obtain ⟨⟨operands, hoperands⟩, hknown⟩ := foldl_joinStep_isDone_iff.mp ⟨e, h⟩
    exact ⟨hcounted, ⟨first :: operands, state', exprs_cons_eq_done_iff.mpr
      ⟨first, between, operands, hfirst, hoperands, rfl⟩⟩, hknown⟩
  · rintro ⟨-, ⟨operands, state', h⟩, hknown⟩
    obtain ⟨first, between, others, hfirst, hothers, -⟩ := exprs_cons_eq_done_iff.mp h
    obtain ⟨e, he⟩ := foldl_joinStep_isDone_iff.mpr ⟨⟨others, hothers⟩, hknown⟩
    exact ⟨e, state', bind_eq_done_iff.mpr ⟨first, between, hfirst, he⟩⟩
  · intro e state' h
    obtain ⟨first, between, hfirst, h⟩ := bind_eq_done_iff.mp h
    obtain ⟨others, hothers, hnested⟩ := foldl_joinStep_keeps hN (hstart first) h
    exact ⟨first :: others, exprs_cons_eq_done_iff.mpr
      ⟨first, between, others, hfirst, hothers, rfl⟩, hnested⟩

section Counting

variable {node : Node} {ops : List Node}

theorem operands_of_length {first : Node} {rest : List Node}
    (hargs : node.many "expr" = first :: rest) (h : rest.length = ops.length) :
    operands node ops = pure (first, rest) := by
  unfold operands
  rw [hargs]
  exact if_pos h

/-- A wrong count is reported as such. -/
theorem operands_of_length_ne (h : (node.many "expr").length ≠ ops.length + 1) :
    operands node ops =
      reject (.arity node.span (.chain ops.length (node.many "expr").length)) := by
  unfold operands
  split
  next first rest hargs =>
    rw [hargs] at h ⊢
    exact if_neg fun hlength => h (congrArg (· + 1) hlength)
  next hargs =>
    rw [hargs]
    rfl

theorem exists_cons_of_length_eq (h : (node.many "expr").length = ops.length + 1) :
    ∃ first rest, node.many "expr" = first :: rest ∧ rest.length = ops.length := by
  obtain ⟨first, rest, hargs⟩ := List.exists_cons_of_length_eq_add_one h
  rw [hargs] at h
  exact ⟨first, rest, hargs, Nat.succ.inj h⟩

end Counting

variable (lo) (node : Node)

theorem leftChain_of_length_ne
    (h : (node.many "expr").length ≠ (node.many "binop").length + 1) :
    leftChain lo node = reject (.arity node.span
      (.chain (node.many "binop").length (node.many "expr").length)) := by
  unfold leftChain
  dsimp only
  rw [operands_of_length_ne h]
  rfl

theorem rightChain_of_length_ne
    (h : (node.many "expr").length ≠ (node.many "rbinop").length + 1) :
    rightChain lo node = reject (.arity node.span
      (.chain (node.many "rbinop").length (node.many "expr").length)) := by
  unfold rightChain
  dsimp only
  rw [operands_of_length_ne h]
  rfl

theorem leftChain_foldsTo :
    FoldsTo lo (leftChain lo node) (node.many "expr")
      ((node.many "expr").length = (node.many "binop").length + 1)
      (Known BinaryOp.ofSymbol? (node.many "binop"))
      (Expr.LeftNested ((node.many "binop").map Node.tokenText)) setting state := by
  by_cases hlength : (node.many "expr").length = (node.many "binop").length + 1
  · obtain ⟨first, rest, hargs, hrest⟩ := exists_cons_of_length_eq hlength
    have hchain : leftChain lo node = lo.expr first >>= fun e =>
        foldl (joinStep lo fun token op lhs rhs => .binary op lhs rhs
          (Span.mergeOr token.span [token.span, lhs.span, rhs.span])) e
          ((node.many "binop").zip rest) := by
      unfold leftChain
      dsimp only
      rw [operands_of_length hargs hrest]
      rfl
    -- the fold starts with the first operand and pairs the others off with the operators
    have h : FoldsTo lo _ _ _ _ _ setting state := .of_foldl Expr.LeftNested.operand
      (fun h token op operand => h.join op operand _) hchain hlength
    rwa [List.map_fst_zip (Nat.le_of_eq hrest.symm), List.map_snd_zip (Nat.le_of_eq hrest),
      ← hargs] at h
  · exact .of_reject (leftChain_of_length_ne lo node hlength) hlength

/-- Operands paired off with operators from the end, after the one that is left over. -/
theorem map_snd_zip_reverse {α : Type} {ops : List α} {first : Node} {rest : List Node}
    (h : rest.length = ops.length) :
    (first :: rest).getLast (List.cons_ne_nil first rest) ::
      (ops.zip (first :: rest)).reverse.map Prod.snd = (first :: rest).reverse := by
  have hzip : (ops.zip (first :: rest)).map Prod.snd = (first :: rest).dropLast := by
    induction ops generalizing first rest with
    | nil => rw [List.length_eq_zero_iff.mp h]; rfl
    | cons op ops ih =>
      obtain ⟨second, rest, rfl⟩ := List.exists_cons_of_length_eq_add_one h
      exact congrArg (first :: ·) (ih (Nat.succ.inj h))
  rw [List.map_reverse, hzip, ← List.reverse_concat, List.dropLast_concat_getLast]

theorem map_fst_zip_reverse {α : Type} {ops : List α} {first : Node} {rest : List Node}
    (h : rest.length = ops.length) :
    (ops.zip (first :: rest)).reverse.map Prod.fst = ops.reverse := by
  rw [List.map_reverse, List.map_fst_zip (by rw [List.length_cons, h]; exact Nat.le_succ _)]

theorem rightChain_foldsTo :
    FoldsTo lo (rightChain lo node) (node.many "expr").reverse
      ((node.many "expr").length = (node.many "rbinop").length + 1)
      (Known BinaryOp.ofSymbol? (node.many "rbinop"))
      (fun operands e => Expr.RightNested ((node.many "rbinop").map Node.tokenText)
        operands.reverse e) setting state := by
  by_cases hlength : (node.many "expr").length = (node.many "rbinop").length + 1
  · obtain ⟨first, rest, hargs, hrest⟩ := exists_cons_of_length_eq hlength
    have hchain : rightChain lo node =
        lo.expr ((first :: rest).getLast (List.cons_ne_nil first rest)) >>= fun e =>
          foldl (joinStep lo fun token op rhs lhs => .binary op lhs rhs token.span) e
            ((node.many "rbinop").zip (first :: rest)).reverse := by
      unfold rightChain
      dsimp only
      rw [operands_of_length hargs hrest]
      rfl
    -- the fold goes from the last operand to the first, so all that it lists is turned around
    have h : FoldsTo lo _ _ _ _ _ setting state := .of_foldl
      (N := fun symbols operands e => Expr.RightNested symbols.reverse operands.reverse e)
      Expr.RightNested.operand (fun h token op operand => by
        rw [List.reverse_append, List.reverse_append]
        exact h.join op operand _) hchain hlength
    rw [map_snd_zip_reverse hrest, map_fst_zip_reverse hrest, ← hargs, known_reverse,
      List.map_reverse, List.reverse_reverse] at h
    exact h
  · exact .of_reject (rightChain_of_length_ne lo node hlength) hlength

theorem unaryChain_of_operand {operand : Node} (hargs : node.many "expr" = [operand]) :
    unaryChain lo node =
      lo.expr operand >>= fun e => foldl leadStep e (node.many "unop").reverse := by
  unfold unaryChain Node.child
  rw [Node.one?_eq_some_iff.mpr hargs]
  rfl

theorem unaryChain_of_length_ne (h : (node.many "expr").length ≠ 1) :
    unaryChain lo node =
      reject (.malformed node.span (.missingChild "expr" node.describe)) := by
  have hnone : node.one? "expr" = none := by
    cases hone : node.one? "expr" with
    | none => rfl
    | some child => exact absurd (congrArg List.length (Node.one?_eq_some_iff.mp hone)) h
  unfold unaryChain Node.child
  rw [hnone]
  rfl

theorem unaryChain_foldsTo :
    FoldsTo lo (unaryChain lo node) (node.many "expr") ((node.many "expr").length = 1)
      (Known LeadingOp.ofSymbol? (node.many "unop"))
      (fun operands e => ∃ x, operands = [x] ∧
        Expr.Prefixed ((node.many "unop").map Node.tokenText) x e) setting state := by
  by_cases hlength : (node.many "expr").length = 1
  · obtain ⟨operand, hargs⟩ := List.length_eq_one_iff.mp hlength
    rw [unaryChain_of_operand lo node hargs, hargs]
    refine ⟨⟨?_, ?_⟩, ?_⟩
    · rintro ⟨e, state', h⟩
      obtain ⟨x, between, hx, h⟩ := bind_eq_done_iff.mp h
      obtain ⟨rfl, hknown⟩ := foldl_leadStep_isDone_iff.mp ⟨e, h⟩
      rw [known_reverse] at hknown
      exact ⟨rfl, ⟨[x], between, exprs_cons_eq_done_iff.mpr ⟨x, between, [], hx, rfl, rfl⟩⟩, hknown⟩
    · rintro ⟨-, ⟨operands, state', h⟩, hknown⟩
      obtain ⟨x, between, others, hx, -, -⟩ := exprs_cons_eq_done_iff.mp h
      rw [← known_reverse] at hknown
      obtain ⟨e, he⟩ := foldl_leadStep_isDone_iff.mpr ⟨rfl, hknown⟩
      exact ⟨e, between, bind_eq_done_iff.mpr ⟨x, between, hx, he⟩⟩
    · intro e state' h
      obtain ⟨x, between, hx, h⟩ := bind_eq_done_iff.mp h
      obtain ⟨rfl, -⟩ := foldl_leadStep_isDone_iff.mp ⟨e, h⟩
      -- the operators are folded from the last one on, so the first one is outermost
      have hprefixed := foldl_leadStep_prefixed (.operand x) h
      rw [List.map_reverse, List.reverse_reverse, List.append_nil] at hprefixed
      exact ⟨[x], exprs_cons_eq_done_iff.mpr ⟨x, between, [], hx, rfl, rfl⟩, x, rfl, hprefixed⟩
  · exact .of_reject (unaryChain_of_length_ne lo node hlength) hlength

/-- Chains of operators are folded into trees that read as the chains do. A chain between operands
with a wrong number of them is rejected whatever its operators and operands are. -/
theorem chains_nest (lo : Lowerer) (node : Node) (setting : Setting) (state : CompilerState) :
    let args := node.many "expr"
    let symbols (tag : String) := (node.many tag).map Node.tokenText
    FoldsTo lo (leftChain lo node) args (args.length = (node.many "binop").length + 1)
      (Known BinaryOp.ofSymbol? (node.many "binop"))
      (fun operands e => Expr.LeftNested (symbols "binop") operands e ∧
        e.readLeft (symbols "binop").length = some (symbols "binop", operands)) setting state ∧
    FoldsTo lo (rightChain lo node) args.reverse (args.length = (node.many "rbinop").length + 1)
      (Known BinaryOp.ofSymbol? (node.many "rbinop"))
      (fun operands e => Expr.RightNested (symbols "rbinop") operands.reverse e ∧
        e.readRight (symbols "rbinop").length = some (symbols "rbinop", operands.reverse))
      setting state ∧
    FoldsTo lo (unaryChain lo node) args (args.length = 1)
      (Known LeadingOp.ofSymbol? (node.many "unop"))
      (fun operands e => ∃ x, operands = [x] ∧ Expr.Prefixed (symbols "unop") x e ∧
        e.readPrefixed (symbols "unop").length = some (symbols "unop", x)) setting state ∧
    (args.length ≠ (node.many "binop").length + 1 → leftChain lo node setting state =
      (.rejected (.arity node.span (.chain (node.many "binop").length args.length)), state)) ∧
    (args.length ≠ (node.many "rbinop").length + 1 → rightChain lo node setting state =
      (.rejected (.arity node.span (.chain (node.many "rbinop").length args.length)), state)) := by
  intro args symbols
  refine ⟨(leftChain_foldsTo lo node).imp ?_, (rightChain_foldsTo lo node).imp ?_,
    (unaryChain_foldsTo lo node).imp ?_, ?_, ?_⟩
  · intro operands e hnested
    exact ⟨hnested, hnested.read⟩
  · intro operands e hnested
    exact ⟨hnested, hnested.read⟩
  · rintro operands e ⟨x, hoperands, hprefixed⟩
    exact ⟨x, hoperands, hprefixed, hprefixed.read⟩
  · intro hlength
    rw [leftChain_of_length_ne lo node hlength]
    rfl
  · intro hlength
    rw [rightChain_of_length_ne lo node hlength]
    rfl

end Lowering

/-- The text `x - y + z` with `-` and `+` between its operands. Grouped to the right it has only
the first of them. -/
def Samples.sumSpan (start stop : Nat) : Span := ⟨⟨"sum", "x - y + z"⟩, start, stop⟩

@[inherit_doc Samples.sumSpan]
def Samples.sumName (name : String) (start : Nat) : Expr := .ident name (sumSpan start (start + 1))

@[inherit_doc Samples.sumSpan]
def Samples.sum : Node :=
  let operand (name : String) (start : Nat) : Node :=
    .embedded (sumName name start) (sumSpan start (start + 1))
  .branch [("expr", .many [operand "x" 0, operand "y" 4, operand "z" 8]),
    ("binop", .many [.leaf (sumSpan 2 3), .leaf (sumSpan 6 7)]),
    ("rbinop", .many [.leaf (sumSpan 2 3)])] (sumSpan 0 9)

/-- `x - y + z` is `(x - y) + z`, and one operator does not join three operands. -/
theorem Lowering.chains_nest_sum :
    let lo : Lowerer := ⟨lowerExpr 1, lowerPattern 1⟩
    let setting : Setting := ⟨none, .deferred, .recording⟩
    let operands := [Samples.sumName "x" 0, Samples.sumName "y" 4, Samples.sumName "z" 8]
    (∃ e, leftChain lo Samples.sum setting .initial = (.done e, .initial) ∧
      Expr.LeftNested ["-", "+"] operands e ∧ e.readLeft 2 = some (["-", "+"], operands)) ∧
    rightChain lo Samples.sum setting .initial =
      (.rejected (.arity (Samples.sumSpan 0 9) (.chain 1 3)), .initial) := by
  intro lo setting operands
  obtain ⟨hleft, -, -, -, hright⟩ := chains_nest lo Samples.sum setting .initial
  refine ⟨?_, hright (by decide)⟩
  have hoperands :
      lo.exprs (Samples.sum.many "expr") setting .initial = (.done operands, .initial) := rfl
  obtain ⟨e, state', h⟩ := hleft.isDone_iff.mpr ⟨rfl, ⟨operands, .initial, hoperands⟩, by decide⟩
  obtain ⟨results, hresults, hnested, hread⟩ := hleft.result h
  obtain ⟨hsame, rfl⟩ := Prod.mk.inj (hoperands.symm.trans hresults)
  cases Ending.done.inj hsame
  exact ⟨e, h, hnested, hread⟩

end Relational
