import Relational.Proofs.Sides

/-!
# Two lowerings side by side

Lowerings whose nodes, results and steps are related (`Sides`) go on side by side, one lemma for
each construct:

> `exprStep_beside` and `patternStep_beside`: one level of lowering goes on side by side if the
> lowering of the parts does.

> `lowerers_beside`: so does all of it, if the report of the old form of conditions does.
-/

namespace Relational

namespace Lowering

variable {C : Sides} (L : C.Lawful)

/-! ## Rows of steps -/

section Rows

variable {α α' β β' : Type} {Q : β → β' → Prop} {as : List α} {as' : List α'}

include L

theorem traverse_beside {f : α → Lowering β} {f' : α' → Lowering β'}
    (h : List.Forall₂ (fun a a' => C.beside Q (f a) (f' a')) as as') :
    C.beside (List.Forall₂ Q) (traverse f as) (traverse f' as') := by
  induction h with
  | nil => exact L.pure .nil
  | cons hfirst _ ih =>
    refine L.bind hfirst fun b b' hb => L.bind ih fun bs bs' hbs => ?_
    exact L.pure (.cons hb hbs)

theorem foldl_beside {f : β → α → Lowering β} {f' : β' → α' → Lowering β'}
    (h : List.Forall₂ (fun a a' => ∀ b b', Q b b' → C.beside Q (f b a) (f' b' a')) as as') :
    ∀ {b : β} {b' : β'}, Q b b' → C.beside Q (foldl f b as) (foldl f' b' as') := by
  induction h with
  | nil => exact fun hb => L.pure hb
  | cons hfirst _ ih => exact fun hb => L.bind (hfirst _ _ hb) fun _ _ hb => ih hb

end Rows

section Nodes

variable {n n' node node' subject subject' : Node} (hn : C.node n n')
  (hnode : C.node node node') (hsubject : C.node subject subject')

include L

theorem child_beside (hn : C.node n n') (tag : String) : C.beside C.node (n.child tag) (n'.child tag) := by
  have hone := L.one? hn tag
  unfold Node.child
  rw [L.span hn]
  generalize n.one? tag = found at hone ⊢
  generalize n'.one? tag = found' at hone ⊢
  cases hone with
  | none => exact L.defect hn _ (.missingChild tag)
  | some hchild => exact L.pure hchild

/-! ## Atoms -/

section Tokens

include hn

theorem ident_beside : C.expr (ident n) (ident n') := by
  unfold ident
  rw [L.text_eq hn, L.span hn]
  split
  next => exact L.literal (.bool true)
  next => exact L.literal (.bool false)
  next => exact L.ident _ _

theorem str_beside : C.expr (str n) (str n') := by
  unfold str
  rw [L.text_eq hn, L.span hn]
  exact L.literal (.string _)

theorem num_beside : C.beside C.expr (num n) (num n') := by
  unfold num
  rw [L.text_eq hn, L.span hn]
  split
  next hread => exact L.pure (L.literal (.number hread))
  next => exact L.reject _

theorem char_beside : C.beside C.expr (char n) (char n') := by
  unfold char
  rw [L.text_eq hn, L.span hn]
  split
  next hread => exact L.pure (L.literal (.char hread))
  next => exact L.reject _

theorem format?_eq : format? n = format? n' := by
  have hfmt := L.one? hn "fmt"
  unfold format?
  generalize n.one? "fmt" = fmt at hfmt ⊢
  generalize n'.one? "fmt" = fmt' at hfmt ⊢
  cases hfmt with
  | none => rfl
  | some hfmt =>
    dsimp only
    rw [L.tokenText_eq hfmt]

end Tokens

theorem embed_beside (hn : C.node n n') : C.beside C.expr (embed n) (embed n') := by
  refine L.bind (child_beside L hn _) fun _ _ hembed => ?_
  refine L.bind (child_beside L hembed _) fun _ _ hgrammar => ?_
  refine L.bind (child_beside L hgrammar _) fun tree tree' htree => ?_
  have hvalue := L.one? htree "value"
  generalize tree.one? "value" = value at hvalue ⊢
  generalize tree'.one? "value" = value' at hvalue ⊢
  cases hvalue with
  | none =>
    rw [L.toValue htree, L.span htree]
    exact L.pure (L.literal (.tree _ rfl))
  | @some value value' hvalue =>
    have hexpr := L.embedded? hvalue
    dsimp only
    rw [L.span hvalue]
    generalize value.embedded? = e at hexpr ⊢
    generalize value'.embedded? = e' at hexpr ⊢
    cases hexpr with
    | none => exact L.reject _
    | some hexpr => exact L.pure hexpr

theorem loaded_beside {loader loader' : Expr} (h : C.expr loader loader') (span : Span)
    (name : String) : C.expr (loaded span loader name) (loaded span loader' name) :=
  L.call (L.package h span) (L.literal (.string name)) span

theorem localImport_beside (hn : C.node n n') (fromRoot : Bool) :
    C.beside C.expr (localImport n fromRoot) (localImport n' fromRoot) := by
  unfold localImport
  rw [L.text_eq hn, L.span hn]
  refine L.bind L.directory fun dir dir' hdir => ?_
  obtain rfl := hdir
  cases dir with
  | none => exact L.reject _
  | some dir =>
    refine L.bind (L.request (.localFile fromRoot n'.span) n'.span) fun loader loader' hloader => ?_
    exact L.pure (loaded_beside L hloader _ _)

theorem package_beside (hnode : C.node node node') (hsubject : C.node subject subject') :
    C.beside C.expr (package node subject) (package node' subject') := by
  have hstd := L.one? hsubject "std"
  have hpath := L.one? hsubject "PKGPATH"
  unfold package
  rw [L.span hsubject, L.has_eq hsubject]
  generalize subject.one? "std" = std at hstd ⊢
  generalize subject'.one? "std" = std' at hstd ⊢
  generalize subject.one? "PKGPATH" = path at hpath ⊢
  generalize subject'.one? "PKGPATH" = path' at hpath ⊢
  cases hstd with
  | some hstd =>
    refine L.bind (child_beside L hnode _) fun marker marker' hmarker => ?_
    refine L.bind (child_beside L hstd _) fun name name' hname => ?_
    have hname := L.token hname
    dsimp only
    rw [L.span hmarker, L.span hname, L.text_eq hname]
    refine L.bind (L.request (.standardLibrary _ _) _) fun inner inner' hinner => ?_
    exact L.pure (L.package hinner _)
  | none =>
    cases hpath with
    | none => exact L.reject _
    | some hpath =>
      have hpath := L.token hpath
      dsimp only
      rw [L.text_eq hpath]
      split
      next => exact localImport_beside L hpath _
      next =>
        unfold externalImport
        rw [L.text_eq hpath, L.span hpath]
        refine L.bind (L.request (.externalContent _) _) fun loader loader' hloader => ?_
        exact L.pure (loaded_beside L hloader _ _)

/-! ## Constructs with parts -/

section Parts

variable {lo lo' : Lowerer} (h : C.Lowerers lo lo')

include h

theorem exprs_beside {nodes nodes' : List Node} (hnodes : List.Forall₂ C.node nodes nodes') :
    C.beside (List.Forall₂ C.expr) (lo.exprs nodes) (lo'.exprs nodes') :=
  traverse_beside L (hnodes.imp fun _ _ => h.expr)

/-- The expression under a tag. -/
theorem childExpr_beside (hn : C.node n n') (tag : String) :
    C.beside C.expr (n.child tag >>= lo.expr) (n'.child tag >>= lo'.expr) :=
  L.bind (child_beside L hn tag) fun _ _ => h.expr

theorem textPart_beside (hn : C.node n n') :
    C.beside (TextPart.Like C.expr) (textPart lo n) (textPart lo' n') := by
  have hfragment := L.one? hn "fragment"
  unfold textPart
  generalize n.one? "fragment" = fragment at hfragment ⊢
  generalize n'.one? "fragment" = fragment' at hfragment ⊢
  cases hfragment with
  | some hfragment =>
    dsimp only
    rw [L.tokenText_eq hfragment]
    exact L.pure (.text _)
  | none =>
    refine L.bind (child_beside L hn _) fun sexpr sexpr' hsexpr => ?_
    refine L.bind (child_beside L hsexpr _) fun expr expr' hexpr => ?_
    refine L.bind (h.expr hexpr) fun e e' he => ?_
    rw [format?_eq L hsexpr]
    exact L.pure (.expr he)

theorem xstr_beside (hnode : C.node node node') (hsubject : C.node subject subject') :
    C.beside C.expr (xstr lo node subject) (xstr lo' node' subject') := by
  refine L.bind (traverse_beside L ((L.many hsubject _).imp fun _ _ => textPart_beside L h))
    fun parts parts' hparts => ?_
  rw [L.span hnode]
  exact L.pure (L.xstr hparts _)

/-! ## Access -/

section Access

omit h

theorem attrName_beside (hn : C.node n n') : C.beside Eq (attrName n) (attrName n') := by
  have hident := L.one? hn "IDENT"
  have hstr := L.one? hn "STR"
  unfold attrName
  rw [L.span hn]
  generalize n.one? "IDENT" = ident at hident ⊢
  generalize n'.one? "IDENT" = ident' at hident ⊢
  generalize n.one? "STR" = s at hstr ⊢
  generalize n'.one? "STR" = s' at hstr ⊢
  cases hident with
  | some hident =>
    dsimp only
    rw [L.tokenText_eq hident, L.span (L.token hident)]
    exact L.pure rfl
  | none =>
    cases hstr with
    | some hstr =>
      dsimp only
      rw [L.tokenText_eq hstr, L.span (L.token hstr)]
      exact L.pure rfl
    | none => exact L.defect hn _ .attrWithoutName

theorem getAttr_beside {base base' : Expr} (hbase : C.expr base base') (hn : C.node n n') :
    C.beside C.expr (getAttr base n) (getAttr base' n') := by
  have hnames := L.one? hn "names"
  unfold getAttr
  rw [L.exprSpan hbase, L.has_eq hn]
  generalize n.one? "names" = names at hnames ⊢
  generalize n'.one? "names" = names' at hnames ⊢
  cases hnames with
  | some hnames =>
    dsimp only
    rw [L.names_eq hnames, L.span hnames]
    exact L.pure (L.project hbase _ _ _)
  | none =>
    refine L.bind (attrName_beside L hn) fun attr attr' hattr => ?_
    obtain rfl := hattr
    exact L.pure (L.dot hbase _ _)

theorem getAttr?_beside {base base' : Expr} (hbase : C.expr base base') {get get' : Option Node}
    (hget : Option.Rel C.node get get') : C.beside C.expr (getAttr? base get) (getAttr? base' get') := by
  cases hget with
  | none => exact L.pure hbase
  | some hget => exact getAttr_beside L hbase hget

theorem calls_beside (span : Span) {args args' : List Expr} (hargs : List.Forall₂ C.expr args args') :
    ∀ {base base' : Expr}, C.expr base base' →
    C.expr (calls span base args) (calls span base' args') := by
  induction hargs with
  | nil => exact fun hbase => hbase
  | cons harg _ ih =>
    intro base base' hbase
    unfold calls
    rw [L.exprSpan hbase]
    exact ih (L.call hbase harg _)

theorem tailAttr_beside (hn : C.node n n') : C.beside Eq (tailAttr n) (tailAttr n') := by
  have hget := L.one? hn "get"
  unfold tailAttr
  generalize n.one? "get" = get at hget ⊢
  generalize n'.one? "get" = get' at hget ⊢
  cases hget with
  | none => exact L.pure rfl
  | some hget => exact L.bind (attrName_beside L hget) fun _ _ hattr => L.pure (congrArg some hattr)

end Access

theorem arguments_beside (hn : C.node n n') :
    C.beside (List.Forall₂ C.expr) (arguments lo n) (arguments lo' n') :=
  traverse_beside L ((L.many hn _).imp fun _ _ harg => childExpr_beside L h harg _)

theorem tail_beside {base base' : Expr} (hbase : C.expr base base') (hn : C.node n n') :
    C.beside C.expr (tail lo base n) (tail lo' base' n') := by
  have hcall := L.one? hn "call"
  have hget : ∀ {called called' : Expr}, C.expr called called' →
      C.beside C.expr (getAttr? called (n.one? "get")) (getAttr? called' (n'.one? "get")) :=
    fun hcalled => getAttr?_beside L hcalled (L.one? hn _)
  unfold tail
  generalize n.one? "call" = call at hcall ⊢
  generalize n'.one? "call" = call' at hcall ⊢
  cases hcall with
  | none => exact L.bind (L.pure hbase) fun _ _ => hget
  | some hcall =>
    refine L.bind (arguments_beside L h hcall) fun args args' hargs => ?_
    rw [L.span hcall]
    exact L.bind (L.pure (calls_beside L _ hargs hbase)) fun _ _ => hget

theorem tailArgs_beside (hn : C.node n n') :
    C.beside (Option.Rel (Both (List.Forall₂ C.expr) Eq)) (tailArgs lo n) (tailArgs lo' n') := by
  have hcall := L.one? hn "call"
  unfold tailArgs
  generalize n.one? "call" = call at hcall ⊢
  generalize n'.one? "call" = call' at hcall ⊢
  cases hcall with
  | none => exact L.pure .none
  | some hcall =>
    refine L.bind (arguments_beside L h hcall) fun args args' hargs => ?_
    exact L.pure (.some ⟨hargs, L.span hcall⟩)

theorem safeStep_beside (safe : Bool) (hn : C.node n n') :
    C.beside (SafeStep.Like C.expr) (safeStep lo safe n) (safeStep lo' safe n') := by
  refine L.bind (tailArgs_beside L h hn) fun args args' hargs => ?_
  refine L.bind (tailAttr_beside L hn) fun attr attr' hattr => ?_
  obtain rfl := hattr
  rw [L.span hn]
  cases hargs with
  | none =>
    split
    next => exact L.reject _
    next => exact L.pure .get
  | @some call call' hcall =>
    obtain ⟨args, span⟩ := call
    obtain ⟨args', span'⟩ := call'
    obtain ⟨hargs, rfl⟩ : List.Forall₂ C.expr args args' ∧ span = span' := ⟨hcall.fst, hcall.snd⟩
    exact L.pure (.call hargs)

theorem safeOp_beside (hn : C.node n n') :
    C.beside (SafeStep.Like C.expr) (safeOp lo n) (safeOp lo' n') := by
  have hsafe := L.one? hn "safe"
  have htail := L.one? hn "tail"
  unfold safeOp
  rw [L.span hn]
  generalize n.one? "safe" = safe at hsafe ⊢
  generalize n'.one? "safe" = safe' at hsafe ⊢
  generalize n.one? "tail" = tail at htail ⊢
  generalize n'.one? "tail" = tail' at htail ⊢
  cases hsafe with
  | some hsafe =>
    exact L.bind (child_beside L hsafe _) fun _ _ htail => safeStep_beside L h true htail
  | none =>
    cases htail with
    | some htail => exact safeStep_beside L h false htail
    | none => exact L.defect hn _ .safeOpWithoutTail

theorem safeTail_beside {base base' : Expr} (hbase : C.expr base base') (hn : C.node n n') :
    C.beside C.expr (safeTail lo base n) (safeTail lo' base' n') := by
  refine L.bind (child_beside L hn _) fun _ _ hhead => ?_
  refine L.bind (child_beside L hhead _) fun _ _ htail => ?_
  refine L.bind (safeStep_beside L h true htail) fun first first' hfirst => ?_
  refine L.bind (child_beside L hn _) fun _ _ hfall => ?_
  refine L.bind (h.expr hfall) fun fallback fallback' hfallback => ?_
  refine L.bind (traverse_beside L ((L.many hn _).imp fun _ _ => safeOp_beside L h))
    fun rest rest' hrest => ?_
  rw [L.span hn]
  exact L.pure (L.safeTail hfallback hbase (.cons hfirst hrest) _)

theorem accessBase_beside (hn : C.node n n') :
    C.beside C.expr (accessBase lo n) (accessBase lo' n') := by
  have hexpr := L.one? hn "expr"
  unfold accessBase
  generalize n.one? "expr" = expr at hexpr ⊢
  generalize n'.one? "expr" = expr' at hexpr ⊢
  cases hexpr with
  | some hexpr => exact h.expr hexpr
  | none =>
    refine L.bind (child_beside L hn _) fun get get' hget => ?_
    refine L.bind (child_beside L hget _) fun dot dot' hdot => ?_
    rw [L.span hdot]
    exact getAttr_beside L (L.ident _ _) hget

theorem access_beside (hn : C.node n n') : C.beside C.expr (access lo n) (access lo' n') := by
  refine L.bind (accessBase_beside L h hn) fun base base' hbase => ?_
  refine foldl_beside L ((L.many hn _).imp fun part part' hpart base base' hbase => ?_) hbase
  have hchain := L.one? hpart "safe_tail"
  have htail := L.one? hpart "tail"
  generalize part.one? "safe_tail" = chain at hchain ⊢
  generalize part'.one? "safe_tail" = chain' at hchain ⊢
  generalize part.one? "tail" = t at htail ⊢
  generalize part'.one? "tail" = t' at htail ⊢
  cases hchain with
  | some hchain => exact safeTail_beside L h hbase hchain
  | none =>
    cases htail with
    | some htail => exact tail_beside L h hbase htail
    | none => exact L.pure hbase

/-! ## Collections -/

theorem relationRow_beside (names : List String) (hn : C.node n n') :
    C.beside (List.Forall₂ C.expr) (relationRow lo names n) (relationRow lo' names n') := by
  refine L.bind (exprs_beside L h (L.many hn _)) fun values values' hvalues => ?_
  rw [L.span hn, hvalues.length_eq]
  split
  next => exact L.pure hvalues
  next => exact L.reject _

theorem relation_beside (hnode : C.node node node') (hsubject : C.node subject subject') :
    C.beside C.expr (relation lo node subject) (relation lo' node' subject') := by
  refine L.bind (child_beside L hsubject _) fun names names' hnames => ?_
  dsimp only
  rw [L.names_eq hnames, L.delimitedSpan_eq hnode]
  split
  next => exact L.reject _
  next =>
    refine L.bind (traverse_beside L ((L.many hsubject _).imp fun _ _ =>
      relationRow_beside L h _)) fun rows rows' hrows => ?_
    exact L.pure (L.relation _ hrows _)

theorem set_beside (hnode : C.node node node') (hsubject : C.node subject subject') :
    C.beside C.expr (set lo node subject) (set lo' node' subject') := by
  unfold set
  rw [L.has_eq hsubject, L.delimitedSpan_eq hnode]
  split
  next =>
    refine L.bind (exprs_beside L h (L.many hsubject _)) fun elements elements' helements => ?_
    exact L.pure (L.set helements _)
  next => exact L.pure (L.literal .set)

theorem dictEntry_beside (hn : C.node n n') :
    C.beside (DictEntry.Beside C.expr) (dictEntry lo n) (dictEntry lo' n') := by
  have hkey := L.one? hn "key"
  have hvalue := L.one? hn "value"
  unfold dictEntry
  rw [L.span hn]
  generalize n.one? "key" = key at hkey ⊢
  generalize n'.one? "key" = key' at hkey ⊢
  generalize n.one? "value" = value at hvalue ⊢
  generalize n'.one? "value" = value' at hvalue ⊢
  cases hkey with
  | none => exact L.reject _
  | some hkey =>
    cases hvalue with
    | none => exact L.reject _
    | some hvalue =>
      refine L.bind (h.expr hkey) fun k k' hk => L.bind (h.expr hvalue) fun v v' hv => ?_
      exact L.pure (.mk hk hv)

theorem dictOf_beside (hsubject : C.node subject subject') (conditional : Bool) (span : Span) :
    C.beside C.expr (dictOf lo subject conditional span) (dictOf lo' subject' conditional span) := by
  have hpairs := L.many hsubject "pairs"
  unfold dictOf
  generalize subject.many "pairs" = pairs at hpairs ⊢
  generalize subject'.many "pairs" = pairs' at hpairs ⊢
  cases hpairs with
  | nil => exact L.pure (L.literal .dict)
  | cons hpair hpairs =>
    refine L.bind (traverse_beside L ((List.Forall₂.cons hpair hpairs).imp fun _ _ =>
      dictEntry_beside L h)) fun entries entries' hentries => ?_
    exact L.pure (L.dict hentries _ _)

omit h in
theorem arrayItems_beside (hsubject : C.node subject subject') :
    List.Forall₂ C.node (arrayItems subject) (arrayItems subject') := by
  have hfirst := L.one? hsubject "first_item"
  unfold arrayItems
  generalize subject.one? "first_item" = first at hfirst ⊢
  generalize subject'.one? "first_item" = first' at hfirst ⊢
  cases hfirst with
  | none => exact .nil
  | some hfirst => exact .cons hfirst (L.many hsubject _)

theorem arrayItem_beside (hn : C.node n n') :
    C.beside (Option.Rel C.expr) (arrayItem lo n) (arrayItem lo' n') := by
  unfold arrayItem
  rw [L.has_eq hn]
  split
  next => exact L.pure .none
  next => exact L.bind (h.expr hn) fun e e' he => L.pure (.some he)

theorem array_beside (hnode : C.node node node') (hsubject : C.node subject subject') :
    C.beside C.expr (array lo node subject) (array lo' node' subject') := by
  have hitems := arrayItems_beside L hsubject
  unfold array
  rw [L.delimitedSpan_eq hnode]
  generalize arrayItems subject = items at hitems ⊢
  generalize arrayItems subject' = items' at hitems ⊢
  cases hitems with
  | nil => exact L.pure (L.literal .array)
  | cons hitem hitems =>
    refine L.bind (traverse_beside L ((List.Forall₂.cons hitem hitems).imp fun _ _ =>
      arrayItem_beside L h)) fun items items' hitems => ?_
    exact L.pure (L.array hitems _)

theorem bytes_beside (hnode : C.node node node') (hsubject : C.node subject subject') :
    C.beside C.expr (bytes lo node subject) (bytes lo' node' subject') := by
  unfold bytes
  rw [L.has_eq hsubject, L.delimitedSpan_eq hnode]
  split
  next =>
    refine L.bind (exprs_beside L h (L.many hsubject _)) fun items items' hitems => ?_
    exact L.pure (L.bytes hitems _)
  next => exact L.pure (L.literal .bytes)

theorem tupleAttr_beside (hn : C.node n n') :
    C.beside (Both Eq C.expr) (tupleAttr lo n) (tupleAttr lo' n') := by
  refine L.bind (child_beside L hn _) fun v v' hv => ?_
  refine L.bind (h.expr hv) fun value value' hvalue => ?_
  have hname : (n.one? "name").map Node.name = (n'.one? "name").map Node.name := by
    have hname := L.one? hn "name"
    generalize n.one? "name" = name at hname ⊢
    generalize n'.one? "name" = name' at hname ⊢
    cases hname with
    | none => rfl
    | some hname => exact congrArg some (L.name_eq hname)
  dsimp only
  rw [hname, L.impliedName? hvalue, L.exprText hvalue, L.span hv, L.has_eq hn]
  split
  next name _ =>
    refine L.pure ⟨rfl, ?_⟩
    split
    next => exact L.recursion name hvalue _
    next => exact hvalue
  next => exact L.reject _

theorem tuple_beside (hnode : C.node node node') (hsubject : C.node subject subject') :
    C.beside C.expr (tuple lo node subject) (tuple lo' node' subject') := by
  have hpairs := L.many hsubject "pairs"
  unfold tuple
  rw [L.delimitedSpan_eq hnode]
  generalize subject.many "pairs" = pairs at hpairs ⊢
  generalize subject'.many "pairs" = pairs' at hpairs ⊢
  cases hpairs with
  | nil => exact L.pure (L.literal .tuple)
  | cons hpair hpairs =>
    refine L.bind (traverse_beside L ((List.Forall₂.cons hpair hpairs).imp fun _ _ =>
      tupleAttr_beside L h)) fun attrs attrs' hattrs => ?_
    exact L.pure (L.tuple hattrs _)

/-! ## Operations -/

omit h in
theorem resolve_beside {α : Type} (table : OperatorTable) (ofSymbol? : String → Option α)
    (token : String) (span : Span) :
    C.beside Eq (resolve table ofSymbol? token span) (resolve table ofSymbol? token span) := by
  unfold resolve
  split
  next => exact L.pure rfl
  next => exact L.reject _

omit h in
theorem leading_beside (op : LeadingOp) {operand operand' : Expr}
    (hoperand : C.expr operand operand') (span : Span) :
    C.expr (leading op operand span) (leading op operand' span) := by
  cases op with
  | unary op => exact L.unary op hoperand span
  | package => exact L.package hoperand span
  | current op => exact L.binary op (L.ident _ _) hoperand span

theorem unaryChain_beside (hn : C.node n n') :
    C.beside C.expr (unaryChain lo n) (unaryChain lo' n') := by
  refine L.bind (child_beside L hn _) fun _ _ hexpr => ?_
  refine L.bind (h.expr hexpr) fun operand operand' hoperand => ?_
  refine foldl_beside L ((List.rel_reverse (L.many hn _)).imp
    fun op op' hop operand operand' hoperand => ?_) hoperand
  have htoken := L.token hop
  dsimp only
  rw [L.span htoken, L.text_eq htoken, L.exprSpan hoperand]
  refine L.bind (resolve_beside L _ _ _ _) fun op op' hop => ?_
  obtain rfl := hop
  exact L.pure (leading_beside L op hoperand _)

omit h in
theorem operands_beside (hn : C.node n n') {ops ops' : List Node}
    (hops : ops.length = ops'.length) :
    C.beside (Both C.node (List.Forall₂ C.node)) (operands n ops) (operands n' ops') := by
  have hexprs := L.many hn "expr"
  unfold operands
  rw [L.span hn, hops]
  generalize n.many "expr" = exprs at hexprs ⊢
  generalize n'.many "expr" = exprs' at hexprs ⊢
  cases hexprs with
  | nil => exact L.reject _
  | cons hfirst hrest =>
    dsimp only
    rw [hrest.length_eq]
    split
    next => exact L.pure ⟨hfirst, hrest⟩
    next => exact L.reject _

theorem leftChain_beside (hn : C.node n n') :
    C.beside C.expr (leftChain lo n) (leftChain lo' n') := by
  have hops := L.many hn "binop"
  refine L.bind (operands_beside L hn hops.length_eq) fun nodes nodes' hnodes => ?_
  refine L.bind (h.expr hnodes.fst) fun first first' hfirst => ?_
  refine foldl_beside L ((forall₂_zip_both hops hnodes.snd).imp
    fun step step' hstep lhs lhs' hlhs => ?_) hfirst
  have htoken := L.token hstep.fst
  unfold binaryOp
  dsimp only
  rw [L.text_eq htoken, L.span htoken]
  refine L.bind (resolve_beside L _ _ _ _) fun op op' hop => ?_
  obtain rfl := hop
  refine L.bind (h.expr hstep.snd) fun rhs rhs' hrhs => ?_
  rw [L.exprSpan hlhs, L.exprSpan hrhs]
  exact L.pure (L.binary op hlhs hrhs _)

theorem rightChain_beside (hn : C.node n n') :
    C.beside C.expr (rightChain lo n) (rightChain lo' n') := by
  have hops := L.many hn "rbinop"
  refine L.bind (operands_beside L hn hops.length_eq) fun nodes nodes' hnodes => ?_
  have hexprs := List.Forall₂.cons hnodes.fst hnodes.snd
  refine L.bind (h.expr (forall₂_getLast hexprs _ _)) fun last last' hlast => ?_
  refine foldl_beside L ((List.rel_reverse (forall₂_zip_both hops hexprs)).imp
    fun step step' hstep rhs rhs' hrhs => ?_) hlast
  have htoken := L.token hstep.fst
  unfold binaryOp
  dsimp only
  rw [L.text_eq htoken, L.span htoken]
  refine L.bind (resolve_beside L _ _ _ _) fun op op' hop => ?_
  obtain rfl := hop
  refine L.bind (h.expr hstep.snd) fun lhs lhs' hlhs => ?_
  exact L.pure (L.binary op hlhs hrhs _)

theorem compareChain_beside (hn : C.node n n') :
    C.beside C.expr (compareChain lo n) (compareChain lo' n') := by
  have hops := L.many hn "compare"
  refine L.bind (operands_beside L hn hops.length_eq) fun nodes nodes' hnodes => ?_
  refine L.bind (h.expr hnodes.fst) fun first first' hfirst => ?_
  refine L.bind (exprs_beside L h hnodes.snd) fun rest rest' hrest => ?_
  refine L.bind (Q := List.Forall₂ Eq) (traverse_beside L (hops.imp fun op op' hop => ?_))
    fun ops ops' hops => ?_
  · rw [L.text_eq (L.token hop), L.span (L.token hop)]
    exact resolve_beside L _ _ _ _
  · obtain rfl := List.forall₂_eq_eq_eq ▸ hops
    have hargs := List.Forall₂.cons hfirst hrest
    unfold operandsSpan
    rw [L.exprSpan hfirst, L.exprSpan (forall₂_getLast hargs (List.cons_ne_nil _ _) (List.cons_ne_nil _ _))]
    exact L.pure (L.compare hargs _ _)

theorem postfixOp_beside (hn : C.node n n') :
    C.beside C.expr (postfixOp lo n) (postfixOp lo' n') := by
  unfold postfixOp
  rw [L.has_eq hn, L.span hn]
  split
  next => exact L.reject _
  next =>
    refine L.bind (child_beside L hn _) fun op op' hop => ?_
    refine L.bind (child_beside L hn _) fun _ _ hexpr => ?_
    refine L.bind (h.expr hexpr) fun operand operand' hoperand => ?_
    rw [L.text_eq (L.token hop), L.span (L.token hop)]
    split
    next => exact L.pure (L.count hoperand _)
    next => exact L.pure (L.single hoperand _)
    next => exact L.reject _

/-! ## Functions, bindings and choices -/

theorem function_beside (hn : C.node n n') : C.beside C.expr (function lo n) (function lo' n') := by
  refine L.bind (h.pattern hn) fun pattern pattern' hpattern => ?_
  refine L.bind (child_beside L hn _) fun _ _ hexpr => ?_
  refine L.bind (h.expr hexpr) fun body body' hbody => ?_
  rw [L.span hn]
  exact L.pure (L.function hpattern hbody _)

theorem let_beside (hn : C.node n n') : C.beside C.expr (let_ lo n) (let_ lo' n') := by
  have hexprs := L.many hn "expr"
  have hlength := hexprs.length_eq
  unfold let_
  dsimp only
  rw [L.span hn, L.has_eq hn]
  generalize n.many "expr" = exprs at hexprs hlength ⊢
  generalize n'.many "expr" = exprs' at hexprs hlength ⊢
  cases hexprs with
  | nil => exact L.reject _
  | cons hvalue hexprs =>
    cases hexprs with
    | nil => exact L.reject _
    | cons hbody hexprs =>
      cases hexprs with
      | cons _ hrest =>
        dsimp only
        rw [hlength]
        exact L.reject _
      | nil =>
        refine L.bind (h.expr hvalue) fun value value' hvalue => ?_
        refine L.bind (h.expr hbody) fun body body' hbody => ?_
        refine L.bind (h.pattern hn) fun pattern pattern' hpattern => ?_
        -- a recursive let goes on like any other once its value is wrapped
        have hlet : ∀ {value value' : Expr}, C.expr value value' → C.beside C.expr
            (pure (.binary .arrow value (.function pattern body n'.span) n'.span))
            (pure (.binary .arrow value' (.function pattern' body' n'.span) n'.span)) :=
          fun hvalue => L.pure (L.binary .arrow hvalue (L.function hpattern hbody _) _)
        rw [L.patternName? hpattern, L.patternText hpattern]
        split
        next =>
          split
          next => exact hlet (L.recursion _ hvalue _)
          next => exact L.reject _
        next => exact hlet hvalue

omit h in
theorem nest_beside {lhs lhs' : Expr} (hlhs : C.expr lhs lhs') (hn : C.node n n') (span : Span) :
    C.beside C.expr (nest lhs n span) (nest lhs' n' span) := by
  refine L.bind (child_beside L hn _) fun names names' hnames => ?_
  refine L.bind (child_beside L hn _) fun name name' hname => ?_
  rw [L.has_eq hn, L.names_eq hnames, L.tokenText_eq hname]
  exact L.pure (L.nest hlhs _ _ _ _)

theorem arrowStep_beside (span : Span) {lhs lhs' : Expr} (hlhs : C.expr lhs lhs')
    (hn : C.node n n') :
    C.beside C.expr (arrowStep lo span lhs n) (arrowStep lo' span lhs' n') := by
  have hstep := L.arrowStep? hn
  unfold arrowStep
  rw [L.span hn, L.has_eq hn]
  generalize n.arrowStep? = step at hstep ⊢
  generalize n'.arrowStep? = step' at hstep ⊢
  cases hstep with
  | none => exact L.defect hn _ .unknownStep
  | some hstep =>
    cases hstep with
    | nest hnode => exact nest_beside L hlhs hnode span
    | unnest hnode =>
      dsimp only
      rw [L.span hnode]
      exact L.reject _
    | op hop =>
      dsimp only
      rw [L.tokenText_eq hop, L.span hop]
      refine L.bind (resolve_beside L _ _ _ _) fun op op' hop => ?_
      obtain rfl := hop
      refine L.bind (child_beside L hn _) fun _ _ hexpr => ?_
      exact L.bind (h.expr hexpr) fun rhs rhs' hrhs => L.pure (L.binary op hlhs hrhs span)
    | binding =>
      refine L.bind (child_beside L hn _) fun _ _ hexpr => ?_
      refine L.bind (h.expr hexpr) fun rhs rhs' hrhs => ?_
      split
      next =>
        refine L.bind (h.pattern hn) fun pattern pattern' hpattern => ?_
        exact L.pure (L.binary .arrow hlhs (L.function hpattern hrhs span) span)
      next => exact L.pure (L.binary .arrow hlhs hrhs span)
    | filter =>
      refine L.bind (h.expr hn) fun test test' htest => ?_
      exact L.pure (L.binary .dArrow (L.binary .where_ hlhs htest span) htest span)

omit h in
theorem sections_beside (span : Span) {marks marks' : List Node}
    (hmarks : List.Forall₂ C.node marks marks') :
    ∀ {e e' : Expr}, C.expr e e' → C.expr (sections span e marks) (sections span e' marks') := by
  induction hmarks with
  | nil => exact fun he => he
  | cons _ _ ih =>
    exact fun he => ih (L.function (L.exprPattern (L.ident "-" span)) he span)

theorem arrows_beside (hn : C.node n n') (amp : Bool) :
    C.beside C.expr (arrows lo n amp) (arrows lo' n' amp) := by
  refine L.bind (child_beside L hn _) fun _ _ hexpr => ?_
  refine L.bind (h.expr hexpr) fun first first' hfirst => ?_
  rw [L.span hn]
  refine L.bind (foldl_beside L ((L.many hn _).imp fun _ _ hstep _ _ hlhs =>
    arrowStep_beside L h _ hlhs hstep) hfirst) fun result result' hresult => L.pure ?_
  split
  next => exact sections_beside L _ (L.many hn _) hresult
  next => exact hresult

theorem ifBranch_beside (span : Span) {result result' : Expr} (hresult : C.expr result result')
    (hn : C.node n n') :
    C.beside C.expr (ifBranch lo span result n) (ifBranch lo' span result' n') := by
  have hf := L.one? hn "f"
  refine L.bind (child_beside L hn _) fun _ _ ht => ?_
  refine L.bind (h.expr ht) fun condition condition' hcondition => ?_
  generalize n.one? "f" = f at hf ⊢
  generalize n'.one? "f" = f' at hf ⊢
  cases hf with
  | none =>
    have hnothing : C.expr (.literal .nothing span) (.literal .nothing span) := L.literal .set
    exact L.pure (L.ifElse hresult hcondition hnothing span)
  | some hf =>
    refine L.bind (h.expr hf) fun ifFalse ifFalse' hfalse => ?_
    exact L.pure (L.ifElse hresult hcondition hfalse span)

/-- The old form of conditions goes on side by side if it is reported so. -/
theorem if_beside (hn : C.node n n')
    (hwarn : C.beside (fun _ _ => True) warnDeprecated warnDeprecated) :
    C.beside C.expr (if_ lo n) (if_ lo' n') := by
  refine L.bind hwarn fun _ _ _ => ?_
  refine L.bind (child_beside L hn _) fun _ _ hexpr => ?_
  refine L.bind (h.expr hexpr) fun result result' hresult => ?_
  rw [L.exprSpan hresult]
  exact foldl_beside L ((L.many hn _).imp fun _ _ hbranch _ _ hresult =>
    ifBranch_beside L h _ hresult hbranch) hresult

theorem armPattern_beside (hn : C.node n n') :
    C.beside C.pattern (armPattern lo n) (armPattern lo' n') := by
  unfold armPattern
  rw [L.has_eq hn, L.span hn]
  split
  next => exact h.pattern hn
  next => exact L.defect hn _ .conditionWithoutPattern

theorem armValue_beside (hn : C.node n n') : C.beside C.expr (armValue lo n) (armValue lo' n') := by
  have hexprs := L.many hn "expr"
  unfold armValue
  rw [L.span hn]
  generalize n.many "expr" = exprs at hexprs ⊢
  generalize n'.many "expr" = exprs' at hexprs ⊢
  cases hexprs with
  | nil => exact L.reject _
  | cons hexpr hrest =>
    cases hrest with
    | nil => exact h.expr hexpr
    | cons hsecond hrest =>
      refine L.bind (exprs_beside L h (.cons hexpr (.cons hsecond hrest)))
        fun items items' hitems => L.pure (L.array ?_ _)
      exact List.rel_map (fun _ _ hitem => .some hitem) hitems

theorem cond_beside (hsubject : C.node subject subject') :
    C.beside C.expr (cond lo subject) (cond lo' subject') := by
  have hcontrol := L.one? hsubject "controlVar"
  unfold cond
  dsimp only
  rw [L.span hsubject]
  generalize subject.one? "controlVar" = control at hcontrol ⊢
  generalize subject'.one? "controlVar" = control' at hcontrol ⊢
  cases hcontrol with
  | none =>
    refine L.bind (dictOf_beside L h hsubject true _) fun entries entries' hentries => ?_
    exact L.pure (L.cond hentries _)
  | some hcontrol =>
    refine L.bind (traverse_beside L ((L.many hsubject _).imp fun _ _ => armPattern_beside L h))
      fun patterns patterns' hpatterns => ?_
    refine L.bind (traverse_beside L ((L.many hsubject _).imp fun _ _ => armValue_beside L h))
      fun values values' hvalues => ?_
    rw [hpatterns.length_eq, hvalues.length_eq]
    split
    next =>
      refine L.bind (h.expr hcontrol) fun control control' hcontrol => ?_
      exact L.pure (L.condControl hcontrol (forall₂_zip_both hpatterns hvalues) _)
    next => exact L.reject _

/-! ## Patterns -/

omit h in
theorem extra_beside (hn : C.node n n') : C.pattern (extra n) (extra n') := by
  have hident := L.one? hn "ident"
  unfold extra
  generalize n.one? "ident" = ident at hident ⊢
  generalize n'.one? "ident" = ident' at hident ⊢
  cases hident with
  | none => exact L.extraPattern none
  | some hident =>
    dsimp only
    rw [L.tokenText_eq hident]
    exact L.extraPattern _

omit h in
theorem checkExtra_beside (hn : C.node n n') (kind : Structure) (extras : Nat) :
    C.beside Eq (checkExtra n kind extras) (checkExtra n' kind extras) := by
  unfold checkExtra
  rw [L.span hn]
  split
  next => exact L.pure rfl
  next => exact L.reject _

theorem fallback_beside (hn : C.node n n') :
    C.beside (Option.Rel C.expr) (fallback lo n) (fallback lo' n') := by
  have hfall := L.one? hn "fall"
  unfold fallback
  generalize n.one? "fall" = fall at hfall ⊢
  generalize n'.one? "fall" = fall' at hfall ⊢
  cases hfall with
  | none => exact L.pure .none
  | some hfall => exact L.bind (h.expr hfall) fun e e' he => L.pure (.some he)

theorem markedFallback_beside (marked : Bool) (hn : C.node n n') :
    C.beside (Option.Rel C.expr) (markedFallback lo marked n) (markedFallback lo' marked n') := by
  have hfall := L.one? hn "fall"
  unfold markedFallback
  generalize n.one? "fall" = fall at hfall ⊢
  generalize n'.one? "fall" = fall' at hfall ⊢
  cases hfall with
  | none => exact L.pure .none
  | some hfall =>
    dsimp only
    rw [L.span hfall]
    split
    next => exact fallback_beside L h hn
    next => exact L.reject _

omit h in
theorem slot_isExtra_eq {slot slot' : Slot} (hslot : slot.Like C.expr C.pattern slot') :
    slot.isExtra = slot'.isExtra := by
  have heq : ∀ (p : Pattern) (fall : Option Expr),
      (Slot.mk (some p) fall).isExtra = isExtraPattern p := by
    intro p fall
    cases p <;> rfl
  cases hslot with
  | mk hpattern _ =>
    cases hpattern with
    | none => rfl
    | some hp => rw [heq, heq, L.isExtra hp]

theorem arraySlot_beside (hn : C.node n n') :
    C.beside (Slot.Like C.expr C.pattern) (arraySlot lo n) (arraySlot lo' n') := by
  unfold arraySlot
  rw [L.has_eq hn]
  split
  next => exact L.pure (.mk .none .none)
  next =>
    refine L.bind (h.pattern hn) fun pattern pattern' hpattern => ?_
    refine L.bind (fallback_beside L h hn) fun fall fall' hfall => ?_
    exact L.pure (.mk (.some hpattern) hfall)

theorem arrayPattern_beside (hn : C.node n n') :
    C.beside C.pattern (arrayPattern lo n) (arrayPattern lo' n') := by
  have hfirst : List.Forall₂ C.node (n.one? "first_item").toList (n'.one? "first_item").toList := by
    have hone := L.one? hn "first_item"
    generalize n.one? "first_item" = first at hone ⊢
    generalize n'.one? "first_item" = first' at hone ⊢
    cases hone with
    | none => exact .nil
    | some hone => exact .cons hone .nil
  refine L.bind (traverse_beside L ((List.rel_append hfirst (L.many hn _)).imp fun _ _ =>
    arraySlot_beside L h)) fun slots slots' hslots => ?_
  rw [countP_eq_of_forall₂ hslots fun _ _ => slot_isExtra_eq L]
  refine L.bind (checkExtra_beside L hn _ _) fun _ _ _ => ?_
  exact L.pure (L.arrayPattern hslots)

theorem tupleSlot_beside (hn : C.node n n') :
    C.beside (Both Eq (Slot.Like C.expr C.pattern)) (tupleSlot lo n) (tupleSlot lo' n') := by
  have hname := L.one? hn "name"
  unfold tupleSlot
  rw [L.has_eq hn, L.has_eq hn]
  split
  next =>
    refine L.bind (h.pattern hn) fun pattern pattern' hpattern => ?_
    exact L.pure ⟨rfl, .mk (.some hpattern) .none⟩
  next =>
    refine L.bind (child_beside L hn _) fun v v' hv => ?_
    refine L.bind (h.pattern hv) fun pattern pattern' hpattern => ?_
    refine L.bind (markedFallback_beside L h _ hv) fun fall fall' hfall => L.pure ⟨?_, ?_⟩
    · rw [L.patternText hpattern]
      generalize n.one? "name" = name at hname ⊢
      generalize n'.one? "name" = name' at hname ⊢
      cases hname with
      | none => rfl
      | some hname => exact L.name_eq hname
    · exact .mk (.some hpattern) hfall

theorem tuplePattern_beside (hn : C.node n n') :
    C.beside C.pattern (tuplePattern lo n) (tuplePattern lo' n') := by
  refine L.bind (traverse_beside L ((L.many hn _).imp fun _ _ => tupleSlot_beside L h))
    fun slots slots' hslots => ?_
  rw [countP_eq_of_forall₂ hslots fun _ _ hslot => slot_isExtra_eq L hslot.snd]
  refine L.bind (checkExtra_beside L hn _ _) fun _ _ _ => ?_
  exact L.pure (L.tuplePattern hslots)

theorem dictSlot_beside (hn : C.node n n') :
    C.beside (Both (Option.Rel C.expr) (Slot.Like C.expr C.pattern)) (dictSlot lo n)
      (dictSlot lo' n') := by
  have hextra := L.one? hn "extra"
  unfold dictSlot
  generalize n.one? "extra" = extra at hextra ⊢
  generalize n'.one? "extra" = extra' at hextra ⊢
  cases hextra with
  | some hextra => exact L.pure ⟨.none, .mk (.some (extra_beside L hextra)) .none⟩
  | none =>
    refine L.bind (child_beside L hn _) fun key key' hkey => ?_
    refine L.bind (child_beside L hn _) fun value value' hvalue => ?_
    refine L.bind (h.expr hkey) fun k k' hk => ?_
    refine L.bind (h.pattern hvalue) fun pattern pattern' hpattern => ?_
    rw [L.has_eq hkey]
    refine L.bind (markedFallback_beside L h _ hvalue) fun fall fall' hfall => ?_
    exact L.pure ⟨.some hk, .mk (.some hpattern) hfall⟩

theorem dictPattern_beside (hn : C.node n n') :
    C.beside C.pattern (dictPattern lo n) (dictPattern lo' n') := by
  refine L.bind (traverse_beside L ((L.many hn _).imp fun _ _ => dictSlot_beside L h))
    fun slots slots' hslots => ?_
  rw [countP_eq_of_forall₂ hslots fun _ _ hslot => slot_isExtra_eq L hslot.snd]
  refine L.bind (checkExtra_beside L hn _ _) fun _ _ _ => ?_
  exact L.pure (L.dictPattern hslots)

theorem setPattern_beside (hn : C.node n n') :
    C.beside C.pattern (setPattern lo n) (setPattern lo' n') := by
  refine L.bind (traverse_beside L ((L.many hn _).imp fun _ _ => h.pattern))
    fun elements elements' helements => ?_
  rw [countP_eq_of_forall₂ helements fun _ _ => L.isExtra]
  refine L.bind (checkExtra_beside L hn _ _) fun _ _ _ => ?_
  exact L.pure (L.setPattern helements)

/-- One level of the lowering of patterns goes on side by side. -/
theorem patternStep_beside (hn : C.node n n') :
    C.beside C.pattern (patternStep lo n) (patternStep lo' n') := by
  have hform := L.patternForm hn
  unfold patternStep
  generalize n.patternForm = form at hform ⊢
  generalize n'.patternForm = form' at hform ⊢
  cases hform with
  | wrapper hinner => exact h.pattern hinner
  | array hnode => exact arrayPattern_beside L h hnode
  | tuple hnode => exact tuplePattern_beside L h hnode
  | dict hnode => exact dictPattern_beside L h hnode
  | set hnode => exact setPattern_beside L h hnode
  | extra hnode => exact L.pure (extra_beside L hnode)
  | exprs hnodes =>
    exact L.bind (exprs_beside L h hnodes) fun es es' hes => L.pure (L.exprsPattern hes)
  | expr => exact L.bind (h.expr hn) fun e e' he => L.pure (L.exprPattern he)

/-! ## Trees -/

theorem paren_beside (hn : C.node n n') {children children' : Children}
    (hchildren : Children.Rel C.node children children') :
    C.beside C.expr (paren lo n children) (paren lo' n' children') := by
  cases hchildren with
  | one hinner =>
    refine L.bind (h.expr hinner) fun e e' he => ?_
    rw [L.has_eq hn, L.delimitedSpan_eq hn]
    split
    next => exact L.pure (L.paren he _)
    next => exact L.pure he
  | many hnodes =>
    have hlength := hnodes.length_eq
    unfold paren
    rw [L.span hn]
    cases hnodes with
    | nil => exact L.reject _
    | cons hfirst hrest =>
      cases hrest with
      | nil => exact h.expr hfirst
      | cons _ _ =>
        dsimp only
        rw [hlength]
        exact L.reject _

theorem formStep_beside (hn : C.node n n') {form form' : ExprForm}
    (hform : ExprForm.Rel C.node form form')
    (hwarn : form.kind = .if_ → C.beside (fun _ _ => True) warnDeprecated warnDeprecated) :
    C.beside C.expr (formStep lo n form) (formStep lo' n' form') := by
  cases hform with
  | @mk kind children children' subject subject' hchildren hsubject =>
    cases kind with
    | arrow amp => exact arrows_beside L h hn amp
    | let_ => exact let_beside L h hsubject
    | unop => exact unaryChain_beside L h hn
    | binop => exact leftChain_beside L h hn
    | compare => exact compareChain_beside L h hn
    | rbinop => exact rightChain_beside L h hn
    | if_ => exact if_beside L h hn (hwarn rfl)
    | callGet => exact access_beside L h hn
    | postfixOp => exact postfixOp_beside L h hn
    | relation => exact relation_beside L h hn hsubject
    | set => exact set_beside L h hn hsubject
    | dict =>
      unfold formStep dict
      dsimp only
      rw [L.delimitedSpan_eq hn]
      exact dictOf_beside L h hsubject false _
    | array => exact array_beside L h hn hsubject
    | bytes => exact bytes_beside L h hn hsubject
    | embed => exact embed_beside L hn
    | function => exact function_beside L h hn
    | package => exact package_beside L hn hsubject
    | tuple => exact tuple_beside L h hn hsubject
    | xstr => exact xstr_beside L h hn hsubject
    | ident => exact L.pure (ident_beside L (L.token hsubject))
    | str => exact L.pure (str_beside L (L.token hsubject))
    | num =>
      show C.beside C.expr (num subject.token) (num subject'.token)
      exact num_beside L (L.token hsubject)
    | char =>
      show C.beside C.expr (char subject.token) (char subject'.token)
      exact char_beside L (L.token hsubject)
    | cond => exact cond_beside L h hsubject
    | paren => exact paren_beside L h hn hchildren

/-- One level of the lowering of expressions goes on side by side. A report of the old form of
conditions is made only at a node of that form. -/
theorem exprStep_beside (hn : C.node n n')
    (hwarn : n.isIf = true → C.beside (fun _ _ => True) warnDeprecated warnDeprecated) :
    C.beside C.expr (exprStep lo n) (exprStep lo' n') := by
  have hembedded := L.embedded? hn
  unfold exprStep
  unfold Node.isIf at hwarn
  generalize n.embedded? = e at hembedded hwarn ⊢
  generalize n'.embedded? = e' at hembedded ⊢
  cases hembedded with
  | some he => exact L.pure he
  | none =>
    rcases L.exprForm_cases hn with ⟨hform, hform'⟩ | ⟨form, form', hform, hform', hrel⟩ |
      ⟨tag, hform, hform'⟩
    · dsimp only
      rw [hform, hform', L.span hn]
      exact L.defect hn _ .noTag
    · dsimp only at hwarn ⊢
      rw [hform] at hwarn ⊢
      rw [hform']
      refine formStep_beside L h hn hrel fun hkind => hwarn ?_
      simpa using hkind
    · dsimp only
      rw [hform, hform', L.span hn]
      exact L.defect hn _ (.emptySequence tag)

end Parts

end Nodes

include L in
/-- Trees that are related are lowered side by side if the report of the old form of conditions is
related to itself. -/
theorem lowerers_beside
    (hwarn : C.beside (fun _ _ => True) warnDeprecated warnDeprecated) (fuel : Nat) :
    C.Lowerers ⟨lowerExpr fuel, lowerPattern fuel⟩ ⟨lowerExpr fuel, lowerPattern fuel⟩ := by
  induction fuel with
  | zero => exact ⟨fun _ => L.exhausted, fun _ => L.exhausted⟩
  | succ fuel ih =>
    exact ⟨fun hn => exprStep_beside L ih hn fun _ => hwarn, fun hn => patternStep_beside L ih hn⟩

end Lowering

end Relational
