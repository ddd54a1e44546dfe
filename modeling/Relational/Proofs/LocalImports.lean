import Mathlib.Data.List.Basic
import Mathlib.Data.List.TakeWhile
import Relational.Proofs.Paths
import Relational.Proofs.Session

/-!
# Local imports

A file of the project is imported by a path that counts from the directory of the source. The two
are joined and cleaned, and nothing is lost by cleaning early: a normal form is told by where it
leads to.

> `clean_eq_iff`: two paths have the same normal form exactly if both or none of them are rooted and
> they lead to the same place from every directory.

So a joined path may be joined again from either side, and the path that a local import asks for is
the one that leads from the directory of the source to the file:

> `Compiler.localImport_path`: joining leads to where the file leads from the directory, it is
> associative, and an import is compiled to a call of a loader with the joined path.
-/

namespace Relational

namespace Path

/-! ## Normal forms are told by where they lead to -/

theorem resolve_eq (dir : Directory) (path : List Char) :
    resolve dir path = (components path).foldl follow (if isRooted path then [] else dir) := by
  rw [resolve, components_eq_splitOn]

theorem placeOf_append_replicate {names : List (List Char)} (h : ∀ name ∈ names, IsName name)
    (n : Nat) (dir : Directory) :
    placeOf dir (names ++ List.replicate n above) = names ++ dir.drop n := by
  induction names with
  | nil =>
    rw [List.nil_append, List.nil_append]
    induction n with
    | zero => rfl
    | succ n ih =>
      show follow (placeOf dir (List.replicate n above)) above = _
      rw [ih, List.drop_add_one_eq_tail_drop]
      rfl
  | cons name names ih =>
    obtain ⟨hname, hnames⟩ := List.forall_mem_cons.mp h
    show follow (placeOf dir (names ++ List.replicate n above)) name = _
    rw [ih hnames, follow_name hname]
    rfl

/-- Stacks that can not be shortened are the same if they lead to the same places. From a directory
of names that no component has, the place shows the names of the stack and how far it goes up. -/
theorem Tidy.eq_of_placeOf {rooted : Bool} {kept kept' : List (List Char)} (h : Tidy rooted kept)
    (h' : Tidy rooted kept')
    (hplace : ∀ dir, (rooted = true → dir = []) → placeOf dir kept = placeOf dir kept') :
    kept = kept' := by
  obtain ⟨names, n, rfl, hnames, hn⟩ := h
  obtain ⟨names', n', rfl, hnames', hn'⟩ := h'
  have hcount {names : List (List Char)} (hnames : ∀ name ∈ names, IsName name) :
      names.count [] = 0 := List.count_eq_zero.mpr fun hmem => (hnames [] hmem).ne_nil rfl
  have hsame := hplace (List.replicate (n + n') []) fun hrooted => by
    rw [hn hrooted, hn' hrooted]
    rfl
  rw [placeOf_append_replicate hnames, placeOf_append_replicate hnames', List.drop_replicate,
    List.drop_replicate, Nat.add_sub_cancel_left, Nat.add_sub_cancel_right] at hsame
  have hn : n' = n := by
    have hcounts := congrArg (List.count []) hsame
    rwa [List.count_append, List.count_append, hcount hnames, hcount hnames',
      List.count_replicate_self, List.count_replicate_self, Nat.zero_add, Nat.zero_add] at hcounts
  subst hn
  rw [List.append_cancel_right hsame]

theorem cleanChars_eq_iff {cs ds : List Char} :
    cleanChars cs = cleanChars ds ↔
      isRooted cs = isRooted ds ∧ ∀ dir, resolve dir cs = resolve dir ds := by
  constructor
  · intro h
    refine ⟨?_, fun dir => ?_⟩
    · rw [← isRooted_cleanChars cs, h, isRooted_cleanChars]
    · rw [← resolve_cleanChars dir cs, h, resolve_cleanChars]
  · rintro ⟨hroot, hplace⟩
    have hplaceOf (cs : List Char) {dir : Directory} (hdir : isRooted cs = true → dir = []) :
        placeOf dir (stack cs) = resolve dir cs := by
      have hstart : (if isRooted cs then [] else dir) = dir := by
        split
        next h => exact (hdir h).symm
        next => rfl
      rw [resolve_eq, hstart]
      exact (foldl_push hdir (slash_not_mem_components cs) .nil).2
    have hstack : stack cs = stack ds := by
      refine (tidy_stack cs).eq_of_placeOf (hroot ▸ tidy_stack ds) fun dir hdir => ?_
      rw [hplaceOf cs hdir, hplaceOf ds (hroot ▸ hdir), hplace]
    unfold cleanChars
    rw [normalComponents_eq_reverse, normalComponents_eq_reverse, hstack, hroot]

/-- Two paths have the same normal form exactly if they lead to the same place from everywhere, and
both or none of them start at the root. -/
theorem clean_eq_iff {p q : String} :
    clean p = clean q ↔ isRooted p.toList = isRooted q.toList ∧
      ∀ dir, resolve dir p.toList = resolve dir q.toList := by
  rw [← cleanChars_eq_iff, clean, clean, String.ofList_inj]

theorem toList_clean (p : String) : (clean p).toList = cleanChars p.toList := String.toList_ofList

theorem clean_clean (p : String) : clean (clean p) = clean p := by
  rw [clean, toList_clean, cleanChars_cleanChars, clean]

theorem resolve_clean (dir : Directory) (p : String) :
    resolve dir (clean p).toList = resolve dir p.toList := by
  rw [toList_clean, resolve_cleanChars]

theorem isRooted_clean (p : String) : isRooted (clean p).toList = isRooted p.toList := by
  rw [toList_clean, isRooted_cleanChars]

/-! ## Joining -/

theorem components_append_slash (cs ds : List Char) :
    components (cs ++ '/' :: ds) = components cs ++ components ds := by
  rw [components_eq_splitOn, components_eq_splitOn, components_eq_splitOn]
  exact List.splitOn_append_cons_self ..

theorem isRooted_append {cs : List Char} (h : cs ≠ []) (ds : List Char) :
    isRooted (cs ++ ds) = isRooted cs := by
  obtain ⟨c, cs, rfl⟩ := List.exists_cons_of_ne_nil h
  rfl

theorem resolve_append_slash {cs ds : List Char} (hcs : cs ≠ []) (hds : isRooted ds = false)
    (dir : Directory) : resolve dir (cs ++ '/' :: ds) = resolve (resolve dir cs) ds := by
  rw [resolve_eq _ ds, hds, resolve_eq, resolve_eq, isRooted_append hcs, components_append_slash,
    List.foldl_append]
  rfl

/-- A joined path starts where its directory does and leads to where the file leads from there. -/
theorem join_leads (d : String) {f : String} (hf : isRooted f.toList = false) :
    isRooted (join d f).toList = isRooted d.toList ∧
      ∀ dir, resolve dir (join d f).toList = resolve (resolve dir d.toList) f.toList := by
  unfold join
  split
  next hd =>
    rw [String.isEmpty_iff.mp hd, isRooted_clean, hf]
    exact ⟨rfl, fun dir => resolve_clean dir f⟩
  next hd =>
    split
    next hempty =>
      rw [String.isEmpty_iff.mp hempty, isRooted_clean]
      exact ⟨rfl, fun dir => resolve_clean dir d⟩
    next =>
      have hne : d.toList ≠ [] := by
        rwa [Ne, String.toList_eq_nil_iff, ← String.isEmpty_iff]
      have hpath : (d ++ "/" ++ f).toList = d.toList ++ '/' :: f.toList := by
        rw [String.toList_append, String.toList_append, List.append_assoc]
        rfl
      rw [isRooted_clean, hpath, isRooted_append hne]
      refine ⟨rfl, fun dir => ?_⟩
      rw [resolve_clean, hpath, resolve_append_slash hne hf]

theorem clean_join (d f : String) : clean (join d f) = join d f := by
  unfold join
  split
  next => exact clean_clean f
  next => split <;> exact clean_clean _

/-- Files below files can be joined from either side. -/
theorem join_assoc (a : String) {b c : String} (hb : isRooted b.toList = false)
    (hc : isRooted c.toList = false) : join (join a b) c = join a (join b c) := by
  have hbc : isRooted (join b c).toList = false := (join_leads b hc).1.trans hb
  rw [← clean_join (join a b), ← clean_join a (join b c), clean_eq_iff]
  refine ⟨?_, fun dir => ?_⟩
  · rw [(join_leads _ hc).1, (join_leads a hb).1, (join_leads a hbc).1]
  · rw [(join_leads _ hc).2, (join_leads a hb).2, (join_leads a hbc).2, (join_leads b hc).2]

/-- A file is found where its directory is cleaned before or after joining. -/
theorem join_clean {d f : String} (hd : d ≠ "") (hf : isRooted f.toList = false) :
    join (clean d) f = clean (d ++ "/" ++ f) := by
  have hne : d.toList ≠ [] := fun h => hd (String.toList_eq_nil_iff.mp h)
  have hpath : (d ++ "/" ++ f).toList = d.toList ++ '/' :: f.toList := by
    rw [String.toList_append, String.toList_append, List.append_assoc]
    rfl
  rw [← clean_join, clean_eq_iff, hpath, isRooted_append hne]
  refine ⟨?_, fun dir => ?_⟩
  · rw [(join_leads _ hf).1, isRooted_clean]
  · rw [(join_leads _ hf).2, resolve_clean, resolve_append_slash hne hf]

/-! ## The directory of a file, and paths without slashes at their ends -/

/-- The directory that a file stands in: its path up to the last slash, or the current directory if
there is no slash. -/
inductive StandsIn (path : String) : String → Prop
  | below {front name : String} (hpath : path = front ++ "/" ++ name) (hname : '/' ∉ name.toList) :
      StandsIn path (front ++ "/")
  | here (hpath : '/' ∉ path.toList) : StandsIn path "."

theorem exists_standsIn (path : String) : ∃ dir, StandsIn path dir := by
  by_cases hslash : '/' ∈ path.toList
  · obtain ⟨name, front, hsplit, hname⟩ :=
      List.eq_append_cons_of_mem (List.mem_reverse.mpr hslash)
    have hpath : path = String.ofList front.reverse ++ "/" ++ String.ofList name.reverse := by
      refine String.toList_inj.mp ?_
      rw [String.toList_append, String.toList_append, String.toList_ofList, String.toList_ofList,
        String.toList_ofList, ← List.reverse_reverse path.toList, hsplit, List.reverse_append,
        List.reverse_cons]
    refine ⟨_, .below hpath ?_⟩
    rwa [String.toList_ofList, List.mem_reverse]
  · exact ⟨".", .here hslash⟩

theorem StandsIn.ne_empty {path dir : String} (h : StandsIn path dir) : dir ≠ "" := by
  cases h with
  | @below front =>
    intro hempty
    have hlength := congrArg (fun s : String => s.toList.length) hempty
    simp at hlength
  | here => decide

/-- The directory of a source file is the one that it stands in. -/
theorem StandsIn.directory?_eq {path dir : String} (h : StandsIn path dir)
    (hpath : path ≠ noPath) : directory? path = some (clean dir) := by
  have hdirectory : parent path = clean dir → directory? path = some (clean dir) := by
    intro hparent
    unfold directory?
    split
    next hempty =>
      rw [← hparent, String.isEmpty_iff.mp hempty]
      rfl
    next => rw [← hparent]
  refine hdirectory ?_
  cases h with
  | @below front name hsplit hname =>
    have hreverse : path.toList.reverse = name.toList.reverse ++ '/' :: front.toList.reverse := by
      rw [hsplit, String.toList_append, String.toList_append, List.reverse_append,
        List.reverse_append]
      rfl
    have hdrop : path.toList.reverse.dropWhile (· != '/') = '/' :: front.toList.reverse := by
      rw [hreverse, List.dropWhile_append_of_pos fun c hc => ?_]
      · rfl
      · have hne : c ≠ '/' := fun heq => hname (List.mem_reverse.mp (heq ▸ hc))
        simpa using hne
    have hlist : (front ++ "/").toList = front.toList ++ ['/'] := String.toList_append
    unfold parent clean
    rw [hdrop, List.reverse_cons, List.reverse_reverse, hlist]
    exact if_neg (by simp)
  | here hslash =>
    have hdrop : path.toList.reverse.dropWhile (· != '/') = [] := by
      refine List.dropWhile_eq_nil_iff.mpr fun c hc => ?_
      have hne : c ≠ '/' := fun heq => hslash (List.mem_reverse.mp (heq ▸ hc))
      simpa using hne
    unfold parent
    rw [hdrop]
    rfl

/-- A text without the slashes at its ends. -/
structure Stripped (s core : String) : Prop where
  ends : ∃ m n, s.toList = List.replicate m '/' ++ core.toList ++ List.replicate n '/'
  first : core.toList.head? ≠ some '/'
  last : core.toList.getLast? ≠ some '/'

theorem Stripped.isRooted {s core : String} (h : Stripped s core) :
    isRooted core.toList = false := by
  simpa [Path.isRooted] using h.first

theorem dropWhile_replicate_append {cs : List Char} (h : cs.head? ≠ some '/') (n : Nat) :
    (List.replicate n '/' ++ cs).dropWhile (· == '/') = cs := by
  rw [List.dropWhile_append_of_pos fun c hc => by simp [List.eq_of_mem_replicate hc]]
  cases cs with
  | nil => rfl
  | cons c cs =>
    refine List.dropWhile_cons_of_neg ?_
    simpa using h

theorem Stripped.trimSlashes_eq {s core : String} (h : Stripped s core) : trimSlashes s = core := by
  obtain ⟨⟨m, n, hs⟩, hfirst, hlast⟩ := h
  have hback : (List.replicate n '/' ++ core.toList.reverse).dropWhile (· == '/') =
      core.toList.reverse := by
    refine dropWhile_replicate_append ?_ n
    rwa [List.head?_reverse]
  unfold trimSlashes
  by_cases hempty : core.toList = []
  · have hall : s.toList = List.replicate (m + n) '/' ++ [] := by
      rw [hs, hempty, List.append_nil, List.replicate_append_replicate, List.append_nil]
    rw [hall, dropWhile_replicate_append (by simp), String.toList_eq_nil_iff.mp hempty]
    rfl
  · have hfront : (core.toList ++ List.replicate n '/').head? ≠ some '/' := by
      rwa [List.head?_append_of_ne_nil _ hempty]
    rw [hs, List.append_assoc, dropWhile_replicate_append hfront]
    dsimp only
    rw [List.reverse_append, List.reverse_replicate, hback, List.reverse_reverse,
      String.ofList_toList]

theorem exists_replicate_append (cs : List Char) :
    ∃ n rest, cs = List.replicate n '/' ++ rest ∧ rest.head? ≠ some '/' := by
  induction cs with
  | nil => exact ⟨0, [], rfl, by simp⟩
  | cons c cs ih =>
    by_cases hc : c = '/'
    · obtain ⟨n, rest, rfl, hrest⟩ := ih
      exact ⟨n + 1, rest, by rw [hc]; rfl, hrest⟩
    · exact ⟨0, c :: cs, rfl, by simpa using hc⟩

theorem exists_stripped (s : String) : ∃ core, Stripped s core := by
  obtain ⟨m, rest, hs, hrest⟩ := exists_replicate_append s.toList
  obtain ⟨n, core, hcore, hlast⟩ := exists_replicate_append rest.reverse
  have hends : rest = core.reverse ++ List.replicate n '/' := by
    rw [← List.reverse_reverse rest, hcore, List.reverse_append, List.reverse_replicate]
  refine ⟨String.ofList core.reverse, ⟨m, n, ?_⟩, ?_, ?_⟩
  · rw [String.toList_ofList, List.append_assoc, ← hends, hs]
  · rw [String.toList_ofList]
    intro hfirst
    refine hrest ?_
    rw [hends, List.head?_append, hfirst]
    rfl
  · rwa [String.toList_ofList, List.getLast?_reverse]

end Path

/-! ## Imports -/

/-- A node that imports a file of this project by the path that a token has for its text. -/
structure Node.ImportsFile (node token : Node) (fromRoot : Bool) : Prop where
  embedded : node.embedded? = none
  form : ∃ form, node.exprForm = .ok (some form) ∧ form.kind = .package ∧
    form.subject.one? "std" = none ∧ (form.subject.one? "PKGPATH").map Node.token = some token ∧
    fromRoot = !form.subject.has "dot"
  rooted : Path.isRooted token.text.toList = true

namespace Lowering

variable {node token : Node} {fromRoot : Bool}

theorem exprStep_importsFile (h : node.ImportsFile token fromRoot) (lo : Lowerer) :
    exprStep lo node = localImport token fromRoot := by
  obtain ⟨form, hform, hkind, hstd, hpath, rfl⟩ := h.form
  obtain ⟨leaf, hleaf, rfl⟩ := Option.map_eq_some_iff.mp hpath
  have hpackage : formStep lo node form = package node form.subject := by
    unfold formStep
    rw [hkind]
  unfold exprStep
  rw [h.embedded]
  show (ofExcept node.exprForm >>= _) = _
  rw [hform]
  show formStep lo node form = _
  rw [hpackage]
  unfold package
  rw [hstd, hleaf]
  exact if_pos h.rooted

/-- In a directory, a local import is lowered to a call of the loader with the joined path. -/
theorem localImport_of_loader {dir : String} {modules : Modules} {state : CompilerState}
    {loader : Expr} (h : modules.localFile state.nextIdentity fromRoot token.span = .ok loader)
    (sink : Sink) :
    (localImport token fromRoot ⟨some dir, modules, sink⟩ state).1 =
      .done (loaded token.span loader (Path.join dir (Path.trimSlashes token.text))) := by
  show ((request (.localFile fromRoot token.span) token.span _ >>= fun loader =>
    pure (loaded token.span loader _)) ⟨some dir, modules, sink⟩ state).1 = _
  rw [bind_apply]
  unfold request
  dsimp only
  rw [h]
  rfl

end Lowering

/-- Local imports count from the directory of the source. A joined path leads from everywhere to
where the file leads from the directory, and joining is associative. The file that an import loads
is the one that its path, without the slashes at its ends, names in the directory of the source,
wherever in the program the import stands. -/
theorem Compiler.localImport_path :
    (∀ d f : String, Path.isRooted f.toList = false → ∀ dir : Path.Directory,
      Path.resolve dir (Path.join d f).toList =
        Path.resolve (Path.resolve dir d.toList) f.toList) ∧
    (∀ a b c : String, Path.isRooted b.toList = false → Path.isRooted c.toList = false →
      Path.join (Path.join a b) c = Path.join a (Path.join b c)) ∧
    ∀ (compiler : Compiler) (path : String) (node token : Node) (fromRoot : Bool),
      path ≠ Path.noPath → node.ImportsFile token fromRoot →
      (∃ dir file, Path.StandsIn path dir ∧ Path.Stripped token.text file) ∧
      ∀ (dir file : String) (state : CompilerState) (loader : Expr), Path.StandsIn path dir →
        Path.Stripped token.text file →
        compiler.modules.localFile state.nextIdentity fromRoot token.span = .ok loader →
        let imported : Expr := .call (.package loader token.span)
          (.literal (.string (Path.clean (dir ++ "/" ++ file))) token.span) token.span
        (∀ fuel, (Lowering.lowerExpr (fuel + 1) node
          ⟨Path.directory? path, compiler.modules, compiler.sink⟩ state).1 = .done imported) ∧
        ∀ text, compiler.grammar text (Path.filename path) = .ok node →
          (compiler.compile path text state).1 = .ok imported := by
  refine ⟨fun d f hf => (Path.join_leads d hf).2, fun a b c => Path.join_assoc a, ?_⟩
  intro compiler path node token fromRoot hpath himport
  obtain ⟨dir, hdir⟩ := Path.exists_standsIn path
  obtain ⟨file, hfile⟩ := Path.exists_stripped token.text
  refine ⟨⟨dir, file, hdir, hfile⟩, ?_⟩
  intro dir file state loader hdir hfile hloader imported
  have hlower (fuel : Nat) : (Lowering.lowerExpr (fuel + 1) node
      ⟨Path.directory? path, compiler.modules, compiler.sink⟩ state).1 = .done imported := by
    rw [hdir.directory?_eq hpath]
    show (Lowering.exprStep _ node _ state).1 = _
    rw [Lowering.exprStep_importsFile himport, Lowering.localImport_of_loader hloader,
      hfile.trimSlashes_eq, Path.join_clean hdir.ne_empty hfile.isRooted]
    rfl
  refine ⟨hlower, fun text hgrammar => ?_⟩
  have hresult : (node.lower ⟨Path.directory? path, compiler.modules, compiler.sink⟩ state).1 =
      .done imported := hlower (2 * node.height + 1)
  rw [compile_of_ok hgrammar, hresult]
  rfl

/-- The span of a part of an import, and the tree of the import. -/
def Samples.importSpan (start stop : Nat) : Span :=
  ⟨⟨"a/b/main", "//\x7b./../util/\x7d"⟩, start, stop⟩

@[inherit_doc Samples.importSpan]
def Samples.importUtil : Node :=
  let leaf (start stop : Nat) : Node := .leaf (importSpan start stop)
  .branch [("import", .one (leaf 0 2)),
    ("pkg", .one (.branch [("PKGPATH", .one (leaf 4 13)), ("dot", .one (leaf 3 4))]
      (importSpan 3 13)))] (importSpan 0 14)

/-- From the directory `a/b` the import `./../util/` leads to `a/util`. -/
theorem Compiler.localImport_path_util :
    let compiler : Compiler := ⟨fun _ _ => .ok Samples.importUtil, .deferred, .recording⟩
    let span := Samples.importSpan 4 13
    (compiler.compile "a/b/main" "" .initial).1 =
      .ok (.call (.package (Modules.loader 0 "import_local_file" span) span)
        (.literal (.string "a/util") span) span) ∧
    Path.join (Path.join "a" "..") "../b" = Path.join "a" (Path.join ".." "../b") ∧
    Path.resolve [['r']] (Path.join "a" "../..").toList = [] := by
  intro compiler span
  obtain ⟨hleads, hassoc, himports⟩ := localImport_path
  have himport : Samples.importUtil.ImportsFile (.leaf span) false :=
    ⟨rfl, ⟨_, rfl, rfl, rfl, rfl, rfl⟩, by decide⟩
  have hfile : Path.Stripped (Node.leaf span).text "../util" :=
    ⟨⟨1, 1, by decide⟩, by decide, by decide⟩
  have hdir : Path.StandsIn "a/b/main" ("a/b" ++ "/") :=
    .below (show _ = "a/b" ++ "/" ++ "main" by decide) (by decide)
  obtain ⟨-, hcompiled⟩ := himports compiler "a/b/main" _ _ _ (by decide) himport
  have hclean : Path.clean ("a/b" ++ "/" ++ "/" ++ "../util") = "a/util" := by decide
  refine ⟨?_, hassoc _ _ _ (by decide) (by decide), ?_⟩
  · rw [← hclean]
    exact (hcompiled _ _ .initial _ hdir hfile rfl).2 "" rfl
  · rw [hleads _ _ (by decide)]
    decide

end Relational
