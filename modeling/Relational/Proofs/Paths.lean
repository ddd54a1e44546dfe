import Relational.Path

/-!
# Where paths lead

A path is followed from a directory component by component, without a look at any file system. The
normal form is found by a stack of components, which holds names above a run of `..`:

> `follow_push`: taking one more component leads to where that component leads from the place of the
> components taken before.

So the stack leads to where the path does, and since nothing in it can be shortened, cleaning it
again changes nothing:

> `clean_normalForm`: `Path.clean` keeps the root and the place that a path leads to from every
> directory, it leaves no component without an effect, and it is a fixed point of itself.
-/

namespace Relational.Path

/-! ## Cutting and joining -/

theorem components_eq_splitOn (cs : List Char) : components cs = cs.splitOn '/' := by
  induction cs with
  | nil => rfl
  | cons c cs ih =>
    rw [components, ih]
    show _ = List.splitOnP (· == '/') (c :: cs)
    rw [List.splitOnP_cons_eq_if_modifyHead]
    split
    next h => exact absurd h (List.splitOnP_ne_nil _ _)
    next first rest h =>
      rw [show List.splitOnP (· == '/') cs = first :: rest from h]
      simp only [beq_iff_eq, List.modifyHead_cons]

theorem joined_eq_intercalate (parts : List (List Char)) :
    joined parts = ['/'].intercalate parts := by
  induction parts with
  | nil => rfl
  | cons part rest ih =>
    cases rest with
    | nil => rw [joined, List.intercalate_singleton]
    | cons next rest =>
      rw [List.intercalate_cons_cons, List.append_assoc, ← ih]
      rfl

theorem components_joined {parts : List (List Char)} (hne : parts ≠ [])
    (h : ∀ part ∈ parts, '/' ∉ part) : components (joined parts) = parts := by
  rw [components_eq_splitOn, joined_eq_intercalate, List.splitOn_intercalate '/' h hne]

theorem slash_not_mem_components (cs : List Char) : ∀ part ∈ components cs, '/' ∉ part := by
  induction cs with
  | nil => simp [components]
  | cons c cs ih =>
    rw [components]
    split
    next h => exact absurd h (components_ne_nil cs)
    next first rest h =>
      rw [h] at ih
      obtain ⟨hfirst, hrest⟩ := List.forall_mem_cons.mp ih
      split
      next => exact List.forall_mem_cons.mpr ⟨List.not_mem_nil, ih⟩
      next hc =>
        refine List.forall_mem_cons.mpr ⟨?_, hrest⟩
        rw [List.mem_cons, not_or]
        exact ⟨fun heq => hc heq.symm, hfirst⟩

theorem components_cons_slash (cs : List Char) : components ('/' :: cs) = [] :: components cs := by
  rw [components]
  split
  next h => exact absurd h (components_ne_nil cs)
  next first rest h => rw [if_pos rfl, h]

/-! ## Following a path -/

/-- A directory: the names that lead to it from the root, from the last to the first. -/
abbrev Directory := List (List Char)

/-- The directory that a component leads to. Above the root there is only the root. -/
def follow (dir : Directory) (part : List Char) : Directory :=
  if part = [] ∨ part = here then dir
  else if part = above then dir.tail
  else part :: dir

/-- Where a path leads from the current directory. -/
def resolve (current : Directory) (path : List Char) : Directory :=
  (path.splitOn '/').foldl follow (if isRooted path then [] else current)

/-! ## The stack of components -/

/-- A component that names a directory or a file. -/
structure IsName (part : List Char) : Prop where
  ne_nil : part ≠ []
  ne_here : part ≠ here
  ne_above : part ≠ above
  slash_not_mem : '/' ∉ part

/-- A stack of components that can not be shortened: names above a run of `..`, which is empty if
the path is rooted. -/
def Tidy (rooted : Bool) (kept : List (List Char)) : Prop :=
  ∃ names n, kept = names ++ List.replicate n above ∧ (∀ name ∈ names, IsName name) ∧
    (rooted = true → n = 0)

namespace Tidy

variable {rooted : Bool} {kept rest : List (List Char)} {part : List Char}

theorem nil : Tidy rooted [] := ⟨[], 0, rfl, List.forall_mem_nil _, fun _ => rfl⟩

theorem cons_name (h : Tidy rooted kept) (hpart : IsName part) : Tidy rooted (part :: kept) := by
  obtain ⟨names, n, rfl, hnames, hn⟩ := h
  exact ⟨part :: names, n, rfl, List.forall_mem_cons.mpr ⟨hpart, hnames⟩, hn⟩

/-- At the top of a stack stands a name, or nothing but `..` is in it. -/
theorem cases_top (h : Tidy rooted (part :: rest)) :
    (IsName part ∧ Tidy rooted rest) ∨
      (rooted = false ∧ ∃ n, part = above ∧ rest = List.replicate n above) := by
  obtain ⟨names, n, hkept, hnames, hn⟩ := h
  cases names with
  | nil =>
    cases n with
    | zero => cases hkept
    | succ n =>
      obtain ⟨hpart, hrest⟩ := List.cons.inj hkept
      exact Or.inr ⟨Bool.eq_false_iff.mpr fun h => Nat.succ_ne_zero n (hn h), n, hpart, hrest⟩
  | cons name names =>
    obtain ⟨rfl, rfl⟩ := List.cons.inj hkept
    obtain ⟨hname, hnames⟩ := List.forall_mem_cons.mp hnames
    exact Or.inl ⟨hname, names, n, rfl, hnames, hn⟩

theorem replicate_above (n : Nat) : Tidy false (List.replicate n above) :=
  ⟨[], n, rfl, List.forall_mem_nil _, nofun⟩

theorem tail (h : Tidy rooted (part :: rest)) : Tidy rooted rest := by
  rcases h.cases_top with ⟨-, h⟩ | ⟨rfl, n, -, rfl⟩
  · exact h
  · exact replicate_above n

theorem push (h : Tidy rooted kept) (hpart : '/' ∉ part) : Tidy rooted (push rooted kept part) := by
  unfold Path.push
  split
  next => exact h
  next hskip =>
    simp only [Bool.or_eq_true, decide_eq_true_eq, not_or] at hskip
    split
    next =>
      cases kept with
      | nil =>
        cases rooted with
        | true => exact nil
        | false => exact replicate_above 1
      | cons last rest =>
        dsimp only
        split
        next habove =>
          rcases h.cases_top with ⟨hname, -⟩ | ⟨rfl, n, -, rfl⟩
          · exact absurd habove hname.ne_above
          · rw [habove]
            exact replicate_above (n + 2)
        next => exact h.tail
    next habove => exact h.cons_name ⟨hskip.1, hskip.2, habove, hpart⟩

/-- Nothing in a stack is an empty component or `.`, and none has a slash in it. -/
theorem forall_mem (h : Tidy rooted kept) :
    ∀ part ∈ kept, part ≠ [] ∧ part ≠ here ∧ '/' ∉ part := by
  obtain ⟨names, n, rfl, hnames, -⟩ := h
  intro part hpart
  rcases List.mem_append.mp hpart with hpart | hpart
  · exact ⟨(hnames part hpart).ne_nil, (hnames part hpart).ne_here,
      (hnames part hpart).slash_not_mem⟩
  · rw [List.eq_of_mem_replicate hpart]
    decide

end Tidy

/-- Where the components of a stack lead from a directory. -/
def placeOf (dir : Directory) (kept : List (List Char)) : Directory :=
  kept.foldr (fun part dir => follow dir part) dir

theorem follow_name {part : List Char} (h : IsName part) (dir : Directory) :
    follow dir part = part :: dir := by
  rw [follow, if_neg (not_or.mpr ⟨h.ne_nil, h.ne_here⟩), if_neg h.ne_above]

/-- One more component leads to where it leads from the place of the stack. A stack of a rooted path
is followed from the root. -/
theorem follow_push {rooted : Bool} {kept : List (List Char)} (h : Tidy rooted kept)
    {dir : Directory} (hdir : rooted = true → dir = []) (part : List Char) :
    placeOf dir (push rooted kept part) = follow (placeOf dir kept) part := by
  unfold push
  split
  next hskip =>
    simp only [Bool.or_eq_true, decide_eq_true_eq] at hskip
    rw [follow, if_pos hskip]
  next =>
    split
    next habove =>
      subst habove
      cases kept with
      | nil =>
        cases rooted with
        | true => rw [hdir rfl]; rfl
        | false => rfl
      | cons last rest =>
        dsimp only
        split
        next => rfl
        next hne =>
          -- a name is left again, and the stack below it leads to where it was entered
          rcases h.cases_top with ⟨hname, -⟩ | ⟨-, n, hlast, -⟩
          · show placeOf dir rest = follow (follow (placeOf dir rest) last) above
            rw [follow_name hname]
            rfl
          · exact absurd hlast hne
    next => rfl

/-- The components of a path, taken one by one, leave a stack that can not be shortened and leads to
where they do. -/
theorem foldl_push {rooted : Bool} {dir : Directory} (hdir : rooted = true → dir = [])
    {parts : List (List Char)} (hparts : ∀ part ∈ parts, '/' ∉ part) :
    ∀ {kept : List (List Char)}, Tidy rooted kept →
      Tidy rooted (parts.foldl (push rooted) kept) ∧
        placeOf dir (parts.foldl (push rooted) kept) = parts.foldl follow (placeOf dir kept) := by
  induction parts with
  | nil => exact fun h => ⟨h, rfl⟩
  | cons part parts ih =>
    intro kept h
    obtain ⟨hpart, hparts⟩ := List.forall_mem_cons.mp hparts
    rw [List.foldl_cons, List.foldl_cons, ← follow_push h hdir part]
    exact ih hparts (h.push hpart)

/-- The components of a stack that can not be shortened are all kept. -/
theorem foldr_push {rooted : Bool} {kept : List (List Char)} (h : Tidy rooted kept) :
    kept.foldr (fun part kept => push rooted kept part) [] = kept := by
  induction kept with
  | nil => rfl
  | cons part rest ih =>
    rw [List.foldr_cons, ih h.tail]
    rcases h.cases_top with ⟨hname, -⟩ | ⟨rfl, n, rfl, rfl⟩
    · simp [push, hname.ne_nil, hname.ne_here, hname.ne_above]
    · cases n with
      | zero => rfl
      | succ n => rfl

/-! ## Normal forms -/

section Normal

variable (cs : List Char)

/-- The stack of a path. -/
def stack : List (List Char) := (components cs).foldl (push (isRooted cs)) []

theorem tidy_stack : Tidy (isRooted cs) (stack cs) :=
  (@foldl_push _ [] (fun _ => rfl) _ (slash_not_mem_components cs) _ .nil).1

theorem normalComponents_eq_reverse : normalComponents cs = (stack cs).reverse := rfl

theorem forall_mem_normalComponents :
    ∀ part ∈ normalComponents cs, part ≠ [] ∧ part ≠ here ∧ '/' ∉ part := fun part hpart =>
  (tidy_stack cs).forall_mem part (List.mem_reverse.mp hpart)

/-- The stack of a path leads to where the path does. -/
theorem foldl_follow_normalComponents {dir : Directory} (hdir : isRooted cs = true → dir = []) :
    (normalComponents cs).foldl follow dir = (components cs).foldl follow dir := by
  rw [normalComponents_eq_reverse, List.foldl_reverse]
  exact (foldl_push hdir (slash_not_mem_components cs) .nil).2

end Normal

/-- A path whose first component is not empty is not rooted. -/
theorem isRooted_joined {parts : List (List Char)}
    (h : ∀ part ∈ parts, part ≠ [] ∧ '/' ∉ part) : isRooted (joined parts) = false := by
  cases parts with
  | nil => rfl
  | cons part rest =>
    obtain ⟨⟨hne, hslash⟩, -⟩ := List.forall_mem_cons.mp h
    obtain ⟨c, part, rfl⟩ := List.exists_cons_of_ne_nil hne
    have hc : c ≠ '/' := fun heq => hslash (heq ▸ List.mem_cons_self)
    cases rest <;> simpa [joined, isRooted] using hc

/-- A cleaned path is the current directory, or a root, if there is one, and the components that are
left, if there are any. -/
theorem cleanChars_cases (cs : List Char) :
    (isRooted cs = true ∧ normalComponents cs = [] ∧ cleanChars cs = ['/']) ∨
    (isRooted cs = true ∧ normalComponents cs ≠ [] ∧
      cleanChars cs = '/' :: joined (normalComponents cs)) ∨
    (isRooted cs = false ∧ normalComponents cs = [] ∧ cleanChars cs = here) ∨
    (isRooted cs = false ∧ normalComponents cs ≠ [] ∧
      cleanChars cs = joined (normalComponents cs)) := by
  unfold cleanChars
  by_cases hempty : normalComponents cs = []
  · cases hroot : isRooted cs <;> simp [hempty, joined]
  · obtain ⟨part, rest, hparts⟩ := List.exists_cons_of_ne_nil hempty
    have hpart : part ≠ [] :=
      (forall_mem_normalComponents cs part (hparts ▸ List.mem_cons_self)).1
    have hjoined : joined (normalComponents cs) ≠ [] := by
      rw [hparts]
      cases rest <;> simp [joined, hpart]
    cases hroot : isRooted cs <;> simp [hempty, hjoined]

theorem isRooted_cleanChars (cs : List Char) : isRooted (cleanChars cs) = isRooted cs := by
  have hjoined : isRooted (joined (normalComponents cs)) = false :=
    isRooted_joined fun part hpart =>
      ⟨(forall_mem_normalComponents cs part hpart).1, (forall_mem_normalComponents cs part hpart).2.2⟩
  rcases cleanChars_cases cs with ⟨h, -, hclean⟩ | ⟨h, -, hclean⟩ | ⟨h, -, hclean⟩ | ⟨h, -, hclean⟩
  · rw [hclean, h]; rfl
  · rw [hclean, h]; rfl
  · rw [hclean, h]; rfl
  · rw [hclean, h, hjoined]

/-- The components of a path behind its root, if it has one. -/
def parts (path : List Char) : List (List Char) :=
  (if isRooted path then path.tail else path).splitOn '/'

theorem parts_cleanChars {cs : List Char} (hne : normalComponents cs ≠ []) :
    parts (cleanChars cs) = normalComponents cs := by
  have hparts := components_joined hne fun part hpart =>
    (forall_mem_normalComponents cs part hpart).2.2
  unfold parts
  rw [isRooted_cleanChars, ← components_eq_splitOn]
  rcases cleanChars_cases cs with ⟨-, h, -⟩ | ⟨h, -, hclean⟩ | ⟨-, h, -⟩ | ⟨h, -, hclean⟩
  · exact absurd h hne
  · rw [h, hclean]; exact hparts
  · exact absurd h hne
  · rw [h, hclean]; exact hparts

/-- Components without an effect stand in a cleaned path only where nothing else is left. -/
theorem foldl_components_cleanChars {α : Type} {f : α → List Char → α} (cs : List Char)
    (hnil : ∀ a, f a [] = a) (hhere : ∀ a, f a here = a) (a : α) :
    (components (cleanChars cs)).foldl f a = (normalComponents cs).foldl f a := by
  have hparts (hne : normalComponents cs ≠ []) := components_joined hne fun part hpart =>
    (forall_mem_normalComponents cs part hpart).2.2
  rcases cleanChars_cases cs with ⟨-, h, hclean⟩ | ⟨-, h, hclean⟩ | ⟨-, h, hclean⟩ | ⟨-, h, hclean⟩
  · rw [hclean, h]
    show f (f a []) [] = a
    rw [hnil, hnil]
  · rw [hclean, components_cons_slash, hparts h, List.foldl_cons, hnil]
  · rw [hclean, h]
    exact hhere a
  · rw [hclean, hparts h]

theorem resolve_cleanChars (dir : Directory) (cs : List Char) :
    resolve dir (cleanChars cs) = resolve dir cs := by
  unfold resolve
  rw [isRooted_cleanChars, ← components_eq_splitOn, ← components_eq_splitOn,
    foldl_components_cleanChars cs (fun _ => rfl) fun _ => rfl]
  refine foldl_follow_normalComponents cs fun hroot => ?_
  rw [if_pos hroot]

theorem normalComponents_cleanChars (cs : List Char) :
    normalComponents (cleanChars cs) = normalComponents cs := by
  have hkept : (normalComponents cs).foldl (push (isRooted cs)) [] = stack cs := by
    rw [normalComponents_eq_reverse, List.foldl_reverse]
    exact foldr_push (tidy_stack cs)
  unfold normalComponents
  rw [isRooted_cleanChars, foldl_components_cleanChars cs (fun _ => rfl) fun _ => rfl, hkept]
  rfl

theorem cleanChars_cleanChars (cs : List Char) : cleanChars (cleanChars cs) = cleanChars cs := by
  show (if isRooted (cleanChars cs) then _ else _) = if isRooted cs then _ else _
  rw [isRooted_cleanChars, normalComponents_cleanChars]

/-- A path in normal form. No component is empty or `.`, unless that is all there is to the path,
and `..` stands only at the front of a path that is not rooted. -/
structure Normal (path : List Char) : Prop where
  effective : path = here ∨ path = ['/'] ∨ ∀ part ∈ parts path, part ≠ [] ∧ part ≠ here
  ascent : ∃ n rest, parts path = List.replicate n above ++ rest ∧ above ∉ rest ∧
    (isRooted path = true → n = 0)

theorem normal_cleanChars (cs : List Char) : Normal (cleanChars cs) := by
  by_cases hempty : normalComponents cs = []
  · have hclean : cleanChars cs = here ∨ cleanChars cs = ['/'] := by
      rcases cleanChars_cases cs with ⟨-, -, h⟩ | ⟨-, h, -⟩ | ⟨-, -, h⟩ | ⟨-, h, -⟩
      · exact Or.inr h
      · exact absurd hempty h
      · exact Or.inl h
      · exact absurd hempty h
    rcases hclean with h | h <;> rw [h]
    · exact ⟨Or.inl rfl, 0, [here], rfl, by decide, fun _ => rfl⟩
    · exact ⟨Or.inr (Or.inl rfl), 0, [[]], rfl, by decide, fun _ => rfl⟩
  · obtain ⟨names, n, hstack, hnames, hn⟩ := tidy_stack cs
    refine ⟨Or.inr (Or.inr ?_), n, names.reverse, ?_, ?_, ?_⟩
    · rw [parts_cleanChars hempty]
      intro part hpart
      obtain ⟨hnil, hhere, -⟩ := forall_mem_normalComponents cs part hpart
      exact ⟨hnil, hhere⟩
    · rw [parts_cleanChars hempty, normalComponents_eq_reverse, hstack, List.reverse_append,
        List.reverse_replicate]
    · exact fun hmem => (hnames above (List.mem_reverse.mp hmem)).ne_above rfl
    · rw [isRooted_cleanChars]
      exact hn

/-- Cleaning a path finds its normal form: it is rooted exactly if the path is, it leads from every
directory to where the path leads, it has no component without an effect and `..` only at the front
where there is no root, and cleaning it once more changes nothing. -/
theorem clean_normalForm (path : String) :
    isRooted (clean path).toList = isRooted path.toList ∧ Normal (clean path).toList ∧
    (∀ dir : Directory, resolve dir (clean path).toList = resolve dir path.toList) ∧
    clean (clean path) = clean path := by
  have hchars : (clean path).toList = cleanChars path.toList := String.toList_ofList
  refine ⟨?_, ?_, fun dir => ?_, ?_⟩
  · rw [hchars, isRooted_cleanChars]
  · rw [hchars]
    exact normal_cleanChars path.toList
  · rw [hchars, resolve_cleanChars]
  · show String.ofList (cleanChars (clean path).toList) = String.ofList (cleanChars path.toList)
    rw [hchars, cleanChars_cleanChars]

end Relational.Path
