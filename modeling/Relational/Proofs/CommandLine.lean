import Mathlib.Data.List.Induction
import Relational.Command.Arguments

/-!
# Inputs on the command line

The arguments are a row of words: an argument by itself, or `--path` with the value that follows it.
Words are read one by one, and the reading ends at the first word that asks for help or for the
version, or that is wrong.

> `Clean`: words that are read to the end. All options are known and have their values, and every
> input after the first one is the mark for the standard input.

> `readArguments_inputs`: a run is asked for exactly if the words are clean and one of them is an
> input; it reads the last one. Everything else ends at the first word that is not clean, or for
> want of an input. So the input is the only one, unless the mark for the standard input follows
> another.
-/

namespace Relational.Command

/-! ## Words -/

/-- An argument, with the value that it takes. -/
inductive Word where
  | help
  | version
  | evaluate
  | verbose
  | noPath
  /-- The path, unless its value is missing at the end of the arguments. -/
  | path (value : Option String)
  | input (name : String)
  | unknown (option : String)
deriving DecidableEq

/-- The word of an argument without a value. An input is the mark for the standard input, or does
not start as an option does. -/
def Word.ofArgument (arg : String) : Word :=
  if arg = "-h" || arg = "--help" then .help
  else if arg = "-v" || arg = "--version" then .version
  else if arg = "--eval" then .evaluate
  else if arg = "--debug" then .verbose
  else if arg = "--no-path" then .noPath
  else if arg = "-" || arg.toList.head? ≠ some '-' then .input arg
  else .unknown arg

/-- The words of a list of arguments. -/
def words : List String → List Word
  | [] => []
  | arg :: rest =>
    if arg = "--path" then
      match rest with
      | [] => [.path none]
      | value :: rest => .path (some value) :: words rest
    else .ofArgument arg :: words rest

/-- The name of an input. -/
def Word.input? : Word → Option String
  | .input name => some name
  | _ => none

/-- The path that an option asks for. -/
def Word.path? : Word → Option String
  | .noPath => some Path.noPath
  | .path value => value
  | _ => none

/-- The inputs among words, in order. -/
def inputs (ws : List Word) : List String := ws.filterMap Word.input?

/-- A word that is an input or a known option with its value. -/
def Word.Known (w : Word) : Prop :=
  w ≠ .help ∧ w ≠ .version ∧ w ≠ .path none ∧ ∀ option, w ≠ .unknown option

/-- Words that are read to the end: inputs and known options with their values, where every input
after the first one is the mark for the standard input. -/
structure Clean (ws : List Word) : Prop where
  known : ∀ w ∈ ws, w.Known
  inputs : ∀ i ∈ (inputs ws).tail, i = "-"

/-- A word ends the reading after the words before it. -/
inductive Ends (before : List Word) : Word → Except UsageError Action → Prop
  | help : Ends before .help (.ok .help)
  | version : Ends before .version (.ok .version)
  | pathWithoutValue : Ends before (.path none) (.error .pathWithoutValue)
  | unknownOption (option : String) :
      Ends before (.unknown option) (.error (.unknownOption option))
  | secondInput {name : String} (hname : name ≠ "-") (h : inputs before ≠ []) :
      Ends before (.input name) (.error (.secondInput name))

/-! ## Reading word by word -/

namespace Draft

variable (draft : Draft)

/-- The options after one more word. -/
def after : Word → Draft
  | .evaluate => { draft with evaluate := true }
  | .verbose => { draft with verbose := true }
  | .noPath => { draft with path := some Path.noPath }
  | .path (some value) => { draft with path := some value }
  | .input name => { draft with input := some name }
  | _ => draft

/-- How a word ends the reading, if it does. -/
def ending? : Word → Option (Except UsageError Action)
  | .help => some (.ok .help)
  | .version => some (.ok .version)
  | .path none => some (.error .pathWithoutValue)
  | .unknown option => some (.error (.unknownOption option))
  | .input name =>
    if name ≠ "-" ∧ draft.input.isSome then some (.error (.secondInput name)) else none
  | _ => none

/-- What is asked for when all words are read. -/
def finish : Except UsageError Action :=
  match draft.input with
  | some input => .ok (.run ⟨input, draft.path, draft.evaluate, draft.verbose⟩)
  | none => .error .noInput

end Draft

/-- Reads the words after those that made the draft. -/
def readWords (draft : Draft) : List Word → Except UsageError Action
  | [] => draft.finish
  | w :: ws =>
    match draft.ending? w with
    | some result => result
    | none => readWords (draft.after w) ws

theorem words_cons {arg : String} (h : arg ≠ "--path") (rest : List String) :
    words (arg :: rest) = .ofArgument arg :: words rest := by
  rw [words.eq_def]
  exact if_neg h

theorem readWords_of_ending {draft : Draft} {w : Word} {result : Except UsageError Action}
    (h : draft.ending? w = some result) (ws : List Word) : readWords draft (w :: ws) = result := by
  rw [readWords, h]

theorem readWords_of_none {draft : Draft} {w : Word} (h : draft.ending? w = none) (ws : List Word) :
    readWords draft (w :: ws) = readWords (draft.after w) ws := by
  rw [readWords, h]

/-- What is no option is an input, or unknown. -/
theorem Word.ofArgument_of_not_option {arg : String}
    (hhelp : ¬(arg = "-h" || arg = "--help") = true)
    (hversion : ¬(arg = "-v" || arg = "--version") = true) (heval : arg ≠ "--eval")
    (hdebug : arg ≠ "--debug") (hnoPath : arg ≠ "--no-path") (hdash : arg ≠ "-") :
    Word.ofArgument arg = if arg.toList.head? = some '-' then .unknown arg else .input arg := by
  rw [Word.ofArgument, if_neg hhelp, if_neg hversion, if_neg heval, if_neg hdebug, if_neg hnoPath,
    decide_eq_false hdash, Bool.false_or]
  split <;> simp_all

/-- Reading the arguments is reading their words. -/
theorem readFrom_eq_readWords (draft : Draft) (args : List String) :
    readFrom draft args = readWords draft (words args) := by
  fun_induction readFrom draft args with
  | case1 draft input h | case2 draft h => rw [words, readWords, Draft.finish, h]
  | case3 draft arg rest h =>
    have hword : Word.ofArgument arg = .help := if_pos h
    rw [words_cons, hword, readWords_of_ending rfl]
    rintro rfl
    exact absurd h (by decide)
  | case4 draft arg rest hhelp h =>
    have hword : Word.ofArgument arg = .version := by rw [Word.ofArgument, if_neg hhelp, if_pos h]
    rw [words_cons, hword, readWords_of_ending rfl]
    rintro rfl
    exact absurd h (by decide)
  | case5 draft rest _ _ ih | case6 draft rest _ _ _ ih | case7 draft rest _ _ _ _ ih =>
    rw [words_cons (by decide), ih]
    rfl
  | case8 draft => rfl
  | case9 draft value rest _ _ _ _ _ ih =>
    rw [ih]
    rfl
  | case10 draft rest _ _ _ _ _ _ ih =>
    rw [words_cons (by decide), ih]
    rfl
  | case11 draft arg rest hhelp hversion heval hdebug hnoPath hpath hdash hoption =>
    rw [words_cons hpath,
      Word.ofArgument_of_not_option hhelp hversion heval hdebug hnoPath hdash, if_pos hoption,
      readWords_of_ending rfl]
  | case12 draft arg rest hhelp hversion heval hdebug hnoPath hpath hdash hoption input hinput =>
    have hending : draft.ending? (.input arg) = some (.error (.secondInput arg)) :=
      if_pos ⟨hdash, by rw [hinput]; rfl⟩
    rw [words_cons hpath,
      Word.ofArgument_of_not_option hhelp hversion heval hdebug hnoPath hdash, if_neg hoption,
      readWords_of_ending hending]
  | case13 draft arg rest hhelp hversion heval hdebug hnoPath hpath hdash hoption hinput ih =>
    have hending : draft.ending? (.input arg) = none :=
      if_neg fun h => by rw [hinput] at h; exact absurd h.2 (by decide)
    rw [words_cons hpath,
      Word.ofArgument_of_not_option hhelp hversion heval hdebug hnoPath hdash, if_neg hoption,
      readWords_of_none hending, ih]
    rfl

/-! ## Words that are read to the end -/

/-- The options that words ask for. Of inputs and of paths the last one counts. -/
theorem foldl_after (ws : List Word) : ws.foldl Draft.after .initial =
    ⟨(inputs ws).getLast?, (ws.filterMap Word.path?).getLast?, decide (.evaluate ∈ ws),
      decide (.verbose ∈ ws)⟩ := by
  induction ws using List.reverseRecOn with
  | nil => rfl
  | append_singleton ws w ih =>
    rw [List.foldl_append, ih, inputs, inputs, List.filterMap_append, List.filterMap_append]
    rcases w with _ | _ | _ | _ | _ | (_ | _) | _ | _ <;>
      simp [Draft.after, Word.input?, Word.path?]

theorem ending?_eq_some_iff {before : List Word} {w : Word} {result : Except UsageError Action} :
    (before.foldl Draft.after .initial).ending? w = some result ↔ Ends before w result := by
  rw [foldl_after]
  constructor
  · intro h
    unfold Draft.ending? at h
    split at h
    next => exact Option.some.inj h ▸ .help
    next => exact Option.some.inj h ▸ .version
    next => exact Option.some.inj h ▸ .pathWithoutValue
    next option => exact Option.some.inj h ▸ .unknownOption option
    next name =>
      split at h
      next hsecond =>
        exact Option.some.inj h ▸ .secondInput hsecond.1 (List.getLast?_isSome.mp hsecond.2)
      next => cases h
    next => cases h
  · intro h
    cases h with
    | help | version | pathWithoutValue | unknownOption => rfl
    | secondInput hname h => exact if_pos ⟨hname, List.getLast?_isSome.mpr h⟩

/-- An input that is not the first one of some words was there before, or it comes last. -/
theorem mem_tail_inputs_concat_iff {before : List Word} {w : Word} {i : String} :
    i ∈ (inputs (before ++ [w])).tail ↔
      i ∈ (inputs before).tail ∨ inputs before ≠ [] ∧ w = .input i := by
  have hinputs : inputs (before ++ [w]) = inputs before ++ inputs [w] := List.filterMap_append
  have hlast : i ∈ inputs [w] ↔ w = .input i := by
    cases w <;> simp [inputs, Word.input?, eq_comm]
  have htail : (inputs [w]).tail = [] := by cases w <;> rfl
  rw [hinputs, ← hlast]
  cases inputs before with
  | nil => simp [htail]
  | cons first others => simp

/-- The reading goes on after a known word, unless it is one input too many. -/
theorem not_ends_iff {before : List Word} {w : Word} : (∀ result, ¬Ends before w result) ↔
    w.Known ∧ ∀ i, inputs before ≠ [] ∧ w = .input i → i = "-" := by
  constructor
  · intro h
    refine ⟨⟨?_, ?_, ?_, ?_⟩, ?_⟩
    · rintro rfl
      exact h _ .help
    · rintro rfl
      exact h _ .version
    · rintro rfl
      exact h _ .pathWithoutValue
    · rintro option rfl
      exact h _ (.unknownOption option)
    · rintro i ⟨hbefore, rfl⟩
      exact Classical.byContradiction fun hne => h _ (.secondInput hne hbefore)
  · rintro ⟨⟨hhelp, hversion, hpath, hunknown⟩, hinput⟩ result hends
    cases hends with
    | help => exact hhelp rfl
    | version => exact hversion rfl
    | pathWithoutValue => exact hpath rfl
    | unknownOption option => exact hunknown option rfl
    | secondInput hname hbefore => exact hname (hinput _ ⟨hbefore, rfl⟩)

/-- A word after clean ones is clean as well, unless it ends the reading. -/
theorem clean_concat_iff {before : List Word} {w : Word} :
    Clean (before ++ [w]) ↔ Clean before ∧ ∀ result, ¬Ends before w result := by
  rw [not_ends_iff]
  constructor
  · rintro ⟨hknown, hinputs⟩
    obtain ⟨hbefore, hw⟩ := List.forall_mem_append.mp hknown
    refine ⟨⟨hbefore, fun i hi => ?_⟩, List.forall_mem_singleton.mp hw, fun i hi => ?_⟩
    · exact hinputs i (mem_tail_inputs_concat_iff.mpr (.inl hi))
    · exact hinputs i (mem_tail_inputs_concat_iff.mpr (.inr hi))
  · rintro ⟨⟨hbefore, hinputs⟩, hw, hinput⟩
    refine ⟨List.forall_mem_append.mpr ⟨hbefore, List.forall_mem_singleton.mpr hw⟩, fun i hi => ?_⟩
    exact (mem_tail_inputs_concat_iff.mp hi).elim (hinputs i) (hinput i)

/-- Clean words are read to their end, whatever follows. -/
theorem readWords_append {before : List Word} (h : Clean before) (ws : List Word) :
    readWords .initial (before ++ ws) = readWords (before.foldl Draft.after .initial) ws := by
  induction before using List.reverseRecOn generalizing ws with
  | nil => rfl
  | append_singleton before w ih =>
    obtain ⟨hbefore, hends⟩ := clean_concat_iff.mp h
    have hending : (before.foldl Draft.after .initial).ending? w = none :=
      Option.eq_none_iff_forall_ne_some.mpr fun result hresult =>
        hends result (ending?_eq_some_iff.mp hresult)
    rw [List.append_assoc, ih hbefore, List.singleton_append, readWords_of_none hending,
      List.foldl_append]
    rfl

/-- Words are clean, or there is a first one that ends the reading. -/
theorem clean_or_ends (ws : List Word) : Clean ws ∨
    ∃ before w after result, ws = before ++ w :: after ∧ Clean before ∧ Ends before w result := by
  induction ws using List.reverseRecOn with
  | nil => exact .inl ⟨List.forall_mem_nil _, List.forall_mem_nil _⟩
  | append_singleton ws w ih =>
    rcases ih with hclean | ⟨before, v, after, result, rfl, hclean, hends⟩
    · by_cases hends : ∃ result, Ends ws w result
      · obtain ⟨result, hends⟩ := hends
        exact .inr ⟨ws, w, [], result, rfl, hclean, hends⟩
      · exact .inl (clean_concat_iff.mpr ⟨hclean, not_exists.mp hends⟩)
    · exact .inr ⟨before, v, after ++ [w], result, by simp, hclean, hends⟩

/-! ## What the arguments ask for -/

/-- The options that words ask for: of inputs and of paths the last one, and all marks. -/
structure AskFor (ws : List Word) (o : Options) : Prop where
  input : (inputs ws).getLast? = some o.input
  path : (ws.filterMap Word.path?).getLast? = o.path
  evaluate : decide (.evaluate ∈ ws) = o.evaluate
  verbose : decide (.verbose ∈ ws) = o.verbose

theorem finish_eq_run_iff {ws : List Word} {o : Options} :
    (ws.foldl Draft.after .initial).finish = .ok (.run o) ↔ AskFor ws o := by
  rw [foldl_after, Draft.finish]
  dsimp only
  constructor
  · intro h
    split at h
    next i hi =>
      cases h
      exact ⟨hi, rfl, rfl, rfl⟩
    next => cases h
  · rintro ⟨hinput, hpath, hevaluate, hverbose⟩
    rw [hinput, hpath, hevaluate, hverbose]

theorem finish_eq_error_iff {ws : List Word} {e : UsageError} :
    (ws.foldl Draft.after .initial).finish = .error e ↔ inputs ws = [] ∧ e = .noInput := by
  rw [foldl_after, Draft.finish, ← List.getLast?_eq_none_iff]
  dsimp only
  cases (inputs ws).getLast? with
  | none => simp [eq_comm]
  | some i => simp

section

variable {args : List String}

theorem readArguments_of_clean (h : Clean (words args)) :
    readArguments args = ((words args).foldl Draft.after .initial).finish := by
  have happend := readWords_append h []
  rw [List.append_nil, ← readFrom_eq_readWords] at happend
  exact happend

theorem readArguments_of_ends {before after : List Word} {w : Word}
    {result : Except UsageError Action} (hwords : words args = before ++ w :: after)
    (hclean : Clean before) (hends : Ends before w result) : readArguments args = result := by
  rw [readArguments, readFrom_eq_readWords, hwords, readWords_append hclean]
  exact readWords_of_ending (ending?_eq_some_iff.mpr hends) after

theorem readArguments_eq_run_iff {o : Options} :
    readArguments args = .ok (.run o) ↔ Clean (words args) ∧ AskFor (words args) o := by
  constructor
  · intro h
    rcases clean_or_ends (words args) with hclean | ⟨before, w, after, r, hwords, hclean, hends⟩
    · rw [readArguments_of_clean hclean, finish_eq_run_iff] at h
      exact ⟨hclean, h⟩
    · rw [readArguments_of_ends hwords hclean hends] at h
      rw [h] at hends
      cases hends
  · rintro ⟨hclean, hasks⟩
    rw [readArguments_of_clean hclean, finish_eq_run_iff]
    exact hasks

theorem readArguments_eq_error_iff {e : UsageError} : readArguments args = .error e ↔
    (∃ before w after, words args = before ++ w :: after ∧ Clean before ∧
      Ends before w (.error e)) ∨
    Clean (words args) ∧ inputs (words args) = [] ∧ e = .noInput := by
  constructor
  · intro h
    rcases clean_or_ends (words args) with hclean | ⟨before, w, after, r, hwords, hclean, hends⟩
    · rw [readArguments_of_clean hclean, finish_eq_error_iff] at h
      exact .inr ⟨hclean, h⟩
    · obtain rfl := (readArguments_of_ends hwords hclean hends).symm.trans h
      exact .inl ⟨before, w, after, hwords, hclean, hends⟩
  · rintro (⟨before, w, after, hwords, hclean, hends⟩ | ⟨hclean, hnone⟩)
    · exact readArguments_of_ends hwords hclean hends
    · rw [readArguments_of_clean hclean, finish_eq_error_iff]
      exact hnone

/-- If nothing is run, something was asked for before the first error, or there is one. -/
theorem readArguments_cases (args : List String) : (∃ o, readArguments args = .ok (.run o)) ∨
    (∃ before w after, words args = before ++ w :: after ∧ Clean before ∧
      (w = .help ∨ w = .version)) ∨ ∃ e, readArguments args = .error e := by
  rcases clean_or_ends (words args) with hclean | ⟨before, w, after, r, hwords, hclean, hends⟩
  · rw [readArguments_of_clean hclean, Draft.finish]
    split
    next => exact .inl ⟨_, rfl⟩
    next => exact .inr (.inr ⟨_, rfl⟩)
  · have hresult := readArguments_of_ends hwords hclean hends
    cases hends with
    | help => exact .inr (.inl ⟨before, _, after, hwords, hclean, .inl rfl⟩)
    | version => exact .inr (.inl ⟨before, _, after, hwords, hclean, .inr rfl⟩)
    | _ => exact .inr (.inr ⟨_, hresult⟩)

end

/-- What a list of arguments asks for.

* A run is asked for exactly if the words are clean and one of them is an input. Its input is the
  last one, and it is the only one unless the mark for the standard input follows another input.
* An error is that of the first word that is not clean, or the want of an input.
* All other lists ask for help or for the version before the first error. -/
theorem readArguments_inputs (args : List String) :
    (∀ o, readArguments args = .ok (.run o) ↔ Clean (words args) ∧ AskFor (words args) o) ∧
    (∀ o, readArguments args = .ok (.run o) → "-" ∉ (inputs (words args)).tail →
      inputs (words args) = [o.input]) ∧
    (∀ e, readArguments args = .error e ↔
      (∃ before w after, words args = before ++ w :: after ∧ Clean before ∧
        Ends before w (.error e)) ∨
      Clean (words args) ∧ inputs (words args) = [] ∧ e = .noInput) ∧
    ((∃ o, readArguments args = .ok (.run o)) ∨
      (∃ before w after, words args = before ++ w :: after ∧ Clean before ∧
        (w = .help ∨ w = .version)) ∨
      ∃ e, readArguments args = .error e) := by
  refine ⟨fun o => readArguments_eq_run_iff, fun o h hdash => ?_,
    fun e => readArguments_eq_error_iff, readArguments_cases args⟩
  obtain ⟨hclean, hasks⟩ := readArguments_eq_run_iff.mp h
  have hinput := hasks.input
  have hmarks := hclean.inputs
  cases hinputs : inputs (words args) with
  | nil =>
    rw [hinputs] at hinput
    cases hinput
  | cons first others =>
    rw [hinputs] at hinput hmarks hdash
    cases others with
    | nil =>
      obtain rfl : first = o.input := Option.some.inj hinput
      rfl
    | cons second others =>
      -- an input after the first one can only be the mark
      exact absurd (hmarks second List.mem_cons_self ▸ List.mem_cons_self) hdash

/-- The value of an option is no input, whatever it looks like. -/
theorem readArguments_inputs_path :
    let args := ["--path", "-", "a.json", "--eval"]
    readArguments args = .ok (.run ⟨"a.json", some "-", true, false⟩) ∧
      inputs (words args) = ["a.json"] := by
  intro args
  have hrun : readArguments args = .ok (.run ⟨"a.json", some "-", true, false⟩) := by
    decide +kernel
  exact ⟨hrun, (readArguments_inputs args).2.1 _ hrun (by decide +kernel)⟩

/-- The mark for the standard input after the name of a file takes the place of that name, although
the other way around the name is one input too many. -/
theorem readArguments_two_inputs :
    inputs (words ["a.json", "-"]) = ["a.json", "-"] ∧
    readArguments ["a.json", "-"] = .ok (.run ⟨"-", none, false, false⟩) ∧
    readArguments ["-", "a.json"] = .error (.secondInput "a.json") := by
  decide +kernel

end Relational.Command
