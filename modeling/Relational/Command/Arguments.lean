import Relational.Path
import Relational.Text.Quoted

/-!
# Arguments of the command

Arguments are read from left to right. Asking for help or for the version ends the reading, so an
error counts only if it stands before.

> The input is named once. The mark for the standard input is an exception: it takes the place of
> a name before it.
-/

namespace Relational.Command

/-- What a run of the command is asked to do. -/
structure Options where
  /-- The file to read, or `-` for the standard input. -/
  input : String
  /-- The path that the program is compiled under, if it is not that of the input. -/
  path : Option String
  evaluate : Bool
  verbose : Bool
deriving DecidableEq

/-- What the arguments ask for. -/
inductive Action where
  | run (options : Options)
  | help
  | version
deriving DecidableEq

/-- What is wrong with the arguments. -/
inductive UsageError where
  | pathWithoutValue
  | unknownOption (option : String)
  | secondInput (input : String)
  | noInput
deriving DecidableEq

/-- The wording of an error in the arguments. -/
def UsageError.message : UsageError → String
  | .pathWithoutValue => "--path requires a value"
  | .unknownOption option => "unknown option: " ++ option ++ " (see --help)"
  | .secondInput input => "only one input file is accepted, got extra " ++ Text.quoted input
  | .noInput => "no input file (see --help)"

/-- The options read so far. -/
structure Draft where
  input : Option String
  path : Option String
  evaluate : Bool
  verbose : Bool

/-- The options before any argument. -/
def Draft.initial : Draft := ⟨none, none, false, false⟩

/-- Reads the arguments after those that made the draft. -/
def readFrom (draft : Draft) : List String → Except UsageError Action
  | [] =>
    match draft.input with
    | some input => .ok (.run ⟨input, draft.path, draft.evaluate, draft.verbose⟩)
    | none => .error .noInput
  | arg :: rest =>
    if arg = "-h" || arg = "--help" then .ok .help
    else if arg = "-v" || arg = "--version" then .ok .version
    else if arg = "--eval" then readFrom { draft with evaluate := true } rest
    else if arg = "--debug" then readFrom { draft with verbose := true } rest
    else if arg = "--no-path" then readFrom { draft with path := some Path.noPath } rest
    else if arg = "--path" then
      match rest with
      | [] => .error .pathWithoutValue
      | path :: rest => readFrom { draft with path := some path } rest
    else if arg = "-" then readFrom { draft with input := some "-" } rest
    else if arg.toList.head? = some '-' then .error (.unknownOption arg)
    else
      match draft.input with
      | some _ => .error (.secondInput arg)
      | none => readFrom { draft with input := some arg } rest

/-- What a list of arguments asks for. -/
def readArguments (args : List String) : Except UsageError Action := readFrom .initial args

/-- The path that a program is compiled under. What comes from the standard input has none of its
own. -/
def Options.compilePath (options : Options) : String :=
  match options.path with
  | some path => path
  | none => if options.input = "-" then "" else options.input

end Relational.Command
