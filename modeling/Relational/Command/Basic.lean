import Relational.Command.Arguments
import Relational.Command.Files
import Relational.Compiler.Basic
import Relational.Eval.Basic

/-!
# The command

The command compiles a document and prints the expression, or its value. Wrong arguments end it
with code 2, a failed run with code 1; what went wrong is then the last line it reports. An aborted
evaluation ends it with code 101 and without such a line. A run that goes on without end leaves no
report.
-/

namespace Relational.Command

/-- What a run of the command leaves behind. -/
structure Report where
  code : Nat
  output : String
  /-- What went wrong. -/
  complaint : Option String
  /-- The messages given on the way, with the reason of an abort. -/
  warnings : List String

/-- The report of a run that printed a text. -/
def Report.success (output : String) (warnings : List String) : Report :=
  ⟨0, output, none, warnings⟩

/-- The report of a run that went wrong. -/
def Report.failure (code : Nat) (complaint : String) (warnings : List String) : Report :=
  ⟨code, "", some ("Ошибка: " ++ complaint), warnings⟩

/-- The report of a run that was aborted. -/
def Report.aborted (reason : Abort) (warnings : List String) : Report :=
  ⟨101, "", none, warnings ++ [reason.message]⟩

/-- How the command is used. -/
def helpText : String :=
  "relc - arr.ai syntax tree lowering\n" ++
  "\n" ++
  "Usage:\n" ++
  "  relc tree.json             # Compile and print the expression IR\n" ++
  "  relc tree.json --eval      # Compile and evaluate the expression\n" ++
  "  relc -                     # Read the tree document from stdin\n" ++
  "  relc --help                # Show this help\n" ++
  "  relc --version             # Show version\n" ++
  "\n" ++
  "Options:\n" ++
  "  --path <p>   Source path for local imports (default: input file)\n" ++
  "  --no-path    Source has no directory; local imports are rejected\n" ++
  "  --eval       Evaluate the compiled expression with the reference evaluator\n" ++
  "  --debug      Verbose logging (overrides RUST_LOG)\n" ++
  "\n" ++
  "Input document: \x7b\"source\": \"<program text>\", \"tree\": <syntax tree>\x7d\n"

/-- The version of the command. -/
def versionText : String := "relc v0.3.0\n"

/-- A failure of evaluation with what is below it: after its place, the cause stands once more. -/
def failureChain (f : Failure) : String :=
  match f.span with
  | some _ => f.message ++ ": " ++ f.cause.message
  | none => f.message

/-- A compile error with what is below it. -/
def errorChain (e : CompileError) : String :=
  match e with
  | .module _ reason => e.message ++ ": " ++ reason
  | _ => e.message

/-- The context of a failed reading. -/
def readingContext (options : Options) : String :=
  if options.input = "-" then "reading tree document from stdin" else "reading " ++ options.input

/-- Evaluates a compiled program and reports its value. There is no report of an evaluation that
takes more than the fuel. -/
def evaluateReport (fuel : Nat) (e : Expr) (state : CompilerState) : Option Report :=
  let warnings := state.diagnostics.messages
  match e.eval fuel Scope.empty state.nextIdentity with
  | .done (value, _) => some (.success (value.text ++ "\n") warnings)
  | .failed failure =>
    some (.failure 1 ("evaluating " ++ e.text ++ ": " ++ failureChain failure) warnings)
  | .aborted reason => some (.aborted reason warnings)
  | .exhausted => none

/-- The run that the options ask for, on what was read from the input. There is no report of a run
that does not come to an end. -/
def Options.run (options : Options) (fuel : Nat) (document : Except ReadError String) :
    Option Report :=
  match document with
  | .error e => some (.failure 1 (readingContext options ++ ": " ++ e.message) [])
  | .ok text =>
    match Compiler.standard.compile options.compilePath text .initial with
    | (.error e, state) =>
      some (.failure 1 ("compiling " ++ options.input ++ ": " ++ errorChain e)
        state.diagnostics.messages)
    | (.endless, _) => none
    | (.ok e, state) =>
      if options.evaluate then evaluateReport fuel e state
      else some (.success (e.text ++ "\n") state.diagnostics.messages)

/-- The report of the command in a directory of files, with a text as the standard input. -/
def report (args : List String) (files : Files) (stdin : String) (fuel : Nat) : Option Report :=
  match readArguments args with
  | .error e => some (.failure 2 e.message [])
  | .ok .help => some (.success helpText [])
  | .ok .version => some (.success versionText [])
  | .ok (.run options) =>
    options.run fuel (if options.input = "-" then .ok stdin else files.read options.input)

end Relational.Command
