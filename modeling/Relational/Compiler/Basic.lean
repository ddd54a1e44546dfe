import Relational.Lowering.Expr

/-!
# Compilation

A compiler reads a document, lowers its tree and keeps its state for the next program: the latch
of its diagnostics, the requests for modules and the supply of identities.

> Compilation ends with an expression or an error, or it does not end: a function without a pattern
> is asked for its pattern over and over. A sink that fails is an internal error, which names the
> path of the program.
-/

namespace Relational

/-- What compiling comes to. -/
inductive Compiled (α : Type) where
  | ok (result : α)
  | error (error : CompileError)
  /-- There is no answer, since lowering goes on without end. -/
  | endless
deriving DecidableEq

/-- What compiling comes to when lowering ends in the given way. A failure of the sink names the
program. The fuel of lowering is enough for all that ends, so what exhausts it does not. -/
def Ending.toCompiled {α : Type} (path : String) : Ending α → Compiled α
  | .done result => .ok result
  | .rejected error => .error error
  | .sinkFailed reason =>
    .error (.internal ("compiling " ++ Text.quoted path ++ ": " ++ reason))
  | .exhausted => .endless

/-- A compiler: its grammar, its resolver of imports, and the sink of its diagnostics. -/
structure Compiler where
  /-- Reads a text under a file name. -/
  grammar : String → String → Except ParseError Node
  modules : Modules
  sink : Sink

namespace Compiler

/-- The compiler of documents, which puts off the loading of modules. -/
def standard : Compiler := ⟨Document.parse, .deferred, .recording⟩

/-- Lowers a tree that was read in a directory. -/
def compileTree (compiler : Compiler) (directory : Option String) (tree : Node)
    (state : CompilerState) : Compiled Expr × CompilerState :=
  let (ending, state) := tree.lower ⟨directory, compiler.modules, compiler.sink⟩ state
  (ending.toCompiled tree.span.filename, state)

/-- Compiles a program. The path gives its directory and the name in messages. -/
def compile (compiler : Compiler) (path text : String) (state : CompilerState) :
    Compiled Expr × CompilerState :=
  match compiler.grammar text (Path.filename path) with
  | .error error => (.error (.parse error), state)
  | .ok tree =>
    let setting : Setting := ⟨Path.directory? path, compiler.modules, compiler.sink⟩
    let (ending, state) := tree.lower setting state
    (ending.toCompiled path, state)

/-- Compiles a pattern of its own, that stands in a file of the given name. -/
def compilePattern (compiler : Compiler) (filename : String) (directory : Option String)
    (text : String) (state : CompilerState) : Compiled Pattern × CompilerState :=
  match compiler.grammar text filename with
  | .error error => (.error (.parse error), state)
  | .ok tree =>
    let (ending, state) := tree.lowerPattern ⟨directory, compiler.modules, compiler.sink⟩ state
    (ending.toCompiled filename, state)

end Compiler

end Relational
