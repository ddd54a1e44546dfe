import Relational.Compiler.Basic

/-!
# Sessions of a compiler

A compiler keeps its state from one program to the next. A session is a row of steps, each of which
either reports something deprecated or compiles a program, and each of which is given the state that
the one before it left.
-/

namespace Relational

/-- A step of a session. -/
inductive Session.Step where
  | warn (message : String)
  | compile (path text : String)

/-- How a step of a session ends. A report fails if the sink does, for the reason that it gives. -/
inductive Session.Answer where
  | returned
  | failed (reason : String)
  | compiled (result : Compiled Expr)

namespace Compiler

variable (compiler : Compiler)

/-- Reports something deprecated, unless something was reported before. -/
def warn (message : String) (state : CompilerState) : Session.Answer × CompilerState :=
  match state.diagnostics.warnOnce compiler.sink message with
  | (none, diagnostics) => (.returned, { state with diagnostics })
  | (some reason, diagnostics) => (.failed reason, { state with diagnostics })

/-- Performs a step. -/
def perform (step : Session.Step) (state : CompilerState) : Session.Answer × CompilerState :=
  match step with
  | .warn message => compiler.warn message state
  | .compile path text =>
    (.compiled (compiler.compile path text state).1, (compiler.compile path text state).2)

variable {compiler} {path text : String}

theorem compile_of_error {error : ParseError}
    (h : compiler.grammar text (Path.filename path) = .error error) (state : CompilerState) :
    compiler.compile path text state = (.error (.parse error), state) := by
  unfold compile
  rw [h]

theorem compile_of_ok {tree : Node} (h : compiler.grammar text (Path.filename path) = .ok tree)
    (state : CompilerState) :
    compiler.compile path text state =
      ((tree.lower ⟨Path.directory? path, compiler.modules, compiler.sink⟩ state).1.toCompiled path,
        (tree.lower ⟨Path.directory? path, compiler.modules, compiler.sink⟩ state).2) := by
  unfold compile
  rw [h]

variable (compiler)

/-- Performs the steps of a session one after the other. -/
def session : List Session.Step → CompilerState → List Session.Answer × CompilerState
  | [], state => ([], state)
  | step :: rest, state =>
    let performed := compiler.perform step state
    let followed := session rest performed.2
    (performed.1 :: followed.1, followed.2)

/-- A step is performed in the state that the steps before it left. -/
theorem getElem?_session (steps : List Session.Step) (state : CompilerState) (i : Nat) :
    (compiler.session steps state).1[i]? =
      steps[i]?.map fun step =>
        (compiler.perform step (compiler.session (steps.take i) state).2).1 := by
  induction steps generalizing state i with
  | nil => rfl
  | cons step steps ih =>
    cases i with
    | zero => rfl
    | succ i => exact ih (compiler.perform step state).2 i

end Compiler

end Relational
