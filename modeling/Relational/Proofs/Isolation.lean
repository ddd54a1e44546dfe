import Relational.Proofs.Session
import Relational.Proofs.TwoRuns

/-!
# Programs of a session do not influence each other

A compiler hands three things on from one program to the next: whether something deprecated was
reported, the requests for modules, and the next identity. The report is made or left out in the
middle of the lowering, but what is lowered does not depend on it. Nothing reads the requests, and
an identity is given to a resolver only:

> `Compiler.compile_isolated`: where the sink does not fail and the resolver answers by the request,
> the result of each program of a session is the one that the program has alone, but for the
> identities of its loaders.
-/

namespace Relational

/-- The answers of a resolver depend on nothing but the request, but for the identities of the
loaders that it makes. -/
def Modules.Consistent (modules : Modules) : Prop :=
  ∀ (asked : Request) (i j : Identity),
    Tally Eq Expr.SameButLoaders (asked.ask modules i) (asked.ask modules j)

theorem Modules.deferred_consistent : Modules.deferred.Consistent := by
  intro asked i j
  cases asked with
  | standardLibrary => exact .ok rfl
  | localFile => exact .ok rfl
  | externalContent => exact .ok rfl

/-- The same tree, lowered from any two states. -/
def Runs.anywhere (setting : Setting) : Runs where
  node := Eq
  expr := Expr.SameButLoaders
  pattern := Pattern.SameButLoaders
  error := Eq
  state _ _ := True
  setting := setting

theorem Runs.anywhere_lawful {setting : Setting} (hsink : setting.sink = .recording)
    (hmodules : setting.modules.Consistent) : (Runs.anywhere setting).Lawful where
  nodes := Sides.nodes_eq rfl fun _ => rfl
  congruent := Sides.congruent_sameBut _
  observed := Sides.observed_sameButLoaders
  height h := congrArg Node.height h
  errorRefl _ := rfl
  defect h _ _ := by rw [show _ = _ from h]; rfl
  answers _ asked := hmodules asked _ _
  noted _ _ := True.intro
  warn := Runs.warn_of_recording hsink fun _ _ => True.intro

namespace Compiler

variable {compiler : Compiler}

/-- The result of a program does not depend on the state that the compiler is in. -/
theorem compile_anywhere (hsink : compiler.sink = .recording)
    (hmodules : compiler.modules.Consistent) (path text : String) (state state' : CompilerState) :
    (compiler.compile path text state).1.Tally Eq Expr.SameButLoaders
      (compiler.compile path text state').1 := by
  cases hgrammar : compiler.grammar text (Path.filename path) with
  | error error =>
    rw [compile_of_error hgrammar, compile_of_error hgrammar]
    exact .error rfl
  | ok tree =>
    have L : (Runs.anywhere ⟨Path.directory? path, compiler.modules, compiler.sink⟩).Lawful :=
      Runs.anywhere_lawful hsink hmodules
    have htally := L.lower (n := tree) rfl state state' True.intro
    rw [compile_of_ok hgrammar, compile_of_ok hgrammar]
    exact htally.fst.toCompiled (fun _ => rfl) path

/-- In a session with a sink that does not fail and a resolver that answers by the request, each
program has the result that it has alone, in a compiler of its own. Neither the programs before it
nor a report before it matter. -/
theorem compile_isolated (hsink : compiler.sink = .recording)
    (hmodules : compiler.modules.Consistent) (steps : List Session.Step) (state : CompilerState)
    {i : Nat} {path text : String} (hi : steps[i]? = some (.compile path text)) :
    ∃ result, (compiler.session steps state).1[i]? = some (.compiled result) ∧
      result.Tally Eq Expr.SameButLoaders (compiler.compile path text .initial).1 := by
  refine ⟨(compiler.compile path text (compiler.session (steps.take i) state).2).1, ?_, ?_⟩
  · rw [getElem?_session, hi]
    rfl
  · exact compile_anywhere hsink hmodules path text _ _

end Compiler

namespace Samples

/-- A tree that asks for content from elsewhere, and the expression that it is lowered to. -/
def importing : Node :=
  .branch [("pkg", .one (.branch [("PKGPATH", .one (.leaf .unknown))] .unknown))] .unknown

@[inherit_doc importing]
def imported (identity : Identity) : Expr :=
  Lowering.loaded .unknown (Modules.loader identity "import_external_content" .unknown) ""

/-- The loader of the second program is not the loader of a program that is compiled alone, and
nothing else differs. -/
theorem compile_isolated_importing :
    let compiler : Compiler := ⟨fun _ _ => .ok importing, .deferred, .recording⟩
    let steps : List Session.Step := [.compile "p" "", .warn "w", .compile "p" ""]
    (compiler.session steps .initial).1[2]? = some (.compiled (.ok (imported 1))) ∧
      (compiler.compile "p" "" .initial).1 = .ok (imported 0) ∧
      (imported 1).SameButLoaders (imported 0) ∧ imported 1 ≠ imported 0 := by
  intro compiler steps
  have hsession : (compiler.session steps .initial).1[2]? =
      some (.compiled (.ok (imported 1))) := rfl
  have halone : (compiler.compile "p" "" .initial).1 = .ok (imported 0) := rfl
  have hsink : compiler.sink = .recording := rfl
  obtain ⟨result, hresult, h⟩ := Compiler.compile_isolated hsink Modules.deferred_consistent steps
    .initial (show steps[2]? = some (.compile "p" "") from rfl)
  rw [hsession] at hresult
  cases hresult
  rw [halone] at h
  cases h with
  | ok h =>
    refine ⟨hsession, halone, h, fun heq => ?_⟩
    cases heq

end Samples

end Relational
