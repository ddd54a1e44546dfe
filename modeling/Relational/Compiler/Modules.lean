import Relational.Expr.Basic

/-!
# Modules

A resolver answers imports with expressions. Each request comes with an identity that was not used
before, for a function that the answer may make.

> The answers of a resolver depend on nothing but the request.
-/

namespace Relational

/-- How imports are answered. A refusal has a reason. -/
structure Modules where
  /-- The package of a name. -/
  standardLibrary : Identity → String → Span → Except String Expr
  /-- The function that loads a file of this project, seen from the root or from the file. -/
  localFile : Identity → Bool → Span → Except String Expr
  /-- The function that loads something from elsewhere. -/
  externalContent : Identity → Span → Except String Expr

/-- What a program asked its resolver for. -/
inductive Request where
  | standardLibrary (name : String) (span : Span)
  | localFile (fromRoot : Bool) (span : Span)
  | externalContent (span : Span)

namespace Modules

/-- A function that is to load modules when it is called. -/
def loader (identity : Identity) (name : String) (span : Span) : Expr :=
  .literal (.native identity (.loader name)) span

/-- The resolver that puts loading off until evaluation: the standard library is looked up under
the name `//`, and the functions that load files fail when they are called. -/
def deferred : Modules where
  standardLibrary _ name span := .ok (.dot (.ident "//" span) name span)
  localFile identity fromRoot span :=
    let name := if fromRoot then "import_local_file_from_root" else "import_local_file"
    .ok (loader identity name span)
  externalContent identity span :=
    .ok (loader identity "import_external_content" span)

end Modules

end Relational
