import Relational.Path

/-!
# Files

A directory of files, given by their relative names. A path is followed from component to
component: every component but the last has to lead to a directory, also before a step up.
-/

namespace Relational.Command

/-- Why an input cannot be read. -/
inductive ReadError where
  | notFound
  | denied
  | notDirectory
  | isDirectory
  | notText
  | other (reason : String)
deriving DecidableEq

/-- The wording of a failed reading. -/
def ReadError.message : ReadError → String
  | .notFound => "No such file or directory (os error 2)"
  | .denied => "Permission denied (os error 13)"
  | .notDirectory => "Not a directory (os error 20)"
  | .isDirectory => "Is a directory (os error 21)"
  | .notText => "stream did not contain valid UTF-8"
  | .other reason => reason

/-- A directory of files: the components of their names, and their contents. A later file takes
the place of an earlier one of its name. -/
structure Files where
  entries : List (List (List Char) × String)

/-- What a path leads to. -/
inductive Place where
  /-- A directory, by its components from the innermost out. -/
  | directory (components : List (List Char))
  /-- A directory outside, of which no files are known. -/
  | outside
  | file (text : String)

namespace Files

/-- The files with the given names. -/
def ofList (files : List (String × String)) : Files :=
  ⟨files.map fun (name, text) => (Path.normalComponents name.toList, text)⟩

/-- What a name leads to from a directory. -/
def enter (files : Files) (directory : List (List Char)) (name : List Char) :
    Except ReadError Place :=
  let path := (name :: directory).reverse
  match files.entries.reverse.find? (·.1 == path) with
  | some (_, text) => .ok (.file text)
  | none =>
    if files.entries.any fun (entry, _) => path.isPrefixOf entry then
      .ok (.directory (name :: directory))
    else .error .notFound

/-- What one more component of a path leads to. -/
def step (files : Files) (place : Place) (part : List Char) : Except ReadError Place :=
  match place with
  | .file _ => .error .notDirectory
  | .outside =>
    if part = [] || part = Path.here || part = Path.above then .ok .outside else .error .notFound
  | .directory components =>
    if part = [] || part = Path.here then .ok place
    else if part = Path.above then
      match components with
      | [] => .ok .outside
      | _ :: up => .ok (.directory up)
    else files.enter components part

/-- What a path leads to. A rooted path starts outside. -/
def find (files : Files) (path : String) : Except ReadError Place :=
  if path.isEmpty then .error .notFound
  else
    let start := if Path.isRooted path.toList then .outside else .directory []
    (Path.components path.toList).foldlM files.step start

/-- The text of a file. -/
def read (files : Files) (path : String) : Except ReadError String :=
  match files.find path with
  | .ok (.file text) => .ok text
  | .ok _ => .error .isDirectory
  | .error e => .error e

end Files

end Relational.Command
