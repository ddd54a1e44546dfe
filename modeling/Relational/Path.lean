/-!
# Paths

Paths are handled as text: components separated by slashes, without a look at any file system.

> `Path.clean` gives the lexical normal form: no empty component and no `.`, and `..` only at the
> front of a path that is not rooted. Both forms lead to the same place from every directory.
-/

namespace Relational.Path

/-- The components of a path, empty ones included. -/
def components : List Char → List (List Char)
  | [] => [[]]
  | c :: cs =>
    match components cs with
    | [] => [[c]]
    | first :: rest => if c = '/' then [] :: first :: rest else (c :: first) :: rest

/-- The component that names the directory itself. -/
def here : List Char := ['.']

/-- The component that names the directory above. -/
def above : List Char := ['.', '.']

/-- Takes one more component. The components kept so far are listed from the last to the first. -/
def push (rooted : Bool) (kept : List (List Char)) (part : List Char) : List (List Char) :=
  if part = [] || part = here then kept
  else if part = above then
    match kept with
    | last :: rest => if last = above then above :: kept else rest
    | [] => if rooted then [] else [above]
  else part :: kept

/-- Whether a path starts at the root. -/
def isRooted (cs : List Char) : Bool := cs.head? == some '/'

/-- The components of the normal form. -/
def normalComponents (cs : List Char) : List (List Char) :=
  ((components cs).foldl (push (isRooted cs)) []).reverse

/-- Components with slashes between them. -/
def joined : List (List Char) → List Char
  | [] => []
  | [part] => part
  | part :: rest => part ++ '/' :: joined rest

theorem components_ne_nil (cs : List Char) : components cs ≠ [] := by
  cases cs with
  | nil => simp [components]
  | cons c cs => rw [components]; split <;> (try split) <;> simp

/-- The normal form of a path, as characters. -/
def cleanChars (cs : List Char) : List Char :=
  let body := joined (normalComponents cs)
  if isRooted cs then '/' :: body else if body.isEmpty then here else body

/-- The normal form of a path. The empty path is the current directory. -/
def clean (path : String) : String := String.ofList (cleanChars path.toList)

/-- The directory of a file: all but the last component. -/
def parent (path : String) : String :=
  let directory := (path.toList.reverse.dropWhile (· != '/')).reverse
  if directory.isEmpty then "." else String.ofList (cleanChars directory)

/-- A file seen from a directory. -/
def join (directory file : String) : String :=
  if directory.isEmpty then clean file
  else if file.isEmpty then clean directory
  else clean (directory ++ "/" ++ file)

/-- The name under which a file appears in messages: rooted paths stay as they are. -/
def filename (path : String) : String := if isRooted path.toList then path else clean path

/-- A text without slashes at its ends. -/
def trimSlashes (s : String) : String :=
  let front := s.toList.dropWhile (· == '/')
  String.ofList (front.reverse.dropWhile (· == '/')).reverse

/-- The path of a source that stands in no directory. -/
def noPath : String := "\x00"

/-- The directory of a source file. There is none for `noPath`. -/
def directory? (path : String) : Option String :=
  if path.isEmpty then some "."
  else if path = noPath then none
  else some (parent path)

end Relational.Path
