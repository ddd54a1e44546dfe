import Relational.Lowering.Basic
import Relational.Number.Reading

/-!
# Atoms

Names (`ident`), strings (`str`), numbers (`num`), characters (`char`), texts with substitutions
(`xstr`), embedded trees (`embed`) and imports (`package`). All but the substitutions are lowered
without a look at the rest of the program.
-/

namespace Relational.Lowering

/-! ## Tokens -/

/-- A name, or one of the two truth values. -/
def ident (token : Node) : Expr :=
  match token.text with
  | "true" => .literal (.bool true) token.span
  | "false" => .literal (.bool false) token.span
  | name => .ident name token.span

/-- A string literal. -/
def str (token : Node) : Expr := .literal (.string (Text.readLiteral token.text)) token.span

/-- A number. -/
def num (token : Node) : Lowering Expr :=
  match Number.read token.text with
  | .ok x => pure (.literal (.number x) token.span)
  | .error e => malformed token.span (.badNumber token.text e.message)

/-- The characters after the mark that starts a character literal. A mark longer than one byte
hides all of them. -/
def afterMark : List Char → List Char
  | [] => []
  | mark :: rest => if mark.utf8Size = 1 then rest else []

/-- A character literal: the code point of the first character after its mark. -/
def char (token : Node) : Lowering Expr :=
  match Text.unescapeFrom 0 (afterMark token.text.toList) with
  | c :: _ => pure (.literal (.number (Number.ofNat c.toNat)) token.span)
  | [] => malformed token.span (.emptyChar token.text)

/-! ## Texts with substitutions -/

/-- The format of a substitution, without the colons before it. -/
def format? (sexpr : Node) : Option String :=
  match sexpr.one? "fmt" with
  | none => none
  | some fmt =>
    let format := fmt.tokenText.toList.dropWhile (· == ':')
    if format.isEmpty then none else some (String.ofList format)

/-- A part of a text with substitutions. -/
def textPart (lo : Lowerer) (part : Node) : Lowering TextPart :=
  match part.one? "fragment" with
  | some fragment => pure (.text (Text.unescape fragment.tokenText))
  | none => do
    let sexpr ← part.child "sexpr"
    let expr ← lo.expr (← sexpr.child "expr")
    pure (.expr expr (format? sexpr))

/-- A text with substitutions. -/
def xstr (lo : Lowerer) (node subject : Node) : Lowering Expr := do
  let parts ← traverse (textPart lo) (subject.many "part")
  pure (.xstr parts node.span)

/-! ## Embedded trees -/

/-- The tree of another grammar: the expression it stands for, or else the tree as a value. -/
def embed (node : Node) : Lowering Expr := do
  let grammar ← (← node.child "embed").child "subgrammar"
  let tree ← grammar.child "ast"
  match tree.one? "value" with
  | none => pure (.literal tree.toValue tree.span)
  | some value =>
    match value.embedded? with
    | some expr => pure expr
    | none => malformed value.span .notEmbedded

/-! ## Imports -/

/-- The call of a loader with the name of what it has to load. -/
def loaded (span : Span) (loader : Expr) (name : String) : Expr :=
  .call (.package loader span) (.literal (.string name) span) span

/-- A package of the standard library. -/
def standardImport (node std : Node) : Lowering Expr := do
  let marker ← node.child "import"
  let name := (← std.child "IDENT").token
  let span := Span.mergeOr name.span [marker.span, name.span]
  let inner ← request (.standardLibrary name.text span) span
    fun modules identity => modules.standardLibrary identity name.text span
  pure (.package inner name.span)

/-- A file of this project. Its path counts from the directory of the source. -/
def localImport (path : Node) (fromRoot : Bool) : Lowering Expr := do
  let span := path.span
  match ← directory with
  | none => reject (.missingDirectory span path.text)
  | some dir =>
    let loader ← request (.localFile fromRoot span) span
      fun modules identity => modules.localFile identity fromRoot span
    pure (loaded span loader (Path.join dir (Path.trimSlashes path.text)))

/-- Something from elsewhere. -/
def externalImport (path : Node) : Lowering Expr := do
  let span := path.span
  let loader ← request (.externalContent span) span
    fun modules identity => modules.externalContent identity span
  pure (loaded span loader path.text)

/-- An import. A path that starts with a slash is a file of this project. -/
def package (node subject : Node) : Lowering Expr :=
  match subject.one? "std", subject.one? "PKGPATH" with
  | some std, _ => standardImport node std
  | none, some path =>
    if Path.isRooted path.token.text.toList then
      localImport path.token (!subject.has "dot")
    else externalImport path.token
  | none, none => malformed subject.span .badPackage

end Relational.Lowering
