import ReactiveModel.Imports.Reference
import ReactiveModel.Imports.Symbols
import ReactiveModel.Source.ReadFile
import ReactiveModel.Text.Path
import ReactiveModel.Text.Utf8

/-! Which imports a file needs: packages of the standard library and what other files of the
directory import may be added where they declare what is used, and imports that are not used are
left out. -/

namespace ReactiveModel.Imports

open Source

/-- An import by the name that it gives to a package, if any, and the path as it is written. -/
structure Line where
  name : Option String := none
  path : String
deriving DecidableEq, Inhabited

namespace Line

def isNameChar (c : Char) : Bool :=
  c.isAlphanum || c == '_' || (0x80 ≤ c.toNat && (Text.isLetter c || Text.isDigit c))

/-- A number of 64 bits behind a letter v, as the last element of versioned paths. -/
def isVersion (s : String) : Bool :=
  match s.toList with
  | 'v' :: '-' :: ds => isNumber (Nat.pow 2 63) ds
  | 'v' :: '+' :: ds | 'v' :: ds => isNumber (Nat.pow 2 63 - 1) ds
  | _ => false
where
  isNumber (max : Nat) (ds : List Char) : Bool :=
    !ds.isEmpty && ds.all (fun d => '0' ≤ d && d ≤ '9') &&
      ds.foldl (fun n d => 10 * n + (d.toNat - '0'.toNat)) 0 ≤ max

/-- The name that a path suggests: its last element that is no version, as far as it goes. -/
def assumedName (path : String) : String :=
  let base := Path.base path
  let dir := Path.parent path
  let base := if isVersion base && dir != "." then Path.base dir else base
  let base := if base.startsWith "go-" then String.ofList (base.toList.drop 3) else base
  String.ofList (base.toList.takeWhile isNameChar)

def identifier (l : Line) : String := l.name.getD (assumedName l.path)

def before (a b : Line) : Bool :=
  if a.path != b.path then a.path < b.path else a.name.getD "" ≤ b.name.getD ""

/-- An import of a file, unless it is there for another reason than its name. -/
def ofSpec? : Spec → Option Line
  | .imported n (.literal _ _ s) _ _ _ =>
    let name := n.map Name.text
    if s == "\"C\"" || name == some "_" || name == some "." then none
    else
      let inner := (s.toList.dropWhile (· == '"')).reverse.dropWhile (· == '"')
      some ⟨name, String.ofList inner.reverse⟩
  | _ => none

end Line

def importLines (f : File) : List Line :=
  f.decls.flatMap fun d =>
    match d with
    | .group g => g.specs.filterMap Line.ofSpec?
    | .function .. => []

/-! Other files of the directory tell what a name may stand for. -/

/-- What matters of another file: the variables and constants of its package, of which the first
name of each spec counts, its imports, and what it may refer to. -/
structure Sibling where
  package : String
  globals : List String
  imports : List Line
  refs : List Reference

def globalOf : Spec → Option String
  | .value _ ns _ _ _ => ns.head?.map Name.text
  | _ => none

def globalsOf : Decl → List String
  | .group g => g.specs.filterMap globalOf
  | .function .. => []

def Sibling.ofFile (f : File) : Sibling where
  package := f.name.text
  globals := f.decls.flatMap globalsOf
  imports := importLines f
  refs := likelyReferences f

/-- A file by its content; what is no Go file does not count. -/
def Sibling.ofBytes? (bs : List UInt8) : Option Sibling :=
  (Text.ofUtf8? bs).bind fun s => (File.read? s).map Sibling.ofFile

/-- Whether the file at a path takes notice of another file in its directory. Tests are noticed by
tests only. -/
def isNoticed (path other : String) : Bool :=
  other != Path.base path && other.endsWith ".go" &&
    (path.endsWith "_test.go" || !other.endsWith "_test.go")

/-- What a sibling uses of a package that it imports; the last import of a name decides. -/
def Sibling.uses (s : Sibling) (path : String) : List String :=
  let used := s.refs.filter fun r =>
    ((s.imports.filter (·.identifier == r.package)).getLast?).any (·.path == path)
  used.map Reference.name

def candidates (name : String) : List String :=
  if name == "rand" then ["crypto/rand", "math/rand/v2", "math/rand"]
  else (standardSymbols.map Prod.fst).filter fun p => Path.base p == name && !Line.isVersion name

/-- Whether a package is known to declare some names: the standard library is known where a sibling
uses it or a missing name suggests it, other packages declare what siblings use of them. -/
def isKnownToDeclare (siblings : List Sibling) (missing : List String) (path : String)
    (names : List String) : Bool :=
  let used := siblings.flatMap (·.uses path)
  let suggested := missing.any fun n => (candidates n).contains path
  if (standardSymbols.lookup path).isSome then
    (suggested || !used.isEmpty) && declaresAll path names
  else !used.isEmpty && names.all used.contains

/-- An import that declares all that is selected from a name. What siblings import comes before the
standard library. -/
def importFor? (siblings : List Sibling) (refs : List Reference) (missing : List String)
    (name : String) : Option Line :=
  let selected := (refs.filter (·.package == name)).map Reference.name
  let others := (siblings.flatMap (·.imports)).filter (·.identifier == name)
  let standard := (candidates name).map fun p => ⟨none, p⟩
  (others ++ standard).find? fun l => isKnownToDeclare siblings missing l.path selected

def missingNames (refs : List Reference) (has : List Line) : List String :=
  let names := (refs.map Reference.package).eraseDups
  names.filter fun n => !(has.any fun l => l.identifier == n)

/-- Imports that a file with some references should not have, given those it has. -/
def unusedLines (refs : List Reference) (has : List Line) : List Line :=
  (has.filter fun l => !(refs.any (·.package == l.identifier))).mergeSort Line.before

/-- Imports that a file with some references lacks, given those it has. Variables of siblings in
its package need none. -/
def missingLines (siblings : List Sibling) (package : String) (refs : List Reference)
    (has : List Line) : List Line :=
  let known := (siblings.filter (·.package == package)).flatMap (·.globals)
  let missing := (missingNames refs has).filter (!known.contains ·)
  (missing.filterMap (importFor? siblings refs missing)).mergeSort Line.before

def isIncomplete (text : String) : Bool :=
  (File.read? text).any fun f =>
    (references? f).any fun refs => !(missingNames refs (importLines f)).isEmpty

end ReactiveModel.Imports
