import ReactiveModel.Artifact.Code
import ReactiveModel.Imports.Naming
import ReactiveModel.Source.Format

/-! Files of generated code: header, package clause, imports and body. -/

namespace ReactiveModel

structure SourceFile where
  headers : List String := []
  package : String
  /-- Names that packages are known to have, by import path. -/
  hints : List (String × String) := []
  body : Code

namespace SourceFile

def importsOf (hints : List (String × String)) (body : Code) : List Imports.Import :=
  body.paths.foldl (Imports.register hints) []

def nameIn (imports : List Imports.Import) (path : Text) : Text :=
  ((imports.find? (·.path == path)).map (·.name)).getD ""

def importText (i : Imports.Import) : String :=
  (if i.renamed then i.name ++ " " else "") ++ i.path.quoted

def importsText (imports : List Imports.Import) : String :=
  match imports.mergeSort fun a b => a.path ≤ b.path with
  | [] => ""
  | [i] => "import " ++ importText i ++ "\n\n"
  | is => "import (\n" ++ String.join (is.map fun i => importText i ++ "\n") ++ ")\n\n"

def text (f : SourceFile) : Text :=
  let imports := importsOf f.hints f.body
  let headers := Text.join (f.headers.map fun (h : String) => Code.commentText h ++ "\n")
  (if f.headers.isEmpty then ("" : Text) else headers ++ "\n") ++
    "package " ++ f.package ++ "\n\n" ++
    importsText imports ++ f.body.text (nameIn imports)

/-- The text of the file in canonical layout; a body that is no Go code has none. -/
def render (f : SourceFile) : Option String := f.text.toString?.bind Source.format

end SourceFile

end ReactiveModel
