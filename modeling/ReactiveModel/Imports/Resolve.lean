import ReactiveModel.Imports.Lookup
import ReactiveModel.Source.Format
import ReactiveModel.Source.ImportEdit

/-! A file with the imports that it needs, sorted by their kind. -/

namespace ReactiveModel.Imports

open Source

def changed (siblings : List Sibling) (f : File) (refs : List Reference) (s : ImportSection) :
    ImportSection :=
  let has := importLines f
  let s := (unusedLines refs has).foldl (fun s l => s.remove (l.name.getD "") l.path) s
  (missingLines siblings f.name.text refs has).foldl (fun s l => s.add l.name l.path) s

def arranged (siblings : List Sibling) (f : File) (refs : List Reference) (s : ImportSection) :
    ImportSection :=
  (changed siblings f refs s).merge.sortByKind

/-! Paragraphs are told apart in the text of the file. -/

def isLineSpace (c : Char) : Bool :=
  c == ' ' || c == '\t' || c == '\r' || c == '\x0c'

def isWordChar (c : Char) : Bool := c.isAlphanum || c == '_' || c == '.'

/-- The path in a line that looks like an import: white space, maybe a name, and a path. -/
def pathInLine? (line : List Char) : Option (List Char) :=
  let rest := line.dropWhile isLineSpace
  if rest.length == line.length then none
  else
    match rest with
    | '"' :: cs => quotedPath? cs
    | _ =>
      let behind := rest.dropWhile isWordChar
      match behind.dropWhile isLineSpace with
      | '"' :: cs =>
        if behind.length < rest.length && behind.head?.any isLineSpace then quotedPath? cs else none
      | _ => none
where
  /-- At least one character up to the next quote. -/
  quotedPath? : List Char → Option (List Char)
    | [] => none
    | c :: cs => if cs.contains '"' then some (c :: cs.takeWhile (· != '"')) else none

inductive Place | front | imports | behind
deriving DecidableEq

def Place.next (p : Place) (line : String) : Place :=
  let p := if p == .front && line.startsWith "import" then .imports else p
  if p == .imports && ["var", "func", "const", "type"].any (line.startsWith ·) then .behind else p

/-- Puts a blank line in front of the lines that import given paths. -/
def breakLines : Place → List Text → List String → List String
  | _, _, [] => []
  | p, starts, line :: lines =>
    let p := p.next line
    match starts with
    | start :: others =>
      if p == .imports && (pathInLine? line.toList).any fun path =>
          Text.ofString (String.ofList path) == start then
        "" :: line :: breakLines p others lines
      else line :: breakLines p starts lines
    | [] => line :: lines

/-- The text of a file with a blank line in front of each of some paths. -/
def separate (starts : List Text) (text : String) : String :=
  if starts.isEmpty then text
  else "\n".intercalate (breakLines .front starts (text.splitOn "\n"))

/-- A file with the imports that it needs, given the other files of its directory; text that is not
a Go file has none. -/
def resolve (siblings : List Sibling) (text : String) : Option String := do
  let t ← Tokens.ofString? text
  let f ← t.file?
  let refs ← references? f
  let arrange := arranged siblings f refs
  let starts := (arrange (.ofFile t.lines f)).paragraphStarts
  let out := (← t.fileWith? arrange).writeVerbatim t.depth
  format (separate starts out)

end ReactiveModel.Imports
