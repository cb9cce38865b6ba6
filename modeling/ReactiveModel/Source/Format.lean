import ReactiveModel.Source.Align
import ReactiveModel.Source.Constraint
import ReactiveModel.Source.ImportOrder
import ReactiveModel.Source.LayoutFile

/-! Canonical layout of Go source: of whole files, and of fragments, which are declarations or
statements without a file around them. -/

namespace ReactiveModel.Source

def File.write (depth : Nat) (base : Int) (f : File) : String :=
  align (placeConstraints (f.layOut depth base false))

/-- The text of a file in canonical layout but for its numbers, which are left as they stand. -/
def File.writeVerbatim (depth : Nat) (f : File) : String :=
  align (placeConstraints (f.layOut depth 0 true))

def Tokens.fileWith? (t : Tokens) (change : ImportSection → ImportSection) : Option File := do
  let f ← t.file?
  let changed := change (.ofFile t.lines f)
  if changed.lines.count == t.lines.count then return changed.toFile f
  else return changed.toFile (← (t.onLines changed.lines).file?)

def formatFile (s : String) : Option String := do
  let t ← Tokens.ofString? s
  return (← t.fileWith? ImportSection.sort).write t.depth 0

/-- Brings a text that is a file only for its layout into that layout. -/
def formatWrapped (base : Int) (s : String) : Option String := do
  let t ← Tokens.ofString? s
  return (← t.file?).write t.depth base

def straysFromFile (s : String) : Bool :=
  (Tokens.ofString? s).any fun t => (t.run Grammar.strays).any id

def opensPackage (s : String) : Bool :=
  (Tokens.ofString? s).any fun t => (t.items[0]?).any (·.token.kind == .keyword "package")

/-! Fragments are read inside of a file. What stands around them is cut off again, and white space
at their ends is kept. -/

def isFragmentSpace (c : Char) : Bool := c == ' ' || c == '\t' || c == '\n' || c == '\r'

/-- Indentation of the first line of code: its tabs, or one when it has blanks only. -/
def firstIndent (line : List Char) : Nat :=
  let tabs := line.count '\t'
  if tabs == 0 && line.contains ' ' then 1 else tabs

def betweenSpace (s out : String) : String :=
  let out := Text.trimString out
  if out.isEmpty then s
  else
    let lead := s.toList.takeWhile isFragmentSpace
    let line := (lead.reverse.takeWhile (· != '\n')).reverse
    String.ofList (lead.take (lead.length - line.length)) ++
      "".pushn '\t' (firstIndent line) ++ out ++
      String.ofList (s.toList.reverse.takeWhile isFragmentSpace).reverse

def formatFragment (s : String) : Option String :=
  let lead := s.toList.takeWhile isFragmentSpace
  let indent := firstIndent (lead.reverse.takeWhile (· != '\n')).reverse
  let file := "package p;" ++ s
  match formatWrapped indent file with
  | some t => some (betweenSpace s (dropFront (indent + "package p\n".length) t))
  | none =>
    if straysFromFile file then
      (formatWrapped (indent - 1) ("package p; func _() \x7b" ++ s ++ "\n\n\x7d")).map fun t =>
        let body := dropFront (2 * (indent - 1) + "package p\n\nfunc _() \x7b".length) t
        betweenSpace s (String.ofList body.toList.dropLast.dropLast)
    else none

/-- Brings source text into canonical layout; text that is not Go has none. -/
def format (s : String) : Option String :=
  if opensPackage s then formatFile s else formatFragment s

end ReactiveModel.Source
