import ReactiveModel.Source.Scanner
import ReactiveModel.Text.Basic
import ReactiveModel.Text.Case
import ReactiveModel.Text.Path

/-! Names in generated code, derived from names in the model. Both sides of a connection (the
setter that emits a signal and the binding that connects to it) take its name from here. -/

namespace ReactiveModel.Naming

def mapFirst (f : Char → Char) (t : Text) : Text :=
  match t.pieces with
  | [] => ""
  | p :: ps => .ofPieces (.char (f p.shown) :: ps)

def title (t : Text) : Text := mapFirst Text.toUpper t

def lowerFirst (t : Text) : Text := mapFirst Text.toLower t

def isName (t : Text) : Bool := t.toString?.any Source.isName

def isKeyword (t : Text) : Bool := t.toString?.any Source.isKeyword

def safe (t : Text) : Text := if isKeyword t then "_" ++ t else t

/-- Whether generated names can be made from a name. Keywords are set apart on use. -/
def isBase (t : Text) : Bool := isName t || isKeyword t

def changedSignal (property : Text) : Text := "On" ++ title property ++ "Changed"

def getter (property : Text) : Text := title property

def setter (property : Text) : Text := "Set" ++ title property

def storageField (property : Text) : Text := safe (lowerFirst property)

def memberField (id : Text) : Text := safe id

def resourceField (name : Text) : Text := safe name

def signalAccessor (signal : Text) : Text := title signal

def signalsVar (className : Text) : Text := lowerFirst className ++ "Signals"

def functionsInterface (className : Text) : Text := className ++ "Functions"

def bindingHandler (id property : Text) : Text := "binding_" ++ id ++ "_" ++ property

def bindingExpression (id property : Text) : Text := "expression_" ++ bindingHandler id property

def replicatorField (id : Text) : Text := "replicator_" ++ id

/-- The receiver of methods: the first letter of the class name, or `self`. -/
def receiver (className : Text) : Text :=
  match className.shown.toList.find? Text.isLetter with
  | some c => safe (String.singleton (Text.toLower c))
  | none => "self"

def functionName (signature : Text) : Text :=
  Text.trim ⟨signature.trim.bytes.takeWhile (· != '('.toUInt8)⟩

def isSpacer (c : Char) : Bool := c == '_' || c == ':' || c == '-' || Text.isSpace c

/-- The words of a name, as it is shown, in lower case. A capital or a spacer ends a word, spacers
are dropped, and the last word stands even if it is empty. -/
def wordsFrom : List Char → List Char → List String
  | word, [] => [String.ofList word.reverse]
  | word, c :: cs =>
    let ended := (Text.isCapital c || isSpacer c) && !word.isEmpty
    let word' := if ended then [] else word
    let rest := wordsFrom (if isSpacer c then word' else Text.toLower c :: word') cs
    if ended then String.ofList word.reverse :: rest else rest

def words (name : Text) : List String := wordsFrom [] name.shown.toList

/-- The artifact of a class. Its ending keeps the name clear of build constraints. -/
def classFile (className : Text) : String :=
  "_".intercalate (words className) ++ "_generated.go"

def entryPointFile (className : Text) : String :=
  Path.join ["cmd", "-".intercalate (words className), "main.go"]

def packageName (element : String) : String :=
  let cs := (Text.lowerCase element).toList
  let cs := if ['g', 'o', '-'].isPrefixOf cs then cs.drop 3 else cs
  let cs := cs.filter fun c => c.toNat < 0x7F && (Text.isLetter c || Text.isDigit c)
  match cs with
  | [] => ""
  | c :: _ => if Text.isDigit c then "" else String.ofList cs

end ReactiveModel.Naming
