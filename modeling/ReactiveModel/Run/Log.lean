import ReactiveModel.Description.JsonText

/-! Log entries and the two forms in which they are written. -/

namespace ReactiveModel.Log

inductive Level | debug | info | warn | error
deriving DecidableEq, Inhabited

namespace Level

def name : Level → String
  | .debug => "DEBUG"
  | .info => "INFO"
  | .warn => "WARN"
  | .error => "ERROR"

def rank : Level → Nat
  | .debug => 0
  | .info => 1
  | .warn => 2
  | .error => 3

end Level

inductive Detail
  | text (t : Text)
  | number (n : Nat)
deriving DecidableEq, Inhabited

def Detail.plain : Detail → Text
  | .text t => t
  | .number n => toString n

structure Entry where
  level : Level
  message : String
  details : List (String × Detail) := []
deriving DecidableEq, Inhabited

inductive Form | text | json
deriving DecidableEq, Inhabited

/-- Whether a text has to be quoted to be told apart from what is around it. -/
def needsQuotes (t : Text) : Bool :=
  t == "" || t.shown.toList.any fun c =>
    if c.toNat < 0x80 then c == ' ' || c == '=' || c == '"' || c.toNat < 0x20
    else c == '\ufffd' || Text.isSpace c || !Text.isPrintable c

def textValue (t : Text) : String := if needsQuotes t then t.quoted else t.shown

def jsonChar (c : Char) : List Char :=
  if c == '\\' || c == '"' then ['\\', c]
  else if c == '\n' then ['\\', 'n']
  else if c == '\r' then ['\\', 'r']
  else if c == '\t' then ['\\', 't']
  else if c.toNat < 0x20 || c == '\u2028' || c == '\u2029' then
    '\\' :: 'u' :: Text.hexDigits c.toNat 4
  else [c]

/-- A stray byte is written as an escape of U+FFFD. -/
def jsonPiece : Text.Piece → List Char
  | .char c => jsonChar c
  | .stray _ => "\\ufffd".toList

def jsonValue (t : Text) : String :=
  "\"" ++ String.ofList (t.pieces.flatMap jsonPiece) ++ "\""

namespace Entry

def line (e : Entry) : Form → String
  | .text =>
    " ".intercalate (("level=" ++ e.level.name) :: ("msg=" ++ textValue e.message) ::
      e.details.map fun (k, d) => textValue k ++ "=" ++ textValue d.plain)
  | .json =>
    let member (k : String) (d : Detail) : String := jsonValue k ++ ":" ++ (match d with
      | .text t => jsonValue t
      | .number n => toString n)
    "\x7b" ++ ",".intercalate ((("level", .text e.level.name) :: ("msg", .text e.message) ::
      e.details).map fun (k, d) => member k d) ++ "\x7d"

end Entry

def write (f : Form) (least : Level) (es : List Entry) : String :=
  String.join ((es.filter fun e => least.rank ≤ e.level.rank).map fun e => e.line f ++ "\n")

end ReactiveModel.Log
