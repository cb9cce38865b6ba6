import ReactiveModel.Text.Base64
import ReactiveModel.Text.Letter
import ReactiveModel.Text.Quoted
import ReactiveModel.Yaml.Cursor
import ReactiveModel.Yaml.Meaning

/-! Data as YAML text. Collections are blocks, indented by two, and each text has the plainest form
that is read as a text again. -/

namespace ReactiveModel.Yaml

inductive Datum
  /-- A word that stands for itself: a number, a truth value or null. -/
  | word (s : String)
  | text (t : Text)
  | list (items : List Datum)
  | map (entries : List (Text × Datum))

/-! Forms of a text. -/

def isPrintable (c : Char) : Bool :=
  c == '\n' || (' ' ≤ c && c ≤ '~') ||
    (0xA0 ≤ c.toNat && c.toNat < 0xFFFE && c != '\uFEFF')

def isSexagesimal (cs : List Char) : Bool :=
  let digit := Meaning.isDigit
  let cs := match cs with
    | '-' :: cs | '+' :: cs => cs
    | cs => cs
  match (String.ofList cs).splitOn ":" with
  | [] | [_] => false
  | first :: rest =>
    let isFirst := match first.toList with
      | c :: cs => digit c && cs.all fun c => digit c || c == '_'
      | [] => false
    let isPart (ds : List Char) : Bool := match ds with
      | [a] => digit a
      | [a, b] => '0' ≤ a && a ≤ '5' && digit b
      | _ => false
    let last := (rest.getLastD "").toList
    let fraction := last.dropWhile (· != '.')
    isFirst && rest.dropLast.all (isPart ·.toList) && isPart (last.takeWhile (· != '.')) &&
      fraction.tail.all fun c => digit c || c == '_'

def meansText (s : String) : Bool :=
  (Meaning.ofText true s).tag == "!!str" && s != "<<" && !isSexagesimal s.toList &&
    (Meaning.spokenBool? s).isNone

def withNext : List Char → List (Char × Option Char)
  | [] => []
  | c :: cs => (c, cs.head?) :: withNext cs

def follows (p q : Char → Bool) (cs : List Char) : Bool :=
  (withNext cs).any fun (c, next) => p c && next.any q

def isSpaceChar (c : Char) : Bool := c == ' '

def hasIndicators (cs : List Char) : Bool :=
  let ends (next : Option Char) : Bool := next.all isBlank
  ['-', '-', '-'].isPrefixOf cs || ['.', '.', '.'].isPrefixOf cs ||
    (match withNext cs with
    | [] => false
    | (c, next) :: rest =>
      "#,[]\x7b\x7d&*!|>'\"%@\x60".toList.contains c ||
        ((c == '?' || c == ':' || c == '-') && ends next) ||
        rest.any fun (c, next) => c == ':' && ends next) ||
    follows (fun c => isBlank c || isBreak c || c == '\x00') (· == '#') cs

def hasSpecials (cs : List Char) : Bool := cs.any fun c => !isPrintable c && c != '\t'

def allowsSingle (cs : List Char) : Bool :=
  !(follows isBreak isSpaceChar cs || follows isSpaceChar isBreak cs || cs.contains '\t' ||
    hasSpecials cs)

def allowsPlain (cs : List Char) : Bool :=
  let edge (c : Option Char) : Bool := c.any fun c => c == ' ' || isBreak c
  !(edge cs.head? || edge cs.getLast? || cs.any isBreak || hasIndicators cs) && allowsSingle cs

def allowsLiteral (cs : List Char) : Bool :=
  !(cs.getLast? == some ' ' || follows isSpaceChar isBreak cs || hasSpecials cs)

def escapeChar (c : Char) : List Char :=
  match c with
  | '\x00' => ['0']
  | '\x07' => ['a']
  | '\x08' => ['b']
  | '\t' => ['t']
  | '\n' => ['n']
  | '\x0b' => ['v']
  | '\x0c' => ['f']
  | '\r' => ['r']
  | '\x1b' => ['e']
  | '"' => ['"']
  | '\\' => ['\\']
  | '\u0085' => ['N']
  | '\u00A0' => ['_']
  | '\u2028' => ['L']
  | '\u2029' => ['P']
  | c =>
    let v := c.toNat
    let digits (n : Nat) : List Char := (Text.hexDigits v n).map Char.toUpper
    if v ≤ 0xFF then 'x' :: digits 2
    else if v ≤ 0xFFFF then 'u' :: digits 4
    else 'U' :: digits 8

/-- A text that starts with a byte order mark is escaped throughout. -/
def doubleQuoted (cs : List Char) : List Char :=
  let marked := cs.head? == some '\uFEFF'
  '"' :: (cs.flatMap fun c =>
    if marked || !isPrintable c || isBreak c || c == '"' || c == '\\' then '\\' :: escapeChar c
    else [c]) ++ ['"']

def spaces (n : Nat) : List Char := List.replicate n ' '

def indented (n : Nat) : Bool → List Char → List Char
  | _, [] => []
  | broken, c :: cs =>
    if isBreak c then c :: indented n true cs
    else if broken then spaces n ++ c :: indented n false cs
    else c :: indented n false cs

def singleQuoted (n : Nat) (cs : List Char) : List Char :=
  '\x27' :: (indented n false cs).flatMap (fun c => if c == '\x27' then [c, c] else [c]) ++ ['\x27']

/-- How many line breaks at the end are kept is told after the bar, and that the first line is
indented if that cannot be seen. A line break at the start is lost. -/
def literal (n : Nat) (cs : List Char) : List Char :=
  let breaks := (cs.reverse.takeWhile isBreak).length
  let indentation := if cs.head?.any fun c => c == ' ' || isBreak c then ['2'] else []
  let kept :=
    if breaks == 0 then ['-'] else if 2 ≤ breaks || cs.length == 1 then ['+'] else []
  let start := if cs.head?.any isBreak then [] else ['\n']
  '|' :: indentation ++ kept ++ start ++ indented n true cs

def linesOf70 : Nat → List Char → List Char
  | 0, cs => cs
  | _, [] => []
  | fuel + 1, cs => cs.take 70 ++ '\n' :: linesOf70 fuel (cs.drop 70)

/-- Bytes that are no characters, in one line if it is shorter than 70. -/
def binary (n : Nat) (bs : List UInt8) : List Char :=
  let cs := Text.base64 bs
  "!!binary ".toList ++ if cs.length < 70 then cs else literal n (linesOf70 cs.length cs)

def writtenString (n : Nat) (s : String) : List Char :=
  let cs := s.toList
  if cs.contains '\n' then if allowsLiteral cs then literal n cs else doubleQuoted cs
  else if !meansText s then doubleQuoted cs
  else if allowsPlain cs then cs
  else if allowsSingle cs then singleQuoted n cs
  else doubleQuoted cs

def written (n : Nat) (t : Text) : List Char :=
  match t.toString? with
  | some s => writtenString n s
  | none => binary n t.bytes

def endLine (cs : List Char) : List Char :=
  if cs.getLast?.any isBreak then cs else cs ++ ['\n']

def isSimpleKey (t : Text) : Bool :=
  match t.toString? with
  | some s => !s.toList.any isBreak && t.bytes.length ≤ 128
  | none => (Text.base64 t.bytes).length < 70

namespace Datum

mutual

def afterColon (n : Nat) : Datum → List Char
  | .word s => ' ' :: s.toList ++ ['\n']
  | .text t => ' ' :: endLine (written (n + 2) t)
  | .list [] => [' ', '[', ']', '\n']
  | .list (d :: ds) => '\n' :: items (n + 2) (d :: ds)
  | .map [] => [' ', '\x7b', '\x7d', '\n']
  | .map (e :: es) => '\n' :: spaces (n + 2) ++ entries (n + 2) (e :: es)

/-- What follows a mark at column `n`, two columns to its left. -/
def inPlace (n : Nat) : Datum → List Char
  | .word s => s.toList ++ ['\n']
  | .text t => endLine (written n t)
  | .list [] => ['[', ']', '\n']
  | .list (d :: ds) => '-' :: ' ' :: inPlace (n + 2) d ++ items n ds
  | .map [] => ['\x7b', '\x7d', '\n']
  | .map (e :: es) => entries n (e :: es)

def items (n : Nat) : List Datum → List Char
  | [] => []
  | d :: ds => spaces n ++ '-' :: ' ' :: inPlace (n + 2) d ++ items n ds

/-- Entries of a mapping, of which the first is at its column already. -/
def entries (n : Nat) : List (Text × Datum) → List Char
  | [] => []
  | (k, d) :: es =>
    (if isSimpleKey k then written (n + 2) k ++ ':' :: afterColon n d
     else '?' :: ' ' :: endLine (written (n + 2) k) ++ spaces n ++
       ':' :: ' ' :: inPlace (n + 2) d) ++
      (match es with
      | [] => []
      | e :: es => spaces n ++ entries n (e :: es))

end

def render : Datum → String
  | .map (e :: es) => String.ofList (entries 0 (e :: es))
  | d => String.ofList (inPlace 0 d)

end Datum

/-! The order of keys: numbers in them count as numbers, and letters come after other characters,
but before them within a number. -/

/-- The number that starts a text, in words of 64 bits, and how many digits it has. -/
def numberAt (start : Int64) (cs : List Char) : Int64 × Nat :=
  let ds := cs.takeWhile Text.isDigit
  (ds.foldl (fun n d => n * 10 + (Int64.ofNat d.toNat - 48)) start, ds.length)

/-- The order of two keys behind a common beginning: whether that ends with a digit, and whether a
number at its end has a digit other than zero. -/
def keyBefore (afterDigit afterNumber : Bool) : List Char → List Char → Bool
  | [], [] => false
  | [], _ :: _ => true
  | _ :: _, [] => false
  | a :: xs, b :: ys =>
    if a == b then
      let digit := Text.isDigit a
      keyBefore digit (digit && (afterNumber || a != '0')) xs ys
    else if Text.isLetter a && Text.isLetter b then a < b
    else if Text.isLetter a || Text.isLetter b then
      if afterDigit then Text.isLetter a else Text.isLetter b
    else
      let start : Int64 := if (a == '0' || b == '0') && afterNumber then 1 else 0
      let (m, i) := numberAt start (a :: xs)
      let (n, j) := numberAt start (b :: ys)
      if m != n then m < n else if i != j then i < j else a < b

def sortKeys {α : Type} (es : List (Text × α)) : List (Text × α) :=
  es.mergeSort fun a b => !keyBefore false false b.1.shown.toList a.1.shown.toList

end ReactiveModel.Yaml
