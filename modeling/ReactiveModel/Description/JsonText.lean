import ReactiveModel.Text.Quoted

/-! JSON documents: values with their members in order, reading and writing. Numbers keep their
text. -/

namespace ReactiveModel

inductive Json
  | null
  | bool (b : Bool)
  | number (text : String)
  | string (t : Text)
  | array (items : List Json)
  | object (members : List (Text × Json))

namespace Json

instance : Inhabited Json := ⟨.null⟩

/-- Why a text has no value: it ends too early, or a character is out of place. -/
inductive Stop | ended | misplaced
deriving DecidableEq, Inhabited

abbrev Reading (α : Type) := Except Stop (α × List Char)

def isBlank (c : Char) : Bool := c == ' ' || c == '\t' || c == '\r' || c == '\n'

def maxDepth : Nat := 10000

def word : List Char → List Char → Except Stop (List Char)
  | [], cs => .ok cs
  | _ :: _, [] => .error .ended
  | w :: ws, c :: cs => if w == c then word ws cs else .error .misplaced

def isDigit (c : Char) : Bool := '0' ≤ c && c ≤ '9'

def digits (cs : List Char) : Reading (List Char) :=
  match cs with
  | [] => .error .ended
  | c :: _ =>
    if isDigit c then .ok (cs.takeWhile isDigit, cs.dropWhile isDigit) else .error .misplaced

/-- The digits before the point: a zero stands alone. -/
def whole (cs : List Char) : Reading (List Char) :=
  match cs with
  | '0' :: rest => .ok (['0'], rest)
  | _ => digits cs

def fraction (cs : List Char) : Reading (List Char) :=
  match cs with
  | '.' :: rest => (digits rest).map fun (ds, r) => ('.' :: ds, r)
  | _ => .ok ([], cs)

def exponent (cs : List Char) : Reading (List Char) :=
  match cs with
  | [] => .ok ([], [])
  | e :: rest =>
    if e == 'e' || e == 'E' then
      match rest with
      | '+' :: rest => (digits rest).map fun (ds, r) => (e :: '+' :: ds, r)
      | '-' :: rest => (digits rest).map fun (ds, r) => (e :: '-' :: ds, r)
      | _ => (digits rest).map fun (ds, r) => (e :: ds, r)
    else .ok ([], cs)

def numeral (cs : List Char) : Except Stop (Json × List Char) := do
  let (sign, rest) := match cs with
    | '-' :: rest => (['-'], rest)
    | _ => ([], cs)
  let (a, rest) ← whole rest
  let (b, rest) ← fraction rest
  let (c, rest) ← exponent rest
  return (.number (String.ofList (sign ++ a ++ b ++ c)), rest)

def codeUnit? (cs : List Char) : Option Nat :=
  cs.foldlM (fun n c => (Text.hexValue? c).map (n * 16 + ·)) 0

def shortEscapes : List (Char × Char) :=
  [('"', '"'), ('\\', '\\'), ('/', '/'), ('b', '\x08'), ('f', '\x0c'), ('n', '\n'), ('r', '\r'),
   ('t', '\t')]

inductive Unit16 | char (c : Char) | unit (n : Nat)

def units : List Char → List Unit16 → Reading (List Unit16)
  | [], _ => .error .ended
  | '"' :: cs, done => .ok (done.reverse, cs)
  | '\\' :: 'u' :: a :: b :: c :: d :: cs, done =>
    match codeUnit? [a, b, c, d] with
    | some n => units cs (.unit n :: done)
    | none => .error .misplaced
  | '\\' :: 'u' :: cs, _ => .error (if (codeUnit? cs).isSome then .ended else .misplaced)
  | '\\' :: e :: cs, done =>
    match shortEscapes.lookup e with
    | some c => units cs (.char c :: done)
    | none => .error .misplaced
  | ['\\'], _ => .error .ended
  | c :: cs, done => if c.toNat < 0x20 then .error .misplaced else units cs (.char c :: done)

def isHigh (n : Nat) : Bool := 0xD800 ≤ n && n < 0xDC00

def isLow (n : Nat) : Bool := 0xDC00 ≤ n && n < 0xE000

/-- Joins surrogate pairs; a surrogate without its partner becomes U+FFFD. -/
def joinUnits : List Unit16 → List Char
  | [] => []
  | .char c :: us => c :: joinUnits us
  | .unit n :: .unit m :: us =>
    if isHigh n && isLow m then
      Char.ofNat (0x10000 + (n - 0xD800) * 0x400 + (m - 0xDC00)) :: joinUnits us
    else
      (if isHigh n || isLow n then '\ufffd' else Char.ofNat n) :: joinUnits (.unit m :: us)
  | .unit n :: us => (if isHigh n || isLow n then '\ufffd' else Char.ofNat n) :: joinUnits us

def stringBody (cs : List Char) : Reading Text :=
  (units cs []).map fun (us, rest) => (.ofString (String.ofList (joinUnits us)), rest)

def skipBlanks (cs : List Char) : List Char := cs.dropWhile isBlank

/-- Parts up to a closing mark, with commas between them. -/
def parts {α : Type} (close : Char) (part : List Char → Reading α) :
    Nat → List Char → List α → Reading (List α)
  | 0, _, _ => .error .ended
  | fuel + 1, cs, done =>
    match part cs with
    | .error e => .error e
    | .ok (x, rest) =>
      match skipBlanks rest with
      | [] => .error .ended
      | c :: rest =>
        if c == ',' then parts close part fuel rest (x :: done)
        else if c == close then .ok ((x :: done).reverse, rest)
        else .error .misplaced

/-- An array or an object behind its opening mark. -/
def nested {α : Type} (close : Char) (part : List Char → Reading α) (make : List α → Json)
    (fuel depth : Nat) (cs : List Char) : Reading Json :=
  if maxDepth ≤ depth then .error .misplaced
  else
    match skipBlanks cs with
    | [] => .error .ended
    | c :: rest =>
      if c == close then .ok (make [], rest)
      else (parts close part fuel cs []).map fun (xs, r) => (make xs, r)

/-- A member, where `value` reads what stands behind the colon. -/
def keyed (value : List Char → Reading Json) (cs : List Char) : Reading (Text × Json) :=
  match skipBlanks cs with
  | [] => .error .ended
  | '"' :: rest =>
    match stringBody rest with
    | .error e => .error e
    | .ok (k, rest) =>
      match skipBlanks rest with
      | [] => .error .ended
      | ':' :: rest => (value rest).map fun (v, r) => ((k, v), r)
      | _ => .error .misplaced
  | _ => .error .misplaced

def value : Nat → Nat → List Char → Reading Json
  | 0, _, _ => .error .ended
  | fuel + 1, depth, cs =>
    match skipBlanks cs with
    | [] => .error .ended
    | '"' :: rest => (stringBody rest).map fun (s, r) => (.string s, r)
    | '[' :: rest => nested ']' (value fuel (depth + 1)) .array fuel depth rest
    | '\x7b' :: rest => nested '\x7d' (keyed (value fuel (depth + 1))) .object fuel depth rest
    | 't' :: rest => (word ['r', 'u', 'e'] rest).map fun r => (.bool true, r)
    | 'f' :: rest => (word ['a', 'l', 's', 'e'] rest).map fun r => (.bool false, r)
    | 'n' :: rest => (word ['u', 'l', 'l'] rest).map fun r => (.null, r)
    | c :: rest => if c == '-' || isDigit c then numeral (c :: rest) else .error .misplaced

/-- The first value of a text. What follows it does not count. -/
def read (s : String) : Except Stop Json :=
  (value (s.length + 1) 0 s.toList).map Prod.fst

/-! Writing. -/

/-- Characters that are escaped: quotes, controls, what has a meaning in markup, and two line
separators. -/
def escape (c : Char) : List Char :=
  let n := c.toNat
  if c == '"' then ['\\', '"']
  else if c == '\\' then ['\\', '\\']
  else if c == '\x08' then ['\\', 'b']
  else if c == '\x0c' then ['\\', 'f']
  else if c == '\n' then ['\\', 'n']
  else if c == '\r' then ['\\', 'r']
  else if c == '\t' then ['\\', 't']
  else if n < 0x20 || c == '<' || c == '>' || c == '&' || n == 0x2028 || n == 0x2029 then
    '\\' :: 'u' :: Text.hexDigits n 4
  else [c]

/-- A stray byte is written as an escape of U+FFFD. -/
def escapePiece : Text.Piece → List Char
  | .char c => escape c
  | .stray _ => "\\ufffd".toList

def quote (t : Text) : String := "\"" ++ String.ofList (t.pieces.flatMap escapePiece) ++ "\""

def indentation (n : Nat) : String := "\n" ++ String.ofList (List.replicate (2 * n) ' ')

mutual

def pretty (depth : Nat) : Json → String
  | .null => "null"
  | .bool b => if b then "true" else "false"
  | .number t => t
  | .string t => quote t
  | .array js =>
    if js.isEmpty then "[]"
    else "[" ++ ",".intercalate (prettyItems (depth + 1) js) ++ indentation depth ++ "]"
  | .object ms =>
    if ms.isEmpty then "\x7b\x7d"
    else "\x7b" ++ ",".intercalate (prettyMembers (depth + 1) ms) ++ indentation depth ++ "\x7d"

def prettyItems (depth : Nat) : List Json → List String
  | [] => []
  | j :: js => (indentation depth ++ pretty depth j) :: prettyItems depth js

def prettyMembers (depth : Nat) : List (Text × Json) → List String
  | [] => []
  | (k, j) :: ms =>
    (indentation depth ++ quote k ++ ": " ++ pretty depth j) :: prettyMembers depth ms

end

end Json

end ReactiveModel
