import ReactiveModel.Yaml.Input
import ReactiveModel.Yaml.Scalar

/-! Tokens of a YAML text. Indentation becomes tokens that open and close blocks. A key is known as
one only when the colon after it is met, so its token, and the one that opens the mapping, are put
in front of it then. -/

namespace ReactiveModel.Yaml

inductive Token.Kind
  | streamEnd
  | version (major minor : Nat)
  | tagDirective (handle lead : String)
  | documentStart | documentEnd
  | sequenceStart | mappingStart | blockEnd
  | flowSequenceStart | flowSequenceEnd | flowMappingStart | flowMappingEnd
  | entry | flowEntry | key | value
  | reference (name : String)
  | anchor (name : String)
  | tag (handle suffix : String)
  | scalar (text : String) (plain : Bool)
deriving DecidableEq, Inhabited

structure Token where
  kind : Token.Kind
  line : Nat
deriving Inhabited

structure SimpleKey where
  possible : Bool := false
  /-- Whether something else than a key would be out of place. -/
  required : Bool := false
  token : Nat := 0
  index : Nat := 0
  line : Nat := 0
  column : Nat := 0
deriving Inhabited

structure Scan where
  cursor : Cursor
  /-- The tokens so far, the last one first. -/
  tokens : List Token := []
  count : Nat := 0
  indent : Int := -1
  indents : List Int := []
  flow : Nat := 0
  /-- One for each level of flow collections, the innermost first. -/
  keys : List SimpleKey := [{}]
  keyAllowed : Bool := true
deriving Inhabited

def maxNesting : Nat := 10000

namespace Scan

def push (k : Token.Kind) (s : Scan) : Scan :=
  { s with tokens := ⟨k, s.cursor.line⟩ :: s.tokens, count := s.count + 1 }

def insert (place : Nat) (t : Token) (s : Scan) : Scan :=
  let (later, earlier) := s.tokens.splitAt (s.count - place)
  { s with tokens := later ++ t :: earlier, count := s.count + 1 }

def lastKind? (s : Scan) : Option Token.Kind := s.tokens.head?.map (·.kind)

def move (f : Cursor → Cursor) (s : Scan) : Scan := { s with cursor := f s.cursor }

def key (s : Scan) : SimpleKey := s.keys.headD {}

def setKey (k : SimpleKey) (s : Scan) : Scan := { s with keys := k :: s.keys.tail }

def allowKey (b : Bool) (s : Scan) : Scan := { s with keyAllowed := b }

def dropKey (s : Scan) : Option Scan :=
  if s.key.possible && s.key.required then none
  else some (s.setKey { s.key with possible := false })

def saveKey (s : Scan) : Option Scan :=
  if s.keyAllowed then do
    let s ← s.dropKey
    return s.setKey
      { possible := true, required := s.flow == 0 && s.indent == s.cursor.column,
        token := s.count, index := s.cursor.index, line := s.cursor.line,
        column := s.cursor.column }
  else some s

/-- Whether the possible key still is one: keys stay on one line and are not too long. -/
def keyHolds (s : Scan) : Option Bool :=
  let k := s.key
  if !k.possible then some false
  else if k.line < s.cursor.line || k.index + 1024 < s.cursor.index then
    if k.required then none else some false
  else some true

def openBlock (column : Nat) (place : Nat) (line : Nat) (k : Token.Kind) (s : Scan) : Option Scan :=
  if s.flow == 0 && s.indent < column then
    if maxNesting < s.indents.length + 1 then none
    else some ({ s with indents := s.indent :: s.indents, indent := column }.insert place ⟨k, line⟩)
  else some s

def closeBlocks (column : Int) : List Int → Scan → Scan
  | [], s => s
  | outer :: rest, s =>
    if s.flow == 0 && column < s.indent then
      closeBlocks column rest ({ s with indent := outer, indents := rest }.push .blockEnd)
    else s

def unroll (column : Int) (s : Scan) : Scan := closeBlocks column s.indents s

def skipGap : Nat → Scan → Scan
  | 0, s => s
  | fuel + 1, s =>
    let s := s.move Cursor.skipMark
    let s := s.move (·.skipWhile fun x => x == ' ' || (x == '\t' && (0 < s.flow || !s.keyAllowed)))
    let s := if s.cursor.isAt '#' then s.move (·.skipComments (s.cursor.size + 1)) else s
    if s.cursor.atBreak then
      skipGap fuel (if s.flow == 0 then (s.move Cursor.stepLine).allowKey true
        else s.move Cursor.stepLine)
    else s

def skipLineComment (s : Scan) : Scan :=
  let after := s.cursor.skipWhile isBlank
  if after.isAt '#' then { s with cursor := after.skipWhile (!isBreak ·) } else s

def isNameChar (c : Char) : Bool := c.isAlphanum || c == '_' || c == '-'

def isUriChar (c : Char) : Bool :=
  isNameChar c || c == ';' || c == '/' || c == '?' || c == ':' || c == '@' || c == '&' ||
    c == '=' ||
    c == '+' || c == '$' || c == ',' || c == '.' || c == '!' || c == '~' || c == '*' ||
    c == '\x27' || c == '(' || c == ')' || c == '[' || c == ']' || c == '%'

/-- The bytes of a tag, where some can be escaped. After the first byte of a character the ones
that belong to it have to follow, and `missing` is how many more. -/
def unescapeTag : Nat → List Char → Option (List UInt8)
  | missing, [] => if missing == 0 then some [] else none
  | missing, '%' :: a :: b :: cs => do
    let n ← hexNumber? [a, b] 0
    let after ← if missing == 0 then (charSize? n).map (· - 1)
      else if n / 64 == 2 then some (missing - 1) else none
    return n.toUInt8 :: (← unescapeTag after cs)
  | _, '%' :: _ => none
  | missing, c :: cs => do
    if missing == 0 then return c.toNat.toUInt8 :: (← unescapeTag 0 cs) else none

def tagText (c : Cursor) : Option (String × Cursor) := do
  let cs := c.rest.takeWhile isUriChar
  let bytes ← unescapeTag 0 cs
  return (Text.ofUtf8 bytes, c.steps cs.length)

/-- A tag at its exclamation mark: verbatim, with a handle, or without one. -/
def tag (c : Cursor) : Option (String × String × Cursor) :=
  match c.rest with
  | '!' :: '<' :: _ => do
    let (uri, c) ← tagText (c.steps 2)
    if uri.isEmpty || !c.isAt '>' then none
    return ("", uri, c.step)
  | _ => do
    let name := c.step.rest.takeWhile isNameChar
    let after := c.steps (name.length + 1)
    if after.isAt '!' then
      let (suffix, c) ← tagText after.step
      if suffix.isEmpty then none
      return ("!" ++ String.ofList name ++ "!", suffix, c)
    else
      let (suffix, c) ← tagText c.step
      return if suffix.isEmpty then ("", "!", c) else ("!", suffix, c)

def versionPart (c : Cursor) : Option (Nat × Cursor) :=
  let ds := c.rest.takeWhile fun x => '0' ≤ x && x ≤ '9'
  if ds.isEmpty || 2 < ds.length then none
  else some (ds.foldl (fun n d => n * 10 + (d.toNat - 48)) 0, c.steps ds.length)

def versionDirective (c : Cursor) : Option (Token.Kind × Cursor) := do
  let (major, c) ← versionPart c
  if !c.isAt '.' then none
  let (minor, c) ← versionPart c.step
  return (.version major minor, c)

def tagDirective (c : Cursor) : Option (Token.Kind × Cursor) := do
  if !c.isAt '!' then none
  let handle := c.step.rest.takeWhile isNameChar
  let c := c.steps (handle.length + 1)
  let closed := c.isAt '!'
  if !closed && !handle.isEmpty then none
  let c := if closed then c.step else c
  if !c.atBlank then none
  let (lead, c) ← tagText (c.skipWhile isBlank)
  if lead.isEmpty || !c.atGap then none
  return (.tagDirective (if closed then "!" ++ String.ofList handle ++ "!" else "!") lead, c)

def directive (c : Cursor) : Option (Token.Kind × Cursor) := do
  let name := c.step.rest.takeWhile isNameChar
  let c := c.steps (name.length + 1)
  if !c.atGap then none
  let c := c.skipWhile isBlank
  let (kind, c) ←
    if name == ['Y', 'A', 'M', 'L'] then versionDirective c
    else if name == ['T', 'A', 'G'] then tagDirective c
    else none
  let c := c.skipWhile isBlank
  let c := if c.isAt '#' then c.skipWhile (!isBreak ·) else c
  if !c.atBreakOrEnd then none
  return (kind, c.stepLine)

def name (c : Cursor) : Option (String × Cursor) :=
  let cs := c.rest.takeWhile isNameChar
  let c := c.steps cs.length
  let ends := c.atGap || (c.peek?.any fun x =>
    x == '?' || x == ':' || x == ',' || x == ']' || x == '\x7d' || x == '%' || x == '@' ||
      x == '\x60')
  if cs.isEmpty || !ends then none else some (String.ofList cs, c)

def emit (k : Token.Kind) (c : Cursor) (s : Scan) : Scan := { s.push k with cursor := c }

def openFlow (k : Token.Kind) (s : Scan) : Option Scan := do
  let s ← s.saveKey
  if maxNesting ≤ s.flow then none
  return ({ s with keys := {} :: s.keys, flow := s.flow + 1 }.allowKey true).emit k s.cursor.step

def closeFlow (k : Token.Kind) (s : Scan) : Option Scan := do
  let s ← s.dropKey
  let s := if 0 < s.flow then { s with keys := s.keys.tail, flow := s.flow - 1 } else s
  return (s.allowKey false).emit k s.cursor.step

def blockIndicator (start k : Token.Kind) (next : Bool) (s : Scan) : Option Scan := do
  let s ← if s.flow == 0 then
      if s.keyAllowed then s.openBlock s.cursor.column s.count s.cursor.line start else none
    else some s
  let s ← s.dropKey
  return (s.allowKey next).emit k s.cursor.step

def valueIndicator (s : Scan) : Option Scan := do
  if ← s.keyHolds then
    let k := s.key
    let s := s.insert k.token ⟨.key, k.line⟩
    let s ← s.openBlock k.column k.token k.line .mappingStart
    let s := (s.setKey { k with possible := false }).allowKey false
    return s.emit .value s.cursor.step
  else
    let s := s.setKey { s.key with possible := false }
    let s ← if s.flow == 0 then
        if s.keyAllowed then
          s.openBlock s.cursor.column s.count s.cursor.line .mappingStart
        else none
      else some s
    return (s.allowKey (s.flow == 0)).emit .value s.cursor.step

/-- Something that may be a key or may stand before one. -/
def keyed (read : Cursor → Option (Token.Kind × Cursor)) (s : Scan) : Option Scan := do
  let s ← s.saveKey
  let (k, c) ← read s.cursor
  return (s.allowKey false).emit k c

def startsPlain (s : Scan) : Bool :=
  match s.cursor.peek? with
  | none => false
  | some x =>
    let c := s.cursor
    let special := x == '-' || x == '?' || x == ':' || x == ',' || x == '[' || x == ']' ||
      x == '\x7b' || x == '\x7d' || x == '#' || x == '&' || x == '*' || x == '!' || x == '|' ||
      x == '>' || x == '\x27' || x == '"' || x == '%' || x == '@' || x == '\x60'
    !(c.atGap || special) || (x == '-' && !(c.rest[1]?.any isBlank)) ||
      (s.flow == 0 && (x == '?' || x == ':') && !c.gapAt 1)

def atMargin (s : Scan) : Option Scan := do
  let s ← (s.unroll (-1)).dropKey
  return s.allowKey false

/-- The token that starts with a character, where the rest of the line is open to a comment. -/
def content (x : Char) (s : Scan) : Option Scan :=
  let c := s.cursor
  if x == '[' then s.openFlow .flowSequenceStart
  else if x == '\x7b' then s.openFlow .flowMappingStart
  else if x == ']' then s.closeFlow .flowSequenceEnd
  else if x == '\x7d' then s.closeFlow .flowMappingEnd
  else if x == ',' then do
    let s ← s.dropKey
    return (s.allowKey true).emit .flowEntry s.cursor.step
  else if x == '-' && c.gapAt 1 then s.blockIndicator .sequenceStart .entry true
  else if x == '?' && (0 < s.flow || c.gapAt 1) then
    s.blockIndicator .mappingStart .key (s.flow == 0)
  else if x == ':' && (0 < s.flow || c.gapAt 1) then s.valueIndicator
  else if x == '*' then
    s.keyed fun c => (name c.step).map fun (n, c) => (.reference n, c)
  else if x == '&' then
    s.keyed fun c => (name c.step).map fun (n, c) => (.anchor n, c)
  else if x == '!' then
    s.keyed fun c => do
      let (handle, suffix, c) ← tag c
      if c.atGap then some (.tag handle suffix, c) else none
  else if (x == '|' || x == '>') && s.flow == 0 then do
    let s ← s.dropKey
    let (text, c) ← blockScalar (x == '|') s.indent s.cursor
    return (s.allowKey true).emit (.scalar text false) c
  else if x == '\x27' || x == '"' then
    s.keyed fun c => (quoted x c).map fun (t, c) => (.scalar t false, c)
  else if s.startsPlain then do
    let s ← s.saveKey
    let (text, broken, c) ← plain (0 < s.flow) s.indent s.cursor
    return (s.allowKey broken).emit (.scalar text true) c
  else none

/-- The token at this place, with the blocks that end before it. -/
def token (s : Scan) : Option Scan :=
  let s := s.unroll s.cursor.column
  match s.cursor.peek? with
  | none => do
    let s := if s.cursor.column == 0 then s
      else s.move fun c => { c with column := 0, line := c.line + 1 }
    let s ← s.atMargin
    return s.push .streamEnd
  | some x =>
    if s.cursor.column == 0 && x == '%' then do
      let s ← s.atMargin
      let (k, c) ← directive s.cursor
      return s.emit k c
    else if s.cursor.atDocumentMark then do
      let s ← s.atMargin
      return s.emit (if x == '-' then .documentStart else .documentEnd) (s.cursor.steps 3)
    else do
      let after ← s.content x
      if !(after.cursor.skipWhile isBlank).hasAhead 1 then none
      return if after.lastKind? == some .entry then after else after.skipLineComment

def next (s : Scan) : Option Scan :=
  let s := (s.skipGap (s.cursor.size + 1)).move Cursor.lookAhead
  if s.cursor.hasAhead 4 then s.token else none

/-- All tokens, the last one first, and whether the text was read to its end. -/
def all : Nat → Scan → List Token × Bool
  | 0, s => (s.tokens, false)
  | fuel + 1, s =>
    match s.next with
    | none => (s.tokens, false)
    | some s =>
      if s.lastKind? == some .streamEnd then (s.tokens, true) else all fuel s

end Scan

def tokens (c : Cursor) : List Token × Bool :=
  let (ts, complete) := Scan.all (c.size + 2) { cursor := c }
  (ts.reverse, complete)

end ReactiveModel.Yaml
