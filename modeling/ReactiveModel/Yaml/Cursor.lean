/-! Places in a YAML text. -/

namespace ReactiveModel.Yaml

def isBreak (c : Char) : Bool :=
  c == '\n' || c == '\r' || c == '\u0085' || c == '\u2028' || c == '\u2029'

def isBlank (c : Char) : Bool := c == ' ' || c == '\t'

def isAllowed (c : Char) : Bool :=
  let n := c.toNat
  n == 0x09 || n == 0x0A || n == 0x0D || (0x20 ≤ n && n ≤ 0x7E) || n == 0x85 ||
    (0xA0 ≤ n && n ≤ 0xFFFD) || 0x10000 ≤ n

structure Cursor where
  rest : List Char
  index : Nat := 0
  line : Nat := 0
  column : Nat := 0
  /-- The size of the whole text, which bounds what is left. -/
  size : Nat := 0
  broken : Bool := false
  window : Nat := 0
  marked : Bool := false
deriving Inhabited

namespace Cursor

def peek? (c : Cursor) : Option Char := c.rest.head?

def isAt (c : Cursor) (x : Char) : Bool := c.peek? == some x

def atEnd (c : Cursor) : Bool := c.rest.isEmpty

def atBlank (c : Cursor) : Bool := c.peek?.any isBlank

def atBreak (c : Cursor) : Bool := c.peek?.any isBreak

def atBreakOrEnd (c : Cursor) : Bool := c.atEnd || c.atBreak

/-- A blank, a line break or the end stands `n` characters further on. -/
def gapAt (c : Cursor) (n : Nat) : Bool :=
  match c.rest[n]? with
  | none => true
  | some x => isBlank x || isBreak x

def atGap (c : Cursor) : Bool := c.gapAt 0

def step (c : Cursor) : Cursor :=
  { c with rest := c.rest.tail, index := c.index + 1, column := c.column + 1 }

def steps : Nat → Cursor → Cursor
  | 0, c => c
  | n + 1, c => steps n c.step

/-- Past a line break; a carriage return takes the line feed after it along. -/
def stepLine (c : Cursor) : Cursor :=
  match c.rest with
  | '\r' :: '\n' :: rest => { c with rest, index := c.index + 2, line := c.line + 1, column := 0 }
  | x :: rest =>
    if isBreak x then { c with rest, index := c.index + 1, line := c.line + 1, column := 0 } else c
  | [] => c

def skipLines : Nat → Cursor → Cursor
  | 0, c => c
  | fuel + 1, c =>
    if c.atBlank then skipLines fuel c.step
    else if c.atBreak then skipLines fuel c.stepLine
    else c

def breakChar (c : Cursor) : Char :=
  match c.peek? with
  | some x => if x == '\u2028' || x == '\u2029' then x else '\n'
  | none => '\n'

def skipWhile (p : Char → Bool) (c : Cursor) : Cursor :=
  steps (c.rest.takeWhile p).length c

/-- How far the next comment may be from the end of a comment that it goes on with. -/
def commentReach : Nat := 512

/-- Past a comment and the ones on the lines after it, which may be indented in any way and have
empty lines between them. -/
def skipComments : Nat → Cursor → Cursor
  | 0, c => c
  | fuel + 1, c =>
    let c := c.skipWhile (!isBreak ·)
    let gap := c.rest.takeWhile fun x => x == ' ' || x == '\t' || x == '\n' || x == '\r'
    if gap.length < commentReach && c.rest[gap.length]? == some '#' then
      skipComments fuel (c.skipLines gap.length)
    else c

def hasAhead (c : Cursor) (n : Nat) : Bool := !c.broken || n ≤ c.rest.length

/-- A mark at the front of the first block takes a character off the start of every line, as long
as nothing behind that block was looked at. -/
def skipMark (c : Cursor) : Cursor :=
  if c.marked && c.column == 0 && !c.atEnd then c.step else c

def lookAhead (c : Cursor) : Cursor := { c with marked := c.marked && c.index + 4 ≤ c.window }

def atDocumentMark (c : Cursor) : Bool :=
  c.column == 0 && (c.rest.take 3 == ['-', '-', '-'] || c.rest.take 3 == ['.', '.', '.']) &&
    c.gapAt 3

end Cursor

end ReactiveModel.Yaml
