import ReactiveModel.Text.Ranges
import ReactiveModel.Yaml.Cursor

/-! The texts of scalars: quoted, in blocks, and plain. A text that is malformed has no reading. -/

namespace ReactiveModel.Yaml

/-- Text of a scalar, last character first, with white space whose meaning is still open. -/
structure Gathered where
  text : List Char := []
  blanks : List Char := []
  first : List Char := []
  /-- Line breaks after it, last one first. -/
  more : List Char := []
  broken : Bool := false

namespace Gathered

def push (g : Gathered) (c : Char) : Gathered := { g with text := c :: g.text }

/-- A gap without line break stays; a single line feed becomes a blank; otherwise all but the first
one stay. -/
def close (g : Gathered) : Gathered :=
  if g.broken then
    let folded :=
      if g.first == ['\n'] then (if g.more.isEmpty then [' '] else g.more)
      else g.more ++ g.first
    { text := folded ++ g.text }
  else { text := g.blanks ++ g.text }

def gap (g : Gathered) (c : Cursor) : Gathered × Cursor :=
  if c.atBreak then
    if g.broken then ({ g with more := c.breakChar :: g.more }, c.stepLine)
    else ({ g with blanks := [], first := [c.breakChar], broken := true }, c.stepLine)
  else if g.broken then (g, c.step)
  else ({ g with blanks := (c.peek?.getD ' ') :: g.blanks }, c.step)

end Gathered

def escapes : List (Char × Char) :=
  [('0', '\x00'), ('a', '\x07'), ('b', '\x08'), ('t', '\t'), ('\t', '\t'), ('n', '\n'),
   ('v', '\x0b'), ('f', '\x0c'), ('r', '\r'), ('e', '\x1b'), (' ', ' '), ('"', '"'),
   ('\x27', '\x27'), ('\\', '\\'), ('N', '\u0085'), ('_', '\u00a0'), ('L', '\u2028'),
   ('P', '\u2029')]

def hexNumber? : List Char → Nat → Option Nat
  | [], n => some n
  | c :: cs, n => (Text.hexValue? c).bind fun d => hexNumber? cs (n * 16 + d)

def codedChar? (n : Nat) (cs : List Char) : Option Char := do
  let ds := cs.take n
  let v ← if ds.length == n then hexNumber? ds 0 else none
  if (0xD800 ≤ v && v ≤ 0xDFFF) || 0x10FFFF < v then none else some (Char.ofNat v)

/-- The escape after a backslash, with the number of characters it takes. -/
def escape? (cs : List Char) : Option (Char × Nat) :=
  match cs with
  | [] => none
  | 'x' :: rest => (codedChar? 2 rest).map fun c => (c, 3)
  | 'u' :: rest => (codedChar? 4 rest).map fun c => (c, 5)
  | 'U' :: rest => (codedChar? 8 rest).map fun c => (c, 9)
  | c :: _ => (escapes.lookup c).map fun d => (d, 1)

def quotedFrom (quote : Char) : Nat → Gathered → Cursor → Option (String × Cursor)
  | 0, _, _ => none
  | fuel + 1, g, c =>
    match c.rest with
    | [] => none
    | x :: rest =>
      if c.atDocumentMark then none
      else if isBlank x || isBreak x then
        let (g, c) := g.gap c
        quotedFrom quote fuel g c
      else if x == quote then
        if quote == '\x27' && rest.head? == some quote then
          quotedFrom quote fuel (g.close.push quote) (c.steps 2)
        else some (String.ofList g.close.text.reverse, c.step)
      else if quote == '"' && x == '\\' then
        if rest.head?.any isBreak then
          let g := g.close
          quotedFrom quote fuel { g with broken := true, first := [] } c.step.stepLine
        else
          match escape? rest with
          | some (d, n) => quotedFrom quote fuel (g.close.push d) (c.steps (n + 1))
          | none => none
      else quotedFrom quote fuel (g.close.push x) c.step

def quoted (quote : Char) (c : Cursor) : Option (String × Cursor) :=
  quotedFrom quote (c.size + 1) {} c.step

inductive Chomp | strip | clip | keep
deriving DecidableEq

def blockHeader (c : Cursor) : Option (Chomp × Nat × Cursor) :=
  let chomp? (c : Cursor) : Option Chomp := match c.peek? with
    | some '+' => some .keep
    | some '-' => some .strip
    | _ => none
  let digit? (c : Cursor) : Option Nat := match c.peek? with
    | some d => if '0' ≤ d && d ≤ '9' then some (d.toNat - 48) else none
    | none => none
  let checked (h : Chomp) (n : Option Nat) (c : Cursor) : Option (Chomp × Nat × Cursor) :=
    match n with
    | some 0 => none
    | some n => some (h, n, c.step)
    | none => some (h, 0, c)
  match chomp? c with
  | some h => checked h (digit? c.step) c.step
  | none =>
    match digit? c with
    | some 0 => none
    | some n =>
      match chomp? c.step with
      | some h => some (h, n, c.step.step)
      | none => some (.clip, n, c.step)
    | none => some (.clip, 0, c)

/-- Eats indentation and empty lines; the indentation is 0 as long as it is not known. Gives the
line breaks, last one first, and the largest column seen. -/
def blockBreaks (indent : Nat) : Nat → Nat → List Char → Cursor → Option (List Char × Nat × Cursor)
  | 0, _, _, _ => none
  | fuel + 1, widest, breaks, c =>
    let blanks := (c.rest.takeWhile (· == ' ')).length
    let c := c.steps (if indent == 0 then blanks else min blanks (indent - c.column))
    let widest := max widest c.column
    if (indent == 0 || c.column < indent) && c.isAt '\t' then none
    else if c.atBreak then blockBreaks indent fuel widest (c.breakChar :: breaks) c.stepLine
    else some (breaks, widest, c)

/-- Lines of a block scalar: the text so far, last character first, the last line break, the empty
lines after it, and whether the last line started with a blank. -/
def blockLines (literal : Bool) (indent : Nat) :
    Nat → List Char → List Char → List Char → Bool → Cursor →
    Option (List Char × List Char × List Char × Cursor)
  | 0, _, _, _, _, _ => none
  | fuel + 1, text, first, more, ledBlank, c =>
    if c.column == indent && !c.atEnd then
      let blank := c.atBlank
      let text :=
        if !literal && !ledBlank && !blank && first == ['\n'] then
          more ++ (if more.isEmpty then ' ' :: text else text)
        else more ++ first ++ text
      let line := c.rest.takeWhile (!isBreak ·)
      let c := c.steps line.length
      let text := line.reverse ++ text
      let first := if c.atEnd then [] else [c.breakChar]
      let c := c.stepLine
      match blockBreaks indent (c.size + 1) 0 [] c with
      | none => none
      | some (more, _, c) => blockLines literal indent fuel text first more blank c
    else some (text, first, more, c)

/-- A block scalar at its indicator, inside a block with the given indentation. -/
def blockScalar (literal : Bool) (outer : Int) (c : Cursor) : Option (String × Cursor) := do
  let (chomp, given, c) ← blockHeader c.step
  let c := c.skipWhile isBlank
  let c := if c.isAt '#' then c.skipWhile (!isBreak ·) else c
  if !c.atBreakOrEnd then none
  let c := c.stepLine
  let indent := if given == 0 then 0 else (if 0 ≤ outer then outer.toNat + given else given)
  let (more, widest, c) ← blockBreaks indent (c.size + 1) 0 [] c
  let indent := if indent == 0 then max widest (max (outer + 1).toNat 1) else indent
  let (text, first, more, c) ← blockLines literal indent (c.size + 1) [] [] more false c
  let tail := match chomp with
    | .strip => []
    | .clip => first
    | .keep => more ++ first
  return (String.ofList (tail ++ text).reverse, c)

def endsPlain (flow : Bool) (c : Cursor) : Bool :=
  match c.peek? with
  | none => true
  | some x =>
    (x == ':' && c.gapAt 1) ||
      (flow && (x == ',' || x == '?' || x == '[' || x == ']' || x == '\x7b' || x == '\x7d'))

/-- The scalar gathered before a place; the flag tells that a line break was passed at the end. -/
def Gathered.upTo (g : Gathered) (c : Cursor) : String × Bool × Cursor :=
  (String.ofList g.text.reverse, g.broken, c)

def plainFrom (flow : Bool) (indent : Nat) :
    Nat → Gathered → Cursor → Option (String × Bool × Cursor)
  | 0, _, _ => none
  | fuel + 1, g, c =>
    match c.peek? with
    | none => some (g.upTo c)
    | some x =>
      let starts := g.broken || !g.blanks.isEmpty
      if isBlank x || isBreak x then
        if g.broken && c.column < indent && x == '\t' then none
        else
          let (g, c) := g.gap c
          plainFrom flow indent fuel g c
      else if starts && !flow && c.column < indent then some (g.upTo c)
      else if (starts || g.text.isEmpty) && (c.atDocumentMark || x == '#') then some (g.upTo c)
      else if endsPlain flow c then some (g.upTo c)
      else plainFrom flow indent fuel (g.close.push x) c.step

def plain (flow : Bool) (outer : Int) (c : Cursor) : Option (String × Bool × Cursor) :=
  plainFrom flow (outer + 1).toNat (c.size + 1) {} c

end ReactiveModel.Yaml
