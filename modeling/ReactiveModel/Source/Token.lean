/-! Tokens of Go source, with their positions. -/

namespace ReactiveModel.Source

/-- A place in a text. Lines and columns count from one, offsets and columns count UTF-8 bytes;
line zero is no place at all. -/
structure Pos where
  offset : Nat
  line : Nat
  column : Nat
deriving DecidableEq, Inhabited

namespace Pos

def none : Pos := ⟨0, 0, 0⟩

def first : Pos := ⟨0, 1, 1⟩

def isSome (p : Pos) : Bool := p.line != 0

def step (p : Pos) (c : Char) : Pos :=
  if c == '\n' then ⟨p.offset + 1, p.line + 1, 1⟩
  else ⟨p.offset + c.utf8Size, p.line, p.column + c.utf8Size⟩

def advance (p : Pos) (cs : List Char) : Pos := cs.foldl step p

end Pos

/-- Kinds of tokens. Operators and keywords are told apart by their spelling. -/
inductive Kind
  | eof
  | ident
  | int
  | float
  | imaginary
  | char
  | string
  | comment
  /-- A semicolon, written out or standing for the end of a line. -/
  | semicolon (written : Bool)
  | operator (spelling : String)
  | keyword (spelling : String)
deriving DecidableEq, Inhabited

/-- A token. Its end is counted by the bytes of its text, from which carriage returns may have
been dropped. -/
structure Token where
  kind : Kind
  text : String
  pos : Pos
  stop : Pos
  /-- The line that it counts as, by the line directives in front of it. -/
  line : Int
deriving Inhabited

def keywords : List String :=
  ["break", "case", "chan", "const", "continue", "default", "defer", "else", "fallthrough", "for",
   "func", "go", "goto", "if", "import", "interface", "map", "package", "range", "return",
   "select", "struct", "switch", "type", "var"]

def isKeyword (s : String) : Bool := keywords.contains s

def precedence (op : String) : Nat :=
  if op == "||" then 1
  else if op == "&&" then 2
  else if ["==", "!=", "<", "<=", ">", ">="].contains op then 3
  else if ["+", "-", "|", "^"].contains op then 4
  else if ["*", "/", "%", "<<", ">>", "&", "&^"].contains op then 5
  else 0

def Kind.endsStatement : Kind → Bool
  | .ident | .int | .float | .imaginary | .char | .string => true
  | .operator s => ["++", "--", ")", "]", "\x7d"].contains s
  | .keyword s => ["break", "continue", "fallthrough", "return"].contains s
  | _ => false

end ReactiveModel.Source
