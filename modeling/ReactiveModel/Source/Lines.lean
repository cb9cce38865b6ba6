import ReactiveModel.Source.Token

/-! The lines of a text. Two lines can be joined without a change of the text; what follows then
counts one line less. -/

namespace ReactiveModel.Source

structure Lines where
  starts : List Nat := [0]
  /-- Numbers that lines count from, each from some place on, the last one first. -/
  numbered : List (Nat × Int) := []
  size : Nat := 0
deriving Inhabited

namespace Lines

def breaksFrom : Nat → List Char → List Nat
  | _, [] => []
  | n, c :: cs =>
    if c == '\n' then (n + 1) :: breaksFrom (n + 1) cs else breaksFrom (n + c.utf8Size) cs

/-- The lines of a text. A line break at its end starts no line. -/
def ofString (s : String) (numbered : List (Nat × Int)) : Lines :=
  let inside (n : Nat) : Bool := n < s.utf8ByteSize
  { starts := 0 :: (breaksFrom 0 s.toList).filter inside
    numbered := numbered.filter (inside ·.1)
    size := s.utf8ByteSize }

variable (l : Lines)

def count : Nat := l.starts.length

def lineAt (offset : Nat) : Nat := (l.starts.takeWhile (· ≤ offset)).length

def startOf (line : Nat) : Nat := (l.starts[line - 1]?).getD 0

/-- A place by its offset; there is none behind the end of the text. -/
def place (offset : Nat) : Pos :=
  if l.size < offset then Pos.none
  else
    let line := l.lineAt offset
    ⟨offset, line, offset - l.startOf line + 1⟩

def numberAt (offset : Nat) : Int :=
  match l.numbered.find? (·.1 ≤ offset) with
  | none => l.lineAt offset
  | some (start, n) => n + (l.lineAt offset - l.lineAt start : Int)

def join (line : Nat) : Lines :=
  if 0 < line && line < l.count then { l with starts := l.starts.eraseIdx line } else l

end Lines

end ReactiveModel.Source
