/-! Text in UTF-8. -/

namespace ReactiveModel.Text

/-- The number that `n` continuation bytes add to a lead. -/
def continuation (n : Nat) (bs : List UInt8) : Option Nat :=
  let t := bs.take n
  if t.length == n && t.all (fun b => 0x80 ≤ b.toNat && b.toNat < 0xC0) then
    some (t.foldl (fun a b => a * 64 + (b.toNat - 0x80)) 0)
  else none

/-- How many continuation bytes follow a lead, with the least and the greatest character they give;
none if it is no lead. -/
def leadBounds (lead : Nat) : Option (Nat × Nat × Nat) :=
  if lead < 0x80 then some (0, 0, 0x7F)
  else if 0xC2 ≤ lead && lead < 0xE0 then some (1, 0x80, 0x7FF)
  else if 0xE0 ≤ lead && lead < 0xF0 then some (2, 0x800, 0xFFFF)
  else if 0xF0 ≤ lead && lead < 0xF5 then some (3, 0x10000, 0x10FFFF)
  else none

/-- The character at the front and the number of bytes after its first. -/
def utf8Char? (lead : Nat) (bs : List UInt8) : Option (Char × Nat) := do
  let (n, low, high) ← leadBounds lead
  let v ← continuation n bs
  let v := (if n == 0 then lead else lead % Nat.pow 2 (6 - n)) * Nat.pow 64 n + v
  if low ≤ v && v ≤ high && !(0xD800 ≤ v && v < 0xE000) then some (Char.ofNat v, n) else none

/-- A character, or a byte that belongs to none. -/
inductive Piece
  | char (c : Char)
  | stray (b : UInt8)
deriving DecidableEq, Inhabited

namespace Piece

def bytes : Piece → List UInt8
  | .char c => String.utf8EncodeChar c
  | .stray b => [b]

def char? : Piece → Option Char
  | .char c => some c
  | .stray _ => none

/-- The character itself, and U+FFFD for a stray byte. -/
def shown (p : Piece) : Char := p.char?.getD '\ufffd'

end Piece

def piecesOf : Nat → List UInt8 → List Piece
  | 0, _ => []
  | _, [] => []
  | fuel + 1, b :: bs =>
    match utf8Char? b.toNat bs with
    | some (c, n) => .char c :: piecesOf fuel (bs.drop n)
    | none => .stray b :: piecesOf fuel bs

/-- The text of bytes; a byte that belongs to no character becomes U+FFFD. -/
def ofUtf8 (bs : List UInt8) : String := String.ofList ((piecesOf bs.length bs).map Piece.shown)

def ofUtf8? (bs : List UInt8) : Option String :=
  ((piecesOf bs.length bs).mapM Piece.char?).map String.ofList

end ReactiveModel.Text
