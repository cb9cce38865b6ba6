import ReactiveModel.Text.Utf8
import ReactiveModel.Yaml.Cursor

/-! The characters of a YAML text. Its bytes are in UTF-8, or in UTF-16 if they start with the byte
order mark of that. They are read in blocks, and a block when a character of it is needed: what is
unreadable counts only when the reading comes to its block. -/

namespace ReactiveModel.Yaml

inductive Front
  | char (c : Char) (size : Nat)
  | cut
  | unreadable

def charSize? (lead : Nat) : Option Nat :=
  if lead < 0x80 then some 1
  else if lead < 0xC0 then none
  else if lead < 0xE0 then some 2
  else if lead < 0xF0 then some 3
  else if lead < 0xF8 then some 4
  else none

namespace Front

def ofUtf8 : List UInt8 → Front
  | [] => .cut
  | b :: bs =>
    match charSize? b.toNat with
    | none => .unreadable
    | some n =>
      if bs.length + 1 < n then .cut
      else
        match Text.utf8Char? b.toNat bs with
        | some (c, _) => .char c n
        | none => .unreadable

def isHigh (u : Nat) : Bool := 0xD800 ≤ u && u ≤ 0xDBFF

def isLow (u : Nat) : Bool := 0xDC00 ≤ u && u ≤ 0xDFFF

/-- Two bytes make a unit, with the high byte first or last, and two surrogates a character. -/
def ofUtf16 (highFirst : Bool) (bs : List UInt8) : Front :=
  let unit (a b : UInt8) : Nat :=
    if highFirst then a.toNat * 256 + b.toNat else b.toNat * 256 + a.toNat
  match bs with
  | a :: b :: rest =>
    let u := unit a b
    if isLow u then .unreadable
    else if isHigh u then
      match rest with
      | c :: d :: _ =>
        let v := unit c d
        if isLow v then .char (Char.ofNat (0x10000 + (u - 0xD800) * 0x400 + (v - 0xDC00))) 4
        else .unreadable
      | _ => .cut
    else .char (Char.ofNat u) 2
  | _ => .cut

end Front

/-- The characters of a block, with the number of bytes they take; none if something in it is
unreadable. -/
def blockChars (front : List UInt8 → Front) : Nat → List UInt8 → Option (List Char × Nat)
  | 0, _ => some ([], 0)
  | fuel + 1, bs =>
    match front bs with
    | .cut => some ([], 0)
    | .unreadable => none
    | .char c n =>
      if isAllowed c then (blockChars front fuel (bs.drop n)).map fun (cs, m) => (c :: cs, n + m)
      else none

def blockSize : Nat := 512

/-- The characters of blocks, of which the first has its own size. A character that does not end
in its block starts the next one. The flag tells that something unreadable follows. -/
def blocks (front : List UInt8 → Front) : Nat → Nat → List UInt8 → List (List Char) × Bool
  | 0, _, bs => ([], !bs.isEmpty)
  | fuel + 1, size, bs =>
    if bs.isEmpty then ([], false)
    else
      match blockChars front size (bs.take size) with
      | none | some ([], _) => ([], true)
      | some (cs, n) =>
        let (more, broken) := blocks front fuel blockSize (bs.drop n)
        (cs :: more, broken)

/-- The place where a text starts. A byte order mark is part of the first block. -/
def Cursor.ofBytes (bs : List UInt8) : Cursor :=
  let (front, mark) := match bs with
    | 0xFF :: 0xFE :: _ => (Front.ofUtf16 false, 2)
    | 0xFE :: 0xFF :: _ => (Front.ofUtf16 true, 2)
    | 0xEF :: 0xBB :: 0xBF :: _ => (Front.ofUtf8, 3)
    | _ => (Front.ofUtf8, 0)
  let (parts, broken) := blocks front (bs.length + 1) (blockSize - mark) (bs.drop mark)
  let cs := parts.flatten
  { rest := cs, size := cs.length, broken, marked := cs.head? == some '\ufeff'
    window := (parts.headD []).length }

end ReactiveModel.Yaml
