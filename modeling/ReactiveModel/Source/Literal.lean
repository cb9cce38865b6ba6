import ReactiveModel.Source.Scanner
import ReactiveModel.Text.Quoted

/-! Texts that string literals stand for, and the canonical literals of import paths. -/

namespace ReactiveModel.Source

/-- The bytes that an escape sequence stands for, given behind its backslash, and the number of its
characters. -/
def escapeBytes (cs : List Char) : List UInt8 × Nat :=
  let char (n : Nat) : List UInt8 := String.utf8EncodeChar (Char.ofNat n)
  match cs with
  | [] => ([], 0)
  | 'a' :: _ => ([7], 1)
  | 'b' :: _ => ([8], 1)
  | 'f' :: _ => ([12], 1)
  | 'n' :: _ => ([10], 1)
  | 'r' :: _ => ([13], 1)
  | 't' :: _ => ([9], 1)
  | 'v' :: _ => ([11], 1)
  | 'x' :: r => ([UInt8.ofNat (hexNumber (r.take 2))], 3)
  | 'u' :: r => (char (hexNumber (r.take 4)), 5)
  | 'U' :: r => (char (hexNumber (r.take 8)), 9)
  | c :: r =>
    if isOctalDigit c then
      ([UInt8.ofNat ((c :: r.take 2).foldl (fun n d => 8 * n + (d.toNat - '0'.toNat)) 0)], 3)
    else (String.utf8EncodeChar c, 1)

/-- The bytes of an interpreted string; `skip` counts characters of an escape sequence. -/
def interpretedBytes : Nat → List Char → List UInt8
  | _, [] => []
  | skip + 1, _ :: cs => interpretedBytes skip cs
  | 0, c :: cs =>
    if c == '\\' then
      let (bs, n) := escapeBytes cs
      bs ++ interpretedBytes n cs
    else String.utf8EncodeChar c ++ interpretedBytes 0 cs

def stringValue (literal : String) : Text :=
  let inner := (literal.toList.drop 1).dropLast
  if literal.startsWith "\"" then ⟨interpretedBytes 0 inner⟩ else .ofString (String.ofList inner)

def isIllegalInPath (c : Char) : Bool :=
  c == ' ' || !Text.isPrintable c ||
    "!\"#$%&'()*,:;<=>?[\\]^\x7b|\x7d\x60�".toList.contains c

/-- The literal of an import path with plain quotes, unless the path is a strange one. -/
def pathLiteral (literal : String) : String :=
  let path := stringValue literal
  if path == "" || path.pieces.any (fun p => isIllegalInPath p.shown) then literal else path.quoted

end ReactiveModel.Source
