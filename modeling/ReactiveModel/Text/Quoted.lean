import ReactiveModel.Text.Basic

/-! Double-quoted text: printable characters stand for themselves, quote and backslash are
escaped, everything else, stray bytes too, is written as an escape sequence. -/

namespace ReactiveModel.Text

def hexDigits (v : Nat) : Nat → List Char
  | 0 => []
  | n + 1 => hexDigits (v / 16) n ++ [Nat.digitChar (v % 16)]

def quoteChar (c : Char) : List Char :=
  if c == '"' || c == '\\' then ['\\', c]
  else if isPrintable c then [c]
  else match c.toNat with
    | 0x07 => ['\\', 'a']
    | 0x08 => ['\\', 'b']
    | 0x0C => ['\\', 'f']
    | 0x0A => ['\\', 'n']
    | 0x0D => ['\\', 'r']
    | 0x09 => ['\\', 't']
    | 0x0B => ['\\', 'v']
    | n =>
      if n < 0x20 || n == 0x7F then '\\' :: 'x' :: hexDigits n 2
      else if n < 0x10000 then '\\' :: 'u' :: hexDigits n 4
      else '\\' :: 'U' :: hexDigits n 8

def quotePiece : Piece → List Char
  | .char c => quoteChar c
  | .stray b => '\\' :: 'x' :: hexDigits b.toNat 2

def quoted (t : Text) : String := String.ofList ('"' :: t.pieces.flatMap quotePiece ++ ['"'])

end ReactiveModel.Text
