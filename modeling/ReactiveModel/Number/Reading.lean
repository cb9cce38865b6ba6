import ReactiveModel.Number.Binary64
import ReactiveModel.Number.Underscore

/-! Reading numbers: a decimal or hexadecimal fraction with an exponent is rounded to the nearest
binary64 number; a magnitude beyond the largest finite one is reported apart. -/

namespace ReactiveModel.Binary64

structure Written where
  negative : Bool
  digits : Nat
  exponent : Int

inductive Reading
  | number (x : Binary64)
  | outOfRange (x : Binary64)
  | malformed

/-- The exact value `digits * base ^ exponent`, rounded. Numbers far outside the range of finite
ones are told by bounds of their binary length. -/
def Written.rounded (base : Nat) (least greatest : Int) (w : Written) : Reading :=
  if w.digits == 0 then .number (ofMagnitude w.negative 0)
  else if 1100 < least then .outOfRange (infinity w.negative)
  else if greatest < -1200 then .number (ofMagnitude w.negative 0)
  else
    let x := if 0 ≤ w.exponent then ofRatio w.negative (w.digits * Nat.pow base w.exponent.toNat) 1
      else ofRatio w.negative w.digits (Nat.pow base (-w.exponent).toNat)
    if x.isInfinite then .outOfRange x else .number x

/-- Ten lies between eight and sixteen. -/
def Written.decimal (w : Written) : Reading :=
  let length : Int := w.digits.log2
  w.rounded 10 (length + (if 0 ≤ w.exponent then 3 else 4) * w.exponent)
    (length + 1 + (if 0 ≤ w.exponent then 4 else 3) * w.exponent)

def Written.binary (w : Written) : Reading :=
  let top : Int := w.digits.log2 + w.exponent
  w.rounded 2 top top

/-- Digits of a base with at most one point: their value, their number, the number after the
point, whether a point was seen, and the rest. -/
def readDigits (base : Nat) : List Char → Nat → Nat → Nat → Bool → Nat × Nat × Nat × List Char
  | [], v, n, after, _ => (v, n, after, [])
  | c :: cs, v, n, after, point =>
    if c == '.' && !point then readDigits base cs v n after true
    else match Text.hexValue? c with
      | some d =>
        if d < base then
          readDigits base cs (v * base + d) (n + 1) (if point then after + 1 else after) point
        else (v, n, after, c :: cs)
      | none => (v, n, after, c :: cs)

def readExponent (cs : List Char) : Option Int :=
  let (negative, ds) := match cs with
    | '-' :: r => (true, r)
    | '+' :: r => (false, r)
    | r => (false, r)
  if ds.isEmpty || !ds.all Char.isDigit then none
  else
    let ds := ds.dropWhile (· == '0')
    -- beyond nine digits only the size matters
    let v : Nat :=
      if 9 < ds.length then Nat.pow 10 9 else ds.foldl (fun v c => v * 10 + (c.toNat - 48)) 0
    some (if negative then -(v : Int) else v)

def splitSign : List Char → Bool × List Char
  | '-' :: r => (true, r)
  | '+' :: r => (false, r)
  | r => (false, r)

def readDecimal (cs : List Char) : Reading :=
  let (negative, cs) := splitSign cs
  let (v, n, after, rest) := readDigits 10 cs 0 0 0 false
  if n == 0 then .malformed
  else match rest with
    | [] => Written.decimal ⟨negative, v, -after⟩
    | c :: r =>
      if c == 'e' || c == 'E' then
        match readExponent r with
        | some e => Written.decimal ⟨negative, v, e - after⟩
        | none => .malformed
      else .malformed

def readHexadecimal (negative : Bool) (cs : List Char) : Reading :=
  let (v, n, after, rest) := readDigits 16 cs 0 0 0 false
  match rest with
  | c :: r =>
    if n != 0 && (c == 'p' || c == 'P') then
      match readExponent r with
      | some e => Written.binary ⟨negative, v, e - 4 * after⟩
      | none => .malformed
    else .malformed
  | [] => .malformed

/-- Takes out underscores that group digits; none if some do not. -/
def withoutUnderscores? (cs : List Char) : Option (List Char) :=
  if !cs.contains '_' then some cs
  else if Underscore.fit (splitSign cs).2 then some (cs.filter (· != '_'))
  else none

def read (s : String) : Reading :=
  match withoutUnderscores? s.toList with
  | none => .malformed
  | some all =>
    let (negative, cs) := splitSign all
    match (String.ofList (cs.map Char.toLower)) with
    | "inf" | "infinity" => .number (infinity negative)
    | "nan" => if all.head? == cs.head? then .number nan else .malformed
    | _ =>
      match cs with
      | '0' :: 'x' :: r => readHexadecimal negative r
      | '0' :: 'X' :: r => readHexadecimal negative r
      | _ => readDecimal all

end ReactiveModel.Binary64
