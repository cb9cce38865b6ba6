/-! Numbers of a model: IEEE 754 binary64, kept as the bit pattern. Every decision is taken in
exact natural arithmetic on the mantissa and the exponent. -/

namespace ReactiveModel

structure Binary64 where
  bits : UInt64
deriving DecidableEq, Inhabited

namespace Binary64

def negative (x : Binary64) : Bool := Nat.pow 2 63 ≤ x.bits.toNat

def exponentField (x : Binary64) : Nat := x.bits.toNat / Nat.pow 2 52 % Nat.pow 2 11

def fractionField (x : Binary64) : Nat := x.bits.toNat % Nat.pow 2 52

def isNaN (x : Binary64) : Bool := x.exponentField == 2047 && x.fractionField != 0

def isInfinite (x : Binary64) : Bool := x.exponentField == 2047 && x.fractionField == 0

def isFinite (x : Binary64) : Bool := x.exponentField != 2047

def isZero (x : Binary64) : Bool := x.exponentField == 0 && x.fractionField == 0

/-- A finite number is `mantissa * 2 ^ (scale - 1074)`, up to its sign. -/
def mantissa (x : Binary64) : Nat :=
  if x.exponentField == 0 then x.fractionField else x.fractionField + Nat.pow 2 52

def scale (x : Binary64) : Nat := x.exponentField - 1

def ratio (x : Binary64) : Nat × Nat :=
  if 1074 ≤ x.scale then (x.mantissa * Nat.pow 2 (x.scale - 1074), 1)
  else (x.mantissa, Nat.pow 2 (1074 - x.scale))

def ofMagnitude (negative : Bool) (m : Nat) : Binary64 :=
  ⟨UInt64.ofNat (m + if negative then Nat.pow 2 63 else 0)⟩

def zero : Binary64 := ⟨0⟩

def infinity (negative : Bool) : Binary64 := ofMagnitude negative (2047 * Nat.pow 2 52)

def nan : Binary64 := ⟨0x7FF8000000000001⟩

def nearest (n d : Nat) : Nat :=
  let q := n / d
  let r := 2 * (n % d)
  if r < d then q else if d < r then q + 1 else q + q % 2

/-- `n / d` over `2 ^ (s - 1074)`, as a fraction. -/
def rescale (n d s : Nat) : Nat × Nat :=
  if 1074 ≤ s then (n, d * Nat.pow 2 (s - 1074)) else (n * Nat.pow 2 (1074 - s), d)

/-- Scale at which the mantissa of `n / d` has 53 binary digits, or the smallest scale. -/
def scaleOf (n d : Nat) : Nat :=
  let k := n.log2 + 1022 - d.log2
  let fits (s : Nat) : Bool := let (a, b) := rescale n d s; a / b < Nat.pow 2 53
  if 0 < k && fits (k - 1) then k - 1 else if fits k then k else k + 1

/-- The binary64 number nearest to `n / d`, where `0 < d`; infinite when it is too large. -/
def ofRatio (negative : Bool) (n d : Nat) : Binary64 :=
  if n == 0 then ofMagnitude negative 0
  else
    let s := scaleOf n d
    let (a, b) := rescale n d s
    let bits := s * Nat.pow 2 52 + nearest a b
    if 2047 * Nat.pow 2 52 ≤ bits then infinity negative else ofMagnitude negative bits

def ofInt (i : Int) : Binary64 := ofRatio (i < 0) i.natAbs 1

def toNat? (x : Binary64) : Option Nat :=
  if !x.isFinite then none
  else if x.isZero then some 0
  else if x.negative then none
  else
    let (n, d) := x.ratio
    if n % d == 0 then some (n / d) else none

/-- Widens an IEEE 754 binary32 bit pattern. -/
def ofBinary32 (w : Nat) : Binary64 :=
  let negative : Bool := Nat.pow 2 31 ≤ w
  let e := w / Nat.pow 2 23 % Nat.pow 2 8
  let f := w % Nat.pow 2 23
  if e == 255 then
    if f == 0 then infinity negative
    else ofMagnitude negative (2047 * Nat.pow 2 52 + f * Nat.pow 2 29)
  else
    let m := if e == 0 then f else f + Nat.pow 2 23
    let s := max e 1
    if 150 ≤ s then ofRatio negative (m * Nat.pow 2 (s - 150)) 1
    else ofRatio negative m (Nat.pow 2 (150 - s))

end Binary64

end ReactiveModel
