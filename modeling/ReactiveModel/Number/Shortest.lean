import ReactiveModel.Number.Binary64

/-! Shortest decimals. The digits of a finite number are the fewest that read back as the same
number, and of those the nearest to it. -/

namespace ReactiveModel.Binary64

/-- A decimal `0.d₁d₂… * 10 ^ point`; zero has no digits. -/
structure Decimal where
  digits : List Char
  point : Int

/-- Largest `k` with `10 ^ k ≤ n / d`, searched upwards from `-k₀`. -/
def decimalExponent (n d : Nat) : Nat → Int → Int
  | 0, k => k
  | fuel + 1, k =>
    let next := k + 1
    let below :=
      if 0 ≤ next then Nat.pow 10 next.toNat * d ≤ n else d ≤ n * Nat.pow 10 (-next).toNat
    if below then decimalExponent n d fuel next else k

/-- Upper part of the search: an estimate from the binary digits that is never too large. -/
def exponentEstimate (n d : Nat) : Int :=
  let b : Int := (n.log2 : Int) - (d.log2 : Int) - 1
  b * 30103 / 100000 - 1

/-- Whether the fraction `a / b` reads back as `x`: it lies between the halfway points to the
neighbours of `x`, ends included when the mantissa is even. -/
def readsBack (x : Binary64) (a b : Nat) : Bool :=
  -- everything is counted in quarters of the unit in the last place
  let m := 4 * x.mantissa
  let lo := if x.fractionField == 0 && 1 < x.exponentField then m - 1 else m - 2
  let hi := m + 2
  let (p, q) := rescale (4 * a) b x.scale
  let below := if x.mantissa % 2 == 0 then lo * q ≤ p else lo * q < p
  let above := if x.mantissa % 2 == 0 then p ≤ hi * q else p < hi * q
  below && above

/-- The digits at a given length: the two neighbours on that grid, the nearer one first. -/
def onGrid (x : Binary64) (k : Int) (len : Nat) : Option Nat :=
  let (n, d) := x.ratio
  let u := k - len + 1
  let (p, q) := if 0 ≤ u then (n, d * Nat.pow 10 u.toNat) else (n * Nat.pow 10 (-u).toNat, d)
  let lo := p / q
  let fits (c : Nat) : Bool :=
    if 0 ≤ u then readsBack x (c * Nat.pow 10 u.toNat) 1 else readsBack x c (Nat.pow 10 (-u).toNat)
  let near := if 2 * (p % q) ≤ q then lo else lo + 1
  let far := if 2 * (p % q) ≤ q then lo + 1 else lo
  if fits near then some near else if fits far then some far else none

def shortestFrom (x : Binary64) (k : Int) : Nat → Nat → Nat × Nat
  | 0, len => ((onGrid x k len).getD 0, len)
  | fuel + 1, len =>
    match onGrid x k len with
    | some c => (c, len)
    | none => shortestFrom x k fuel (len + 1)

def shortest (x : Binary64) : Decimal :=
  if x.isZero then ⟨[], 0⟩
  else
    let (n, d) := x.ratio
    let k := decimalExponent n d 8 (exponentEstimate n d)
    let (c, len) := shortestFrom x k 16 1
    let ds := (Nat.toDigits 10 c)
    let carry : Int := (ds.length : Int) - len
    ⟨(ds.reverse.dropWhile (· == '0')).reverse, k + 1 + carry⟩

end ReactiveModel.Binary64
