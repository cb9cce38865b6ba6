import ReactiveModel.Number.Shortest

/-! Written forms of numbers. A form says for which exponents the positional notation is used and
how an exponent is written. -/

namespace ReactiveModel.Binary64

structure Form where
  /-- Exponents of the first digit that are written positionally: from `low` on, below `high`. -/
  low : Int
  high : Int
  negativeWidth : Nat
  positiveWidth : Nat

/-- Number literals: six positions before an exponent appears, exponents of two digits. -/
def Form.literal : Form := ⟨-4, 6, 2, 2⟩

/-- JSON numbers: positional from `1e-6` to `1e21`, exponents as short as possible. -/
def Form.json : Form := ⟨-6, 21, 1, 1⟩

def padLeft (w : Nat) (ds : List Char) : List Char :=
  List.replicate (w - ds.length) '0' ++ ds

def Form.exponent (f : Form) (e : Int) : List Char :=
  if e < 0 then 'e' :: '-' :: padLeft f.negativeWidth (Nat.toDigits 10 e.natAbs)
  else 'e' :: '+' :: padLeft f.positiveWidth (Nat.toDigits 10 e.natAbs)

def positional (d : Decimal) : List Char :=
  if d.point ≤ 0 then
    if d.digits.isEmpty then ['0']
    else '0' :: '.' :: List.replicate (-d.point).toNat '0' ++ d.digits
  else
    let p := d.point.toNat
    let whole := d.digits.take p ++ List.replicate (p - d.digits.length) '0'
    if d.digits.length ≤ p then whole else whole ++ '.' :: d.digits.drop p

def Form.scientific (f : Form) (d : Decimal) : List Char :=
  let mantissa := match d.digits with
    | [] => ['0']
    | [c] => [c]
    | c :: cs => c :: '.' :: cs
  mantissa ++ f.exponent (d.point - 1)

def Form.magnitude (f : Form) (d : Decimal) : List Char :=
  if d.digits.isEmpty then ['0']
  else if d.point - 1 < f.low || f.high ≤ d.point - 1 then f.scientific d
  else positional d

def text (f : Form) (x : Binary64) : String :=
  if x.isNaN then "NaN"
  else if x.isInfinite then if x.negative then "-Inf" else "+Inf"
  else String.ofList ((if x.negative then ['-'] else []) ++ f.magnitude x.shortest)

def literal (x : Binary64) : String := x.text .literal

end ReactiveModel.Binary64
