/-! Geometric means of sizes. Logarithm and exponential are computed by fixed rational and
polynomial approximations, so that a mean is the same number everywhere, to the last bit. -/

namespace ReactiveModel.Number

/-- The natural logarithm of a positive number. The argument is `f · 2ᵏ` with `f` next to one, and
`ln f` is a polynomial in `s = (f - 1) / (f + 1)`. -/
def logarithm (x : Float) : Float :=
  let (m, e) := x.frExp
  let small := m < 0.70710678118654752440
  let f := (if small then m * 2 else m) - 1
  let k := Float.ofInt (if small then e - 1 else e)
  let s := f / (2 + f)
  let s₂ := s * s
  let s₄ := s₂ * s₂
  let odd := s₂ * (6.666666666666735130e-01 + s₄ * (2.857142874366239149e-01 +
    s₄ * (1.818357216161805012e-01 + s₄ * 1.479819860511658591e-01)))
  let even := s₄ * (3.999999999940941908e-01 + s₄ * (2.222219843214978396e-01 +
    s₄ * 1.531383769920937332e-01))
  let half := 0.5 * f * f
  k * 6.93147180369123816490e-01 -
    ((half - (s * (half + (odd + even)) + k * 1.90821492927058770002e-10)) - f)

/-- Coefficients of the series of `(eˣ - 1) / x`, the last ones first. -/
def exponentialSeries : List Float :=
  [1.9841269841269841270e-4, 1.3888888888888888889e-3, 8.3333333333333333333e-3,
   4.1666666666666666667e-2, 1.6666666666666666667e-1, 0.5, 1.0]

/-- The exponential of a number of moderate size. The argument is reduced by a multiple of `ln 2`
and divided by 16; four times, `y = eˣ - 1` is then doubled in `x` by `y · (y + 2)`. -/
def exponential (x : Float) : Float :=
  let k := (1.4426950408889634073599246810018920 * x).round
  let r := x - k * 0.69314718055966295651160180568695068359375
  let r := (r - k * 0.28235290563031577122588448175013436025525412068e-12) * 0.0625
  let y := r * exponentialSeries.foldl (fun p c => p * r + c) 2.4801587301587301587e-5
  let double (y : Float) : Float := y * (y + 2)
  (double (double (double (double y))) + 1).scaleB k.toInt64.toInt

def geometricMean (logarithms : Float) (count : Nat) : Float :=
  exponential (logarithms / count.toFloat)

end ReactiveModel.Number
