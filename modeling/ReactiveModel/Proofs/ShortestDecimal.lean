import Mathlib.Algebra.Order.Field.Power
import Mathlib.Data.List.DropRight
import Mathlib.Tactic.Linarith
import Mathlib.Tactic.NormNum
import ReactiveModel.Proofs.Rounding

/-! The shortest decimal of a number. Seventeen digits always suffice, so the search for the fewest
digits ends with a decimal in the interval of the number. -/

namespace ReactiveModel.Binary64

open List

variable {x : Binary64} {k e b : Int} {q d n len c : Nat}

/-! Powers of ten. -/

lemma ten_zpow_of_nonneg (h : 0 ≤ e) : (10 : ℚ) ^ e = (10 ^ e.toNat : Nat) := by
  obtain ⟨n, rfl⟩ := Int.eq_ofNat_of_zero_le h
  simp

lemma ten_zpow_of_neg (h : ¬0 ≤ e) : (10 : ℚ) ^ e = ((10 ^ (-e).toNat : Nat) : ℚ)⁻¹ := by
  obtain ⟨n, hn⟩ := Int.eq_ofNat_of_zero_le (by omega : 0 ≤ -e)
  obtain rfl : e = -(n : Int) := by omega
  simp

lemma zpow_le_zpow_of_nonpos {a b : ℚ} {n : Int} (hn : n ≤ 0) (ha : 0 < a) (hab : a ≤ b) :
    b ^ n ≤ a ^ n := by
  have := zpow_le_zpow_left₀ (neg_nonneg.2 hn) (inv_nonneg.2 (ha.le.trans hab)) (inv_anti₀ ha hab)
  rwa [inv_zpow', inv_zpow', neg_neg] at this

lemma ten_zpow_le_two_zpow_of {k : Int} (p : Nat) (hq : q ≠ 0) (h : k * q ≤ p * b)
    (hbase : ((10 : ℚ) ^ p) ^ b ≤ ((2 : ℚ) ^ q) ^ b) : (10 : ℚ) ^ k ≤ 2 ^ b := by
  refine le_of_pow_le_pow_left₀ hq (by positivity) ?_
  calc ((10 : ℚ) ^ k) ^ q = 10 ^ (k * q) := by rw [zpow_mul, zpow_natCast]
    _ ≤ 10 ^ (p * b) := zpow_le_zpow_right₀ (by norm_num) h
    _ = ((10 : ℚ) ^ p) ^ b := by rw [zpow_mul, zpow_natCast]
    _ ≤ ((2 : ℚ) ^ q) ^ b := hbase
    _ = ((2 : ℚ) ^ b) ^ q := by
      rw [← zpow_natCast, ← zpow_natCast, ← zpow_mul, ← zpow_mul, mul_comm]

/-- The estimate of the decimal exponent: the logarithm of two lies between `59 / 196` and
`28 / 93`. -/
lemma ten_zpow_le_two_zpow {k : Int} (h : 100000 * (k + 1) ≤ 30103 * b) (hlow : -1100 ≤ b)
    (hhigh : b ≤ 1100) : (10 : ℚ) ^ k ≤ 2 ^ b := by
  rcases le_total 0 b with hb | hb
  · exact ten_zpow_le_two_zpow_of 59 (q := 196) (by decide) (by omega)
      (zpow_le_zpow_left₀ hb (by positivity) (by norm_num))
  · exact ten_zpow_le_two_zpow_of 28 (q := 93) (by decide) (by omega)
      (zpow_le_zpow_of_nonpos hb (by positivity) (by norm_num))

/-! The value of a number. -/

def magnitude (x : Binary64) : ℚ := x.mantissa * x.unit

lemma magnitude_pos (h : x.isZero = false) : 0 < x.magnitude :=
  mul_pos (Nat.cast_pos.2 (mantissa_pos h)) x.unit_pos

lemma ratio_snd_pos (x : Binary64) : 0 < x.ratio.2 := by
  unfold ratio
  split
  · exact Nat.one_pos
  · exact Nat.two_pow_pos _

lemma ratio_mul_subunits (x : Binary64) :
    x.ratio.1 * subunits = x.mantissa * 2 ^ x.scale * x.ratio.2 := by
  unfold ratio
  split
  case isTrue h => rw [Nat.pow_eq, Nat.mul_assoc, two_pow_sub_mul_subunits h, Nat.mul_one]
  case isFalse h =>
    rw [Nat.pow_eq, Nat.mul_assoc, Nat.mul_comm (2 ^ x.scale), two_pow_sub_mul (by omega)]

lemma ratio_div (x : Binary64) : (x.ratio.1 : ℚ) / x.ratio.2 = x.magnitude := by
  have hd : (x.ratio.2 : ℚ) ≠ 0 := Nat.cast_ne_zero.2 x.ratio_snd_pos.ne'
  have hu : (subunits : ℚ) ≠ 0 := Nat.cast_ne_zero.2 subunits_pos.ne'
  unfold magnitude unit
  rw [← mul_div_assoc, div_eq_div_iff hd hu]
  exact_mod_cast x.ratio_mul_subunits

/-! The decimal exponent. -/

lemma below_iff (e : Int) (n : Nat) (hd : 0 < d) :
    (if 0 ≤ e then Nat.pow 10 e.toNat * d ≤ n else d ≤ n * Nat.pow 10 (-e).toNat) ↔
      (10 : ℚ) ^ e ≤ n / d := by
  have hd' : (0 : ℚ) < d := Nat.cast_pos.2 hd
  split
  case isTrue h =>
    rw [ten_zpow_of_nonneg h, le_div_iff₀ hd']
    exact_mod_cast Iff.rfl
  case isFalse h =>
    have hp : (0 : ℚ) < (10 ^ (-e).toNat : Nat) := Nat.cast_pos.2 (by positivity)
    rw [ten_zpow_of_neg h, le_div_iff₀ hd', inv_mul_le_iff₀ hp, mul_comm]
    exact_mod_cast Iff.rfl

lemma zpow_decimalExponent_le (hd : 0 < d) (fuel : Nat) (h : (10 : ℚ) ^ k ≤ n / d) :
    (10 : ℚ) ^ decimalExponent n d fuel k ≤ n / d := by
  induction fuel generalizing k with
  | zero => exact h
  | succ fuel ih =>
    simp only [decimalExponent, below_iff (k + 1) n hd]
    split
    case isTrue hnext => exact ih hnext
    case isFalse => exact h

lemma zpow_exponentEstimate_le (hn : 0 < n) (hd : 0 < d) (hlow : d.log2 ≤ n.log2 + 1099)
    (hhigh : n.log2 ≤ d.log2 + 1100) : (10 : ℚ) ^ exponentEstimate n d ≤ n / d := by
  have hd' : (0 : ℚ) < d := Nat.cast_pos.2 hd
  have hn₁ : (2 : ℚ) ^ n.log2 ≤ n := by exact_mod_cast Nat.log2_self_le hn.ne'
  have hd₂ : (d : ℚ) ≤ 2 ^ (d.log2 + 1) := by exact_mod_cast Nat.le_of_lt Nat.lt_log2_self
  refine le_trans (ten_zpow_le_two_zpow (b := (n.log2 : Int) - d.log2 - 1) ?_ ?_ ?_) ?_
  · simp only [exponentEstimate]
    omega
  · omega
  · omega
  · rw [le_div_iff₀ hd', show (n.log2 : Int) - d.log2 - 1 = n.log2 - (d.log2 + 1 : Nat) by omega,
      zpow_sub₀ (by norm_num), div_mul_eq_mul_div,
      div_le_iff₀ (by positivity)]
    exact mul_le_mul hn₁ hd₂ hd'.le (by positivity)

lemma log2_ratio (hfinite : x.isFinite) (hzero : x.isZero = false) :
    x.ratio.2.log2 ≤ x.ratio.1.log2 + 1099 ∧ x.ratio.1.log2 ≤ x.ratio.2.log2 + 1100 := by
  have hm := mantissa_lt x
  have hm₀ := (mantissa_pos hzero).ne'
  have hs := scale_lt hfinite
  unfold ratio
  split
  · have hlog : (x.mantissa * 2 ^ (x.scale - 1074)).log2 < 1100 := by
      rw [Nat.log2_lt (Nat.mul_ne_zero hm₀ (Nat.two_pow_pos _).ne')]
      calc x.mantissa * 2 ^ (x.scale - 1074) < 2 ^ 53 * 2 ^ (x.scale - 1074) :=
            Nat.mul_lt_mul_of_pos_right hm (Nat.two_pow_pos _)
        _ = 2 ^ (53 + (x.scale - 1074)) := (Nat.pow_add ..).symm
        _ ≤ 2 ^ 1100 := Nat.pow_le_pow_right (by decide) (by omega)
    simp only [Nat.pow_eq, show Nat.log2 1 = 0 by decide]
    omega
  · have hlog : x.mantissa.log2 < 53 := (Nat.log2_lt hm₀).2 hm
    simp only [Nat.pow_eq, Nat.log2_two_pow]
    omega

/-! Candidates on a decimal grid. -/

lemma mantissa_of_power (h : x.fractionField = 0 ∧ 1 < x.exponentField) : x.mantissa = 2 ^ 52 := by
  have : x.exponentField ≠ 0 := by omega
  simp [mantissa, this, h.1]

/-- A value that agrees with the number to sixteen digits lies in its interval. -/
lemma holds_of_close {v : ℚ} (hzero : x.isZero = false)
    (hlow : x.magnitude ≤ v + x.magnitude / (2 * 10 ^ 16))
    (hhigh : v ≤ x.magnitude + x.magnitude / (2 * 10 ^ 16)) : x.Holds v := by
  have hu := x.unit_pos
  have hpos := mantissa_pos hzero
  have hm : (x.mantissa : ℚ) * x.unit ≤ 2 ^ 53 * x.unit :=
    mul_le_mul_of_nonneg_right (by exact_mod_cast x.mantissa_lt.le) hu.le
  unfold magnitude at hlow hhigh
  have habove : 4 * v < (4 * x.mantissa + 2 : Nat) * x.unit := by
    push_cast
    linarith
  have hbelow : x.lowerEnd * x.unit < 4 * v := by
    unfold lowerEnd
    split
    case isTrue h =>
      rw [mantissa_of_power h] at hlow ⊢
      norm_num at hlow ⊢
      linarith
    case isFalse =>
      rw [Nat.cast_sub (by omega)]
      push_cast
      linarith
  exact ⟨hbelow.le, habove.le, fun h => (h.elim hbelow.ne habove.ne).elim⟩

/-- Whether the point `c` of the grid with step `10 ^ u` reads back as the number. -/
def fits (x : Binary64) (u : Int) (c : Nat) : Bool :=
  if 0 ≤ u then x.readsBack (c * Nat.pow 10 u.toNat) 1 else x.readsBack c (Nat.pow 10 (-u).toNat)

lemma fits_iff (x : Binary64) (u : Int) (c : Nat) : x.fits u c = true ↔ x.Holds (c * 10 ^ u) := by
  simp only [fits, Nat.pow_eq]
  split
  case isTrue h =>
    rw [readsBack_iff x _ Nat.one_pos, ten_zpow_of_nonneg h]
    push_cast
    rw [div_one]
  case isFalse h =>
    rw [readsBack_iff x _ (Nat.pow_pos (by decide)), ten_zpow_of_neg h, div_eq_mul_inv]

lemma grid_div (x : Binary64) (u : Int) :
    ∃ p q : Nat, 0 < q ∧ (p : ℚ) = x.magnitude / 10 ^ u * q ∧
      (if 0 ≤ u then (x.ratio.1, x.ratio.2 * Nat.pow 10 u.toNat)
        else (x.ratio.1 * Nat.pow 10 (-u).toNat, x.ratio.2)) = (p, q) := by
  have hd : (x.ratio.2 : ℚ) ≠ 0 := Nat.cast_ne_zero.2 x.ratio_snd_pos.ne'
  simp only [Nat.pow_eq]
  split
  case isTrue h =>
    refine ⟨_, _, Nat.mul_pos x.ratio_snd_pos (Nat.pow_pos (by decide)), ?_, rfl⟩
    rw [← x.ratio_div, ten_zpow_of_nonneg h]
    push_cast
    field_simp
  case isFalse h =>
    refine ⟨_, _, x.ratio_snd_pos, ?_, rfl⟩
    rw [← x.ratio_div, ten_zpow_of_neg h]
    push_cast
    field_simp

/-- The nearer natural number beside a fraction, and the other one. -/
def nearer (p q : Nat) : Nat := if 2 * (p % q) ≤ q then p / q else p / q + 1

def farther (p q : Nat) : Nat := if 2 * (p % q) ≤ q then p / q + 1 else p / q

lemma nearer_bounds (p : Nat) (hq : 0 < q) :
    2 * p ≤ 2 * (nearer p q * q) + q ∧ 2 * (nearer p q * q) ≤ 2 * p + q := by
  have hp : p = p / q * q + p % q := by rw [Nat.mul_comm]; exact (Nat.div_add_mod p q).symm
  have hmod : p % q < q := Nat.mod_lt p hq
  unfold nearer
  split
  · omega
  · rw [Nat.add_one_mul (p / q) q]
    omega

lemma onGrid_eq {p : Nat}
    (h : (if 0 ≤ k - len + 1 then (x.ratio.1, x.ratio.2 * Nat.pow 10 (k - len + 1).toNat)
      else (x.ratio.1 * Nat.pow 10 (-(k - len + 1)).toNat, x.ratio.2)) = (p, q)) :
    onGrid x k len =
      if x.fits (k - len + 1) (nearer p q) then some (nearer p q)
      else if x.fits (k - len + 1) (farther p q) then some (farther p q)
      else none := by
  have hp : p = _ := (congrArg Prod.fst h).symm
  have hq : q = _ := (congrArg Prod.snd h).symm
  subst hp hq
  rfl

lemma onGrid_holds (h : onGrid x k len = some c) : x.Holds (c * 10 ^ (k - len + 1)) := by
  obtain ⟨p, q, -, -, hgrid⟩ := x.grid_div (k - len + 1)
  rw [onGrid_eq hgrid] at h
  split at h
  case isTrue hnear => exact Option.some.inj h ▸ (fits_iff ..).1 hnear
  case isFalse =>
    split at h
    case isTrue hfar => exact Option.some.inj h ▸ (fits_iff ..).1 hfar
    case isFalse => exact nomatch h

/-- A length of digits fails only if the nearest point of its grid lies outside the interval. -/
lemma exists_onGrid (x : Binary64) (k : Int) (len : Nat) : ∃ c : Nat,
    x.magnitude ≤ c * 10 ^ (k - len + 1) + 10 ^ (k - len + 1) / 2 ∧
    c * 10 ^ (k - len + 1) ≤ x.magnitude + 10 ^ (k - len + 1) / 2 ∧
    (x.Holds (c * 10 ^ (k - len + 1)) → onGrid x k len = some c) := by
  obtain ⟨p, q, hq, hp, hgrid⟩ := x.grid_div (k - len + 1)
  rw [onGrid_eq hgrid]
  generalize k - len + 1 = u at hp
  obtain ⟨hlow, hhigh⟩ := nearer_bounds p hq
  have hten : (0 : ℚ) < 10 ^ u := by positivity
  have hq' : (0 : ℚ) < q := Nat.cast_pos.2 hq
  have hlow' : x.magnitude / 10 ^ u ≤ nearer p q + 1 / 2 := by
    have : (2 * p : ℚ) ≤ 2 * (nearer p q * q) + q := by exact_mod_cast hlow
    exact le_of_mul_le_mul_right (by linarith) hq'
  have hhigh' : nearer p q ≤ x.magnitude / 10 ^ u + 1 / 2 := by
    have : (2 * (nearer p q * q) : ℚ) ≤ 2 * p + q := by exact_mod_cast hhigh
    exact le_of_mul_le_mul_right (by linarith) hq'
  rw [div_le_iff₀ hten] at hlow'
  rw [← sub_le_iff_le_add, le_div_iff₀ hten] at hhigh'
  exact ⟨nearer p q, by linarith, by linarith, fun h => if_pos ((fits_iff ..).2 h)⟩

/-- Seventeen digits suffice. -/
lemma onGrid_seventeen (hzero : x.isZero = false)
    (hk : 10 ^ k ≤ x.magnitude) : ∃ c, onGrid x k 17 = some c := by
  obtain ⟨c, hlow, hhigh, hgrid⟩ := exists_onGrid x k 17
  have hstep : (10 : ℚ) ^ (k - (17 : Nat) + 1) = 10 ^ k / 10 ^ 16 := by
    rw [show k - (17 : Nat) + 1 = k - (16 : Nat) by omega, zpow_sub₀ (by norm_num), zpow_natCast]
  exact ⟨c, hgrid (holds_of_close hzero (by linarith) (by linarith))⟩

/-- The search for the fewest digits ends on a grid that has a candidate, if some grid within its
reach has one. -/
lemma shortestFrom_onGrid (fuel len : Nat) (h : ∃ c, onGrid x k (len + fuel) = some c) :
    onGrid x k (shortestFrom x k fuel len).2 = some (shortestFrom x k fuel len).1 := by
  induction fuel generalizing len with
  | zero =>
    obtain ⟨c, hc⟩ := h
    simp only [Nat.add_zero] at hc
    simp only [shortestFrom, hc, Option.getD_some]
  | succ fuel ih =>
    unfold shortestFrom
    split
    case h_1 c hc => exact hc
    case h_2 => exact ih (len + 1) (by rwa [Nat.add_right_comm])

/-! The digits. -/

def Decimal.value (d : Decimal) : ℚ :=
  Nat.ofDigitChars 10 d.digits 0 * 10 ^ (d.point - d.digits.length)

/-- A decimal of digits, of which the first is not zero. -/
structure Decimal.Proper (d : Decimal) : Prop where
  isDigit : ∀ c ∈ d.digits, c.isDigit = true
  head : ∃ c cs, d.digits = c :: cs ∧ c ≠ '0'

lemma toDigits_head (h : 0 < n) : ∃ c cs, Nat.toDigits 10 n = c :: cs ∧ c ≠ '0' := by
  induction n using Nat.strongRecOn with
  | ind n ih =>
    rw [Nat.toDigits_eq_if (by decide)]
    split
    case isTrue hlt =>
      have hne : ∀ m < 10, 0 < m → m.digitChar ≠ '0' := by decide
      exact ⟨_, _, rfl, hne n hlt h⟩
    case isFalse hlt =>
      obtain ⟨c, cs, hcs, hc⟩ := ih (n / 10) (by omega) (by omega)
      exact ⟨c, _, by rw [hcs]; rfl, hc⟩

lemma append_replicate_zero (ds : List Char) :
    ∃ j, ds = (ds.reverse.dropWhile (· == '0')).reverse ++ replicate j '0' := by
  refine ⟨(ds.reverse.takeWhile (· == '0')).length, ?_⟩
  have hzeros : ds.reverse.takeWhile (· == '0') =
      replicate (ds.reverse.takeWhile (· == '0')).length '0' :=
    eq_replicate_of_mem fun c hc => beq_iff_eq.1 (mem_takeWhile_imp (p := (· == '0')) hc)
  rw [← reverse_replicate, ← hzeros, ← reverse_append, takeWhile_append_dropWhile,
    reverse_reverse]

/-- The digits of a natural number without the zeros at the end. -/
lemma trimmed_digits (h : 0 < n) (u : Int) : let ds := Nat.toDigits 10 n
    let d : Decimal := ⟨(ds.reverse.dropWhile (· == '0')).reverse, u + ds.length⟩
    d.Proper ∧ d.value = n * 10 ^ u := by
  intro ds d
  obtain ⟨j, hj⟩ : ∃ j, ds = d.digits ++ replicate j '0' := append_replicate_zero ds
  have hdigit : ∀ c ∈ ds, c.isDigit = true := fun c hc =>
    Nat.isDigit_of_mem_toDigits (by decide) (by decide) hc
  obtain ⟨c, cs, hcs, hc⟩ : ∃ c cs, ds = c :: cs ∧ c ≠ '0' := toDigits_head h
  refine ⟨⟨fun c hc => hdigit c (hj ▸ mem_append_left _ hc), ?_⟩, ?_⟩
  · cases hd : d.digits with
    | nil =>
      have hall : c ∈ replicate j '0' := by
        rw [hd, nil_append] at hj
        exact hj ▸ hcs ▸ mem_cons_self
      exact absurd (eq_of_mem_replicate hall) hc
    | cons b bs =>
      rw [hd] at hj
      exact ⟨b, bs, rfl, (cons.inj (hcs.symm.trans hj)).1 ▸ hc⟩
  · have hn : n = 10 ^ j * Nat.ofDigitChars 10 d.digits 0 := by
      rw [← Nat.ofDigitChars_replicate_zero, ← Nat.ofDigitChars_append, ← hj]
      exact Nat.ofDigitChars_ten_toDigits.symm
    have hlen : ds.length = d.digits.length + j := by
      conv_lhs => rw [hj, length_append, length_replicate]
    have hpoint : d.point - d.digits.length = j + u := by
      show u + ds.length - d.digits.length = j + u
      omega
    rw [Decimal.value, hpoint, zpow_add₀ (by norm_num), zpow_natCast, hn]
    push_cast
    ring

lemma holds_pos {w : ℚ} (hzero : x.isZero = false) (h : x.Holds (c * w)) : 0 < c := by
  have hlow := h.low
  have hend : (0 : ℚ) < x.lowerEnd := by
    have hm := mantissa_pos hzero
    have := x.le_lowerEnd
    exact Nat.cast_pos.2 (by omega)
  have := mul_pos hend x.unit_pos
  refine Nat.pos_of_ne_zero fun hc => ?_
  rw [hc, Nat.cast_zero] at hlow
  linarith

/-- The shortest decimal of a number lies in its interval. -/
lemma shortest_holds (hfinite : x.isFinite) (hzero : x.isZero = false) :
    x.shortest.Proper ∧ x.Holds x.shortest.value := by
  have hn : 0 < x.ratio.1 := by
    have := magnitude_pos hzero
    rw [← x.ratio_div] at this
    exact Nat.pos_of_ne_zero fun h => by simp [h] at this
  obtain ⟨hlow, hhigh⟩ := log2_ratio hfinite hzero
  have hk := zpow_decimalExponent_le x.ratio_snd_pos 8
    (zpow_exponentEstimate_le hn x.ratio_snd_pos hlow hhigh)
  rw [x.ratio_div] at hk
  have hgrid := shortestFrom_onGrid 16 1 (onGrid_seventeen hzero hk)
  unfold shortest
  rw [if_neg (by rw [hzero]; decide)]
  dsimp only
  generalize decimalExponent x.ratio.1 x.ratio.2 8 (exponentEstimate x.ratio.1 x.ratio.2) = k at *
  generalize shortestFrom x k 16 1 = found at *
  obtain ⟨c, len⟩ := found
  have hholds := onGrid_holds hgrid
  have hpoint : k + 1 + (((Nat.toDigits 10 c).length : Int) - len) =
      k - len + 1 + (Nat.toDigits 10 c).length := by omega
  have hdigits := trimmed_digits (holds_pos hzero hholds) (k - len + 1)
  rw [hpoint]
  exact ⟨hdigits.1, hdigits.2 ▸ hholds⟩

end ReactiveModel.Binary64
