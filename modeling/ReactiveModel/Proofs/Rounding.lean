import Mathlib.Algebra.Order.Field.Rat
import Mathlib.Tactic.FieldSimp
import Mathlib.Tactic.Positivity
import Mathlib.Tactic.Ring
import ReactiveModel.Number.Shortest

/-! Rounding of fractions. A fraction that lies between the halfway points to the neighbours of a
number is rounded to this number, whatever its numerator and denominator are. -/

namespace ReactiveModel.Binary64

variable {x : Binary64} {s n d b a : Nat}

/-! Fractions at a scale. The fraction `n / d` is `n * subunits / (d * 2 ^ s)` units in the last
place at scale `s`. -/

/-- One, counted in units in the last place at the smallest scale. -/
def subunits : Nat := 2 ^ 1074

lemma subunits_pos : 0 < subunits := by
  unfold subunits
  positivity

lemma two_pow_sub_mul_subunits (h : 1074 ≤ s) : 2 ^ (s - 1074) * subunits = 2 ^ s := by
  rw [subunits, ← Nat.pow_add, Nat.sub_add_cancel h]

lemma two_pow_sub_mul (h : s ≤ 1074) : 2 ^ (1074 - s) * 2 ^ s = subunits := by
  unfold subunits
  rw [← Nat.pow_add, Nat.sub_add_cancel h]

lemma mul_two_pow_succ (b s : Nat) : b * 2 ^ (s + 1) = 2 * (b * 2 ^ s) := by
  ring

lemma rescale_eq (n d s : Nat) :
    ∃ t, 0 < t ∧ n * subunits = (rescale n d s).1 * t ∧ d * 2 ^ s = (rescale n d s).2 * t := by
  unfold rescale
  split
  case isTrue h =>
    refine ⟨subunits, subunits_pos, rfl, ?_⟩
    rw [Nat.pow_eq, Nat.mul_assoc, two_pow_sub_mul_subunits h]
  case isFalse h =>
    refine ⟨2 ^ s, Nat.two_pow_pos _, ?_, rfl⟩
    rw [Nat.pow_eq, Nat.mul_assoc, two_pow_sub_mul (by omega)]

lemma rescale_div (n d s : Nat) :
    (rescale n d s).1 / (rescale n d s).2 = n * subunits / (d * 2 ^ s) := by
  obtain ⟨t, ht, hn, hd⟩ := rescale_eq n d s
  rw [hn, hd, Nat.mul_div_mul_right _ _ ht]

lemma nearest_mul_right (n d : Nat) {t : Nat} (ht : 0 < t) :
    nearest (n * t) (d * t) = nearest n d := by
  have hmod : 2 * (n * t % (d * t)) = 2 * (n % d) * t := by
    rw [Nat.mul_mod_mul_right, Nat.mul_assoc]
  simp only [nearest, hmod, Nat.mul_div_mul_right _ _ ht, Nat.mul_lt_mul_right ht]

lemma nearest_rescale (n d s : Nat) :
    nearest (rescale n d s).1 (rescale n d s).2 = nearest (n * subunits) (d * 2 ^ s) := by
  obtain ⟨t, ht, hn, hd⟩ := rescale_eq n d s
  rw [hn, hd, nearest_mul_right _ _ ht]

/-- A fraction within half a unit of a number rounds to it, at the halfway points if it is even. -/
lemma nearest_eq {m : Nat} (hd : 0 < d) (hlow : 2 * (m * d) ≤ 2 * n + d)
    (hhigh : 2 * n ≤ 2 * (m * d) + d)
    (htie : 2 * (m * d) = 2 * n + d ∨ 2 * n = 2 * (m * d) + d → m % 2 = 0) : nearest n d = m := by
  have hn : n = n / d * d + n % d := by rw [Nat.mul_comm]; exact (Nat.div_add_mod n d).symm
  -- the floor is the number itself or its predecessor
  have hfloor : n / d = m ∨ n / d + 1 = m := by
    have hle : n / d ≤ m := by
      refine Nat.le_of_lt_succ ((Nat.div_lt_iff_lt_mul hd).2 ?_)
      rw [Nat.succ_mul]
      omega
    have hge : m ≤ n / d + 1 := by
      refine Nat.le_of_lt_succ ?_
      rw [← Nat.add_div_right n hd, Nat.lt_succ_iff, Nat.le_div_iff_mul_le hd]
      omega
    omega
  unfold nearest
  rcases hfloor with rfl | rfl
  · dsimp only
    split <;> try split
    all_goals omega
  · rw [Nat.add_one_mul (n / d) d] at hlow hhigh htie
    dsimp only
    split <;> try split
    all_goals omega

/-- The scale at which the mantissa of `n / d` has 53 binary digits, or the smallest scale. -/
def IsScale (n d s : Nat) : Prop :=
  n * subunits < 2 ^ 53 * (d * 2 ^ s) ∧ (0 < s → 2 ^ 53 * (d * 2 ^ (s - 1)) ≤ n * subunits)

lemma rescale_div_lt_iff (hd : 0 < d) (s : Nat) :
    (rescale n d s).1 / (rescale n d s).2 < 2 ^ 53 ↔ n * subunits < 2 ^ 53 * (d * 2 ^ s) := by
  rw [rescale_div, Nat.div_lt_iff_lt_mul (Nat.mul_pos hd (Nat.two_pow_pos s))]

lemma IsScale.unique {s' : Nat} (h : IsScale n d s) (h' : IsScale n d s') : s = s' := by
  -- a smaller scale holds fewer fractions
  have hmono : ∀ {i j : Nat}, IsScale n d i → IsScale n d j → i ≤ j := by
    intro i j hi hj
    refine Nat.le_of_not_lt fun hlt => ?_
    have hpow : 2 ^ 53 * (d * 2 ^ j) ≤ 2 ^ 53 * (d * 2 ^ (i - 1)) :=
      Nat.mul_le_mul_left _ (Nat.mul_le_mul_left _ (Nat.pow_le_pow_right (by decide) (by omega)))
    exact absurd (hi.2 (by omega)) (Nat.not_le_of_lt (Nat.lt_of_lt_of_le hj.1 hpow))
  exact Nat.le_antisymm (hmono h h') (hmono h' h)

lemma isScale_scaleOf (hn : 0 < n) (hd : 0 < d) : IsScale n d (scaleOf n d) := by
  have hn₁ : 2 ^ n.log2 ≤ n := Nat.log2_self_le (by omega)
  have hn₂ : n < 2 ^ (n.log2 + 1) := Nat.lt_log2_self
  have hd₁ : 2 ^ d.log2 ≤ d := Nat.log2_self_le (by omega)
  have hd₂ : d < 2 ^ (d.log2 + 1) := Nat.lt_log2_self
  -- the scale estimated from the binary digits is large enough
  have henough : ∀ s, n.log2 + 1022 ≤ s + d.log2 → n * subunits < 2 ^ 53 * (d * 2 ^ s) := by
    intro s hs
    calc n * subunits < 2 ^ (n.log2 + 1) * subunits :=
          Nat.mul_lt_mul_of_pos_right hn₂ subunits_pos
      _ = 2 ^ (n.log2 + 1 + 1074) := by rw [subunits, ← Nat.pow_add]
      _ ≤ 2 ^ (53 + (d.log2 + s)) := Nat.pow_le_pow_right (by decide) (by omega)
      _ = 2 ^ 53 * (2 ^ d.log2 * 2 ^ s) := by rw [Nat.pow_add, Nat.pow_add]
      _ ≤ 2 ^ 53 * (d * 2 ^ s) := Nat.mul_le_mul_left _ (Nat.mul_le_mul_right _ hd₁)
  -- and at most one too large
  have htight : ∀ s, s + d.log2 + 2 ≤ n.log2 + 1022 → 2 ^ 53 * (d * 2 ^ s) ≤ n * subunits := by
    intro s hs
    calc 2 ^ 53 * (d * 2 ^ s) ≤ 2 ^ 53 * (2 ^ (d.log2 + 1) * 2 ^ s) :=
          Nat.mul_le_mul_left _ (Nat.mul_le_mul_right _ (Nat.le_of_lt hd₂))
      _ = 2 ^ (53 + (d.log2 + 1 + s)) := by rw [← Nat.pow_add, ← Nat.pow_add]
      _ ≤ 2 ^ (n.log2 + 1074) := Nat.pow_le_pow_right (by decide) (by omega)
      _ = 2 ^ n.log2 * subunits := by rw [subunits, ← Nat.pow_add]
      _ ≤ n * subunits := Nat.mul_le_mul_right _ hn₁
  simp only [scaleOf, Nat.pow_eq, Bool.and_eq_true, decide_eq_true_eq, rescale_div_lt_iff hd]
  split
  case isTrue h => exact ⟨h.2, fun hs => htight _ (by omega)⟩
  case isFalse h =>
    rw [if_pos (henough _ (by omega))]
    exact ⟨henough _ (by omega), fun hs => Nat.le_of_not_lt fun hlt => h ⟨hs, hlt⟩⟩

lemma scaleOf_eq (hn : 0 < n) (hd : 0 < d) (h : IsScale n d s) : scaleOf n d = s :=
  (isScale_scaleOf hn hd).unique h

/-! Bit patterns. -/

lemma mantissa_lt (x : Binary64) : x.mantissa < 2 ^ 53 := by
  have : x.fractionField < 2 ^ 52 := Nat.mod_lt _ (by decide)
  simp only [mantissa, Nat.pow_eq]
  split <;> omega

lemma le_mantissa (h : 0 < x.scale) : 2 ^ 52 ≤ x.mantissa := by
  have hexp : x.exponentField ≠ 0 := by unfold scale at h; omega
  simp [mantissa, hexp]

lemma mantissa_pos (h : x.isZero = false) : 0 < x.mantissa := by
  simp only [isZero, Bool.and_eq_false_iff, beq_eq_false_iff_ne, ne_eq] at h
  simp only [mantissa, Nat.pow_eq, beq_iff_eq]
  split <;> omega

lemma scale_lt (h : x.isFinite) : x.scale < 2046 := by
  have hlt : x.exponentField < 2048 := Nat.mod_lt _ (by decide)
  simp only [isFinite, bne_iff_ne, ne_eq] at h
  unfold scale
  omega

/-- The bits below the sign are the scale and the mantissa, added. -/
lemma bits_eq (x : Binary64) :
    x.bits.toNat = x.scale * 2 ^ 52 + x.mantissa + if x.negative then 2 ^ 63 else 0 := by
  have hlt : x.bits.toNat < 2 ^ 64 := x.bits.toNat_lt
  simp only [scale, mantissa, negative, exponentField, fractionField, Nat.pow_eq, beq_iff_eq,
    decide_eq_true_eq]
  split <;> split <;> omega

lemma ofMagnitude_eq (x : Binary64) :
    ofMagnitude x.negative (x.scale * 2 ^ 52 + x.mantissa) = x := by
  have hbits := bits_eq x
  unfold ofMagnitude
  simp only [Nat.pow_eq]
  rw [← hbits, UInt64.ofNat_toNat]

/-! The interval of a number. -/

/-- Lower end of the interval of a number, in quarters of the unit in the last place: below a power
of two the numbers lie twice as close. -/
def lowerEnd (x : Binary64) : Nat :=
  if x.fractionField = 0 ∧ 1 < x.exponentField then 4 * x.mantissa - 1 else 4 * x.mantissa - 2

lemma le_lowerEnd (x : Binary64) : 4 * x.mantissa ≤ x.lowerEnd + 2 := by
  unfold lowerEnd
  split <;> omega

lemma lowerEnd_of_power (hs : 0 < x.scale) (hm : x.mantissa = 2 ^ 52) :
    x.lowerEnd = 4 * 2 ^ 52 - 1 := by
  have hexp : 1 < x.exponentField := by unfold scale at hs; omega
  have hfrac : x.fractionField = 0 := by
    simp only [mantissa, Nat.pow_eq, beq_iff_eq] at hm
    split at hm <;> omega
  simp only [lowerEnd, hexp, hfrac, hm, and_self, if_true]

/-- The unit in the last place. -/
def unit (x : Binary64) : ℚ := 2 ^ x.scale / subunits

lemma unit_pos (x : Binary64) : 0 < x.unit :=
  div_pos (by positivity) (Nat.cast_pos.2 subunits_pos)

/-- The interval of a number: the values between the halfway points to its neighbours, these
included when the mantissa is even. -/
structure Holds (x : Binary64) (v : ℚ) : Prop where
  low : x.lowerEnd * x.unit ≤ 4 * v
  high : 4 * v ≤ (4 * x.mantissa + 2 : Nat) * x.unit
  tie : x.lowerEnd * x.unit = 4 * v ∨ 4 * v = (4 * x.mantissa + 2 : Nat) * x.unit →
    x.mantissa % 2 = 0

/-- The interval in natural numbers, for a value that is given as a fraction. -/
lemma holds_div_iff (x : Binary64) (a : Nat) (hb : 0 < b) :
    x.Holds (a / b) ↔
    x.lowerEnd * (b * 2 ^ x.scale) ≤ 4 * (a * subunits) ∧
    4 * (a * subunits) ≤ (4 * x.mantissa + 2) * (b * 2 ^ x.scale) ∧
    (x.lowerEnd * (b * 2 ^ x.scale) = 4 * (a * subunits) ∨
      4 * (a * subunits) = (4 * x.mantissa + 2) * (b * 2 ^ x.scale) → x.mantissa % 2 = 0) := by
  have hb' : (0 : ℚ) < b := Nat.cast_pos.2 hb
  have hu : (0 : ℚ) < subunits := Nat.cast_pos.2 subunits_pos
  have hend : ∀ i : Nat, i * x.unit = (i * (b * 2 ^ x.scale) : Nat) / (b * subunits : ℚ) := by
    intro i
    unfold unit
    push_cast
    field_simp
  have hvalue : 4 * (a / b : ℚ) = (4 * (a * subunits) : Nat) / (b * subunits : ℚ) := by
    push_cast
    field_simp
  have hle : ∀ i j : Nat, (i : ℚ) / (b * subunits : ℚ) ≤ j / (b * subunits : ℚ) ↔ i ≤ j :=
    fun i j => (div_le_div_iff_of_pos_right (mul_pos hb' hu)).trans Nat.cast_le
  have heq : ∀ i j : Nat, (i : ℚ) / (b * subunits : ℚ) = j / (b * subunits : ℚ) ↔ i = j :=
    fun i j => (div_left_inj' (mul_pos hb' hu).ne').trans Nat.cast_inj
  constructor
  · rintro ⟨hlow, hhigh, htie⟩
    rw [hend, hvalue] at hlow hhigh htie
    rw [hend] at htie
    exact ⟨(hle ..).1 hlow, (hle ..).1 hhigh, by rwa [heq, heq] at htie⟩
  · rintro ⟨hlow, hhigh, htie⟩
    refine ⟨?_, ?_, ?_⟩
    · rw [hend, hvalue, hle]
      exact hlow
    · rw [hend, hvalue, hle]
      exact hhigh
    · rw [hend, hend, hvalue, heq, heq]
      exact htie

lemma readsBack_iff (x : Binary64) (a : Nat) (hb : 0 < b) :
    x.readsBack a b = true ↔ x.Holds (a / b) := by
  obtain ⟨t, ht, hn, hd⟩ := rescale_eq (4 * a) b x.scale
  have hlo : (if x.fractionField = 0 ∧ 1 < x.exponentField then 4 * x.mantissa - 1
      else 4 * x.mantissa - 2) = x.lowerEnd := rfl
  rw [holds_div_iff x a hb, ← Nat.mul_assoc 4, hn, hd, ← Nat.mul_assoc, ← Nat.mul_assoc,
    Nat.mul_le_mul_right_iff ht, Nat.mul_le_mul_right_iff ht, Nat.mul_left_inj ht.ne',
    Nat.mul_left_inj ht.ne']
  simp only [readsBack, beq_iff_eq, Bool.and_eq_true, decide_eq_true_eq, hlo]
  split <;> omega

/-- A fraction in the interval of a number that is not below the numbers of its scale is rounded at
this scale. -/
lemma Holds.round_of_le (h : x.Holds (a / b)) (hb : 0 < b)
    (hle : 0 < x.scale → 2 ^ 52 * (b * 2 ^ x.scale) ≤ a * subunits) :
    IsScale a b x.scale ∧ nearest (a * subunits) (b * 2 ^ x.scale) = x.mantissa := by
  have hunit : 0 < b * 2 ^ x.scale := Nat.mul_pos hb (Nat.two_pow_pos _)
  have hlow := Nat.le_trans (Nat.mul_le_mul_right (b * 2 ^ x.scale) x.le_lowerEnd)
    (Nat.le_of_eq (Nat.add_mul ..))
  obtain ⟨hlo, hhi, htie⟩ := (holds_div_iff x a hb).1 h
  rw [Nat.add_mul, Nat.mul_assoc] at hhi htie
  rw [Nat.mul_assoc] at hlow
  refine ⟨⟨?_, fun hs => ?_⟩, nearest_eq hunit (by omega) (by omega) fun hc => htie (by omega)⟩
  · have : (x.mantissa + 1) * (b * 2 ^ x.scale) ≤ 2 ^ 53 * (b * 2 ^ x.scale) :=
      Nat.mul_le_mul_right _ x.mantissa_lt
    rw [Nat.add_one_mul] at this
    omega
  · have := mul_two_pow_succ b (x.scale - 1)
    rw [Nat.sub_add_cancel hs] at this
    omega

/-- Just below a power of two the fraction is rounded up at the scale below. -/
lemma Holds.round_of_lt (h : x.Holds (a / b)) (hb : 0 < b) (hs : 0 < x.scale)
    (hlt : a * subunits < 2 ^ 52 * (b * 2 ^ x.scale)) :
    x.mantissa = 2 ^ 52 ∧ IsScale a b (x.scale - 1) ∧
      nearest (a * subunits) (b * 2 ^ (x.scale - 1)) = 2 ^ 53 := by
  obtain ⟨hlow, -, -⟩ := (holds_div_iff x a hb).1 h
  have hm : x.mantissa = 2 ^ 52 := by
    have hlt' : x.lowerEnd * (b * 2 ^ x.scale) < 4 * 2 ^ 52 * (b * 2 ^ x.scale) := by omega
    have := Nat.lt_of_mul_lt_mul_right hlt'
    have := x.le_lowerEnd
    have := le_mantissa hs
    omega
  rw [lowerEnd_of_power hs hm] at hlow
  obtain ⟨s, hs'⟩ : ∃ s, x.scale = s + 1 := ⟨x.scale - 1, by omega⟩
  rw [hs', mul_two_pow_succ b s] at hlow hlt
  rw [hs', Nat.add_sub_cancel]
  have hunit : 0 < b * 2 ^ s := Nat.mul_pos hb (Nat.two_pow_pos _)
  refine ⟨hm, ⟨by omega, fun hs => ?_⟩, nearest_eq hunit (by omega) (by omega) (by omega)⟩
  have := mul_two_pow_succ b (s - 1)
  rw [Nat.sub_add_cancel hs] at this
  omega

/-- A fraction in the interval of a number is rounded to it. -/
lemma Holds.ofRatio_eq (h : x.Holds (a / b)) (hb : 0 < b) (hfinite : x.isFinite)
    (hzero : x.isZero = false) : ofRatio x.negative a b = x := by
  have hpos := mantissa_pos hzero
  have ha : 0 < a := by
    have hunit : 0 < b * 2 ^ x.scale := Nat.mul_pos hb (Nat.two_pow_pos _)
    have hlow : 0 < x.lowerEnd * (b * 2 ^ x.scale) :=
      Nat.mul_pos (by have := x.le_lowerEnd; omega) hunit
    have hle := ((holds_div_iff x a hb).1 h).1
    exact Nat.pos_of_mul_pos_right (by omega : 0 < a * subunits)
  have hbits : scaleOf a b * 2 ^ 52 + nearest (a * subunits) (b * 2 ^ scaleOf a b) =
      x.scale * 2 ^ 52 + x.mantissa := by
    by_cases hle : 0 < x.scale → 2 ^ 52 * (b * 2 ^ x.scale) ≤ a * subunits
    · obtain ⟨hscale, hnearest⟩ := h.round_of_le hb hle
      rw [scaleOf_eq ha hb hscale, hnearest]
    · obtain ⟨hs, hlt⟩ := Classical.not_imp.1 hle
      obtain ⟨hm, hscale, hnearest⟩ := h.round_of_lt hb hs (Nat.lt_of_not_le hlt)
      rw [scaleOf_eq ha hb hscale]
      omega
  have hlt := mantissa_lt x
  have hs := scale_lt hfinite
  simp only [ofRatio, beq_iff_eq, ha.ne', if_false, nearest_rescale, Nat.pow_eq, hbits]
  rw [if_neg (by omega), ofMagnitude_eq]

end ReactiveModel.Binary64
