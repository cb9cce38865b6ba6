import ReactiveModel.Number.Reading
import ReactiveModel.Number.Spelling
import ReactiveModel.Proofs.JsonText
import ReactiveModel.Proofs.ShortestDecimal

/-! Text of numbers. A finite number is read back from its text in every form, the sign of zero
included, and its text is a JSON number. -/

namespace ReactiveModel.Binary64

open List

variable {x : Binary64} {v : Nat} {e : Int} {c : Char} {ds : List Char} {d : Decimal}

/-! The range of finite numbers. -/

lemma unit_eq (x : Binary64) : x.unit = 2 ^ ((x.scale : Int) - (1074 : Nat)) := by
  rw [unit, subunits, zpow_sub₀ (by norm_num), zpow_natCast, zpow_natCast, Nat.cast_pow,
    Nat.cast_ofNat]

lemma Holds.le_two_zpow {v : ℚ} (h : x.Holds v) (hfinite : x.isFinite) : v ≤ 2 ^ (1024 : Int) := by
  have hm : ((4 * x.mantissa + 2 : Nat) : ℚ) ≤ 4 * 2 ^ (53 : Int) := by
    have := x.mantissa_lt
    exact_mod_cast (by omega : 4 * x.mantissa + 2 ≤ 4 * 2 ^ 53)
  have hunit : x.unit ≤ 2 ^ (971 : Int) := by
    have := scale_lt hfinite
    rw [unit_eq]
    exact zpow_le_zpow_right₀ (by norm_num) (by omega)
  have hhigh := h.high.trans (mul_le_mul hm hunit x.unit_pos.le (by positivity))
  rw [mul_assoc, ← zpow_add₀ (by norm_num)] at hhigh
  exact le_of_mul_le_mul_left hhigh (by norm_num)

lemma Holds.two_zpow_le {v : ℚ} (h : x.Holds v) (hzero : x.isZero = false) :
    2 ^ (-1075 : Int) ≤ v := by
  have hend : (2 : ℚ) ≤ x.lowerEnd := by
    have := x.le_lowerEnd
    have := mantissa_pos hzero
    exact_mod_cast (by omega : 2 ≤ x.lowerEnd)
  have hunit : 2 ^ (-1074 : Int) ≤ x.unit := by
    rw [unit_eq]
    exact zpow_le_zpow_right₀ (by norm_num) (by omega)
  have hlow := (mul_le_mul hend hunit (by positivity) (by positivity)).trans h.low
  have : (2 : ℚ) ^ (-1074 : Int) = 2 ^ (-1075 : Int) * 2 := by
    rw [← zpow_add_one₀ (by norm_num)]
    rfl
  linarith

/-- Ten lies between eight and sixteen. -/
lemma two_zpow_le_ten_zpow (e : Int) :
    (2 : ℚ) ^ ((if 0 ≤ e then 3 else 4) * e) ≤ 10 ^ e ∧
      (10 : ℚ) ^ e ≤ 2 ^ ((if 0 ≤ e then 4 else 3) * e) := by
  have h₈ : (2 : ℚ) ^ (3 * e) = 8 ^ e := by rw [zpow_mul]; norm_num
  have h₁₆ : (2 : ℚ) ^ (4 * e) = 16 ^ e := by rw [zpow_mul]; norm_num
  split
  case isTrue h =>
    rw [h₈, h₁₆]
    exact ⟨zpow_le_zpow_left₀ h (by norm_num) (by norm_num),
      zpow_le_zpow_left₀ h (by norm_num) (by norm_num)⟩
  case isFalse h =>
    rw [h₈, h₁₆]
    exact ⟨zpow_le_zpow_of_nonpos (by omega) (by norm_num) (by norm_num),
      zpow_le_zpow_of_nonpos (by omega) (by norm_num) (by norm_num)⟩

/-- Numbers in the range of the finite ones pass the tests on the binary length. -/
lemma length_bounds (hv : 0 < v) (hlow : 2 ^ (-1075 : Int) ≤ (v * 10 ^ e : ℚ))
    (hhigh : (v * 10 ^ e : ℚ) ≤ 2 ^ (1024 : Int)) :
    (v.log2 : Int) + (if 0 ≤ e then 3 else 4) * e ≤ 1024 ∧
      -1075 < (v.log2 : Int) + 1 + (if 0 ≤ e then 4 else 3) * e := by
  obtain ⟨hten₁, hten₂⟩ := two_zpow_le_ten_zpow e
  have hlog₁ : (2 : ℚ) ^ (v.log2 : Int) ≤ v := by exact_mod_cast Nat.log2_self_le hv.ne'
  have hlog₂ : (v : ℚ) < 2 ^ ((v.log2 : Int) + 1) := by
    exact_mod_cast (Nat.lt_log2_self : v < 2 ^ (v.log2 + 1))
  constructor
  · refine (zpow_le_zpow_iff_right₀ (by norm_num : (1 : ℚ) < 2)).1 (le_trans ?_ hhigh)
    rw [zpow_add₀ (by norm_num)]
    exact mul_le_mul hlog₁ hten₁ (by positivity) (by positivity)
  · refine (zpow_lt_zpow_iff_right₀ (by norm_num : (1 : ℚ) < 2)).1 (lt_of_le_of_lt hlow ?_)
    rw [zpow_add₀ (by norm_num)]
    exact mul_lt_mul hlog₂ hten₂ (by positivity) (by positivity)

/-- A decimal in the interval of a number is read as this number. -/
lemma decimal_of_holds (hfinite : x.isFinite) (hzero : x.isZero = false)
    (h : x.Holds (v * 10 ^ e)) : Written.decimal ⟨x.negative, v, e⟩ = .number x := by
  have hv := holds_pos hzero h
  obtain ⟨hleast, hgreatest⟩ :=
    length_bounds hv (h.two_zpow_le hzero) (h.le_two_zpow hfinite)
  have hx : (if 0 ≤ e then ofRatio x.negative (v * Nat.pow 10 e.toNat) 1
      else ofRatio x.negative v (Nat.pow 10 (-e).toNat)) = x := by
    split
    case isTrue he =>
      refine Holds.ofRatio_eq ?_ Nat.one_pos hfinite hzero
      rw [ten_zpow_of_nonneg he] at h
      rw [Nat.cast_one, div_one]
      exact_mod_cast h
    case isFalse he =>
      refine Holds.ofRatio_eq ?_ (Nat.pow_pos (by decide)) hfinite hzero
      rwa [ten_zpow_of_neg he] at h
  have hinf : x.isInfinite = false := by
    simp only [isFinite, bne_iff_ne, ne_eq] at hfinite
    simp [isInfinite, hfinite]
  have hv' : (v == 0) = false := by simp [hv.ne']
  simp only [Written.decimal, Written.rounded, hx, hinf, hv']
  rw [if_neg (by decide), if_neg (by omega), if_neg (by omega)]
  rfl

/-! The parts of a written number. -/

/-- Digits before and after the point, and an exponent. -/
structure Parts where
  whole : List Char
  fraction : List Char
  exponent : Option Int

namespace Parts

def value (p : Parts) : ℚ :=
  Nat.ofDigitChars 10 (p.whole ++ p.fraction) 0 * 10 ^ (p.exponent.getD 0 - p.fraction.length)

/-- A zero stands alone before the point, and the exponent is not excessive. -/
structure Proper (p : Parts) : Prop where
  isDigit : ∀ c ∈ p.whole ++ p.fraction, c.isDigit = true
  whole : p.whole = ['0'] ∨ ∃ c cs, p.whole = c :: cs ∧ c ≠ '0'
  exponent : ∀ e, p.exponent = some e → e.natAbs < 10 ^ 9

def fractionText (fraction : List Char) : List Char :=
  if fraction.isEmpty then [] else '.' :: fraction

def text (f : Form) (p : Parts) : List Char :=
  p.whole ++ fractionText p.fraction ++ p.exponent.elim [] f.exponent

end Parts

/-- A text that writes a value down. -/
def Form.Spells (f : Form) (cs : List Char) (v : ℚ) : Prop :=
  ∃ p : Parts, p.Proper ∧ cs = p.text f ∧ p.value = v

lemma ofDigitChars_zeros_append (j : Nat) (ds : List Char) :
    Nat.ofDigitChars 10 (List.replicate j '0' ++ ds) 0 = Nat.ofDigitChars 10 ds 0 := by
  rw [Nat.ofDigitChars_append, Nat.ofDigitChars_replicate_zero, Nat.mul_zero]

lemma isDigit_replicate_zero (j : Nat) : ∀ c ∈ List.replicate j '0', c.isDigit = true :=
  fun _ hc => eq_of_mem_replicate hc ▸ rfl

section

variable (f : Form) {d : Decimal} (h : d.Proper)
include h

lemma spells_of_point_nonpos (hpoint : d.point ≤ 0) :
    f.Spells ('0' :: '.' :: List.replicate (-d.point).toNat '0' ++ d.digits) d.value := by
  obtain ⟨c, cs, hcs, -⟩ := h.head
  refine ⟨⟨['0'], List.replicate (-d.point).toNat '0' ++ d.digits, none⟩,
    ⟨?_, .inl rfl, ?_⟩, ?_, ?_⟩
  · intro b hb
    rw [mem_append, mem_append] at hb
    rcases hb with hb | hb | hb
    · exact mem_singleton.1 hb ▸ rfl
    · exact isDigit_replicate_zero _ b hb
    · exact h.isDigit b hb
  · exact fun e he => nomatch he
  · simp [Parts.text, Parts.fractionText, hcs]
  · have hzeros : ['0'] ++ (List.replicate (-d.point).toNat '0' ++ d.digits) =
        List.replicate ((-d.point).toNat + 1) '0' ++ d.digits := rfl
    simp only [Parts.value, hzeros, ofDigitChars_zeros_append, Decimal.value, Option.getD_none,
      length_append, length_replicate]
    congr 2
    omega

lemma spells_of_length_le (hpoint : (d.digits.length : Int) ≤ d.point) :
    f.Spells (d.digits ++ List.replicate (d.point.toNat - d.digits.length) '0') d.value := by
  obtain ⟨c, cs, hcs, hc⟩ := h.head
  refine ⟨⟨d.digits ++ List.replicate (d.point.toNat - d.digits.length) '0', [], none⟩,
    ⟨?_, .inr ⟨c, _, by rw [hcs]; rfl, hc⟩, ?_⟩, ?_, ?_⟩
  · intro b hb
    rw [append_nil, mem_append] at hb
    exact hb.elim (h.isDigit b) (isDigit_replicate_zero _ b)
  · exact fun e he => nomatch he
  · simp [Parts.text, Parts.fractionText]
  · have hexp : d.point - d.digits.length = (d.point.toNat - d.digits.length : Nat) := by omega
    simp only [Parts.value, append_nil, Nat.ofDigitChars_append,
      Nat.ofDigitChars_replicate_zero, Decimal.value, Option.getD_none, length_nil, hexp,
      zpow_natCast]
    push_cast
    ring

lemma spells_of_lt_length (hpos : 0 < d.point) (hpoint : d.point < d.digits.length) :
    f.Spells (d.digits.take d.point.toNat ++ '.' :: d.digits.drop d.point.toNat) d.value := by
  obtain ⟨c, cs, hcs, hc⟩ := h.head
  refine ⟨⟨d.digits.take d.point.toNat, d.digits.drop d.point.toNat, none⟩,
    ⟨?_, .inr ?_, ?_⟩, ?_, ?_⟩
  · rw [take_append_drop]
    exact h.isDigit
  · obtain ⟨n, hn⟩ : ∃ n, d.point.toNat = n + 1 := ⟨d.point.toNat - 1, by omega⟩
    exact ⟨c, _, by rw [hcs, hn]; rfl, hc⟩
  · exact fun e he => nomatch he
  · have : ¬d.digits.length ≤ d.point.toNat := by omega
    simp [Parts.text, Parts.fractionText, this]
  · simp only [Parts.value, take_append_drop, Decimal.value, Option.getD_none,
      length_drop]
    congr 2
    omega

lemma positional_spells : f.Spells (positional d) d.value := by
  obtain ⟨c, cs, hcs, -⟩ := h.head
  have hempty : d.digits.isEmpty = false := by rw [hcs]; rfl
  unfold positional
  split
  case isTrue hpoint =>
    rw [if_neg (by rw [hempty]; decide)]
    exact spells_of_point_nonpos f h hpoint
  case isFalse hpoint =>
    dsimp only
    split
    case isTrue hlen =>
      rw [take_of_length_le hlen]
      exact spells_of_length_le f h (by omega)
    case isFalse hlen =>
      rw [Nat.sub_eq_zero_of_le (by omega), replicate_zero, append_nil]
      exact spells_of_lt_length f h (by omega) (by omega)

lemma scientific_spells (hpoint : (d.point - 1).natAbs < 10 ^ 9) :
    f.Spells (f.scientific d) d.value := by
  obtain ⟨c, cs, hcs, hc⟩ := h.head
  refine ⟨⟨[c], cs, some (d.point - 1)⟩, ⟨?_, .inr ⟨c, [], rfl, hc⟩, ?_⟩, ?_, ?_⟩
  · have := h.isDigit
    rwa [hcs] at this
  · rintro e he
    exact Option.some.inj he ▸ hpoint
  · simp only [Form.scientific, hcs, Parts.text, Option.elim]
    cases cs <;> rfl
  · simp only [Parts.value, Decimal.value, hcs, Option.getD_some, length_cons]
    congr 2
    omega

lemma magnitude_spells (hpoint : (d.point - 1).natAbs < 10 ^ 9) :
    f.Spells (f.magnitude d) d.value := by
  obtain ⟨c, cs, hcs, -⟩ := h.head
  have hempty : d.digits.isEmpty = false := by rw [hcs]; rfl
  unfold Form.magnitude
  rw [if_neg (by rw [hempty]; decide)]
  split
  · exact scientific_spells f h hpoint
  · exact positional_spells f h

end

/-! Reading the parts. -/

lemma toNat_of_isDigit (h : c.isDigit) : 48 ≤ c.toNat ∧ c.toNat ≤ 57 := by
  simp only [Char.isDigit, Bool.and_eq_true, decide_eq_true_eq, UInt32.le_iff_toNat_le] at h
  exact h

lemma hexValue?_of_isDigit (h : c.isDigit) : Text.hexValue? c = some (c.toNat - '0'.toNat) := by
  obtain ⟨hlow, hhigh⟩ := toNat_of_isDigit h
  unfold Text.hexValue?
  rw [if_pos ⟨hlow, hhigh⟩]

lemma readDigits_append (h : ∀ c ∈ ds, c.isDigit = true) (rest : List Char) (v n after : Nat)
    (point : Bool) :
    readDigits 10 (ds ++ rest) v n after point =
      readDigits 10 rest (Nat.ofDigitChars 10 ds v) (n + ds.length)
        (if point then after + ds.length else after) point := by
  induction ds generalizing v n after with
  | nil => cases point <;> rfl
  | cons c cs ih =>
    have hc := h c mem_cons_self
    obtain ⟨hlow, hhigh⟩ := toNat_of_isDigit hc
    have hdot : (c == '.') = false := by
      rw [beq_eq_false_iff_ne]
      rintro rfl
      exact absurd hlow (by decide)
    rw [cons_append, readDigits, hdot, hexValue?_of_isDigit hc]
    have hlt : c.toNat - '0'.toNat < 10 := by
      change c.toNat - 48 < 10
      omega
    simp only [Bool.false_and, Bool.false_eq_true, if_false, if_pos hlt]
    rw [ih fun b hb => h b (mem_cons_of_mem c hb), Nat.ofDigitChars_cons, Nat.mul_comm v 10]
    cases point <;> simp [Nat.add_assoc, Nat.add_comm 1]

variable (f : Form)

lemma readDigits_exponent (e : Option Int) (v n after : Nat) (point : Bool) :
    readDigits 10 (e.elim [] f.exponent) v n after point =
      (v, n, after, e.elim [] f.exponent) := by
  rcases e with - | e
  · rfl
  · simp only [Option.elim, Form.exponent]
    split <;> rfl

variable {p : Parts}

lemma Parts.Proper.readDigits_text (h : p.Proper) (f : Form) :
    readDigits 10 (p.text f) 0 0 0 false =
      (Nat.ofDigitChars 10 (p.whole ++ p.fraction) 0, p.whole.length + p.fraction.length,
        p.fraction.length, p.exponent.elim [] f.exponent) := by
  have hwhole : ∀ c ∈ p.whole, c.isDigit = true := fun c hc =>
    h.isDigit c (mem_append_left _ hc)
  have hfraction : ∀ c ∈ p.fraction, c.isDigit = true := fun c hc =>
    h.isDigit c (mem_append_right _ hc)
  rw [Parts.text, append_assoc, readDigits_append hwhole, Nat.ofDigitChars_append, Nat.zero_add,
    if_neg (by decide)]
  unfold Parts.fractionText
  split
  case isTrue hempty =>
    rw [isEmpty_iff.1 hempty, nil_append, readDigits_exponent]
    rfl
  case isFalse =>
    have hpoint : ∀ cs v n, readDigits 10 ('.' :: cs) v n 0 false = readDigits 10 cs v n 0 true :=
      fun _ _ _ => rfl
    rw [cons_append, hpoint, readDigits_append hfraction, readDigits_exponent, if_pos rfl,
      Nat.zero_add]

lemma ofDigitChars_dropWhile (ds : List Char) :
    Nat.ofDigitChars 10 (ds.dropWhile (· == '0')) 0 = Nat.ofDigitChars 10 ds 0 := by
  induction ds with
  | nil => rfl
  | cons c cs ih =>
    rw [dropWhile_cons]
    split
    case isTrue hc =>
      rw [ih, beq_iff_eq.1 hc]
      rfl
    case isFalse => rfl

lemma foldl_eq_ofDigitChars (ds : List Char) :
    ds.foldl (fun v c => v * 10 + (c.toNat - 48)) 0 = Nat.ofDigitChars 10 ds 0 := by
  congr 1
  funext v c
  rw [Nat.mul_comm]
  rfl

lemma padLeft_ne_nil (w n : Nat) : padLeft w (Nat.toDigits 10 n) ≠ [] :=
  append_ne_nil_of_right_ne_nil _ Nat.toDigits_ne_nil

lemma isDigit_padLeft (w n : Nat) : ∀ c ∈ padLeft w (Nat.toDigits 10 n), c.isDigit = true := by
  intro c hc
  rcases mem_append.1 hc with hc | hc
  · exact isDigit_replicate_zero _ c hc
  · exact Nat.isDigit_of_mem_toDigits (by decide) (by decide) hc

lemma readExponent_padLeft (w : Nat) {n : Nat} (hn : n < 10 ^ 9) :
    let ds := padLeft w (Nat.toDigits 10 n)
    (ds.isEmpty || !ds.all Char.isDigit) = false ∧ ¬9 < (ds.dropWhile (· == '0')).length ∧
      (ds.dropWhile (· == '0')).foldl (fun v c => v * 10 + (c.toNat - 48)) 0 = n := by
  intro ds
  have hds : ds = List.replicate (w - (Nat.toDigits 10 n).length) '0' ++ Nat.toDigits 10 n := rfl
  refine ⟨?_, ?_, ?_⟩
  · have hne : ds ≠ [] := padLeft_ne_nil w n
    have hall : ds.all Char.isDigit = true := all_eq_true.2 (isDigit_padLeft w n)
    simp [hne, hall]
  · have hlen := (Nat.length_toDigits_le_iff (by decide) (by decide)).2 hn
    have hdrop : ds.dropWhile (· == '0') = (Nat.toDigits 10 n).dropWhile (· == '0') := by
      rw [hds, dropWhile_append_of_pos fun c hc => by rw [eq_of_mem_replicate hc]; rfl]
    have hle := (dropWhile_sublist (l := Nat.toDigits 10 n) (· == '0')).length_le
    rw [hdrop]
    omega
  · rw [foldl_eq_ofDigitChars, ofDigitChars_dropWhile, hds, ofDigitChars_zeros_append,
      Nat.ofDigitChars_ten_toDigits]

lemma readExponent_exponent (he : e.natAbs < 10 ^ 9) :
    ∃ r, f.exponent e = 'e' :: r ∧ readExponent r = some e := by
  unfold Form.exponent
  split
  case isTrue hneg =>
    obtain ⟨hdigits, hlen, hvalue⟩ := readExponent_padLeft f.negativeWidth he
    refine ⟨_, rfl, ?_⟩
    simp only [readExponent, hdigits, if_neg hlen, hvalue, Bool.false_eq_true, if_false, if_true,
      Option.some.injEq]
    omega
  case isFalse hneg =>
    obtain ⟨hdigits, hlen, hvalue⟩ := readExponent_padLeft f.positiveWidth he
    refine ⟨_, rfl, ?_⟩
    simp only [readExponent, hdigits, if_neg hlen, hvalue, Bool.false_eq_true, if_false,
      Option.some.injEq]
    omega

lemma Parts.Proper.exists_text (h : p.Proper) (f : Form) :
    ∃ c cs, p.text f = c :: cs ∧ c.isDigit = true := by
  have hwhole : ∃ c cs, p.whole = c :: cs := by
    rcases h.whole with hw | ⟨c, cs, hw, -⟩
    · exact ⟨_, _, hw⟩
    · exact ⟨c, cs, hw⟩
  obtain ⟨c, cs, hw⟩ := hwhole
  refine ⟨c, _, by rw [Parts.text, hw]; rfl, h.isDigit c ?_⟩
  rw [hw]
  exact mem_cons_self

lemma splitSign_append (negative : Bool) {cs : List Char}
    (h : ∃ c r, cs = c :: r ∧ c.isDigit = true) :
    splitSign ((if negative then ['-'] else []) ++ cs) = (negative, cs) := by
  cases negative
  · unfold splitSign
    split
    · simp_all
    · simp_all
    · rfl
  · rfl

lemma Parts.Proper.readDecimal_text (h : p.Proper) (f : Form) (negative : Bool) :
    readDecimal ((if negative then ['-'] else []) ++ p.text f) =
      Written.decimal ⟨negative, Nat.ofDigitChars 10 (p.whole ++ p.fraction) 0,
        p.exponent.getD 0 - p.fraction.length⟩ := by
  have hpos : (p.whole.length + p.fraction.length == 0) = false := by
    rcases h.whole with hw | ⟨c, cs, hw, -⟩ <;> simp [hw]
  simp only [readDecimal, splitSign_append negative (h.exists_text f), h.readDigits_text f, hpos,
    Bool.false_eq_true, if_false]
  cases he : p.exponent with
  | none => simp
  | some e =>
    obtain ⟨r, hr, hread⟩ := readExponent_exponent f (h.exponent e he)
    simp [hr, hread]

lemma ofDigitChars_lt (h : ∀ c ∈ ds, c.isDigit = true) :
    Nat.ofDigitChars 10 ds 0 < 10 ^ ds.length := by
  induction ds with
  | nil => decide
  | cons c cs ih =>
    have hcs := ih fun b hb => h b (mem_cons_of_mem c hb)
    obtain ⟨hlow, hhigh⟩ := toNat_of_isDigit (h c mem_cons_self)
    have hdigit : 10 ^ cs.length * (c.toNat - '0'.toNat) ≤ 10 ^ cs.length * 9 :=
      Nat.mul_le_mul_left _ (by change c.toNat - 48 ≤ 9; omega)
    rw [Nat.ofDigitChars_cons, Nat.ofDigitChars_eq_ofDigitChars_zero, Nat.zero_add,
      length_cons]
    omega

lemma Decimal.Proper.digits_bounds (h : d.Proper) :
    10 ^ (d.digits.length - 1) ≤ Nat.ofDigitChars 10 d.digits 0 ∧
      Nat.ofDigitChars 10 d.digits 0 < 10 ^ d.digits.length := by
  refine ⟨?_, ofDigitChars_lt h.isDigit⟩
  obtain ⟨c, cs, hcs, hc⟩ := h.head
  have hdigit : 0 < c.toNat - '0'.toNat := by
    obtain ⟨hlow, -⟩ := toNat_of_isDigit (h.isDigit c (hcs ▸ mem_cons_self))
    have hne : c.toNat ≠ '0'.toNat := fun heq => hc (Char.toNat_inj.1 heq)
    change c.toNat ≠ 48 at hne
    change 0 < c.toNat - 48
    omega
  rw [hcs, Nat.ofDigitChars_cons, Nat.ofDigitChars_eq_ofDigitChars_zero, Nat.zero_add]
  exact Nat.le_trans (Nat.le_mul_of_pos_right _ hdigit) (Nat.le_add_right _ _)

lemma Decimal.Proper.point_bounds (h : d.Proper) (hfinite : x.isFinite) (hzero : x.isZero = false)
    (hholds : x.Holds d.value) : (d.point - 1).natAbs < 10 ^ 9 := by
  obtain ⟨hlow, hhigh⟩ := h.digits_bounds
  have hlen : 0 < d.digits.length := by
    obtain ⟨c, cs, hcs, -⟩ := h.head
    simp [hcs]
  have hlow' : (10 : ℚ) ^ (d.point - 1) ≤ 10 ^ (1024 : Int) := by
    calc (10 : ℚ) ^ (d.point - 1)
        = (10 ^ (d.digits.length - 1) : Nat) * 10 ^ (d.point - d.digits.length) := by
          push_cast
          rw [← zpow_natCast, ← zpow_add₀ (by norm_num)]
          congr 1
          omega
      _ ≤ d.value := mul_le_mul_of_nonneg_right (Nat.cast_le.2 hlow) (by positivity)
      _ ≤ 2 ^ (1024 : Int) := hholds.le_two_zpow hfinite
      _ ≤ 10 ^ (1024 : Int) := zpow_le_zpow_left₀ (by norm_num) (by norm_num) (by norm_num)
  have hhigh' : (10 : ℚ) ^ (-1075 : Int) < 10 ^ d.point := by
    calc (10 : ℚ) ^ (-1075 : Int)
        ≤ 2 ^ (-1075 : Int) := zpow_le_zpow_of_nonpos (by norm_num) (by norm_num) (by norm_num)
      _ ≤ d.value := hholds.two_zpow_le hzero
      _ < (10 ^ d.digits.length : Nat) * 10 ^ (d.point - d.digits.length) :=
          mul_lt_mul_of_pos_right (Nat.cast_lt.2 hhigh) (by positivity)
      _ = 10 ^ d.point := by
          push_cast
          rw [← zpow_natCast, ← zpow_add₀ (by norm_num), add_sub_cancel]
  rw [zpow_le_zpow_iff_right₀ (by norm_num)] at hlow'
  rw [zpow_lt_zpow_iff_right₀ (by norm_num)] at hhigh'
  omega

lemma eq_of_isZero (h : x.isZero) : ofMagnitude x.negative 0 = x := by
  simp only [isZero, Bool.and_eq_true, beq_iff_eq] at h
  have hbits : x.scale * 2 ^ 52 + x.mantissa = 0 := by simp [scale, mantissa, h.1, h.2]
  conv_rhs => rw [← ofMagnitude_eq x, hbits]

lemma toList_text (hfinite : x.isFinite) :
    (x.text f).toList = (if x.negative then ['-'] else []) ++ f.magnitude x.shortest := by
  simp only [isFinite, bne_iff_ne, ne_eq] at hfinite
  simp only [text, isNaN, isInfinite, beq_false_of_ne hfinite, Bool.false_and, Bool.false_eq_true,
    if_false, String.toList_ofList]

/-- Parts of the text of a finite number; the value is the decimal that is read. -/
lemma text_spells (hfinite : x.isFinite) :
    ∃ p : Parts, p.Proper ∧ f.magnitude x.shortest = p.text f ∧
      Written.decimal ⟨x.negative, Nat.ofDigitChars 10 (p.whole ++ p.fraction) 0,
        p.exponent.getD 0 - p.fraction.length⟩ = .number x := by
  cases hzero : x.isZero with
  | true =>
    refine ⟨⟨['0'], [], none⟩, ⟨by simp, .inl rfl, fun e he => nomatch he⟩, ?_, ?_⟩
    · simp [shortest, hzero, Form.magnitude, Parts.text, Parts.fractionText]
    · exact congrArg Reading.number (eq_of_isZero hzero)
  | false =>
    obtain ⟨hproper, hholds⟩ := shortest_holds hfinite hzero
    obtain ⟨p, hp, htext, hvalue⟩ :=
      magnitude_spells f hproper (hproper.point_bounds hfinite hzero hholds)
    rw [← hvalue] at hholds
    exact ⟨p, hp, htext, decimal_of_holds hfinite hzero hholds⟩

/-- A finite number is read back from its text. -/
lemma readDecimal_text (hfinite : x.isFinite) : readDecimal (x.text f).toList = .number x := by
  obtain ⟨p, hp, htext, hread⟩ := text_spells f hfinite
  rw [toList_text f hfinite, htext, hp.readDecimal_text, hread]

end ReactiveModel.Binary64

namespace ReactiveModel.Json

open List

variable {rest : List Char}

open Binary64 (Form Parts)

/-! The scanner of numbers. -/

lemma isDigit_eq (c : Char) : isDigit c = c.isDigit := by
  simp only [isDigit, Char.isDigit, ge_iff_le, Char.le_def]

/-- No digit follows. -/
def Ends (rest : List Char) : Prop := ∀ c cs, rest = c :: cs → isDigit c = false

lemma digits_append {ds rest : List Char} (hne : ds ≠ []) (hds : ∀ c ∈ ds, c.isDigit = true)
    (hrest : Ends rest) : digits (ds ++ rest) = .ok (ds, rest) := by
  have hds' : ∀ c ∈ ds, isDigit c = true := fun c hc => (isDigit_eq c).trans (hds c hc)
  have htake : (ds ++ rest).takeWhile isDigit = ds := by
    rw [takeWhile_append_of_pos hds']
    cases rest with
    | nil => simp
    | cons c cs => rw [takeWhile_cons_of_neg (by simp [hrest c cs rfl]), append_nil]
  have hdrop : (ds ++ rest).dropWhile isDigit = rest := by
    rw [dropWhile_append_of_pos hds']
    cases rest with
    | nil => rfl
    | cons c cs => rw [dropWhile_cons_of_neg (by simp [hrest c cs rfl])]
  obtain ⟨c, cs, rfl⟩ := exists_cons_of_ne_nil hne
  unfold digits
  rw [htake, hdrop]
  exact if_pos (hds' c mem_cons_self)

variable {p : Parts}

lemma whole_append (h : p.Proper) (hrest : Ends rest) :
    whole (p.whole ++ rest) = .ok (p.whole, rest) := by
  rcases h.whole with hw | ⟨c, cs, hw, hc⟩
  · rw [hw]
    rfl
  · have hdigits := digits_append (by rw [hw]; exact cons_ne_nil _ _)
      (fun c hc => h.isDigit c (mem_append_left _ hc)) hrest
    unfold whole
    split
    · simp_all
    · exact hdigits

lemma fraction_append {fr rest : List Char} (hfr : ∀ c ∈ fr, c.isDigit = true)
    (hrest : Ends rest) (hpoint : ∀ cs, rest ≠ '.' :: cs) :
    fraction (Parts.fractionText fr ++ rest) = .ok (Parts.fractionText fr, rest) := by
  cases fr with
  | nil =>
    simp only [Parts.fractionText, isEmpty_nil, if_true, nil_append]
    unfold fraction
    split
    · exact absurd rfl (hpoint _)
    · rfl
  | cons c cs =>
    have hdigits := digits_append (cons_ne_nil c cs) hfr hrest
    have htext : Parts.fractionText (c :: cs) = '.' :: c :: cs := rfl
    rw [htext, cons_append, fraction, hdigits]
    rfl

lemma Apart.ends (h : Apart rest) : Ends rest := by
  obtain ⟨c, cs, rfl, hc⟩ := h
  rintro d ds hd
  obtain ⟨rfl, -⟩ := List.cons.inj hd
  rcases hc with rfl | rfl <;> rfl

variable (f : Form)

lemma exponent_append (e : Option Int) (h : Apart rest) :
    exponent (e.elim [] f.exponent ++ rest) = .ok (e.elim [] f.exponent, rest) := by
  cases e with
  | none =>
    obtain ⟨c, cs, rfl, hc⟩ := h
    rcases hc with rfl | rfl <;> rfl
  | some e =>
    simp only [Option.elim, Form.exponent]
    split
    all_goals
      rw [cons_append, cons_append, exponent, digits_append (Binary64.padLeft_ne_nil _ _)
        (Binary64.isDigit_padLeft _ _) h.ends]
      rfl

/-- After its digits a number has an exponent or ends. -/
lemma exists_exponent (e : Option Int) (h : Apart rest) :
    ∃ c cs, e.elim [] f.exponent ++ rest = c :: cs ∧ isDigit c = false ∧ c ≠ '.' := by
  cases e with
  | none =>
    obtain ⟨c, cs, rfl, hc⟩ := h
    refine ⟨c, cs, rfl, ?_⟩
    rcases hc with rfl | rfl <;> decide
  | some e =>
    simp only [Option.elim, Form.exponent]
    split <;> exact ⟨_, _, rfl, by decide⟩

/-- A number after its sign. -/
def unsigned (sign cs : List Char) : Except Stop (Json × List Char) := do
  let (a, rest) ← whole cs
  let (b, rest) ← fraction rest
  let (c, rest) ← exponent rest
  return (.number (String.ofList (sign ++ a ++ b ++ c)), rest)

lemma numeral_sign (negative : Bool) {cs : List Char}
    (h : ∃ c r, cs = c :: r ∧ c.isDigit = true) (rest : List Char) :
    numeral ((if negative then ['-'] else []) ++ (cs ++ rest)) =
      unsigned (if negative then ['-'] else []) (cs ++ rest) := by
  obtain ⟨c, r, rfl, hc⟩ := h
  cases negative
  · unfold numeral
    split
    next heq =>
      split at heq
      · simp_all
      · obtain ⟨rfl, rfl⟩ := Prod.mk.inj heq
        rfl
  · rfl

lemma numeral_parts (h : p.Proper) (f : Form) (negative : Bool) (hrest : Apart rest) :
    numeral ((if negative then ['-'] else []) ++ p.text f ++ rest) =
      .ok (.number (String.ofList ((if negative then ['-'] else []) ++ p.text f)), rest) := by
  obtain ⟨c, cs, hafter, hc, hpoint⟩ := exists_exponent f p.exponent hrest
  have hends : Ends (p.exponent.elim [] f.exponent ++ rest) := by
    rintro d ds hd
    rw [hafter] at hd
    exact (List.cons.inj hd).1 ▸ hc
  have hdot : ∀ ds, p.exponent.elim [] f.exponent ++ rest ≠ '.' :: ds := by
    rintro ds hd
    rw [hafter] at hd
    exact hpoint (List.cons.inj hd).1
  have hfraction := fraction_append (fun c hc => h.isDigit c (mem_append_right _ hc)) hends hdot
  have hends' : Ends (Parts.fractionText p.fraction ++
        (p.exponent.elim [] f.exponent ++ rest)) := by
    unfold Parts.fractionText
    split
    · exact hends
    · rintro d ds hd
      exact (List.cons.inj hd).1 ▸ rfl
  have hwhole := whole_append h hends'
  rw [append_assoc, numeral_sign negative (h.exists_text f)]
  simp only [unsigned, Parts.text, append_assoc, bind, Except.bind, pure, Except.pure, hwhole,
    hfraction, exponent_append f p.exponent hrest]

/-- The text of a finite number is a JSON number. -/
lemma numeral_text {x : Binary64} (hfinite : x.isFinite) : Numeral (x.text f) := by
  obtain ⟨p, hp, htext, -⟩ := Binary64.text_spells f hfinite
  have htoList := Binary64.toList_text f hfinite
  rw [htext] at htoList
  obtain ⟨c, cs, hcs, hc⟩ := hp.exists_text f
  constructor
  · rw [htoList, hcs]
    cases x.negative
    · exact ⟨c, cs, rfl, .inr ((isDigit_eq c).trans hc)⟩
    · exact ⟨'-', _, rfl, .inl rfl⟩
  · intro rest hrest
    rw [htoList, numeral_parts hp f x.negative hrest, ← htoList, String.ofList_toList]

end ReactiveModel.Json
