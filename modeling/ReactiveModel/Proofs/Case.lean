import Mathlib.Data.List.Basic
import ReactiveModel.Text.Case
import ReactiveModel.Text.Letter

/-! Letters in upper and lower case. Both tables send letters to letters, and what they send into
ASCII is a letter of their case. -/

namespace ReactiveModel.Text

open List

namespace Run

/-- Whether letters of a run go to letters: the images lie in one run of letters, or no letter lies
in the run, or the images are letters one by one. -/
def keepsLetters (r : Run) : Bool :=
  letterTable.any (fun l => Nat.beq l.step 1 && Nat.ble l.first (r.image r.first) &&
      Nat.ble (r.image r.last) l.last) ||
    letterTable.all (fun l => Nat.blt r.last l.first || Nat.blt l.last r.first) ||
    (range (r.last - r.first + 1)).all fun i =>
      !r.has (r.first + i) || letterTable.any (·.has (r.image (r.first + i)))

/-- Whether a run goes to characters behind ASCII and keeps letters. A run of one letter may go to a
letter of ASCII. -/
def fits (low : Char → Bool) (r : Run) : Bool :=
  Nat.beq r.first r.last && low (Char.ofNat (r.image r.first)) ||
    Nat.ble 0x80 (r.image r.first) && (Nat.blt (r.image r.last) 0xD800 ||
      Nat.ble 0xE000 (r.image r.first) && Nat.blt (r.image r.last) 0x110000) && r.keepsLetters

end Run

lemma lowerTable_fits : ∀ r ∈ lowerTable, r.fits Char.isLower := by
  -- the lines of the tables are taken apart first, since evaluation would decode them
  unfold lowerTable Run.fits Run.keepsLetters letterTable Run.table
  simp only [flatMap_cons, flatMap_nil]
  repeat rw [String.toList_ofList]
  decide +kernel

lemma upperTable_fits : ∀ r ∈ upperTable, r.fits Char.isUpper := by
  unfold upperTable Run.fits Run.keepsLetters letterTable Run.table
  simp only [flatMap_cons, flatMap_nil]
  repeat rw [String.toList_ofList]
  decide +kernel


section

variable {low : Char → Bool} {t : List Run} {c : Char}

lemma Run.image_mono (r : Run) {m n : Nat} (h : m ≤ n) : r.image m ≤ r.image n := by
  unfold Run.image
  split <;> omega

variable (ht : ∀ r ∈ t, r.fits low)

include ht

/-- A table of fitting runs leaves a character as it is, or sends it to a letter of ASCII, or to a
character behind ASCII, which is a letter if the first one was. -/
lemma mapTable_of_fits (hc : 0x80 ≤ c.toNat) :
    mapTable t c = c ∨ low (mapTable t c) = true ∨
      0x80 ≤ (mapTable t c).toNat ∧ (isLetter c = true → isLetter (mapTable t c) = true) := by
  unfold mapTable
  split
  case h_2 => exact .inl rfl
  case h_1 r hr =>
    have hfits := ht r (mem_of_find?_eq_some hr)
    have hhas : r.has c.toNat = true := find?_some (p := fun r : Run => r.has c.toNat) hr
    have hbounds : r.first ≤ c.toNat ∧ c.toNat ≤ r.last := by
      simp only [Run.has, Bool.and_eq_true, decide_eq_true_eq] at hhas
      exact hhas.1
    simp only [Run.fits, Bool.or_eq_true, Bool.and_eq_true, Nat.beq_eq, Nat.ble_eq,
      Nat.blt_eq] at hfits
    rcases hfits with ⟨hone, hlow⟩ | ⟨⟨hhigh, hvalid⟩, hkeeps⟩
    · obtain hn : c.toNat = r.first := by omega
      exact .inr (.inl (hn ▸ hlow))
    · have hfirst := r.image_mono hbounds.1
      have hlast := r.image_mono hbounds.2
      have hnat : (Char.ofNat (r.image c.toNat)).toNat = r.image c.toNat := by
        have hchar : (r.image c.toNat).isValidChar := by omega
        rw [Char.ofNat, dif_pos hchar]
        rfl
      refine .inr (.inr ⟨by omega, fun hletter => ?_⟩)
      have hnot : ¬ c.toNat < 0x80 := by omega
      have hnot' : ¬ (Char.ofNat (r.image c.toNat)).toNat < 0x80 := by omega
      rw [isLetter, if_neg hnot, inTable, any_eq_true] at hletter
      rw [isLetter, if_neg hnot', inTable, any_eq_true, hnat]
      simp only [Run.keepsLetters, Bool.or_eq_true, any_eq_true, all_eq_true, Bool.and_eq_true,
        Nat.beq_eq, Nat.ble_eq, Nat.blt_eq, mem_range, Bool.not_eq_true'] at hkeeps
      rcases hkeeps with (⟨l, hl, ⟨hstep, hle⟩, hge⟩ | hnone) | hpoints
      · refine ⟨l, hl, ?_⟩
        simp [Run.has, hstep, Nat.mod_one]
        omega
      · obtain ⟨l, hl, hin⟩ := hletter
        simp only [Run.has, Bool.and_eq_true, decide_eq_true_eq] at hin
        have hout := hnone l hl
        omega
      · have hpoint := hpoints (c.toNat - r.first) (by omega)
        rw [Nat.add_sub_cancel' hbounds.1, hhas] at hpoint
        exact hpoint.resolve_left (by decide)

lemma eq_of_map {g : Char → Char} {d : Char}
    (hg : ∀ n < 0x80, g (Char.ofNat n) = Char.ofNat n ∨ low (g (Char.ofNat n)) = true)
    (h : (if c.toNat < 0x80 then g c else mapTable t c) = d) (hd : d.toNat < 0x80)
    (hlow : low d = false) : c = d := by
  split at h
  · rename_i hc
    have hascii := hg c.toNat hc
    rw [Char.ofNat_toNat, h, hlow] at hascii
    exact (hascii.resolve_right Bool.false_ne_true).symm
  · rename_i hc
    have hmap := mapTable_of_fits ht (Nat.not_lt.mp hc)
    rw [h, hlow] at hmap
    rcases hmap with heq | hlow | hhigh
    · exact heq.symm
    · nomatch hlow
    · omega

lemma isLetter_map {g : Char → Char}
    (hg : ∀ n < 0x80, (Char.ofNat n).isAlpha →
      (g (Char.ofNat n)).toNat < 0x80 ∧ (g (Char.ofNat n)).isAlpha)
    (hlow : ∀ d, low d → d.toNat < 0x80 ∧ d.isAlpha) (h : isLetter c = true) :
    isLetter (if c.toNat < 0x80 then g c else mapTable t c) = true := by
  have hletter {d : Char} (hd : d.toNat < 0x80 ∧ d.isAlpha) : isLetter d = true := by
    rw [isLetter, if_pos hd.1, hd.2]
  split
  · rename_i hc
    have hascii := hg c.toNat hc
    rw [isLetter, if_pos hc] at h
    rw [Char.ofNat_toNat] at hascii
    exact hletter (hascii h)
  · rename_i hc
    rcases mapTable_of_fits ht (Nat.not_lt.mp hc) with heq | hmap | hmap
    · rwa [heq]
    · exact hletter (hlow _ hmap)
    · exact hmap.2 h

end

variable {c d : Char}

/-- In lower case, only letters become letters of ASCII. -/
lemma eq_of_toLower (h : toLower c = d) (hd : d.toNat < 0x80) (hlower : d.isLower = false) :
    c = d :=
  eq_of_map lowerTable_fits (by decide) h hd hlower

lemma eq_of_toUpper (h : toUpper c = d) (hd : d.toNat < 0x80) (hupper : d.isUpper = false) :
    c = d :=
  eq_of_map upperTable_fits (by decide) h hd hupper

lemma toNat_lt_of_isLower (h : c.isLower) : c.toNat < 0x80 := by
  delta Char.isLower at h
  simp only [Bool.and_eq_true, decide_eq_true_eq, UInt32.le_iff_toNat_le] at h
  exact Nat.lt_of_le_of_lt h.2 (by decide)

lemma toNat_lt_of_isUpper (h : c.isUpper) : c.toNat < 0x80 := by
  delta Char.isUpper at h
  simp only [decide_eq_true_eq, UInt32.le_iff_toNat_le] at h
  exact Nat.lt_of_le_of_lt h.2 (by decide)

lemma isLetter_toLower (h : isLetter c = true) : isLetter (toLower c) = true :=
  isLetter_map lowerTable_fits (by decide)
    (fun _ hd => ⟨toNat_lt_of_isLower hd, Bool.or_eq_true_iff.mpr (.inr hd)⟩) h

lemma isLetter_toUpper (h : isLetter c = true) : isLetter (toUpper c) = true :=
  isLetter_map upperTable_fits (by decide)
    (fun _ hd => ⟨toNat_lt_of_isUpper hd, Bool.or_eq_true_iff.mpr (.inl hd)⟩) h

lemma isLower_toUpper (c : Char) : (toUpper c).isLower = false := by
  by_contra h
  have hlower := Bool.not_eq_false _ ▸ h
  have hd := toNat_lt_of_isLower hlower
  have hascii : ∀ n < 0x80, (Char.ofNat n).isLower = true →
      (Char.ofNat n).isUpper = false ∧ toUpper (Char.ofNat n) ≠ Char.ofNat n := by decide
  have hchar := hascii _ hd
  rw [Char.ofNat_toNat] at hchar
  obtain ⟨hupper, hne⟩ := hchar hlower
  exact hne (congrArg toUpper (eq_of_toUpper rfl hd hupper).symm)

end ReactiveModel.Text
