import ReactiveModel.Proofs.FileNames
import ReactiveModel.Proofs.Options

/-! The package clause of generated files. A package name that is set is kept. Otherwise one is made
from the last element of a path, whose letters and digits may spell a keyword. -/

namespace ReactiveModel

open List Text

namespace Naming

open Source

variable {c : Char} {e : String}

/-- Characters of names that are made from paths. -/
def IsPackageChar (c : Char) : Prop := c.isLower = true ∨ c.isDigit = true
deriving Decidable

lemma IsPackageChar.toNat_lt (h : IsPackageChar c) : c.toNat < 0x7F := by
  delta IsPackageChar Char.isLower at h
  simp only [Char.isDigit, Bool.and_eq_true, decide_eq_true_eq, ge_iff_le,
    UInt32.le_iff_toNat_le] at h
  rcases h with ⟨-, h⟩ | ⟨-, h⟩
  · exact Nat.lt_of_le_of_lt h (by decide)
  · exact Nat.lt_of_le_of_lt h (by decide)

lemma isPackageChar_iff (h : c.toNat < 0x7F) :
    IsPackageChar c ↔ (isLetter c || isDigit c) = true ∧ toLower c = c := by
  have hascii : ∀ n < 0x7F, ((Char.ofNat n).isLower = true ∨ (Char.ofNat n).isDigit = true) ↔
      ((Char.ofNat n).isAlpha || (Char.ofNat n).isDigit) = true ∧
        (Char.ofNat n).toLower = Char.ofNat n := by decide
  have hc := hascii c.toNat h
  have hlt : c.toNat < 0x80 := by omega
  simpa [IsPackageChar, isLetter, isDigit, toLower, hlt] using hc

lemma isPackageChar_toLower {c d : Char} (h : toLower d = c) (hc : c.toNat < 0x7F)
    (hname : (isLetter c || isDigit c) = true) : IsPackageChar c := by
  cases hlower : c.isLower with
  | true => exact .inl hlower
  | false =>
    obtain rfl := eq_of_toLower h (by omega) hlower
    exact (isPackageChar_iff hc).mpr ⟨hname, h⟩

/-- The characters of an element that a package name may have. -/
def kept (element : String) : List Char :=
  let cs := (lowerCase element).toList
  (if ['g', 'o', '-'].isPrefixOf cs then cs.drop 3 else cs).filter fun c =>
    c.toNat < 0x7F && (isLetter c || isDigit c)

lemma isPackageChar_of_mem_kept (h : c ∈ kept e) : IsPackageChar c := by
  obtain ⟨hmem, hc⟩ := mem_filter.mp h
  have hlower : c ∈ (lowerCase e).toList := by
    split at hmem
    · exact mem_of_mem_drop hmem
    · exact hmem
  rw [lowerCase, String.toList_map] at hlower
  obtain ⟨d, -, hd⟩ := mem_map.mp hlower
  simp only [Bool.and_eq_true, decide_eq_true_eq] at hc
  exact isPackageChar_toLower hd hc.1 hc.2

lemma packageName_eq (e : String) :
    packageName e = if (kept e).head?.all isDigit then "" else String.ofList (kept e) := by
  unfold packageName
  cases hkept : kept e with
  | nil =>
    dsimp only [kept] at hkept
    simp only [hkept]
    rfl
  | cons c cs =>
    dsimp only [kept] at hkept
    simp only [hkept]
    rfl

lemma isPackageChar_of_mem (h : c ∈ (packageName e).toList) : IsPackageChar c := by
  rw [packageName_eq] at h
  split at h
  · nomatch h
  · exact isPackageChar_of_mem_kept (by simpa using h)

lemma IsPackageChar.isLetter_or_isDigit (h : IsPackageChar c) :
    isLetter c = true ∨ isDigit c = true := by
  simpa using ((isPackageChar_iff h.toNat_lt).mp h).1

lemma IsPackageChar.isNamePart (h : IsPackageChar c) : isNamePart c = true := by
  simpa [Source.isNamePart, isNameStart, or_assoc] using .inr h.isLetter_or_isDigit

lemma isIdentifier_packageName (h : packageName e ≠ "") : IsIdentifier (packageName e) := by
  refine ⟨?_, fun c hc => (isPackageChar_of_mem hc).isNamePart⟩
  rw [packageName_eq] at h ⊢
  cases hkept : kept e with
  | nil => simp [hkept] at h
  | cons c cs =>
    cases hdigit : isDigit c with
    | true => simp [hkept, hdigit] at h
    | false =>
      have hchar : IsPackageChar c := isPackageChar_of_mem_kept (hkept ▸ mem_cons_self)
      have hletter := hchar.isLetter_or_isDigit.resolve_right (by simp [hdigit])
      exact ⟨c, by simp [hdigit], by simp [isNameStart, hletter]⟩

end Naming

namespace Settings

open Source

variable {os : List Setting} {s : Settings}

/-- What the package clause may say. -/
def IsPackageName (n : String) : Prop := isName n = true ∧ n ≠ "_"

/-- The names that are made from elements of paths when none is set, in the order of preference. -/
def packageChoices (s : Settings) (workDir : String) : List String :=
  [if s.package = "" then "" else Naming.packageName (Path.base s.package),
   Naming.packageName (Path.base (if Path.isRooted s.targetDir then Path.clean s.targetDir
     else Path.join [workDir, s.targetDir]))]

/-- The first of them, unless no element gives one. -/
def packageMade (s : Settings) (workDir : String) : Option String :=
  (s.packageChoices workDir).find? (· != "")

lemma orElse_eq_find? (a b fallback : String) :
    orElse a (orElse b fallback) = ([a, b].find? (· != "")).getD fallback := by
  unfold orElse
  by_cases ha : a = "" <;> by_cases hb : b = "" <;> simp [bne, ha, hb]

lemma goPackage_eq (s : Settings) (workDir : String) : s.goPackage workDir =
    if s.packageName = "" then (s.packageMade workDir).getD "generated" else s.packageName := by
  unfold goPackage packageMade packageChoices
  by_cases hset : s.packageName = ""
  · rw [if_neg (by simp [hset]), if_pos hset, ← orElse_eq_find?]
    simp only [beq_iff_eq]
  · rw [if_pos (by simpa using hset), if_neg hset]

lemma isIdentifier_of_packageMade {workDir n : String} (h : s.packageMade workDir = some n) :
    IsIdentifier n ∧ n ≠ "_" := by
  have hne : n ≠ "" := by simpa using find?_some h
  obtain ⟨e, rfl⟩ : ∃ e, n = Naming.packageName e := by
    rcases mem_pair.mp (mem_of_find?_eq_some h) with rfl | rfl
    · split at hne
      · exact absurd rfl hne
      · rename_i hpath
        exact ⟨_, if_neg hpath⟩
    · exact ⟨_, rfl⟩
  refine ⟨Naming.isIdentifier_packageName hne, fun hblank => ?_⟩
  have hchar : Naming.IsPackageChar '_' := Naming.isPackageChar_of_mem (e := e) (by simp [hblank])
  exact absurd hchar (by decide)

/-! A package name that is set has been looked at. -/

lemma packageName_applyOne {o : Setting} (ho : s.rejection? o = none)
    (h : s.packageName = "" ∨ isName s.packageName = true) :
    (s.applyOne o).2.packageName = "" ∨ isName (s.applyOne o).2.packageName = true := by
  cases o with
  | target d | header t => exact h
  | package p | runtime p | workers n | logger given =>
    rw [applyOne, (checked_of_accepted ho).2]
    exact h
  | packageName n =>
    obtain ⟨hn, hchanged⟩ := checked_of_accepted ho
    rw [applyOne, hchanged]
    exact .inr (by simpa using hn)
  | receiver n =>
    rw [applyOne, (receiver_of_accepted ho).2]
    exact h
  | features ns =>
    rw [applyOne, (features_of_accepted ho).2]
    exact h

lemma packageName_ofList (h : ofList os = .ok s) :
    s.packageName = "" ∨ isName s.packageName = true :=
  ofList_induction (.inl rfl) (fun _ _ => packageName_applyOne) h

/-- The package clause has an identifier. It is legal unless a blank is set, or none is set and the
name that is made is a keyword. -/
theorem goPackage_legal_iff {s : Settings} (h : ofList os = .ok s) (workDir : String) :
    IsIdentifier (s.goPackage workDir) ∧
      (IsPackageName (s.goPackage workDir) ↔ s.packageName ≠ "_" ∧
        (s.packageName = "" → ∀ k ∈ keywords, s.packageMade workDir ≠ some k)) := by
  rw [goPackage_eq]
  by_cases hset : s.packageName = ""
  · rw [if_pos hset]
    cases hmade : s.packageMade workDir with
    | none =>
      have hname : isName "generated" = true := by decide +kernel
      exact ⟨(isName_iff.mp hname).1, by simp [IsPackageName, hname, hset]⟩
    | some n =>
      obtain ⟨hident, hblank⟩ := isIdentifier_of_packageMade hmade
      have hkeyword : isKeyword n = false ↔ ∀ k ∈ keywords, some n ≠ some k := by
        simp [isKeyword, List.forall_mem_ne]
      simp [IsPackageName, isName_iff, hident, hblank, hset, hkeyword]
  · rw [if_neg hset]
    have hname := (packageName_ofList h).resolve_left hset
    exact ⟨(isName_iff.mp hname).1, by simp [IsPackageName, hname, hset]⟩

theorem goPackage_goScene : ∃ s, ofList [.package "github.com/org/Go-Scene.v2"] = .ok s ∧
    IsIdentifier (s.goPackage "/work") ∧ IsPackageName (s.goPackage "/work") := by
  have hlegal := @goPackage_legal_iff [.package "github.com/org/Go-Scene.v2"] _ rfl "/work"
  exact ⟨_, rfl, hlegal.1, hlegal.2.mpr (by decide +kernel)⟩

/-- A blank may be set, and an import path may end in a keyword. -/
theorem goPackage_blank_and_keyword :
    (∃ s, ofList [.packageName "_"] = .ok s ∧ ¬ IsPackageName (s.goPackage "/work")) ∧
      ∃ s, ofList [.package "example.com/type"] = .ok s ∧
        ¬ IsPackageName (s.goPackage "/work") := by
  refine ⟨⟨_, rfl, fun h => h.2 rfl⟩, _, rfl, fun h => ?_⟩
  have hname := h.1
  revert hname
  decide +kernel

end Settings

end ReactiveModel
