import Mathlib.Data.Bool.AllAny
import ReactiveModel.Proofs.PackageClause
import ReactiveModel.Proofs.PackageNames
import ReactiveModel.Proofs.TypeMarks

/-! Declared types as code. Pointers and slices stand in front of a name that may be qualified. The
name of the runtime library is made from the last element of its path, and qualifies a type of this
library exactly when it is this element. -/

namespace ReactiveModel

open List Source

namespace Text

lemma trim_ofString (s : String) : (ofString s).trim = ofString (trimString s) := by
  have hspace : isSpacePiece ∘ Piece.char = isSpace := rfl
  rw [trim, pieces_ofString, dropWhile_map, ← map_reverse, dropWhile_map, hspace,
    ← map_reverse, ofPieces_map_char, trimString]

/-- A text that neither starts nor ends with a blank. -/
def IsTight (s : String) : Prop :=
  s.toList.head?.any isSpace = false ∧ s.toList.getLast?.any isSpace = false

lemma dropWhile_eq_self {p : Char → Bool} {cs : List Char} (h : cs.head?.any p = false) :
    cs.dropWhile p = cs := by
  cases cs with
  | nil => rfl
  | cons c cs => exact dropWhile_cons_of_neg (by simpa using h)

lemma trimString_of_isTight {s : String} (h : IsTight s) : trimString s = s := by
  rw [trimString, dropWhile_eq_self h.1, dropWhile_eq_self (by simpa using h.2), reverse_reverse,
    String.ofList_toList]

/-- Code points of blanks. -/
def blanks : List Nat :=
  [0x09, 0x0A, 0x0B, 0x0C, 0x0D, 0x20, 0x85, 0xA0, 0x1680, 0x2000, 0x2001, 0x2002, 0x2003, 0x2004,
   0x2005, 0x2006, 0x2007, 0x2008, 0x2009, 0x200A, 0x2028, 0x2029, 0x202F, 0x205F, 0x3000]

lemma isSpace_eq_false_of_isNamePart {c : Char} (h : isNamePart c) : isSpace c = false := by
  have hnames : ∀ n ∈ blanks, isNamePart (Char.ofNat n) = false := by
    unfold isNamePart isNameStart isLetter isDigit letterTable digitTable Run.table
    simp only [flatMap_cons, flatMap_nil]
    repeat rw [String.toList_ofList]
    decide +kernel
  rw [← Bool.not_eq_true]
  intro hspace
  have hmem : c.toNat ∈ blanks := by
    simp only [isSpace, Bool.or_eq_true, Bool.and_eq_true, decide_eq_true_eq, beq_iff_eq] at hspace
    simp only [blanks, mem_cons, not_mem_nil, or_false]
    omega
  have hname := hnames _ hmem
  rw [Char.ofNat_toNat, h] at hname
  nomatch hname

end Text

lemma Path.base_of_notMem {p : String} (hp : p ≠ "") (h : '/' ∉ p.toList) : Path.base p = p := by
  have hother : ∀ c ∈ p.toList.reverse, c ≠ '/' := by
    rintro c hc rfl
    exact h (mem_reverse.mp hc)
  have hdrop : p.toList.reverse.dropWhile (· == '/') = p.toList.reverse := by
    refine Text.dropWhile_eq_self ?_
    rw [← Bool.not_eq_true, Option.any_eq_true]
    rintro ⟨c, hc, hslash⟩
    exact hother c (mem_of_mem_head? hc) (beq_iff_eq.mp hslash)
  have htake : p.toList.reverse.takeWhile (· != '/') = p.toList.reverse :=
    takeWhile_eq_self_iff.mpr (by simpa using hother)
  simp [base, hp, hdrop, htake]

namespace TypeCode

open Text

/-- A type with marks in front of it. -/
def marked (ms : List Mark) (t : String) : String := ms.foldr (·.text ++ ·) t

lemma wrapped_inj {ms : List Mark} {t u : TypeCode} : wrapped ms t = wrapped ms u ↔ t = u := by
  refine ⟨fun h => ?_, congrArg _⟩
  induction ms with
  | nil => exact h
  | cons m ms ih => cases m <;> exact ih (by injection h)

lemma goTypeName_of_mem {s : String} (htight : IsTight s) (hdot : '.' ∈ s.toList) :
    goTypeName (ofString s) = ofString s := by
  have hneutral : neutralTypes.find? (fun e => (ofString e.1 : Text) == ofString s) = none := by
    have hnames : ∀ e ∈ neutralTypes, '.' ∉ e.1.toList := by decide +kernel
    refine find?_eq_none.mpr fun e he heq => hnames e he ?_
    rwa [ofString_inj.mp (beq_iff_eq.mp heq)]
  rw [goTypeName, trim_ofString, trimString_of_isTight htight]
  simp only [hneutral]

lemma splitQualifier_ofString {q n : String} (hq : q ≠ "") (hn : n ≠ "") (hdot : '.' ∉ n.toList) :
    splitQualifier (ofString (q ++ "." ++ n)) = some (ofString q, ofString n) := by
  have hempty {s : String} (hs : s ≠ "") : (ofString s).bytes ≠ [] :=
    fun h => hs (ofString_inj.mp (congrArg Text.mk h))
  refine splitQualifier_eq_some_iff.mpr ⟨hempty hq, hempty hn,
    fun hmem => hdot ((mem_bytes_ofString (by decide)).mp hmem), ?_⟩
  rw [String.append_assoc, ofString_append, ofString_append]
  rfl

lemma mem_of_head?_qualified {q : String} (hq : q ≠ "") (n : String) {c : Char}
    (h : c ∈ (q ++ "." ++ n).toList.head?) : c ∈ q.toList := by
  rw [String.toList_append, String.toList_append, append_assoc, head?_append_of_ne_nil] at h
  · exact mem_of_mem_head? h
  · simpa using hq

section

variable {runtime q n : String} (hq : q ≠ "") (hchars : ∀ c ∈ q.toList, Naming.IsPackageChar c)
  (hn : isName n = true)

include hchars hn in
lemma notMem_qualified {c : Char} (hpackage : ¬ Naming.IsPackageChar c)
    (hpart : isNamePart c = false) (hdot : c ≠ '.') : c ∉ (q ++ "." ++ n).toList := by
  have hparts := (isName_iff.mp hn).1.2
  intro hmem
  simp only [String.toList_append, mem_append] at hmem
  rcases hmem with (hmem | hmem) | hmem
  · exact hpackage (hchars c hmem)
  · exact hdot (by simpa using hmem)
  · simp [hparts c hmem] at hpart

include hq hchars hn

lemma ofCore_qualified : ofCore runtime (ofString (q ++ "." ++ n)) =
    .named (if q = Path.base runtime then runtime else q) n := by
  have hplain : (ofString (q ++ "." ++ n)).hasAny structural = false := by
    rw [← Bool.not_eq_true, hasAny_ofString (all_iff_forall_prop.mp (by decide))]
    rintro ⟨c, hc, hmem⟩
    have hstructural : ∀ c ∈ structural.toList, ¬ Naming.IsPackageChar c ∧
        isNamePart c = false ∧ c ≠ '.' := all_iff_forall_prop.mp (by decide +kernel)
    obtain ⟨hpackage, hpart, hdot⟩ := hstructural c hc
    exact notMem_qualified hchars hn hpackage hpart hdot hmem
  have hslash : (ofString q).hasAny "/" = false := by
    rw [← Bool.not_eq_true, hasAny_ofString (all_iff_forall_prop.mp (by decide))]
    rintro ⟨c, hc, hmem⟩
    obtain rfl : c = '/' := by simpa using hc
    exact absurd (hchars _ hmem) (by decide)
  have hsplit : splitQualifier (ofString (q ++ "." ++ n)) = some (ofString q, ofString n) := by
    refine splitQualifier_ofString hq ?_ fun hmem => ?_
    · rintro rfl
      nomatch hn
    · have hpart := (isName_iff.mp hn).1.2 _ hmem
      revert hpart
      decide
  rw [ofCore, hplain, hsplit]
  by_cases hbase : q = Path.base runtime
  · simp [hslash, ← hbase]
  · simp [hslash, hbase, ofString_inj]

lemma isTight_qualified : IsTight (q ++ "." ++ n) := by
  have hparts := (isName_iff.mp hn).1
  have htight {c : Char} (hc : isNamePart c = true) : ¬ isSpace c = true := by
    rw [isSpace_eq_false_of_isNamePart hc]
    nofun
  constructor <;> rw [← Bool.not_eq_true, Option.any_eq_true]
  · rintro ⟨c, hc, hspace⟩
    exact htight (hchars c (mem_of_head?_qualified hq n hc)).isNamePart hspace
  · rintro ⟨c, hc, hspace⟩
    rw [String.toList_append, getLast?_append_of_ne_nil] at hc
    · exact htight (hparts.2 c (mem_of_getLast? hc)) hspace
    · intro hnil
      obtain ⟨⟨d, hd, -⟩, -⟩ := hparts
      simp [hnil] at hd

end

lemma layered_marked (ms : List Mark) (t : String) :
    layered (ms.map fun m => ⟨"", m, ""⟩) (ofString t) = ofString (marked ms t) := by
  induction ms with
  | nil => rfl
  | cons m ms ih =>
    rw [marked, foldr_cons, ofString_append, ← marked, ← ih]
    rfl

lemma ofText_marked {runtime q n : String} (hq : q ≠ "")
    (hchars : ∀ c ∈ q.toList, Naming.IsPackageChar c) (hn : isName n)
    (ms : List Mark) : ofText runtime (ofString (marked ms (q ++ "." ++ n))) =
      wrapped ms (.named (if q = Path.base runtime then runtime else q) n) := by
  have hdot : '.' ∈ (q ++ "." ++ n).toList := by simp
  have htight := isTight_qualified hq hchars hn
  have hfront (m : Mark) : (ofString (q ++ "." ++ n)).trim.startsWith m.text = false := by
    rw [trim_ofString, trimString_of_isTight htight, ← Bool.not_eq_true, startsWith_ofString]
    rintro ⟨rest, hrest⟩
    have hhead {c : Char} (hc : c ∈ m.text.toList.head?) : Naming.IsPackageChar c := by
      refine hchars c (mem_of_head?_qualified hq n ?_)
      rw [← hrest, head?_append, Option.mem_def.mp hc]
      rfl
    cases m with
    | pointer => exact absurd (hhead rfl) (by decide)
    | slice => exact absurd (hhead rfl) (by decide)
  have hspaced : ∀ l ∈ ms.map fun m => (⟨"", m, ""⟩ : Layer), l.Spaced :=
    forall_mem_map.mpr fun m _ => forall_mem_nil _
  rw [← layered_marked, ofText_layered runtime hspaced, map_map, ofText,
    ofTextWithin_unmarked _ hfront, goTypeName_of_mem htight hdot, ofCore_qualified hq hchars hn]
  exact congrArg (wrapped · _) (map_id ms)

end TypeCode

namespace Naming

/-- A name that is made from an element is this element if it need not be changed. -/
lemma packageName_eq_self_iff {e : String} (h : packageName e ≠ "") :
    packageName e = e ↔ ∀ c ∈ e.toList, IsPackageChar c := by
  constructor
  · intro heq c hc
    rw [← heq] at hc
    exact isPackageChar_of_mem hc
  · intro hchars
    have hlower : (Text.lowerCase e).toList = e.toList := by
      rw [Text.lowerCase, String.toList_map]
      exact (map_congr_left fun c hc =>
        ((isPackageChar_iff (hchars c hc).toNat_lt).mp (hchars c hc)).2).trans (map_id' _)
    have hprefix : ['g', 'o', '-'].isPrefixOf e.toList = false := by
      rw [← Bool.not_eq_true, isPrefixOf_iff_prefix]
      exact fun hpre => absurd (hchars '-' (hpre.subset (by decide))) (by decide)
    have hkept : kept e = e.toList := by
      rw [kept, hlower, hprefix]
      refine filter_eq_self.mpr fun c hc => ?_
      simpa using ⟨(hchars c hc).toNat_lt, (hchars c hc).isLetter_or_isDigit⟩
    rw [packageName_eq] at h ⊢
    split at h
    · exact absurd rfl h
    · rename_i hdigit
      rw [if_neg hdigit, hkept, String.ofList_toList]

end Naming

namespace Class

open TypeCode

/-- The name that a file knows the runtime library by qualifies a type of this library exactly when
it is the last element of the path as it is written. Otherwise it is taken for another path. -/
theorem runtime_qualifier_resolves_iff {s : Settings} {reg : Registry} {c : Class}
    {package q n : String} (hq : (s.runtimePath, q) ∈ ((c.artifact s reg).file s package).hints)
    (hn : Source.isName n = true) (ms : List Mark) :
    (ofText s.runtimePath (.ofString (marked ms (q ++ "." ++ n))) =
        wrapped ms (.named s.runtimePath n) ↔
      ∀ c ∈ (Path.base s.runtimePath).toList, Naming.IsPackageChar c) ∧
    (¬(∀ c ∈ (Path.base s.runtimePath).toList, Naming.IsPackageChar c) →
      ofText s.runtimePath (.ofString (marked ms (q ++ "." ++ n))) = wrapped ms (.named q n)) := by
  obtain ⟨hne, rfl⟩ : q ≠ "" ∧ q = Naming.packageName (Path.base s.runtimePath) := by
    by_cases hname : Naming.packageName (Path.base s.runtimePath) = ""
    · simp [Artifact.file, SourceFile.withHeader, artifact, hname] at hq
    · obtain rfl : q = _ := by
        simpa [Artifact.file, SourceFile.withHeader, artifact, hname] using hq
      exact ⟨hname, rfl⟩
  have hchars (c : Char) (hc : c ∈ (Naming.packageName (Path.base s.runtimePath)).toList) :
      Naming.IsPackageChar c := Naming.isPackageChar_of_mem hc
  rw [ofText_marked hne hchars hn ms, wrapped_inj, ← Naming.packageName_eq_self_iff hne]
  split
  · rename_i heq
    simp [heq]
  · rename_i heq
    refine ⟨iff_of_false (fun hpath => heq ?_) heq, fun _ => rfl⟩
    have hslash : '/' ∉ (Naming.packageName (Path.base s.runtimePath)).toList :=
      fun hmem => absurd (hchars _ hmem) (by decide)
    obtain hpath := Text.ofString_inj.mp (named.inj hpath).1
    have hbase := Path.base_of_notMem hne hslash
    rw [hpath] at hbase ⊢
    exact hbase.symm

theorem engine_qualifies :
    ofText "example.com/engine"
        (.ofString (marked [.slice, .pointer] ("engine" ++ "." ++ "Image"))) =
      .slice (.pointer (.named "example.com/engine" "Image")) :=
  (@runtime_qualifier_resolves_iff { runtime := "example.com/engine" } {} {}
    "scene" "engine" "Image"
    (by decide +kernel) (by decide +kernel) [.slice, .pointer]).1.mpr
      (all_iff_forall_prop.mp (by decide))

/-- A path whose last element starts with `go-`. -/
theorem goEngine_does_not_qualify :
    ("example.com/go-engine", "engine") ∈
      (((default : Class).artifact { runtime := "example.com/go-engine" } {}).file
        { runtime := "example.com/go-engine" } "scene").hints ∧
    ofText "example.com/go-engine" (.ofString "*engine.Image") =
      .pointer (.named "engine" "Image") :=
  by decide +kernel

end Class

end ReactiveModel
