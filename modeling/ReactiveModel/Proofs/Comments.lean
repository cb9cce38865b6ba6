import Mathlib.Data.String.Basic
import ReactiveModel.Source.Format

/-! Tokens of source texts, by their characters. A text that never ends a general comment has none.
-/

namespace ReactiveModel.Source

open List

variable {s : String} {c : Char} {cs : List Char}

lemma scan_of_toList (hs : s.toList = c :: cs) (hc : c ≠ '\uFEFF') :
    scan s = if (c :: cs).any isForbidden then none
      else scanFrom (cs.length + 3) (c :: cs) .first false 0 {} := by
  unfold scan
  rw [hs]
  split
  rename_i heq
  split at heq
  · rename_i hmark
    exact absurd (cons.inj hmark).1 hc
  · cases heq
    rfl

lemma scanFrom_clause (fuel : Nat) (cs : List Char) : ∃ out,
    scanFrom (fuel + 4) ("package p;".toList ++ cs) .first false 0 {} =
      scanFrom fuel cs ⟨10, 1, 11⟩ false 0 out :=
  ⟨_, rfl⟩

lemma exists_scan_fragment (s : String) : ∃ out, scan ("package p;" ++ s) =
    if s.toList.any isForbidden then none
    else scanFrom (s.toList.length + 8) s.toList ⟨10, 1, 11⟩ false 0 out := by
  have htext : ("package p;" ++ s).toList = 'p' :: ("ackage p;".toList ++ s.toList) := by
    rw [String.toList_append]
    rfl
  obtain ⟨out, hout⟩ := scanFrom_clause (s.toList.length + 8) s.toList
  refine ⟨out, ?_⟩
  rw [scan_of_toList htext (by decide), ← hout]
  refine if_congr ?_ rfl ?_
  · have hclause : ('p' :: "ackage p;".toList).any isForbidden = false := by decide
    rw [← cons_append, any_append, hclause, Bool.false_or]
  · rfl

/-- Tokens of a file have a layout. -/
def haveLayout (t : Tokens) : Bool :=
  (t.items[0]?).any (·.token.kind == .keyword "package") && (t.fileWith? ImportSection.sort).isSome

lemma exists_format {tokens : Option Tokens} (htokens : Tokens.ofString? s = tokens)
    (h : tokens.any haveLayout) : ∃ out, format s = some out := by
  cases tokens with
  | none => cases h
  | some t =>
    obtain ⟨hopens, hlayout⟩ := Bool.and_eq_true_iff.mp h
    obtain ⟨file, hfile⟩ := Option.isSome_iff_exists.mp hlayout
    have hpackage : opensPackage s = true := by
      rw [opensPackage, htokens]
      exact hopens
    rw [format, hpackage, formatFile, htokens]
    simp [hfile]

/-- The tokens of a text by its characters. -/
def tokensOf (cs : List Char) : Option Tokens :=
  if cs.any isForbidden then none
  else (scanFrom (cs.length + 2) cs .first false 0 {}).map fun t =>
    let inside (n : Nat) : Bool := n < String.utf8Len cs
    let lines : Lines :=
      { starts := 0 :: (Lines.breaksFrom 0 cs).filter inside
        numbered := t.numbered.filter (inside ·.1)
        size := String.utf8Len cs }
    let (items, groups) := arrange lines t.tokens.toList 0 [] #[] #[]
    ⟨items, groups.toList, lines⟩

lemma ofString?_of_toList (hs : s.toList = c :: cs) (hc : c ≠ '\uFEFF') :
    Tokens.ofString? s = tokensOf (c :: cs) := by
  have hsize : s.utf8ByteSize = String.utf8Len (c :: cs) := by
    rw [← hs, ← String.utf8ByteSize_ofList, String.ofList_toList]
  unfold Tokens.ofString? tokensOf Lines.ofString
  rw [scan_of_toList hs hc, hs, hsize]
  split
  · rfl
  · rfl

lemma format_eq_none (h : scan s = none) (hfragment : scan ("package p;" ++ s) = none) :
    format s = none := by
  have htokens : Tokens.ofString? s = none := by
    rw [Tokens.ofString?, h, Option.map_none]
  have hfragment : Tokens.ofString? ("package p;" ++ s) = none := by
    rw [Tokens.ofString?, hfragment, Option.map_none]
  have hopens : opensPackage s = false := by
    rw [opensPackage, htokens]
    rfl
  have hstrays : straysFromFile ("package p;" ++ s) = false := by
    rw [straysFromFile, hfragment]
    rfl
  have hwrapped (indent : Int) : formatWrapped indent ("package p;" ++ s) = none := by
    rw [formatWrapped, hfragment]
    rfl
  rw [format, hopens, formatFragment]
  simp only [hwrapped, hstrays, Bool.false_eq_true, if_false]

/-! Comments that do not end. -/

lemma scanFrom_unclosed (h : spanComment [] cs = none) (fuel : Nat) (pos : Pos) (pending : Bool)
    (shift : Int) (out : Scanned) :
    scanFrom fuel ('/' :: '*' :: cs) pos pending shift out = none := by
  cases fuel with
  | zero => rfl
  | succ fuel =>
    have hlexeme : scanLexeme ('/' :: '*' :: cs) = none := by
      have hstart : isNameStart '/' = false := by decide
      have hdigit : isDecimalDigit '/' = false := by decide
      simp [scanLexeme, hstart, hdigit, h]
    have hlayout : isLayout '/' = false := by decide
    rw [scanFrom]
    simp [hlexeme, hlayout]

section

variable {s : String} {cs : List Char}
  (hs : s.toList = '/' :: '*' :: cs) (h : spanComment [] cs = none)

include hs h

lemma scan_unclosed : scan s = none := by
  rw [scan_of_toList hs (by decide)]
  split
  · rfl
  · exact scanFrom_unclosed h _ _ _ _ _

/-- A comment that does not end is found behind a package clause, too. -/
lemma scan_unclosed_fragment : scan ("package p;" ++ s) = none := by
  obtain ⟨out, hfragment⟩ := exists_scan_fragment s
  rw [hfragment, hs]
  split
  · rfl
  · exact scanFrom_unclosed h _ _ _ _ _

lemma format_unclosed : format s = none :=
  format_eq_none (scan_unclosed hs h) (scan_unclosed_fragment hs h)

end

end ReactiveModel.Source
