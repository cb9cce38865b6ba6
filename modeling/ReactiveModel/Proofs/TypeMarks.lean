import Mathlib.Data.List.DropRight
import Mathlib.Data.List.Flatten
import ReactiveModel.Proofs.Utf8
import ReactiveModel.TypeCode

/-! Marks in front of types. White space around them does not matter, and each of them is taken off
without a look at what follows: so a type with marks is coded mark by mark, and each step leaves
less text. -/

namespace ReactiveModel

open List

namespace Text

section

variable {lead : Nat} {xs ys : List UInt8}

lemma continuation_of_longer {n v : Nat} (h : xs <+: ys) (hx : continuation n xs = some v) :
    continuation n ys = some v := by
  obtain ⟨zs, rfl⟩ := h
  by_cases hn : n ≤ xs.length
  · rwa [continuation, take_append_of_le_length hn]
  · have hshort : min n xs.length ≠ n := by omega
    simp [continuation, hshort] at hx

lemma utf8Char?_of_longer {r : Char × Nat} (h : xs <+: ys) (hx : utf8Char? lead xs = some r) :
    utf8Char? lead ys = some r := by
  obtain ⟨⟨n, low, high⟩, hlead, hx⟩ := Option.bind_eq_some_iff.mp hx
  obtain ⟨v, hv, hx⟩ := Option.bind_eq_some_iff.mp hx
  rw [utf8Char?, hlead]
  simp only [Option.bind_eq_bind, Option.bind_some, continuation_of_longer h hv]
  exact hx

end

lemma pieces_ofPieces {fuel : Nat} {bs : List UInt8} {ps : List Piece} (hbs : bs.length ≤ fuel)
    (h : ps <+: piecesOf fuel bs) : (ofPieces ps).pieces = ps := by
  induction fuel generalizing bs ps with
  | zero =>
    rw [prefix_nil.mp h]
    rfl
  | succ fuel ih =>
    cases bs with
    | nil =>
      rw [prefix_nil.mp h]
      rfl
    | cons b bs =>
      rw [length_cons, Nat.add_le_add_iff_right] at hbs
      rw [piecesOf] at h
      split at h
      · rename_i c n hchar
        obtain rfl | ⟨qs, rfl, hqs⟩ := prefix_cons_iff.mp h
        · rfl
        · have hlength : (bs.drop n).length ≤ fuel := by
            rw [length_drop]
            omega
          have happend : ofPieces (.char c :: qs) =
                ofString (String.ofList [c]) ++ ofPieces qs := by
            simp [ofPieces, ofString, Piece.bytes]
            rfl
          rw [happend, pieces_append, ih hlength hqs, String.toList_ofList]
          rfl
      · rename_i hstray
        obtain rfl | ⟨qs, rfl, hqs⟩ := prefix_cons_iff.mp h
        · rfl
        · have hbytes : (ofPieces qs).bytes <+: bs := by
            obtain ⟨rs, hrs⟩ := hqs
            refine ⟨rs.flatMap Piece.bytes, ?_⟩
            rw [← flatMap_piecesOf hbs, ← hrs, flatMap_append]
            rfl
          have hnone : utf8Char? b.toNat (ofPieces qs).bytes = none := by
            by_contra hsome
            obtain ⟨r, hr⟩ := Option.ne_none_iff_exists'.mp hsome
            rw [utf8Char?_of_longer hbytes hr] at hstray
            cases hstray
          change piecesOf ((ofPieces qs).bytes.length + 1) (b :: (ofPieces qs).bytes) = _
          rw [piecesOf, hnone]
          exact congrArg _ (ih hbs hqs)

def trimEnd (t : Text) : Text := ofPieces (t.pieces.rdropWhile isSpacePiece)

variable (t : Text)

lemma pieces_trimEnd : t.trimEnd.pieces = t.pieces.rdropWhile isSpacePiece :=
  pieces_ofPieces (Nat.le_refl _) <| rdropWhile_prefix _ _

lemma trim_eq : t.trim = ofPieces ((t.pieces.dropWhile isSpacePiece).rdropWhile isSpacePiece) := rfl

lemma trim_trimEnd : t.trimEnd.trim = t.trim := by
  rw [trim_eq, trim_eq, pieces_trimEnd]
  congr 1
  induction t.pieces using reverseRecOn with
  | nil => rfl
  | append_singleton ps x ih =>
    by_cases hx : isSpacePiece x
    · rw [rdropWhile_concat_pos _ _ _ hx, ih, dropWhile_append]
      split
      · rename_i hempty
        rw [isEmpty_iff.mp hempty, dropWhile_cons_of_pos hx]
        rfl
      · rw [rdropWhile_concat_pos _ _ _ hx]
    · rw [rdropWhile_concat_neg _ _ _ hx]

lemma trim_spaced {gap : String} (h : ∀ c ∈ gap.toList, isSpace c = true) (t : Text) :
    (ofString gap ++ t).trim = t.trim := by
  rw [trim_eq, trim_eq, pieces_append, dropWhile_append_of_pos]
  rintro _ hp
  obtain ⟨c, hc, rfl⟩ := mem_map.mp hp
  exact h c hc

lemma length_trim_le : t.trim.bytes.length ≤ t.bytes.length := by
  have hsublist : (t.pieces.dropWhile isSpacePiece).rdropWhile isSpacePiece <+ t.pieces :=
    (IsPrefix.sublist <| rdropWhile_prefix _ _).trans (dropWhile_suffix _).sublist
  have hbytes := (hsublist.flatMap Piece.bytes).length_le
  rwa [pieces, flatMap_piecesOf (Nat.le_refl _)] at hbytes

end Text

namespace TypeCode

open Text

inductive Mark | pointer | slice

namespace Mark

def text : Mark → String
  | .pointer => "*"
  | .slice => "[]"

def wrap : Mark → TypeCode → TypeCode
  | .pointer => TypeCode.pointer
  | .slice => TypeCode.slice

end Mark

lemma trim_marked (m : Mark) (t : Text) :
    (ofString m.text ++ t).trim = ofString m.text ++ t.trimEnd := by
  have hlast {p : Piece} (hp : isSpacePiece p = false) (as bs : List Piece) :
      (as ++ p :: bs).rdropWhile isSpacePiece = as ++ p :: bs.rdropWhile isSpacePiece := by
    induction bs using reverseRecOn with
    | nil => exact rdropWhile_concat_neg _ _ _ (by simp [hp])
    | append_singleton bs x ih =>
      rw [← cons_append, ← append_assoc]
      by_cases hx : isSpacePiece x
      · rw [rdropWhile_concat_pos _ _ _ hx, rdropWhile_concat_pos _ _ _ hx, ih]
      · rw [rdropWhile_concat_neg _ _ _ hx, rdropWhile_concat_neg _ _ _ hx]
        simp
  have hpieces (s : String) (ps : List Piece) :
      ofPieces (s.toList.map .char ++ ps) = ofString s ++ ofPieces ps := by
    have happend (as bs : List Piece) : ofPieces (as ++ bs) = ofPieces as ++ ofPieces bs :=
      congrArg mk flatMap_append
    rw [happend, ofPieces_map_char, String.ofList_toList]
  rw [trim_eq, pieces_append, trimEnd, ← hpieces]
  cases m with
  | pointer => exact congrArg ofPieces (hlast rfl [] _)
  | slice => exact congrArg ofPieces (hlast rfl [.char '['] _)

/-- What a text names: names that belong to no language stand for types, any other text for itself
without the white space around it. -/
def Names (t u : Text) : Prop :=
  (∃ e ∈ neutralTypes, t.trim = ofString e.1 ∧ u = ofString e.2) ∨
    (∀ e ∈ neutralTypes, t.trim ≠ ofString e.1) ∧ u = t.trim

section

variable {runtime : String} {t u rest : Text} {m : Mark}

lemma names_goTypeName (t : Text) : Names t (goTypeName t) := by
  cases hfind : neutralTypes.find? fun e => (ofString e.1 : Text) == t.trim with
  | none =>
    refine .inr ⟨fun e he heq => by simpa [heq] using find?_eq_none.mp hfind e he, ?_⟩
    rw [goTypeName]
    simp only [hfind]
  | some e =>
    have hname := find?_some hfind
    refine .inl ⟨e, mem_of_find?_eq_some hfind, (beq_iff_eq.mp hname).symm, ?_⟩
    rw [goTypeName]
    simp only [hfind]

lemma goTypeName_eq_or (t : Text) :
    goTypeName t = t.trim ∨ ∀ m : Mark, (goTypeName t).startsWith m.text = false ∧
      t.trim.startsWith m.text = false := by
  rcases names_goTypeName t with ⟨e, he, ht, hname⟩ | ⟨-, hname⟩
  · rw [ht, hname]
    refine .inr fun m => ?_
    have hneutral : ∀ e ∈ neutralTypes, (ofString e.2).startsWith m.text = false ∧
        (ofString e.1).startsWith m.text = false := by
      cases m <;> decide +kernel
    exact hneutral e he
  · exact .inl hname

lemma goTypeName_marked (h : t.trim = ofString m.text ++ rest) :
    goTypeName t = ofString m.text ++ rest := by
  refine (goTypeName_eq_or t).elim (·.trans h) fun hno => ?_
  have hstarts : (ofString m.text ++ rest).startsWith m.text = true :=
    isPrefixOf_iff_prefix.mpr (prefix_append _ _)
  exact absurd (hstarts.symm.trans (h ▸ (hno m).2)) Bool.noConfusion

lemma ofTextWithin_marked (n : Nat) (h : t.trim = ofString m.text ++ rest) :
    ofTextWithin runtime (n + 1) t = m.wrap (ofTextWithin runtime n rest) := by
  rw [ofTextWithin, goTypeName_marked h]
  cases m <;> rfl

lemma ofTextWithin_unmarked (n : Nat) (h : ∀ m : Mark, t.trim.startsWith m.text = false) :
    ofTextWithin runtime (n + 1) t = ofCore runtime (goTypeName t) := by
  have hname (m : Mark) : (goTypeName t).startsWith m.text = false :=
    (goTypeName_eq_or t).elim (fun hname => hname ▸ h m) fun hno => (hno m).1
  have hpointer : (goTypeName t).startsWith "*" = false := hname .pointer
  have hslice : (goTypeName t).startsWith "[]" = false := hname .slice
  simp [ofTextWithin, hpointer, hslice]

lemma length_rest_lt (h : t.trim = ofString m.text ++ rest) :
    rest.bytes.length < t.trim.bytes.length := by
  rw [h]
  change _ < ((ofString m.text).bytes ++ rest.bytes).length
  rw [length_append]
  exact Nat.lt_add_of_pos_left (by cases m <;> decide)

/-- Neither white space around a type nor more steps than it has bytes change its code. -/
lemma ofTextWithin_congr {n k : Nat} (h : t.trim = u.trim) (hn : t.trim.bytes.length < n)
    (hk : t.trim.bytes.length < k) : ofTextWithin runtime n t = ofTextWithin runtime k u := by
  induction n generalizing k t u with
  | zero => cases hn
  | succ n ih =>
    obtain _ | k := k
    · cases hk
    by_cases hmark : ∃ m : Mark, t.trim.startsWith m.text = true
    · obtain ⟨m, hmark⟩ := hmark
      obtain ⟨rest, hrest⟩ := isPrefixOf_iff_prefix.mp hmark
      have htrim : t.trim = ofString m.text ++ ⟨rest⟩ := congrArg Text.mk hrest.symm
      have hlength := Nat.lt_of_le_of_lt (length_trim_le ⟨rest⟩) (length_rest_lt htrim)
      rw [ofTextWithin_marked n htrim, ofTextWithin_marked k (h ▸ htrim)]
      exact congrArg m.wrap (ih rfl (by omega) (by omega))
    · simp only [not_exists, Bool.not_eq_true] at hmark
      rw [ofTextWithin_unmarked n hmark, ofTextWithin_unmarked k (h ▸ hmark),
        goTypeName, goTypeName,
        h]

lemma ofText_congr (h : t.trim = u.trim) : ofText runtime t = ofText runtime u := by
  refine ofTextWithin_congr h (Nat.lt_succ_of_le (length_trim_le t)) ?_
  rw [h]
  exact Nat.lt_succ_of_le (length_trim_le u)

lemma ofText_mark (h : t.trim = ofString m.text ++ rest) :
    ofText runtime t = m.wrap (ofText runtime rest) := by
  have hrest := length_trim_le rest
  have hlength := Nat.lt_of_lt_of_le (length_rest_lt h) (length_trim_le t)
  rw [ofText, ofTextWithin_marked _ h]
  exact congrArg m.wrap (ofTextWithin_congr rfl (by omega) (by omega))

end

/-- A mark with white space around it. -/
structure Layer where
  before : String
  mark : Mark
  after : String

def Layer.Spaced (l : Layer) : Prop := ∀ c ∈ l.before.toList ++ l.after.toList, isSpace c = true

def layered (ls : List Layer) (t : Text) : Text :=
  ls.foldr (fun l u => ofString l.before ++ (ofString l.mark.text ++ (ofString l.after ++ u))) t

def wrapped (ms : List Mark) (t : TypeCode) : TypeCode := ms.foldr Mark.wrap t

lemma ofText_layered (runtime : String) {ls : List Layer} (hls : ∀ l ∈ ls, l.Spaced) (t : Text) :
    ofText runtime (layered ls t) = wrapped (ls.map Layer.mark) (ofText runtime t) := by
  induction ls with
  | nil => rfl
  | cons l ls ih =>
    obtain ⟨hl, hls⟩ := forall_mem_cons.mp hls
    obtain ⟨hbefore, hafter⟩ := forall_mem_append.mp hl
    have htrim : (layered (l :: ls) t).trim =
        ofString l.mark.text ++ (ofString l.after ++ layered ls t).trimEnd :=
      (trim_spaced hbefore _).trans (trim_marked _ _)
    have hrest : (ofString l.after ++ layered ls t).trimEnd.trim = (layered ls t).trim :=
      (trim_trimEnd _).trans (trim_spaced hafter _)
    rw [ofText_mark htrim, ofText_congr hrest, ih hls]
    rfl

/-! Types without marks. -/

/-- The code of a type without marks. The bare name of the runtime library stands for its path. -/
inductive Coded (runtime : String) : Text → TypeCode → Prop
  | asWritten {t : Text} (h : t.hasAny structural = true) : Coded runtime t (.verbatim t)
  | bare {t : Text} (h : t.hasAny structural = false)
      (hdot : ∀ q n : Text, q.bytes ≠ [] → n.bytes ≠ [] → '.'.toUInt8 ∉ n.bytes →
        t ≠ ⟨q.bytes ++ '.'.toUInt8 :: n.bytes⟩) : Coded runtime t (.verbatim t)
  | qualified {q n : Text} (h : Text.hasAny ⟨q.bytes ++ '.'.toUInt8 :: n.bytes⟩ structural = false)
      (hq : q.bytes ≠ []) (hn : n.bytes ≠ []) (hdot : '.'.toUInt8 ∉ n.bytes) :
      Coded runtime ⟨q.bytes ++ '.'.toUInt8 :: n.bytes⟩
        (.named (if q.hasAny "/" = false ∧ q = Path.base runtime then runtime else q) n)

lemma splitQualifier_eq_some_iff {t q n : Text} : splitQualifier t = some (q, n) ↔
    q.bytes ≠ [] ∧ n.bytes ≠ [] ∧ '.'.toUInt8 ∉ n.bytes ∧
      t = ⟨q.bytes ++ '.'.toUInt8 :: n.bytes⟩ := by
  constructor
  · intro h
    obtain ⟨r, hr⟩ : ∃ r, t.bytes.reverse = r := ⟨_, rfl⟩
    have hall : ∀ b ∈ r.takeWhile (· != '.'.toUInt8), b ≠ '.'.toUInt8 := by
      intro b hb
      simpa using mem_takeWhile_imp hb
    have happend := @takeWhile_append_dropWhile _ (· != '.'.toUInt8) r
    have hhead := head?_dropWhile_not (· != '.'.toUInt8) r
    simp only [splitQualifier, hr] at h
    generalize r.takeWhile (· != '.'.toUInt8) = name at h hall happend
    generalize r.dropWhile (· != '.'.toUInt8) = others at hhead happend
    rw [← happend, drop_length_add_append] at h
    split at h
    · nomatch h
    · rename_i hne
      simp only [Bool.or_eq_true, List.isEmpty_iff, not_or] at hne
      cases h
      cases others with
      | nil => exact absurd rfl hne.2
      | cons b bs =>
        obtain rfl : b = '.'.toUInt8 := by simpa using hhead
        refine ⟨hne.2, by simpa using hne.1, fun hmem => hall _ (mem_reverse.mp hmem) rfl, ?_⟩
        have hbytes : t.bytes = bs.reverse ++ '.'.toUInt8 :: name.reverse := by
          rw [← reverse_reverse t.bytes, hr, ← happend]
          simp
        exact congrArg Text.mk hbytes
  · rintro ⟨hq, hn, hdot, rfl⟩
    have hbytes : (q.bytes ++ '.'.toUInt8 :: n.bytes).reverse =
        n.bytes.reverse ++ '.'.toUInt8 :: q.bytes.reverse := by simp
    have hname : (n.bytes.reverse ++ '.'.toUInt8 :: q.bytes.reverse).takeWhile
        (· != '.'.toUInt8) = n.bytes.reverse := by
      rw [takeWhile_append_of_pos, takeWhile_cons_of_neg (by simp), append_nil]
      intro b hb
      rw [bne_iff_ne]
      rintro rfl
      exact hdot (mem_reverse.mp hb)
    simp only [splitQualifier, hbytes, hname]
    rw [drop_length_add_append]
    simp [hq, hn]

lemma coded_ofCore (runtime : String) (t : Text) : Coded runtime t (ofCore runtime t) := by
  unfold ofCore
  split
  · rename_i h
    exact .asWritten h
  · rename_i h
    cases hsplit : splitQualifier t with
    | none =>
      refine .bare (eq_false_of_ne_true h) fun q n hq hn hdot ht => ?_
      rw [splitQualifier_eq_some_iff.mpr ⟨hq, hn, hdot, ht⟩] at hsplit
      nomatch hsplit
    | some x =>
      obtain ⟨q, n⟩ := x
      obtain ⟨hq, hn, hdot, rfl⟩ := splitQualifier_eq_some_iff.mp hsplit
      have hcoded := @Coded.qualified runtime q n (eq_false_of_ne_true h) hq hn hdot
      by_cases hruntime : q.hasAny "/" = false ∧ q = ofString (Path.base runtime)
      · rw [if_pos hruntime] at hcoded
        dsimp only
        rwa [if_pos (by simpa using hruntime)]
      · rw [if_neg hruntime] at hcoded
        dsimp only
        rwa [if_neg (by simpa using hruntime)]

/-- A type takes fewer steps than it has bytes. Behind marks with white space around them it has the
code of its own, wrapped mark by mark: a listed type is translated first, and then kept as it is or
qualified by what stands before its last dot. -/
theorem marks_taken_one_by_one (runtime : String) :
    (∀ (t : Text) (n : Nat), t.bytes.length < n →
      ofTextWithin runtime n t = ofText runtime t) ∧
    ∀ (ls : List Layer) (t : Text), (∀ l ∈ ls, l.Spaced) →
      (∀ m : Mark, t.trim.startsWith m.text = false) →
      ∃ u c, Names t u ∧ Coded runtime u c ∧
        ofText runtime (layered ls t) = wrapped (ls.map Layer.mark) c := by
  refine ⟨fun t n hn => ?_, fun ls t hls ht => ?_⟩
  · have hlength := length_trim_le t
    exact ofTextWithin_congr rfl (by omega) (by omega)
  · refine ⟨goTypeName t, _, names_goTypeName t, coded_ofCore runtime _, ?_⟩
    rw [ofText_layered runtime hls, ofText, ofTextWithin_unmarked _ ht]

def pointers : List Layer := [⟨" ", .slice, "\t"⟩, ⟨"", .pointer, " \n"⟩]

theorem marks_before_unsigned_long :
    (∀ l ∈ pointers, l.Spaced) ∧
      (∀ m : Mark, (ofString "unsigned long ").trim.startsWith m.text = false) ∧
      ∃ u c, Names "unsigned long " u ∧ Coded "rengine" u c ∧
        ofText "rengine" " []\t* \nunsigned long " = .slice (.pointer c) := by
  have hall : (pointers.all fun l => (l.before.toList ++ l.after.toList).all isSpace) = true := by
    decide
  have hspaced : ∀ l ∈ pointers, l.Spaced := fun l hl => all_eq_true.mp (all_eq_true.mp hall l hl)
  have hunmarked : ∀ m : Mark, (ofString "unsigned long ").trim.startsWith m.text = false := by
    intro m
    cases m <;> decide
  exact ⟨hspaced, hunmarked,
    (marks_taken_one_by_one "rengine").2 pointers "unsigned long " hspaced hunmarked⟩

end TypeCode

end ReactiveModel
