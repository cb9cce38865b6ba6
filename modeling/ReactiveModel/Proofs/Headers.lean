import ReactiveModel.Artifact.EntryPoint
import ReactiveModel.Proofs.ImportPlaces
import ReactiveModel.Proofs.Utf8

/-! Headers of generated files. The layout of a text with a heading starts with the first line of
it, and a header that makes one line comment heads the files that carry it. -/

namespace ReactiveModel.Source

open List Option ImportSection Lines

variable {w₁ w₂ : String} {size : Nat} {t : Tokens} {f : File}

section

variable {l : Lines} (h : l.Headed w₁ w₂ size)

include h

lemma Lines.Headed.line_first : (l.place 0).line = 1 := by
  obtain ⟨more, hstarts, -⟩ := h.starts
  simp [place, lineAt, hstarts]

lemma Lines.Headed.line_second : (l.place (w₁.utf8ByteSize + 1)).line = 2 := by
  obtain ⟨more, hstarts, -⟩ := h.starts
  have hclause := h.clause
  unfold clauseAt at hclause
  have hinside : ¬l.size < w₁.utf8ByteSize + 1 := by
    rw [h.size_eq]
    omega
  have hnext : ¬w₁.utf8ByteSize + 1 + w₂.utf8ByteSize + 1 ≤ w₁.utf8ByteSize + 1 := by omega
  simp [place, hinside, lineAt, hstarts, hnext]

lemma Lines.Headed.place_clause : l.place (clauseAt w₁ w₂) = ⟨clauseAt w₁ w₂, 4, 1⟩ := by
  obtain ⟨more, hstarts, hmore⟩ := h.starts
  have hinside : ¬l.size < clauseAt w₁ w₂ := by
    rw [h.size_eq]
    exact Nat.not_lt.mpr h.clause.le
  have hline : l.lineAt (clauseAt w₁ w₂) = 4 := by
    have hbehind : more.takeWhile (· ≤ clauseAt w₁ w₂) = [] := by
      cases more with
      | nil => rfl
      | cons x more =>
        have hx := hmore x mem_cons_self
        exact takeWhile_cons_of_neg (by simpa using hx)
    have hfront : ∀ x ∈ [0, w₁.utf8ByteSize + 1, w₁.utf8ByteSize + 1 + w₂.utf8ByteSize + 1,
        clauseAt w₁ w₂], decide (x ≤ clauseAt w₁ w₂) = true := by
      unfold clauseAt
      simp
      omega
    rw [lineAt, hstarts, takeWhile_append_of_pos hfront, hbehind]
    rfl
  simp [place, hinside, hline, startOf, hstarts]

end

lemma headed_ofFile (ht : t.Headed w₁ w₂ size) (hf : t.file? = some f) :
    (ofFile t.lines f).Headed w₁ w₂ size ∧
      ∀ b ∈ (ofFile t.lines f).blocks, ∀ e ∈ b.entries,
        ImportSection.Behind w₁ w₂ size e := by
  obtain ⟨s, hrun⟩ := Tokens.exists_run hf
  obtain ⟨rest, hcomments, hrest⟩ := ht.comments
  have hclause := ht.lines.clause
  unfold clauseAt at hclause
  refine ⟨⟨ht.lines, rest.map .ofComments, ?_, ?_⟩, ?_⟩
  · have hfirst : (t.lines.place 0).offset = 0 := offset_place (Nat.zero_le _)
    have hsecond : (t.lines.place (w₁.utf8ByteSize + 1)).offset = w₁.utf8ByteSize + 1 :=
      offset_place (by rw [ht.lines.size_eq]; omega)
    simp [ofFile, Grammar.comments_file hrun, hcomments, CommentGroup.ofComments,
      comment, hfirst, hsecond, headingGroup]
  · intro g hg c hc
    obtain ⟨cs, hcs, rfl⟩ := mem_map.mp hg
    obtain ⟨d, hd, rfl⟩ := mem_map.mp hc
    exact ⟨(hrest cs hcs d hd).1.le, (hrest cs hcs d hd).2⟩
  · intro b hb
    obtain ⟨d, hd, hblock⟩ := mem_filterMap.mp hb
    exact Grammar.imports_file hrun ht.others d hd b hblock

lemma heads_toFile (h₁ : IsLineComment w₁) (h₂ : IsLineComment w₂) {s : ImportSection}
    (hs : s.Headed w₁ w₂ size) (hf : f.pos = ⟨clauseAt w₁ w₂, 4, 1⟩) :
    ∃ rest, (s.toFile f).Heads (s.lines.comment 0 w₁) (s.lines.comment (w₁.utf8ByteSize + 1) w₂)
      rest := by
  obtain ⟨rest, hcomments, hrest⟩ := hs.comments
  have hclause := hs.lines.clause
  unfold clauseAt at hclause
  have hpos : (s.toFile f).pos = ⟨clauseAt w₁ w₂, 4, 1⟩ := hf
  refine ⟨rest.map (commentsOf s.lines), ?_, ⟨h₁, hs.lines.line_first⟩,
    ⟨h₂, hs.lines.line_second⟩, ?_, ?_, ?_, ?_⟩
  · simp [toFile, hcomments, commentsOf, headingGroup]
  · rw [hpos]
  · rw [hpos]
    exact Nat.lt_of_le_of_lt (Nat.le_of_eq (offset_place (Nat.zero_le _))) (Nat.succ_pos _)
  · rw [hpos]
    intro heq
    have hoffset := congrArg Pos.offset heq
    have hbeyond : (s.lines.comment (w₁.utf8ByteSize + 1) w₂).beyond.offset =
        w₁.utf8ByteSize + 1 + w₂.utf8ByteSize + 1 :=
      offset_place (by rw [hs.lines.size_eq]; omega)
    unfold clauseAt at hoffset
    dsimp only at hoffset
    omega
  · intro g hg c hc
    obtain ⟨group, hgroup, rfl⟩ := mem_map.mp hg
    obtain ⟨⟨p, text⟩, hmem, rfl⟩ := mem_map.mp (mem_of_mem_head? hc)
    have hp := hrest group hgroup _ hmem
    have hplace : (s.lines.comment p text).pos.offset = p :=
      offset_place (hs.lines.size_eq ▸ hp.2)
    rw [hpos]
    rw [hplace]
    exact hp.1

lemma Tokens.Headed.pos_file (ht : t.Headed w₁ w₂ size)
    (hf : t.file? = some f) : f.pos = ⟨clauseAt w₁ w₂, 4, 1⟩ := by
  obtain ⟨s, hrun⟩ := Tokens.exists_run hf
  obtain ⟨i, hi, -, hpos⟩ := ht.clause
  rw [Grammar.pos_file hrun, hi]
  exact hpos

lemma Tokens.Headed.pos_onLines (ht : t.Headed w₁ w₂ size) {l : Lines} (hl : l.Headed w₁ w₂ size)
    (hf : (t.onLines l).file? = some f) : f.pos = ⟨clauseAt w₁ w₂, 4, 1⟩ := by
  obtain ⟨s, hrun⟩ := Tokens.exists_run hf
  obtain ⟨i, hi, -, hpos⟩ := ht.clause
  rw [Grammar.pos_file hrun]
  simp only [Tokens.onLines, Array.getElem?_map, hi, map_some, getD_some, hpos]
  exact hl.place_clause

lemma heads_fileWith? (h₁ : IsLineComment w₁) (h₂ : IsLineComment w₂)
    (ht : t.Headed w₁ w₂ size) (hf : t.fileWith? sort = some f) :
    ∃ l rest, f.Heads (comment l 0 w₁) (l.comment (w₁.utf8ByteSize + 1) w₂) rest := by
  obtain ⟨file, hfile, hf⟩ := bind_eq_some_iff.mp hf
  obtain ⟨hsection, hblocks⟩ := headed_ofFile ht hfile
  have hsorted := headed_sort hsection hblocks
  dsimp only at hf
  split at hf
  · cases hf
    exact ⟨_, heads_toFile h₁ h₂ hsorted (ht.pos_file hfile)⟩
  · obtain ⟨joined, hjoined, hf⟩ := bind_eq_some_iff.mp hf
    cases hf
    exact ⟨_, heads_toFile h₁ h₂ hsorted (ht.pos_onLines hsorted.lines hjoined)⟩

variable {s : String}

lemma opensPackage_heading (ht : t.Headed w₁ w₂ size)
    (h : Tokens.ofString? s = some t) : opensPackage s = true := by
  obtain ⟨i, hi, hkind, -⟩ := ht.clause
  rw [opensPackage, h, any_some, hi, any_some, hkind]
  rfl

/-- A text with a heading that cannot be scanned cannot be scanned behind a package clause. -/
lemma scan_fragment_eq_none (h₁ : IsLineComment w₁) (hs : HasHeading w₁ w₂ s) (h : scan s = none) :
    scan ("package p;" ++ s) = none := by
  obtain ⟨out, hfragment⟩ := exists_scan_fragment s
  obtain ⟨r, hr⟩ := hs
  obtain ⟨cs, hcs⟩ := h₁.marked
  have hfirst : s.toList = '/' :: ('/' :: ' ' :: (cs ++ '\n' :: (w₂.toList ++ '\n' :: '\n' ::
      ("package ".toList ++ r)))) := by
    rw [hr, ← hcs]
    rfl
  rw [scan_of_toList hfirst (by decide), ← hfirst] at h
  rw [hfragment]
  split
  · rfl
  · rename_i hallowed
    rw [if_neg hallowed] at h
    -- behind the first line both are at the start of a line
    rw [hr, scanFrom_lineComment h₁, scanFrom_break] at h ⊢
    rw [← isNone_iff_eq_none, ← isSome_eq_false_iff] at h ⊢
    have hstart (a b c d : Nat) : (Pos.mk a b 1).Alike ⟨c, d, 1⟩ :=
      ⟨Nat.one_pos, Nat.one_pos, Iff.rfl⟩
    refine (isSome_scanFrom false ?_ ?_ (hstart _ _ _ _)).trans h
    · simp only [length_append, length_cons]
      omega
    · simp only [length_append, length_cons]
      omega

/-- The layout of a text with a heading starts with the first line of the heading. -/
lemma prefix_format (h₁ : IsLineComment w₁) (h₂ : IsLineComment w₂) (hs : HasHeading w₁ w₂ s)
    {out : String} (h : format s = some out) : w₁.toList <+: out.toList := by
  cases hscan : scan s with
  | none =>
    rw [format_eq_none hscan (scan_fragment_eq_none h₁ hs hscan)] at h
    cases h
  | some ts =>
    obtain ⟨t, ht⟩ : ∃ t, Tokens.ofString? s = some t := by
      rw [Tokens.ofString?, hscan]
      exact ⟨_, rfl⟩
    have hheaded := headed_tokens h₁ h₂ hs ht
    rw [format, if_pos (opensPackage_heading hheaded ht), formatFile, ht, bind_eq_bind,
      bind_some] at h
    obtain ⟨f, hf, hout⟩ := bind_eq_some_iff.mp h
    obtain ⟨l, rest, hheads⟩ := heads_fileWith? h₁ h₂ hheaded hf
    cases hout
    exact hheads.prefix_write _

end ReactiveModel.Source

namespace ReactiveModel

open List Option

/-! Headers. -/

/-- A header that makes a line comment: it has no marks of a comment itself, and the comment is kept
as it stands. -/
structure Settings.HasLineHeader (s : Settings) : Prop where
  unmarked : ¬['/', '/'] <+: s.headerText.toList
  unopened : ¬['/', '*'] <+: s.headerText.toList
  kept : Source.IsLineComment ("// " ++ s.headerText)

/-- A header that is a line comment itself, with one pair of slashes. -/
structure Settings.HasMarkedHeader (s : Settings) : Prop where
  marked : ∃ c r, s.headerText.toList = '/' :: '/' :: ' ' :: c :: r ∧ c ≠ '/'
  kept : Source.IsLineComment s.headerText

lemma commentText_unmarked {h : String} (hline : ¬['/', '/'] <+: h.toList)
    (hopen : ¬['/', '*'] <+: h.toList) (hbreak : '\n' ∉ h.toList) :
    Code.commentText (.ofString h) = .ofString ("// " ++ h) := by
  have hmarks : ((Text.ofString h).startsWith "//" ||
        (Text.ofString h).startsWith "/*") = false := by
    rw [Bool.or_eq_false_iff, ← Bool.not_eq_true, ← Bool.not_eq_true]
    exact ⟨mt Text.startsWith_ofString.mp hline, mt Text.startsWith_ofString.mp hopen⟩
  have hbytes : (Text.ofString h).hasAny "\n" = false := by
    rw [← Bool.not_eq_true, Text.hasAny_ofString (by simp)]
    simpa using hbreak
  rw [Code.commentText, hmarks, hbytes, Text.ofString_append]
  rfl

lemma commentText_marked {h : String} (hline : ['/', '/'] <+: h.toList) :
    Code.commentText (.ofString h) = .ofString h := by
  have hmarks : (Text.ofString h).startsWith "//" = true := Text.startsWith_ofString.mpr hline
  rw [Code.commentText, hmarks]
  rfl

namespace SourceFile

/-- The second comment of generated files. -/
def caution : String := "// Any changes you make to it will be lost when it is regenerated."

lemma isLineComment_caution : Source.IsLineComment caution where
  marked := by decide +kernel
  unbroken := Source.unbroken_of_all (by decide +kernel)
  unreturned := by decide +kernel
  trimmed := by decide +kernel
  unconstrained := by decide +kernel

lemma hasHeading_text {s : Settings} {w : String}
    (h : Code.commentText s.headerText = .ofString w) (f : SourceFile) {out : String}
    (hout : (f.withHeader s).text.toString? = some out) : Source.HasHeading w caution out := by
  have hcaution : Code.commentText
      (.ofString "Any changes you make to it will be lost when it is regenerated.") =
        .ofString caution := by
    decide +kernel
  obtain ⟨rest, htext⟩ : ∃ rest, (f.withHeader s).text =
      .ofString (w ++ "\n" ++ caution ++ "\n" ++ "\n" ++ "package ") ++ rest := by
    unfold text withHeader
    simp only [map_cons, map_nil, h, hcaution]
    refine ⟨.ofString f.package ++ "\n\n" ++ importsText (importsOf f.hints f.body) ++
      f.body.text (nameIn (importsOf f.hints f.body)), ?_⟩
    have hassoc (a b c : Text) : a ++ b ++ c = a ++ (b ++ c) :=
      congrArg Text.mk (append_assoc _ _ _)
    have hjoin (a b : Text) : Text.join [a, b] = a ++ b := by
      simp only [Text.join, flatMap_cons, flatMap_nil, append_nil]
      rfl
    simp only [isEmpty_cons, Bool.false_eq_true, if_false, hjoin, Text.ofString_append, hassoc]
  rw [htext] at hout
  obtain ⟨r, hr⟩ := Text.prefix_of_toString? hout
  refine ⟨r, ?_⟩
  rw [← hr]
  simp

end SourceFile

end ReactiveModel
