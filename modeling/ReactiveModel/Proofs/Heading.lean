import ReactiveModel.Proofs.Opening
import ReactiveModel.Source.Format

/-! The heading of a file: two line comments and a blank line in front of the package clause. A file
in canonical layout starts with the first of them, whatever follows. -/

namespace ReactiveModel.Source

open List Tables StateT

variable {w w₁ w₂ : String} {c : Char}

/-! From pieces to text. -/

lemma Tables.done_suffix_push (t : Tables) (p : Piece) : t.done <:+ (t.push p).done := by
  have hline (formfeed : Bool) : t.done <:+ (t.endLine formfeed).done := by
    unfold endLine
    dsimp only
    split
    · exact suffix_append _ _
    · exact suffix_rfl
  cases p with
  | newline => exact hline false
  | formfeed => exact hline true
  | word w | blank | tab | cell => exact suffix_rfl

lemma Tables.done_suffix_foldl (t : Tables) (ps : List Piece) :
    t.done <:+ (ps.foldl push t).done := by
  induction ps generalizing t with
  | nil => exact suffix_rfl
  | cons p ps ih => exact (t.done_suffix_push p).trans (ih _)

lemma prefix_align {pieces : Array Piece}
    (h : [.word w, .formfeed] <+: pieces.toList) : w.toList <+: (align pieces).toList := by
  obtain ⟨ps, hps⟩ := h
  have hfirst : ([.word w, .formfeed].foldl push {}).done = [w] := by
    simp [push, endLine, endCell, endTable, layTable, layColumns,
      runsBy, reaches, writeLine, writeCells, dropSpace, Stretch.ofPiece]
  have hdone : [w] <:+ (pieces.foldl push {}).done := by
    rw [← Array.foldl_toList, ← hps, ← hfirst]
    exact done_suffix_foldl _ ps
  have hend (t : Tables) : t.done <:+ t.endTable.done := suffix_append _ _
  have hlines : [w] <:+ ((if (pieces.foldl push {}).cell.isEmpty &&
      (pieces.foldl push {}).line.isEmpty then pieces.foldl push {}
      else (pieces.foldl push {}).endLine false).endTable).done := by
    refine IsSuffix.trans ?_ (hend _)
    split
    · exact hdone
    · exact hdone.trans (done_suffix_push _ .newline)
  obtain ⟨ls, hls⟩ := reverse_prefix.mpr hlines
  have htext : w.toList <+: ("\n".intercalate (w :: ls)).toList := by
    cases ls with
    | nil => simp
    | cons l ls => simp [String.toList_intercalate, List.intercalate]
  unfold align
  dsimp only
  rw [← hls]
  split
  · rw [String.toList_append]
    exact htext.trans (prefix_append _ _)
  · exact htext

/-! Build constraints go behind the heading. -/

lemma piecesOf_letters (word cs : List Char) (r : List (Option Char)) :
    piecesOf true word (cs.map some ++ none :: r) =
      .word (String.ofList (word.reverse ++ cs)) :: piecesOf false [] r := by
  induction cs generalizing word with
  | nil => simp [piecesOf, piecesOf.close]
  | cons c cs ih =>
    rw [map_cons, cons_append, piecesOf]
    simpa using ih (c :: word)

lemma piecesOf_word (w : String) (r : List (Option Char)) :
    piecesOf false [] ((Piece.word w).fenced ++ r) = .word w :: piecesOf false [] r := by
  have hfenced : (Piece.word w).fenced ++ r = none :: (w.toList.map some ++ none :: r) := by
    simp [Piece.fenced]
  rw [hfenced, piecesOf]
  simpa [piecesOf.close] using piecesOf_letters [] w.toList r

/-- A line comment that is written as it stands. -/
structure IsLineComment (w : String) : Prop where
  marked : ['/', '/', ' '] <+: w.toList
  unbroken : ∀ c ∈ w.toList, Lay.isBreakChar c = false
  unreturned : '\r' ∉ w.toList
  trimmed : Text.trimStringEnd w = w
  unconstrained : Lay.isPlusBuild w = false

lemma unbroken_of_all (h : (w.toList.all fun c => !Lay.isBreakChar c) = true) :
    ∀ c ∈ w.toList, Lay.isBreakChar c = false := by
  intro c hc
  simpa using all_eq_true.mp h c hc

lemma IsLineComment.takeWhile (h : IsLineComment w) (hc : Lay.isBreakChar c)
    (r : List (Option Char)) :
    ((Piece.word w).fenced ++ some c :: r).takeWhile (!endsLine ·) = (Piece.word w).fenced := by
  have hinside : ∀ x ∈ (Piece.word w).fenced, (!endsLine x) = true := by
    intro x hx
    cases x with
    | none => rfl
    | some c =>
      have hmem : c ∈ w.toList := by simpa [Piece.fenced] using hx
      simp [endsLine, h.unbroken c hmem]
  rw [takeWhile_append_of_pos hinside, takeWhile_cons_of_neg (by simp [endsLine, hc]),
    append_nil]

lemma constraintPlace_comment (h : IsLineComment w) (hc : Lay.isBreakChar c)
    (fuel passed place : Nat) (r : List (Option Char)) :
    constraintPlace (fuel + 1) ((Piece.word w).fenced ++ some c :: r) passed place =
      constraintPlace fuel r (passed + (Piece.word w).fenced.length + 1) place := by
  have hlead : ((Piece.word w).fenced ++ some c :: r).takeWhile
      (fun c => c == some ' ' || c == some '\t') = [] := by
    simp [Piece.fenced]
  have hmarked : [none, some '/', some '/'].isPrefixOf ((Piece.word w).fenced ++ some c :: r) := by
    obtain ⟨cs, hcs⟩ := h.marked
    simp [Piece.fenced, ← hcs]
  have hne : (Piece.word w).fenced.length ≠ 0 := by simp [Piece.fenced]
  rw [constraintPlace]
  simp only [hlead, length_nil, drop_zero, hmarked, if_true, h.takeWhile hc,
    drop_left]
  simp [endsLine, hc, hne]

lemma constraintPlace_blank (fuel passed place : Nat) (r : List (Option Char)) :
    constraintPlace (fuel + 1) (some '\n' :: r) passed place =
      constraintPlace fuel r (passed + 1) (passed + 1) := by
  rw [constraintPlace]
  simp [endsLine, Lay.isBreakChar]

lemma le_constraintPlace {fuel : Nat} {cs : List (Option Char)} {passed place : Nat}
    (h : place ≤ passed) : place ≤ constraintPlace fuel cs passed place := by
  fun_induction constraintPlace fuel cs passed place with
  | case1 => exact Nat.le_refl _
  | case2 fuel cs passed place lead rest comment c more hbreak hends next ih =>
    have hpassed : place ≤ next := by omega
    by_cases hblank : (comment == 0) = true
    · rw [if_pos hblank] at ih ⊢
      exact Nat.le_trans hpassed (ih (Nat.le_refl _))
    · rw [if_neg hblank] at ih ⊢
      exact ih hpassed
  | case3 => exact Nat.le_refl _
  | case4 => exact Nat.le_refl _

/-- Two line comments and a blank line. -/
def headingPieces (w₁ w₂ : String) : List Piece :=
  [.word w₁, .formfeed, .word w₂, .newline, .newline]

lemma length_le_constraintPlace (h₁ : IsLineComment w₁) (h₂ : IsLineComment w₂)
    (r : List (Option Char)) :
    ((headingPieces w₁ w₂).flatMap Piece.fenced).length ≤
      constraintPlace (((headingPieces w₁ w₂).flatMap Piece.fenced ++ r).length + 1)
        ((headingPieces w₁ w₂).flatMap Piece.fenced ++ r) 0 0 := by
  have hcs : (headingPieces w₁ w₂).flatMap Piece.fenced ++ r =
      (Piece.word w₁).fenced ++ some '\x0c' :: ((Piece.word w₂).fenced ++ some '\n' ::
        some '\n' :: r) := by
    simp [headingPieces, Piece.fenced]
  have hlength : ((headingPieces w₁ w₂).flatMap Piece.fenced).length =
      (Piece.word w₁).fenced.length + (Piece.word w₂).fenced.length + 3 := by
    simp [headingPieces, Piece.fenced]
    omega
  obtain ⟨fuel, hfuel⟩ : ∃ fuel, ((headingPieces w₁ w₂).flatMap Piece.fenced ++ r).length + 1 =
      fuel + 3 := ⟨_, (Nat.sub_add_cancel (by rw [length_append]; omega)).symm⟩
  rw [hfuel, hcs, constraintPlace_comment h₁ (by decide), constraintPlace_comment h₂ (by decide),
    constraintPlace_blank]
  refine Nat.le_trans ?_ (le_constraintPlace (Nat.le_refl _))
  omega

/-- What stands in front of the place for constraints and of all constraints stays at the front. -/
lemma prefix_gatherConstraints {front r : List (Option Char)} {goBuild plusBuild : List Nat}
    (hplace : front.length ≤ constraintPlace ((front ++ r).length + 1) (front ++ r) 0 0)
    (hgo : ∀ i ∈ goBuild, front.length ≤ i) (hplus : ∀ i ∈ plusBuild, front.length ≤ i) :
    front <+: gatherConstraints (front ++ r) goBuild plusBuild := by
  unfold gatherConstraints
  generalize constraintPlace ((front ++ r).length + 1) (front ++ r) 0 0 = place at hplace ⊢
  have hearlier {starts : List Nat} (hstarts : ∀ i ∈ starts, front.length ≤ i) {i : Nat}
      (hi : starts.head?.filter (· < place) = some i) : front.length ≤ i :=
    hstarts i (mem_of_mem_head? (Option.filter_eq_some_iff.mp hi).1)
  have hbehind : front.length ≤
      (goBuild.head?.filter (· < place) <|> plusBuild.head?.filter (· < place)).getD place := by
    cases hfirst : goBuild.head?.filter (· < place) with
    | some i => exact hearlier hgo hfirst
    | none =>
      cases hsecond : plusBuild.head?.filter (· < place) with
      | some i => exact hearlier hplus hsecond
      | none => exact hplace
  rw [append_assoc, take_append, take_of_length_le hbehind, append_assoc]
  exact prefix_append _ _

lemma prefix_placeConstraints (h₁ : IsLineComment w₁) (h₂ : IsLineComment w₂) {l : Layout}
    (h : l.Opens (headingPieces w₁ w₂)) :
    [.word w₁, .formfeed] <+: (placeConstraints l).toList := by
  obtain ⟨rest, hrest⟩ := h.pieces
  unfold placeConstraints
  split
  · rw [← hrest]
    exact ⟨[.word w₂, .newline, .newline] ++ rest, rfl⟩
  · have hstart {marks : Array Nat}
        (hmarks : ∀ i ∈ marks, (headingPieces w₁ w₂).length ≤ i) :
        ∀ j ∈ marks.toList.map fun i => ((l.pieces.toList.take i).flatMap Piece.fenced).length,
          ((headingPieces w₁ w₂).flatMap Piece.fenced).length ≤ j := by
      intro j hj
      obtain ⟨i, hi, rfl⟩ := mem_map.mp hj
      rw [← hrest, take_append, take_of_length_le (hmarks i (Array.mem_toList_iff.mp hi)),
        flatMap_append,
        length_append]
      exact Nat.le_add_right _ _
    have hcs : l.pieces.toList.flatMap Piece.fenced =
        (headingPieces w₁ w₂).flatMap Piece.fenced ++ rest.flatMap Piece.fenced := by
      rw [← hrest, flatMap_append]
    obtain ⟨tail, htail⟩ := prefix_gatherConstraints
      (length_le_constraintPlace h₁ h₂ (rest.flatMap Piece.fenced))
      (hstart h.goBuild) (hstart h.plusBuild)
    dsimp only
    rw [hcs, ← htail]
    have hfront : (headingPieces w₁ w₂).flatMap Piece.fenced ++ tail =
        (Piece.word w₁).fenced ++ some '\x0c' :: ((Piece.word w₂).fenced ++ some '\n' ::
          some '\n' :: tail) := by
      simp [headingPieces, Piece.fenced]
    rw [hfront, piecesOf_word]
    exact ⟨_, rfl⟩

/-! The layout of a heading. -/

lemma IsLineComment.isLineComment {c : Comment} (h : IsLineComment c.text) :
    Lay.isLineComment c = true := by
  obtain ⟨cs, hcs⟩ := h.marked
  rw [Lay.isLineComment, String.startsWith_string_iff, ← hcs]
  exact ⟨' ' :: cs, rfl⟩

lemma IsLineComment.startsWith_eq_false (h : IsLineComment w) {mark : String} {cs : List Char}
    (hc : c ≠ ' ') (hmark : mark.toList = '/' :: '/' :: c :: cs) : w.startsWith mark = false := by
  obtain ⟨ds, hds⟩ := h.marked
  rw [String.startsWith_string_eq_false_iff, hmark, ← hds]
  simp [hc]

namespace Lay

variable {s : Layout} {c₁ c₂ : Comment} {next : Pos} {line : Nat}

/-- The comments that are left to write. -/
structure Pending where
  next : Nat
  group : List Comment
  offset : Nat
  breaks : Bool

def withPending (s : Layout) (p : Pending) : Layout :=
  { s with
    nextComment := p.next, comment := p.group,
    commentOffset := p.offset, commentBreaks := p.breaks }

/-- The groups of comments behind the current one stand behind a place. -/
def OthersBehind (next : Pos) (s : Layout) : Prop :=
  ∀ (i : Nat) (g : List Comment) (c : Comment), s.nextComment ≤ i → s.comments[i]? = some g →
    g.head? = some c → next.offset ≤ c.pos.offset

/-- Whether no comment is left in front of a place. -/
structure Quiet (next : Pos) (s : Layout) : Prop where
  current : s.commentOffset < next.offset → s.comment = []
  others : OthersBehind next s

lemma quiet_fetchComment (h : OthersBehind next s) :
    ∃ p, fetchComment.run s = pure ((), withPending s p) ∧ Quiet next (withPending s p) := by
  have hothers (i : Nat) (g : List Comment) (c : Comment) (hi : s.nextComment + 1 ≤ i) :=
    h i g c (Nat.le_of_succ_le hi)
  unfold fetchComment
  rw [run_modify]
  split
  · rename_i c cs hnext
    refine ⟨⟨s.nextComment + 1, c :: cs, c.pos.offset, breaksLine (c :: cs)⟩, rfl, ?_, hothers⟩
    exact fun hoffset => absurd hoffset (Nat.not_lt.mpr (h _ _ c (Nat.le_refl _) hnext rfl))
  · exact ⟨⟨s.nextComment + 1, [], infinity, s.commentBreaks⟩, rfl, fun _ => rfl, hothers⟩

lemma Quiet.writeComments (h : Quiet next s) (token : Option Kind) (fuel : Nat)
    (before : Option Comment) :
    ∃ p, (writeComments next token fuel before).run s = pure ((before, none), withPending s p) := by
  induction fuel generalizing s with
  | zero => exact ⟨⟨s.nextComment, s.comment, s.commentOffset, s.commentBreaks⟩, rfl⟩
  | succ fuel ih =>
    rw [Lay.writeComments]
    by_cases hbefore : s.commentOffset < next.offset ∧
        (s.endsStatement = false ∨ s.commentBreaks = false)
    · obtain ⟨p, hfetch, hp⟩ := quiet_fetchComment h.others
      obtain ⟨q, hq⟩ := ih hp
      refine ⟨q, ?_⟩
      simp [commentBefore, hbefore, h.current hbefore.1, isDocOf, writeGroup, hfetch, hq]
      rfl
    · simp only [commentBefore, bind_assoc, run_bind, run_get, pure_bind]
      simp [hbefore]
      exact ⟨⟨s.nextComment, s.comment, s.commentOffset, s.commentBreaks⟩, rfl⟩

/-- A layout after a word at a place of the source, and after a line break. -/
def withWord (p : Pos) (w : String) (s : Layout) : Layout :=
  { s with
    pieces := s.pieces.push (.word w)
    pos := ⟨p.offset + w.utf8ByteSize, p.line, p.column + w.utf8ByteSize⟩
    column := s.column + w.utf8ByteSize
    last := ⟨p.offset + w.utf8ByteSize, p.line, p.column + w.utf8ByteSize⟩ }

def withBreak (p : Piece) (s : Layout) : Layout :=
  { s with
    pieces := s.pieces.push p
    pos := ⟨s.pos.offset + 1, s.pos.line + 1, 1⟩
    line := s.line + 1
    column := 1 }

/-- A layout without indentation and pending white space. -/
structure Bare (s : Layout) : Prop where
  base : s.base = 0
  indent : s.indent = 0
  endAlignment : s.endAlignment = false
  held : s.held = #[]

lemma Bare.withoutHeld (h : Bare s) : { s with held := #[] } = s := by
  rw [← h.held]

lemma Bare.pushIndent (h : Bare s) : (if s.column = 1 then pushIndent s else s) = s := by
  have hn : (s.base + s.indent).toNat = 0 := by simp [h.base, h.indent]
  split
  · unfold Lay.pushIndent
    rw [hn]
    rfl
  · rfl

lemma run_writeWord (h : Bare s) {p : Pos} (hp : p.isSome)
    (hw : ∀ c ∈ w.toList, isBreakChar c = false) :
    (writeWord p w).run s = pure ((), withWord p w s) := by
  have hbreaks : w.toList.filter isBreakChar = [] := by
    simpa using hw
  simp [writeWord, h.pushIndent, hp, hbreaks, withWord]

lemma run_writeSpace (h : Bare s) {p : Piece} (hp : p.isBreak) :
    (writeSpace p 1).run s = pure ((), withBreak p s) := by
  simp [writeSpace, h.endAlignment, h.pushIndent, hp, withBreak]

/-- A comment of a heading, on a line. -/
structure IsHeadingLine (line : Nat) (c : Comment) : Prop where
  text : IsLineComment c.text
  pos : c.pos.line = line + 1

lemma run_writeComment (h : Bare s) {c : Comment} (hc : IsHeadingLine line c) :
    (writeComment c).run s = pure ((), withWord c.pos c.text s) := by
  have hgo : isGoBuild c.text = false := by
    rw [isGoBuild, hc.text.startsWith_eq_false (by decide) rfl, Bool.false_and]
  have hdirective : c.text.startsWith "//line " = false :=
    hc.text.startsWith_eq_false (by decide) rfl
  have hpos : c.pos.isSome = true := by simp [Pos.isSome, hc.pos]
  simp [writeComment, hc.text.isLineComment, hgo, hc.text.unconstrained, hdirective,
    hc.text.trimmed, run_writeWord h hpos hc.text.unbroken]

lemma run_writeCommentFront (h : Bare s) {a b : Comment} {token : Option Kind}
    (hpieces : s.pieces ≠ #[]) (ha : IsHeadingLine line a) (hb : IsHeadingLine (line + 1) b)
    (hlast : s.last.line = a.pos.line) :
    (writeCommentFront b.pos next (some a) token).run s = pure ((), withBreak .formfeed s) := by
  have hsome : s.last.isSome = true := by simp [Pos.isSome, hlast, ha.pos]
  simp [writeCommentFront, hpieces, ha.text.isLineComment, h.held, ownLineSpaces, release,
    writeHeld, h.withoutHeld, hsome, hlast, ha.pos, hb.pos, limit,
    run_writeSpace h (p := .formfeed) rfl]

/-- A layout after two comments. -/
def withComments (c₁ c₂ : Comment) (s : Layout) : Layout :=
  withWord c₂.pos c₂.text (withBreak .formfeed (withWord c₁.pos c₁.text s))

/-- An empty layout in front of a place, with a heading to write and no other comment. -/
structure AtHeading (c₁ c₂ : Comment) (next : Pos) (s : Layout) : Prop extends Bare s where
  pieces : s.pieces = #[]
  first : IsHeadingLine 0 c₁
  second : IsHeadingLine 1 c₂
  group : s.comment = [c₁, c₂]
  offset : s.commentOffset < next.offset
  endsStatement : s.endsStatement = false
  gap : c₂.beyond ≠ next
  others : OthersBehind next s

lemma run_writeGroup (h : Bare s) (hempty : s.pieces = #[])
    (h₁ : IsHeadingLine 0 c₁) (h₂ : IsHeadingLine 1 c₂) (next : Pos) (token : Option Kind) :
    (writeGroup next token [c₁, c₂] none).run s = pure (some c₂, withComments c₁ c₂ s) := by
  have hfront : (writeCommentFront c₁.pos next none token).run s = pure ((), s) := by
    simp [writeCommentFront, hempty]
  have hbare₁ : Bare (withWord c₁.pos c₁.text s) := ⟨h.base, h.indent, h.endAlignment, h.held⟩
  have hbare₂ : Bare (withBreak .formfeed (withWord c₁.pos c₁.text s)) :=
    ⟨h.base, h.indent, h.endAlignment, h.held⟩
  rw [writeGroup, run_bind, hfront, pure_bind, run_bind, run_writeComment h h₁,
    pure_bind, writeGroup, run_bind, run_writeCommentFront hbare₁ (by simp [withWord]) h₁ h₂ rfl,
    pure_bind, run_bind, run_writeComment hbare₂ h₂]
  rfl

lemma run_writeCommentBack (h : Bare s) :
    (writeCommentBack true).run s = pure ((true, false), withBreak .newline s) := by
  simp [writeCommentBack, h.held, afterCommentSpaces, release, writeHeld, h.withoutHeld,
    run_writeSpace h (p := .newline) rfl]

lemma run_flush (h : AtHeading c₁ c₂ next s) (kind : Kind) :
    ∃ p, (flush next (some kind)).run s =
      pure ((true, false), withBreak .newline (withPending (withComments c₁ c₂ s) p)) := by
  have hdoc : isDocOf [c₁, c₂] next = false := by
    simp [isDocOf, h.gap]
  have hgroup := run_writeGroup h.toBare h.pieces h.first h.second next (some kind)
  obtain ⟨p, hfetch, hp⟩ := quiet_fetchComment (s := withComments c₁ c₂ s) h.others
  obtain ⟨q, hq⟩ := hp.writeComments (some kind) s.comments.size (some c₂)
  have hcomments : (writeComments next (some kind) (s.comments.size + 1) none).run s =
      pure ((some c₂, none), withPending (withComments c₁ c₂ s) q) := by
    simp [writeComments, commentBefore, h.offset, h.endsStatement, h.group,
      hdoc, hgroup, hfetch, hq]
    rfl
  have hbare : Bare (withPending (withComments c₁ c₂ s) q) :=
    ⟨h.base, h.indent, h.endAlignment, h.held⟩
  refine ⟨q, ?_⟩
  simp [flush, commentBefore, h.offset, h.endsStatement, hcomments, h.second.text.isLineComment,
    run_writeCommentBack hbare]

lemma opens_bind {ps : List Piece} {α β : Type} {m : Lay α} {k : α → Lay β}
    [hk : ∀ a, Keeps ps (k a)] (h : (m.run s).2.Opens ps) : ((m >>= k).run s).2.Opens ps :=
  (hk _).opens _ h

lemma opens_emit (h : AtHeading c₁ c₂ s.pos s) (hline : s.pos.line = 4) (hgo : s.goBuild = #[])
    (hplus : s.plusBuild = #[]) (text : String) (kind : Kind) (ends : Bool) :
    ((emit text kind ends).run s).2.Opens (headingPieces c₁.text c₂.text) := by
  obtain ⟨p, hflush⟩ := run_flush (s := { s with lastToken := some kind }) { h with } kind
  generalize ht : withPending _ p = t at hflush
  have hbare : Bare (withBreak .newline t) := by
    rw [← ht]
    exact ⟨h.base, h.indent, h.endAlignment, h.held⟩
  have hlines : (withBreak .newline t).pos.line = 3 := by
    rw [← ht]
    exact congrArg Nat.succ h.second.pos
  have hstatement : (withBreak .newline t).endsStatement = false := by
    rw [← ht]
    exact h.endsStatement
  have hopens : (withBreak .newline (withBreak .newline t)).Opens
      (headingPieces c₁.text c₂.text) := by
    subst ht
    refine ⟨?_, ?_, ?_⟩
    · simp [withBreak, withPending, withComments, withWord, h.pieces, headingPieces]
    · simp [withBreak, withPending, withComments, withWord, hgo]
    · simp [withBreak, withPending, withComments, withWord, hplus]
  have hbreak : limit (s.pos.line - (withBreak .newline t).pos.line) = 1 := by
    rw [hline, hlines]
    rfl
  unfold emit
  simp only [run_bind, run_modify, pure_bind, run_get, hflush, hstatement,
    Bool.not_false, if_true, hbreak, Bool.true_and]
  rw [if_pos (by decide)]
  refine opens_bind ?_
  change ((writeSpace .newline 1).run (withBreak .newline t)).2.Opens _
  rw [run_writeSpace hbare rfl]
  exact hopens

end Lay

/-- A file with a heading, which no other comment stands in front of. -/
structure File.Heads (f : File) (c₁ c₂ : Comment) (rest : List (List Comment)) : Prop where
  comments : f.comments = [c₁, c₂] :: rest
  first : Lay.IsHeadingLine 0 c₁
  second : Lay.IsHeadingLine 1 c₂
  line : f.pos.line = 4
  front : c₁.pos.offset < f.pos.offset
  gap : c₂.beyond ≠ f.pos
  behind : ∀ g ∈ rest, ∀ c, g.head? = some c → f.pos.offset ≤ c.pos.offset

section

variable {f : File} {c₁ c₂ : Comment} {rest : List (List Comment)}

open Lay

variable (h : f.Heads c₁ c₂ rest)

include h

lemma File.Heads.opens_word (verbatim : Bool) :
    ((do
      fetchComment
      setPos f.pos
      word "package" : Lay Unit).run
        { base := 0, verbatim, comments := f.comments.toArray }).2.Opens
      (headingPieces c₁.text c₂.text) := by
  have hsome : f.pos.isSome = true := by simp [Pos.isSome, h.line]
  simp [fetchComment, h.comments, setPos, hsome, word, tokenOf, noteOpen, mayCombine]
  refine opens_emit ⟨⟨rfl, rfl, rfl, rfl⟩, rfl, h.first, h.second, rfl, h.front, rfl, h.gap, ?_⟩
    h.line rfl rfl _ _ _
  intro i g c hi hg hc
  refine h.behind g ?_ c hc
  obtain ⟨j, rfl⟩ := Nat.exists_eq_add_of_le' hi
  exact mem_of_getElem? (by simpa using hg)

set_option synthInstance.maxSize 1000 in
/-- A file with a heading is laid out with the heading in front. -/
lemma File.Heads.opens_layOut (depth : Nat) (verbatim : Bool) :
    (f.layOut depth 0 verbatim).Opens (headingPieces c₁.text c₂.text) := by
  have hbehind := opens_bind (m := do
      fetchComment
      setPos f.pos
      word "package") (k := fun _ => do
      blank
      Lay.name f.name
      (Printer.upTo depth).declList f.decls
      space .newline
      modify fun s => { s with endsStatement := false }
      let _ ← flush ⟨infinity, infinity, 0⟩ (some .eof)) (h.opens_word verbatim)
  unfold File.layOut Printer.file
  simpa only [bind_assoc] using hbehind

lemma File.Heads.prefix_write (depth : Nat) : c₁.text.toList <+: (f.write depth 0).toList :=
  prefix_align (prefix_placeConstraints h.first.text h.second.text (h.opens_layOut depth false))

end

end ReactiveModel.Source
