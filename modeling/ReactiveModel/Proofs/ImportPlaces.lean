import ReactiveModel.Proofs.Reading

/-! The import section of a file with a heading. Imports and comments move behind the package clause
only, and lines are joined only there. -/

namespace ReactiveModel.Source

open List

variable {w₁ w₂ : String} {size : Nat}

namespace Lines.Headed

variable {l : Lines} {n : Nat}

lemma le_lineAt (h : l.Headed w₁ w₂ size) {p : Nat} (hp : clauseAt w₁ w₂ ≤ p) : 4 ≤ l.lineAt p := by
  obtain ⟨more, hstarts, -⟩ := h.starts
  have hfront : ∀ x ∈ [0, w₁.utf8ByteSize + 1, w₁.utf8ByteSize + 1 + w₂.utf8ByteSize + 1,
      clauseAt w₁ w₂], decide (x ≤ p) = true := by
    unfold clauseAt at hp ⊢
    simp
    omega
  rw [lineAt, hstarts, takeWhile_append_of_pos hfront]
  simp

lemma lineAt_le_count (l : Lines) (p : Nat) : l.lineAt p ≤ l.count :=
  (takeWhile_sublist _).length_le

lemma le_startOf (h : l.Headed w₁ w₂ size) (hn : 4 ≤ n) (hcount : n ≤ l.count) :
    clauseAt w₁ w₂ ≤ l.startOf n := by
  obtain ⟨more, hstarts, hmore⟩ := h.starts
  have hlength : n ≤ 4 + more.length := by
    rwa [count, hstarts, length_append] at hcount
  obtain ⟨k, rfl⟩ := Nat.exists_eq_add_of_le hn
  rw [startOf, hstarts]
  cases k with
  | zero => simp
  | succ k =>
    have hk : k < more.length := by omega
    have hindex : 4 + (k + 1) - 1 = [0, w₁.utf8ByteSize + 1,
        w₁.utf8ByteSize + 1 + w₂.utf8ByteSize + 1, clauseAt w₁ w₂].length + k := by
      simp
    rw [hindex, getElem?_append_right (Nat.le_add_right _ _), Nat.add_sub_cancel_left,
      getElem?_eq_getElem hk]
    exact (hmore _ (getElem_mem hk)).le

lemma join (h : l.Headed w₁ w₂ size) (hn : 4 ≤ n) : (l.join n).Headed w₁ w₂ size := by
  obtain ⟨more, hstarts, hmore⟩ := h.starts
  unfold Lines.join
  split
  · refine ⟨⟨more.eraseIdx (n - 4), ?_, fun x hx => hmore x (mem_of_mem_eraseIdx hx)⟩, h.size_eq,
      h.clause⟩
    simp only [hstarts]
    rw [eraseIdx_append_of_length_le hn]
    rfl
  · exact h

end Lines.Headed

namespace ImportSection

variable {s : ImportSection} {lines : Lines} {start a : Nat} {es : List ImportEntry}

/-- The comments of a heading. -/
def headingGroup (w₁ w₂ : String) : CommentGroup :=
  ⟨0, [(0, w₁), (w₁.utf8ByteSize + 1, w₂)]⟩

/-- An import section behind a heading. -/
structure Headed (w₁ w₂ : String) (size : Nat) (s : ImportSection) : Prop where
  lines : s.lines.Headed w₁ w₂ size
  comments : ∃ rest, s.comments = headingGroup w₁ w₂ :: rest ∧
    ∀ g ∈ rest, ∀ c ∈ g.comments, clauseAt w₁ w₂ ≤ c.1 ∧ c.1 ≤ size

/-- An import behind the package clause. -/
abbrev Behind (w₁ w₂ : String) (size : Nat) (e : ImportEntry) : Prop :=
  e.Within (clauseAt w₁ w₂ + 1) size

lemma headed_dedupe (h : lines.Headed w₁ w₂ size) {es : List (Nat × ImportEntry)}
    (hes : ∀ x ∈ es, Behind w₁ w₂ size x.2) :
    (dedupe (fun l p => l.lineAt p) lines es).1.Headed w₁ w₂ size ∧
      ∀ x ∈ (dedupe (fun l p => l.lineAt p) lines es).2, x ∈ es := by
  induction es generalizing lines with
  | nil => exact ⟨h, fun _ => id⟩
  | cons a es ih =>
    cases es with
    | nil => exact ⟨h, fun _ => id⟩
    | cons b es =>
      obtain ⟨ha, hes⟩ := forall_mem_cons.mp hes
      rw [dedupe]
      split
      · have hline : 4 ≤ ((lines.lineAt a.2.start : Nat) : Int).toNat := by
          exact h.le_lineAt (Nat.le_of_succ_le ha.start_le)
        obtain ⟨hlines, hkept⟩ := ih (h.join hline) hes
        exact ⟨hlines, fun x hx => mem_cons_of_mem _ (hkept x hx)⟩
      · obtain ⟨hlines, hkept⟩ := ih h hes
        refine ⟨hlines, fun x hx => ?_⟩
        rcases mem_cons.mp hx with rfl | hx
        · exact mem_cons_self
        · exact mem_cons_of_mem _ (hkept x hx)

/-- A group in front of a place stays in front when comments are split there. -/
lemma splitComments_cons (stop : Nat) {g : CommentGroup} (hg : g.start < start)
    (gs : List CommentGroup) :
    ∃ front, (splitComments start stop (g :: gs)).1 = g :: front ∧ (∀ x ∈ front, x ∈ gs) ∧
      (∀ x ∈ (splitComments start stop (g :: gs)).2.1, x ∈ gs) ∧
      ∀ x ∈ (splitComments start stop (g :: gs)).2.2, x ∈ gs := by
  unfold splitComments
  dsimp only
  split
  · rename_i hlt
    have hnear : (g :: gs).takeWhile (·.stop < stop) ≠ [] := by
      intro hnil
      simp [hnil] at hlt
    obtain ⟨hstop, hcons⟩ : g.stop < stop ∧ (g :: gs).takeWhile (·.stop < stop) =
        g :: gs.takeWhile (·.stop < stop) := by
      rw [takeWhile_cons] at hnear ⊢
      split at hnear
      · rename_i hstop
        rw [if_pos hstop]
        exact ⟨of_decide_eq_true hstop, rfl⟩
      · exact absurd rfl hnear
    obtain ⟨n, hn⟩ : ∃ n, (((g :: gs).takeWhile (·.stop < stop)).takeWhile
        (·.start < start)).length = n + 1 := by
      rw [hcons, takeWhile_cons_of_pos (by simpa using hg)]
      exact ⟨_, rfl⟩
    rw [hn] at hlt ⊢
    obtain ⟨m, hm⟩ := Nat.exists_eq_add_of_lt hlt
    rw [hm]
    refine ⟨gs.take n, rfl, fun x => mem_of_mem_take, fun x hx => ?_, fun x hx => ?_⟩
    · exact mem_of_mem_take (mem_of_mem_drop hx)
    · exact mem_of_mem_drop hx
  · exact ⟨gs, rfl, fun _ => id, forall_mem_nil _, forall_mem_nil _⟩

lemma within_moveTo {b stop : Nat} (ha : start ≤ a) (ha' : a ≤ stop) (hb : start ≤ b)
    (hb' : b ≤ stop) (e : ImportEntry) : (e.moveTo a b).Within start stop := by
  have hstart : (e.moveTo a b).start = a := by
    cases h : e.name <;> simp [ImportEntry.moveTo, ImportEntry.start, h]
  have hstop : (e.moveTo a b).stop = b := rfl
  refine ⟨?_, ?_, ?_, ?_⟩
  · rwa [hstart]
  · rwa [hstart]
  · rwa [hstop]
  · rwa [hstop]

lemma mem_sortBy {before : ImportEntry → ImportEntry → Bool} {x : Nat × ImportEntry}
    (h : x ∈ sortBy before es) : x.2 ∈ es := by
  obtain ⟨⟨e, i⟩, hmem, rfl⟩ := mem_map.mp (mem_mergeSort.mp h)
  exact (mem_zipIdx' hmem).2 ▸ getElem_mem _

lemma headed_sortParagraph (h : s.Headed w₁ w₂ size) (hes : ∀ e ∈ es, Behind w₁ w₂ size e) :
    (s.sortParagraph es).1.Headed w₁ w₂ size ∧
      ∀ e ∈ (s.sortParagraph es).2, Behind w₁ w₂ size e := by
  unfold sortParagraph
  split
  · rename_i first second others final hfinal
    obtain ⟨rest, hcomments, hrest⟩ := h.comments
    have hfirst := hes first mem_cons_self
    have hline := h.lines.le_lineAt (Nat.le_of_succ_le hfirst.start_le)
    have hstart := h.lines.le_startOf hline (Lines.Headed.lineAt_le_count s.lines first.start)
    have hfront : (headingGroup w₁ w₂).start < s.lines.startOf (s.lines.lineAt first.start) := by
      refine Nat.lt_of_lt_of_le ?_ hstart
      exact Nat.succ_pos _
    have hsorted : ∀ x ∈ sortBy s.before (first :: second :: others), Behind w₁ w₂ size x.2 :=
      fun x hx => hes x.2 (mem_sortBy hx)
    have hkept := headed_dedupe h.lines hsorted
    have hspans : ∀ ab ∈ (first :: second :: others).map fun e => (e.start, e.stop),
        clauseAt w₁ w₂ + 1 ≤ ab.1 ∧ ab.1 ≤ size ∧ clauseAt w₁ w₂ + 1 ≤ ab.2 ∧ ab.2 ≤ size := by
      intro ab hab
      obtain ⟨e, he, rfl⟩ := mem_map.mp hab
      exact ⟨(hes e he).start_le, (hes e he).start_le_stop, (hes e he).le_stop, (hes e he).stop_le⟩
    dsimp only
    obtain ⟨front, hsplit, hfrontmem, hmine, hothers⟩ := splitComments_cons
      (if s.lines.lineAt final.stop == s.lines.count then final.stop
        else s.lines.startOf (s.lines.lineAt final.stop + 1)) hfront rest
    rw [hcomments]
    generalize splitComments _ _ _ = parts at hsplit hmine hothers ⊢
    obtain ⟨_, mine, behind⟩ := parts
    subst hsplit
    refine ⟨⟨hkept.1, _, rfl, ?_⟩, ?_⟩
    · intro g hg c hc
      rcases mem_append.mp hg with hg | hg
      · rcases mem_append.mp hg with hg | hg
        · exact hrest g (hfrontmem g hg) c hc
        · obtain ⟨⟨g, i, left⟩, hmem, rfl⟩ := mem_map.mp (mem_mergeSort.mp hg)
          split at hc
          · rename_i a b hfind
            have hab := hspans (a, b) (of_mem_zip (mem_of_find?_eq_some hfind)).2
            obtain ⟨d, -, rfl⟩ := mem_map.mp hc
            dsimp only at hab ⊢
            split <;> omega
          · exact hrest g (hmine g (of_mem_zip hmem).1) c hc
      · exact hrest g (hothers g hg) c hc
    · intro e he
      obtain ⟨⟨⟨i, e⟩, a, b⟩, hmem, rfl⟩ := mem_map.mp he
      have hab := hspans (a, b) (of_mem_zip hmem).2
      exact within_moveTo hab.1 hab.2.1 hab.2.2.1 hab.2.2.2 e
  · exact ⟨h, hes⟩

lemma headed_sortParts (far : Lines → ImportEntry → ImportEntry → Bool) (h : s.Headed w₁ w₂ size)
    {part : List ImportEntry} (hpart : ∀ e ∈ part, Behind w₁ w₂ size e)
    (hes : ∀ e ∈ es, Behind w₁ w₂ size e) :
    (sortParts far sortParagraph s part es).1.Headed w₁ w₂ size ∧
      ∀ e ∈ (sortParts far sortParagraph s part es).2, Behind w₁ w₂ size e := by
  induction es generalizing s part with
  | nil =>
    exact headed_sortParagraph h fun e he => hpart e (mem_reverse.mp he)
  | cons e es ih =>
    obtain ⟨he, hes⟩ := forall_mem_cons.mp hes
    cases part with
    | nil =>
      exact ih h (forall_mem_singleton.mpr he) hes
    | cons last part =>
      rw [sortParts]
      split
      · have hreverse : ∀ e ∈ (last :: part).reverse, Behind w₁ w₂ size e :=
          fun e he => hpart e (mem_reverse.mp he)
        obtain ⟨hsorted, hfirst⟩ := headed_sortParagraph h hreverse
        obtain ⟨hrest, hothers⟩ := ih hsorted (forall_mem_singleton.mpr he) hes
        exact ⟨hrest, forall_mem_append.mpr ⟨hfirst, hothers⟩⟩
      · exact ih h (forall_mem_cons.mpr ⟨he, hpart⟩) hes

lemma headed_close (h : lines.Headed w₁ w₂ size) (ha : clauseAt w₁ w₂ ≤ a) (b : Nat) :
    (close lines a b).Headed w₁ w₂ size := by
  have hline := h.le_lineAt ha
  have hjoins (ns : List Nat) (hns : ∀ n ∈ ns, 4 ≤ n) :
      (ns.foldr (fun n l => l.join n) lines).Headed w₁ w₂ size := by
    induction ns with
    | nil => exact h
    | cons n ns ih =>
      obtain ⟨hn, hns⟩ := forall_mem_cons.mp hns
      exact (ih hns).join hn
  refine hjoins _ fun n hn => ?_
  have hle := (mem_range'_1.mp hn).1
  omega

variable (h : s.Headed w₁ w₂ size)

include h

lemma headed_sortBlock {b : ImportBlock} (hb : ∀ e ∈ b.entries, Behind w₁ w₂ size e) :
    (s.sortBlock b).1.Headed w₁ w₂ size := by
  unfold sortBlock sortBlockBy
  split
  · exact h
  · have hsorted := headed_sortParts (fun (l : Lines) (a b : ImportEntry) =>
      (l.lineAt a.stop : Int) + 1 < l.lineAt b.start) h (forall_mem_nil _) hb
    dsimp only
    refine ⟨?_, hsorted.1.comments⟩
    split
    · rename_i e p hlast hparen
      have he := hsorted.2 e (mem_of_getLast? hlast)
      exact headed_close hsorted.1.lines (Nat.le_of_succ_le he.start_le) p
    · exact hsorted.1.lines

lemma headed_sortBlocks {bs : List ImportBlock}
    (hbs : ∀ b ∈ bs, ∀ e ∈ b.entries, Behind w₁ w₂ size e) :
    (s.sortBlocks bs).1.Headed w₁ w₂ size := by
  induction bs generalizing s with
  | nil => exact h
  | cons b bs ih =>
    obtain ⟨hb, hbs⟩ := forall_mem_cons.mp hbs
    exact ih (headed_sortBlock h hb) hbs

lemma headed_sort (hbs : ∀ b ∈ s.blocks, ∀ e ∈ b.entries, Behind w₁ w₂ size e) :
    s.sort.Headed w₁ w₂ size :=
  have hsorted := headed_sortBlocks h hbs
  ⟨hsorted.lines, hsorted.comments⟩

end ImportSection

end ReactiveModel.Source
