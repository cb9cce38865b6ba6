import Mathlib.Data.List.Basic
import ReactiveModel.Text.Path

/-! Paths by their elements. A cleaned path has plain elements after steps back, and is determined
by them; joining appends elements and the parent lacks the last one. -/

namespace ReactiveModel.Path

open List

variable {done ds ns : List String} {e p gap q : String} {c : Char}

/-! Parts. -/

lemma parts_append (a b : String) : parts (a ++ "/" ++ b) = parts a ++ parts b := by
  have hlist : (a ++ "/" ++ b).toList = a.toList ++ '/' :: b.toList := by simp
  rw [parts, hlist, splitOn_append_cons_self, map_append, parts, parts]

lemma parts_eq_singleton (h : '/' ∉ e.toList) : parts e = [e] := by
  rw [parts, splitOn_eq_singleton h]
  simp

lemma notMem_of_mem_splitOn {cs w : List Char} (h : w ∈ cs.splitOn '/') : '/' ∉ w := by
  induction cs generalizing w with
  | nil =>
    obtain rfl : w = [] := by simpa using h
    simp
  | cons c cs ih =>
    rw [splitOn_cons_eq_if_modifyHead] at h
    split at h
    · rcases mem_cons.mp h with rfl | h
      · simp
      · exact ih h
    · rename_i hc
      cases hs : cs.splitOn '/' with
      | nil => simp at hs
      | cons v vs =>
        rw [hs] at ih h
        rcases mem_cons.mp h with rfl | h
        · have hv := ih mem_cons_self
          have hne : '/' ≠ c := fun h => hc (beq_iff_eq.mpr h.symm)
          simp [hv, hne]
        · exact ih (mem_cons_of_mem _ h)

lemma notMem_of_mem_parts {e : String} (h : e ∈ parts p) : '/' ∉ e.toList := by
  obtain ⟨w, hw, rfl⟩ := mem_map.mp h
  simpa using notMem_of_mem_splitOn hw

/-- Joining can be undone where the separator is in none of the joined texts. -/
lemma splitOn_intercalate (hgap : gap.toList = [c]) {es : List String} (hne : es ≠ [])
    (h : ∀ e ∈ es, c ∉ e.toList) :
    ((gap.intercalate es).toList.splitOn c).map String.ofList = es := by
  have hsplit : ([c].intercalate (es.map String.toList)).splitOn c = es.map String.toList := by
    refine List.splitOn_intercalate c ?_ (by simpa using hne)
    intro l hl
    obtain ⟨e, he, rfl⟩ := mem_map.mp hl
    exact h e he
  rw [String.toList_intercalate, hgap, hsplit]
  simp [Function.comp_def]

lemma parts_intercalate {es : List String} (hne : es ≠ []) (h : ∀ e ∈ es, '/' ∉ e.toList) :
    parts ("/".intercalate es) = es :=
  splitOn_intercalate rfl hne h

lemma mem_intercalate {es : List String} (h : c ∈ (gap.intercalate es).toList) :
    c ∈ gap.toList ∨ ∃ e ∈ es, c ∈ e.toList := by
  induction es with
  | nil => simp at h
  | cons e es ih =>
    cases es with
    | nil => exact .inr ⟨e, mem_cons_self, by simpa using h⟩
    | cons e' es =>
      rw [String.intercalate_cons_cons, String.toList_append, String.toList_append,
        append_assoc, mem_append, mem_append] at h
      rcases h with h | h | h
      · exact .inr ⟨e, mem_cons_self, h⟩
      · exact .inl h
      · exact (ih h).imp_right fun ⟨w, hw, hc⟩ => ⟨w, mem_cons_of_mem _ hw, hc⟩

lemma isRooted_append {a : String} (h : a ≠ "") (b : String) : isRooted (a ++ b) = isRooted a := by
  unfold isRooted
  rw [String.toList_append]
  cases ha : a.toList with
  | nil => exact absurd (String.toList_eq_nil_iff.mp ha) h
  | cons c cs => rfl

/-! Normal lists of elements, with the last element first. -/

/-- An element that goes down by one. -/
structure Plain (e : String) : Prop where
  ne_empty : e ≠ ""
  ne_dot : e ≠ "."
  ne_dots : e ≠ ".."
  slash : '/' ∉ e.toList

/-- All of some elements are plain. -/
abbrev Plains (es : List String) : Prop := ∀ e ∈ es, Plain e

lemma Plains.append {es : List String} (hes : Plains es) (hds : Plains ds) : Plains (es ++ ds) :=
  forall_mem_append.mpr ⟨hes, hds⟩

lemma Plains.left {es : List String} (h : Plains (es ++ ds)) : Plains es :=
  (forall_mem_append.mp h).1

lemma Plains.concat {es : List String} {e : String} (hes : Plains es) (he : Plain e) :
    Plains (es ++ [e]) :=
  hes.append (forall_mem_singleton.mpr he)

/-- Plain elements after steps back, which a rooted path has not. -/
inductive Normal (rooted : Bool) : List String → Prop
  | nil : Normal rooted []
  | plain {e : String} {done : List String} (he : Plain e) (h : Normal rooted done) :
      Normal rooted (e :: done)
  | back {done : List String} (hr : rooted = false) (hd : ∀ d ∈ done, d = "..") :
      Normal rooted (".." :: done)

lemma Normal.tail {rooted : Bool} (h : Normal rooted (e :: done)) : Normal rooted done := by
  cases h with
  | plain he h => exact h
  | back hr hd =>
    cases done with
    | nil => exact .nil
    | cons d done =>
      obtain ⟨rfl, hrest⟩ := forall_mem_cons.mp hd
      exact .back hr hrest

lemma Normal.of_dots {rooted : Bool} (h : Normal rooted (".." :: done)) :
    rooted = false ∧ ∀ d ∈ done, d = ".." := by
  cases h with
  | plain he _ => exact absurd rfl he.ne_dots
  | back hr hd => exact ⟨hr, hd⟩

lemma step_plain (rooted : Bool) (done : List String) (h : Plain e) :
    step rooted done e = e :: done := by
  simp [step, h.ne_empty, h.ne_dot, h.ne_dots]

lemma Normal.step_eq {rooted : Bool}
    (h : Normal rooted (e :: done)) : step rooted done e = e :: done := by
  cases h with
  | plain he _ => exact step_plain rooted done he
  | back hr hd =>
    cases done with
    | nil => simp [step, hr]
    | cons d done =>
      obtain ⟨rfl, -⟩ := forall_mem_cons.mp hd
      simp [step]

lemma Normal.foldl_step {rooted : Bool} (h : Normal rooted done) :
    done.reverse.foldl (step rooted) [] = done := by
  induction done with
  | nil => rfl
  | cons e done ih =>
    rw [reverse_cons, foldl_append, ih h.tail]
    exact h.step_eq

lemma Normal.step {rooted : Bool} (h : Normal rooted done)
    (he : '/' ∉ e.toList) : Normal rooted (step rooted done e) := by
  by_cases hempty : e = ""
  · simpa [Path.step, hempty] using h
  by_cases hdot : e = "."
  · simpa [Path.step, hdot] using h
  by_cases hdots : e = ".."
  · subst hdots
    cases done with
    | nil =>
      cases rooted with
      | true => exact .nil
      | false => exact .back rfl (forall_mem_nil _)
    | cons d done =>
      by_cases hd : d = ".."
      · subst hd
        obtain ⟨hr, hall⟩ := h.of_dots
        exact .back hr (forall_mem_cons.mpr ⟨rfl, hall⟩)
      · simpa [Path.step, hd] using h.tail
  · have hplain : Plain e := ⟨hempty, hdot, hdots, he⟩
    rw [step_plain rooted done hplain]
    exact .plain hplain h

lemma Normal.foldl {rooted : Bool} {done es : List String} (h : Normal rooted done)
    (hes : ∀ e ∈ es, '/' ∉ e.toList) : Normal rooted (es.foldl (Path.step rooted) done) := by
  induction es generalizing done with
  | nil => exact h
  | cons e es ih =>
    obtain ⟨he, hes⟩ := forall_mem_cons.mp hes
    exact ih (h.step he) hes

lemma normal_elements (p : String) : Normal (isRooted p) (elements p).reverse := by
  rw [elements, reverse_reverse]
  exact Normal.nil.foldl fun e he => notMem_of_mem_parts he

lemma Normal.eq_or_plain {rooted : Bool} (h : Normal rooted done)
    (he : e ∈ done) : e = ".." ∨ Plain e := by
  induction h with
  | nil => nomatch he
  | plain hp _ ih =>
    rcases mem_cons.mp he with rfl | he
    · exact .inr hp
    · exact ih he
  | back _ hd =>
    rcases mem_cons.mp he with rfl | he
    · exact .inl rfl
    · exact .inl (hd e he)

lemma Normal.slash {rooted : Bool} (h : Normal rooted done) (he : e ∈ done) : '/' ∉ e.toList := by
  rcases h.eq_or_plain he with rfl | hp
  · decide
  · exact hp.slash

lemma Normal.ne_empty {rooted : Bool} (h : Normal rooted done) (he : e ∈ done) : e ≠ "" := by
  rcases h.eq_or_plain he with rfl | hp
  · decide
  · exact hp.ne_empty

/-! Paths of normal lists. -/

variable {rooted : Bool} {es : List String}

lemma intercalate_eq_empty_iff (h : Normal rooted es.reverse) :
    "/".intercalate es = "" ↔ es = [] := by
  constructor
  · intro he
    by_contra hne
    have hparts := parts_intercalate hne fun e hm => h.slash (mem_reverse.mpr hm)
    rw [he] at hparts
    have hempty : parts "" = [""] := parts_eq_singleton (by simp)
    rw [hempty] at hparts
    exact h.ne_empty (by simp [← hparts]) rfl
  · rintro rfl
    simp

/-- Whether a part of a path leads anywhere. -/
def isStep (e : String) : Bool := e != "" && e != "."

/-- The parts of a path that lead anywhere. -/
def steps (p : String) : List String := (parts p).filter isStep

@[simp] lemma steps_empty : steps "" = [] := by decide

lemma steps_append (a b : String) : steps (a ++ "/" ++ b) = steps a ++ steps b := by
  rw [steps, parts_append, filter_append, steps, steps]

lemma foldl_step_filter (rooted : Bool) (ps done : List String) :
    (ps.filter isStep).foldl (step rooted) done = ps.foldl (step rooted) done := by
  induction ps generalizing done with
  | nil => rfl
  | cons p ps ih =>
    by_cases hp : p = "" ∨ p = "."
    · have hstep : step rooted done p = done := by rcases hp with rfl | rfl <;> simp [step]
      have hno : isStep p = false := by rcases hp with rfl | rfl <;> rfl
      rw [filter_cons_of_neg (by simp [hno]), foldl_cons, hstep, ih]
    · rw [not_or] at hp
      have hyes : isStep p = true := by simp [isStep, hp]
      rw [filter_cons_of_pos hyes, foldl_cons, foldl_cons, ih]

section

variable (h : Normal rooted es.reverse)

include h

lemma filter_isStep : es.filter isStep = es := by
  refine filter_eq_self.mpr fun e he => ?_
  rcases h.eq_or_plain (mem_reverse.mpr he) with rfl | hp
  · decide
  · simp [isStep, hp.ne_empty, hp.ne_dot]

lemma steps_ofElements : steps (ofElements rooted es) = es := by
  have hbody : steps ("/".intercalate es) = es := by
    by_cases hne : es = []
    · subst hne
      rfl
    · rw [steps, parts_intercalate hne fun e hm => h.slash (mem_reverse.mpr hm)]
      exact filter_isStep h
  cases rooted with
  | true =>
    have hpath : ofElements true es = "" ++ "/" ++ "/".intercalate es := by simp [ofElements]
    rw [hpath, steps_append, hbody, steps_empty, nil_append]
  | false =>
    by_cases hne : es = []
    · subst hne
      decide
    · have hpath : ofElements false es = "/".intercalate es := by
        simp [ofElements, mt (intercalate_eq_empty_iff h).mp hne]
      rw [hpath, hbody]

lemma isRooted_ofElements : isRooted (ofElements rooted es) = rooted := by
  cases rooted with
  | true =>
    have hslash : isRooted "/" = true := by decide
    have hne : "/" ≠ "" := by decide
    simp only [ofElements, if_true]
    rw [isRooted_append hne, hslash]
  | false =>
    cases es with
    | nil => decide
    | cons e es =>
      have hpath : ∃ rest, ofElements false (e :: es) = e ++ rest := by
        have hne := mt (intercalate_eq_empty_iff h).mp (cons_ne_nil e es)
        cases es with
        | nil =>
          rw [String.intercalate_singleton] at hne
          exact ⟨"", by simp [ofElements, hne]⟩
        | cons d ds =>
          simp [ofElements, String.intercalate_cons_cons, String.append_assoc]
      obtain ⟨rest, hpath⟩ := hpath
      have he : e ∈ (e :: es).reverse := by simp
      rw [hpath, isRooted_append (h.ne_empty he)]
      have hslash := h.slash he
      cases hs : e.toList with
      | nil => simp [isRooted, hs]
      | cons c cs =>
        rw [hs] at hslash
        have hc : '/' ≠ c := fun hc => hslash (hc ▸ mem_cons_self)
        simp [isRooted, hs, hc.symm]

lemma elements_ofElements : elements (ofElements rooted es) = es := by
  have hfold := h.foldl_step
  rw [reverse_reverse] at hfold
  rw [elements, isRooted_ofElements h, ← foldl_step_filter, ← steps, steps_ofElements h, hfold,
    reverse_reverse]

end

lemma elements_append (hp : p ≠ "") (hq : Plains (steps q)) :
    elements (p ++ "/" ++ q) = elements p ++ steps q := by
  have hrooted : isRooted (p ++ "/" ++ q) = isRooted p := by
    rw [String.append_assoc, isRooted_append hp]
  have hfold : ∀ es done : List String, (Plains es) →
      es.foldl (step (isRooted p)) done = es.reverse ++ done := by
    intro es
    induction es with
    | nil => intro done _; rfl
    | cons e es ih =>
      intro done hes
      obtain ⟨he, hes⟩ := forall_mem_cons.mp hes
      rw [foldl_cons, step_plain _ _ he, ih _ hes]
      simp
  rw [elements, hrooted, parts_append, foldl_append, ← foldl_step_filter _ (parts q),
    ← steps, hfold _ _ hq, reverse_append, reverse_reverse, elements]

lemma ofElements_ne_empty (rooted : Bool) (es : List String) : ofElements rooted es ≠ "" := by
  unfold ofElements
  cases rooted with
  | true => simp
  | false => by_cases h : "/".intercalate es = "" <;> simp [h]

lemma ofElements_concat (h : Normal rooted es.reverse) (hne : es ≠ []) (e : String) :
    ofElements rooted (es ++ [e]) = ofElements rooted es ++ "/" ++ e := by
  have hbody : "/".intercalate (es ++ [e]) = "/".intercalate es ++ "/" ++ e := by
    rw [String.intercalate_append_of_ne_nil hne (cons_ne_nil e [])]
    simp
  cases rooted with
  | true => simp [ofElements, hbody, String.append_assoc]
  | false => simp [ofElements, hbody, mt (intercalate_eq_empty_iff h).mp hne]

lemma Normal.append {rooted : Bool} {es : List String} (h : Normal rooted es.reverse)
    (hns : Plains ns) : Normal rooted (es ++ ns).reverse := by
  induction ns generalizing es with
  | nil => simpa using h
  | cons n ns ih =>
    obtain ⟨hn, hns⟩ := forall_mem_cons.mp hns
    have hes : Normal rooted (es ++ [n]).reverse := by
      simpa using Normal.plain hn h
    simpa using ih hes hns

/-- What stands before the last element, with the slash after it, has the other elements. -/
lemma exists_front (h : Normal rooted es.reverse) :
    ∃ front, (∀ e, Plain e → ofElements rooted (es ++ [e]) = front ++ e) ∧
      (front = "" ∨ ∃ q, front = q ++ "/") ∧ isRooted front = rooted ∧ elements front = es := by
  by_cases hne : es = []
  · subst hne
    cases rooted with
    | true =>
      exact ⟨"/", fun e _ => by simp [ofElements], .inr ⟨"", by simp⟩, by decide, by decide⟩
    | false =>
      exact ⟨"", fun e he => by simp [ofElements, he.ne_empty], .inl rfl, by decide, by decide⟩
  · refine ⟨ofElements rooted es ++ "/", ?_, .inr ⟨_, rfl⟩, ?_, ?_⟩
    · exact fun e _ => ofElements_concat h hne e
    · rw [isRooted_append (ofElements_ne_empty rooted es), isRooted_ofElements h]
    · have happend := elements_append (q := "") (ofElements_ne_empty rooted es) nofun
      rw [elements_ofElements h] at happend
      simpa using happend

lemma dropWhile_front {front e : String} (he : '/' ∉ e.toList)
    (hfront : front = "" ∨ ∃ q, front = q ++ "/") :
    (front ++ e).toList.reverse.dropWhile (· != '/') = front.toList.reverse := by
  have hall : ∀ c ∈ e.toList.reverse, (c != '/') = true := by
    intro c hc
    have hne : c ≠ '/' := fun h => he (h ▸ mem_reverse.mp hc)
    simpa using hne
  rw [String.toList_append, reverse_append, dropWhile_append_of_pos hall]
  rcases hfront with rfl | ⟨q, rfl⟩ <;> simp

lemma parent_ofElements (h : Normal rooted es.reverse) (he : Plain e) :
    parent (ofElements rooted (es ++ [e])) = ofElements rooted es := by
  obtain ⟨front, hpath, hfront, hrooted, helements⟩ := exists_front h
  rw [parent, hpath e he, dropWhile_front he.slash hfront, reverse_reverse,
    String.ofList_toList, clean, hrooted, helements]

/-! Paths below a directory. -/

/-- The path that goes on from a directory along some names. -/
def below (p : String) (ns : List String) : String := ofElements (isRooted p) (elements p ++ ns)

lemma eq_of_below {ms : List String} (hns : Plains ns) (hms : Plains ms)
    (h : below p ns = below p ms) : ns = ms := by
  have hsteps := congrArg steps h
  rw [below, below, steps_ofElements ((normal_elements p).append hns),
    steps_ofElements ((normal_elements p).append hms)] at hsteps
  exact append_cancel_left hsteps

lemma join_eq_below (hp : p ≠ "") (hq : Plains (steps q)) : join [p, q] = below p (steps q) := by
  have hjoin : join [p, q] = clean (p ++ "/" ++ q) := by
    simp [join, hp, String.intercalate_cons_cons]
  have hrooted : isRooted (p ++ "/" ++ q) = isRooted p := by
    rw [String.append_assoc, isRooted_append hp]
  rw [hjoin, clean, hrooted, elements_append hp hq, below]

lemma parent_below (p : String) (hns : Plains ns) (he : Plain e) :
    parent (below p (ns ++ [e])) = below p ns := by
  rw [below, ← append_assoc, parent_ofElements ((normal_elements p).append hns) he, below]

lemma below_append (p : String) {e ending : String} (hns : Plains ns) (he : Plain e)
    (hending : Plain (e ++ ending)) :
    below p (ns ++ [e]) ++ ending = below p (ns ++ [e ++ ending]) := by
  obtain ⟨front, hpath, -⟩ := exists_front ((normal_elements p).append hns)
  rw [below, below, ← append_assoc, ← append_assoc, hpath e he, hpath _ hending,
    String.append_assoc]

end ReactiveModel.Path
