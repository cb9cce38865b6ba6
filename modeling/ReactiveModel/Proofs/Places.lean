import ReactiveModel.Files.Basic
import ReactiveModel.Proofs.Path

/-! Where paths lead. A path that leads anywhere leads to a place that does not depend on what is
there, so that each action on a path can change the entry of one place only, apart from directories
that are made. -/

namespace ReactiveModel.Files

open List ReactiveModel.Path

variable {f g : Files} {place q path : String} {es ns ps qs : List String}

/-- One element down from a place, or back. -/
def descend (place e : String) : String :=
  if e == "" || e == "." then place
  else if e == ".." then Path.parent place
  else child place e

/-- Where paths start. -/
def start (workDir : String) (rooted : Bool) : String := if rooted then "/" else workDir

/-- The place of a path, whatever is there. -/
def placeOf (workDir path : String) : String :=
  (Path.parts path).foldl descend (start workDir (Path.isRooted path))

lemma walk_eq_ok (h : f.walk place es = .ok q) : q = es.foldl descend place := by
  induction es generalizing place with
  | nil => simpa [walk] using h.symm
  | cons e es ih =>
    rw [walk] at h
    cases hp : f.lookup? place with
    | none => simp [hp] at h
    | some entry =>
      cases entry with
      | file bs => simp [hp] at h
      | directory =>
        simp only [hp] at h
        rw [foldl_cons, descend]
        split at h
        · rename_i he
          rw [if_pos he]
          exact ih h
        · rename_i he
          rw [if_neg he]
          split at h
          · rename_i hb
            rw [if_pos hb]
            exact ih h
          · rename_i hb
            rw [if_neg hb]
            split at h
            · nomatch h
            · exact ih h

lemma climb_eq (h : ∀ e ∈ es, isBack e = true) (place : String) :
    climb place es = es.foldl descend place := by
  induction es generalizing place with
  | nil => rfl
  | cons e es ih =>
    obtain ⟨he, hes⟩ := forall_mem_cons.mp h
    have hstep : (if e == ".." then parent place else place) = descend place e := by
      unfold descend
      unfold isBack at he
      split
      · rename_i hdots
        simp [beq_iff_eq.mp hdots]
      · rename_i hdots
        rw [Bool.or_eq_true, or_iff_left hdots] at he
        rw [if_pos he]
    rw [foldl_cons, ← hstep, ← ih hes]
    rfl

lemma locate_eq_ok {q : String} (h : f.locate path = .ok q) : q = placeOf f.workDir path := by
  unfold locate at h
  split at h
  · nomatch h
  · split at h
    · nomatch h
    · split at h
      · nomatch h
      · rw [walk_eq_ok h, climb_eq (all_eq_true.mp all_takeWhile), ← foldl_append,
          takeWhile_append_dropWhile]
        rfl

lemma descend_eq_self {e : String} (h : isStep e = false) (place : String) :
    descend place e = place := by
  have he : e = "" ∨ e = "." := by
    by_contra hne
    rw [not_or] at hne
    simp [isStep, hne] at h
  rcases he with rfl | rfl <;> simp [descend]

lemma foldl_descend_filter (es : List String) (place : String) :
    (es.filter isStep).foldl descend place = es.foldl descend place := by
  induction es generalizing place with
  | nil => rfl
  | cons e es ih =>
    cases he : isStep e with
    | false => rw [filter_cons_of_neg (by simp [he]), foldl_cons, descend_eq_self he, ih]
    | true => rw [filter_cons_of_pos he, foldl_cons, foldl_cons, ih]

lemma placeOf_ofElements {rooted : Bool} (h : Normal rooted es.reverse) (workDir : String) :
    placeOf workDir (ofElements rooted es) = es.foldl descend (start workDir rooted) := by
  rw [placeOf, isRooted_ofElements h, ← foldl_descend_filter, ← steps,
    steps_ofElements h]

lemma foldl_descend_plain (h : Plains ns) (place : String) :
    ns.foldl descend place = ns.foldl child place := by
  induction ns generalizing place with
  | nil => rfl
  | cons n ns ih =>
    obtain ⟨hn, hns⟩ := forall_mem_cons.mp h
    have hdescend : descend place n = child place n := by
      simp [descend, hn.ne_empty, hn.ne_dot, hn.ne_dots]
    rw [foldl_cons, foldl_cons, hdescend, ih hns]

/-- The parts of a place, of which the root has none but the first. -/
def trail (place : String) : List String := Path.parts (if place = "/" then "" else place)

lemma trail_child (place : String) {n : String} (h : Plain n) :
    trail (child place n) = trail place ++ [n] := by
  have hchild : child place n = (if place = "/" then "" else place) ++ "/" ++ n := by
    by_cases hp : place = "/" <;> simp [child, hp]
  have hne : child place n ≠ "/" := by
    intro heq
    have hparts := congrArg parts heq
    rw [hchild, parts_append, parts_eq_singleton h.slash] at hparts
    have hlast := congrArg List.getLast? hparts
    simp only [getLast?_append, getLast?_singleton, Option.some_or] at hlast
    exact h.ne_empty (Option.some.inj (hlast.trans (by decide)))
  rw [trail, if_neg hne, hchild, parts_append, parts_eq_singleton h.slash, trail]

lemma trail_foldl_child (h : Plains ns) (place : String) :
    trail (ns.foldl child place) = trail place ++ ns := by
  induction ns generalizing place with
  | nil => simp
  | cons n ns ih =>
    obtain ⟨hn, hns⟩ := forall_mem_cons.mp h
    rw [foldl_cons, ih hns, trail_child place hn, append_assoc, singleton_append]

/-- Different names below one directory lead to different places. -/
lemma eq_of_placeOf_below {workDir p : String} {ms : List String} (hns : Plains ns)
    (hms : Plains ms) (h : placeOf workDir (below p ns) = placeOf workDir (below p ms)) :
    ns = ms := by
  have hplace {ks : List String} (hks : Plains ks) :
      placeOf workDir (below p ks) =
        ks.foldl child ((elements p).foldl descend (start workDir (isRooted p))) := by
    rw [below, placeOf_ofElements ((normal_elements p).append hks), foldl_append,
      foldl_descend_plain hks]
  rw [hplace hns, hplace hms] at h
  have htrail := congrArg trail h
  rw [trail_foldl_child hns, trail_foldl_child hms] at htrail
  exact append_cancel_left htrail

/-! Entries after an action. -/

lemma lookup?_set (f : Files) (place q : String) (e : Entry) :
    (f.set place e).lookup? q =
      if q = "/" then some .directory else if q = place then some e else f.lookup? q := by
  by_cases hq : q = "/"
  · simp [lookup?, hq]
  · simp [lookup?, set, hq, Table.get?_insert]

lemma lookup?_unset (f : Files) (place q : String) :
    (f.unset place).lookup? q =
      if q = "/" then some .directory else if q = place then none else f.lookup? q := by
  by_cases hq : q = "/"
  · simp [lookup?, hq]
  · simp [lookup?, unset, hq, Table.get?_erase]

lemma lookup?_set_of_ne_root (f : Files) (h : place ≠ "/") (e : Entry) (q : String) :
    (f.set place e).lookup? q = if q = place then some e else f.lookup? q := by
  rw [lookup?_set]
  by_cases hq : q = "/"
  · rw [hq, if_neg h.symm]
    rfl
  · rw [if_neg hq]

lemma lookup?_set_directory (f : Files) (place : String) :
    (f.set place .directory).lookup? place = some .directory := by
  rw [lookup?_set]
  split <;> simp

lemma lookup?_set_of_ne (h : q ≠ place) (e : Entry) : (f.set place e).lookup? q = f.lookup? q := by
  rw [lookup?_set]
  by_cases hq : q = "/" <;> simp [h, hq, lookup?]

lemma lookup?_unset_self {q : String} (h : q ≠ "/") : (f.unset q).lookup? q = none := by
  rw [lookup?_unset, if_neg h, if_pos rfl]

lemma lookup?_unset_of_ne (h : q ≠ place) : (f.unset place).lookup? q = f.lookup? q := by
  rw [lookup?_unset]
  by_cases hq : q = "/" <;> simp [h, hq, lookup?]

lemma lookup?_set_self {q : String} (h : f.lookup? q ≠ some .directory) (e : Entry) :
    (f.set q e).lookup? q = some e := by
  have hroot : q ≠ "/" := by
    rintro rfl
    exact h rfl
  rw [lookup?_set, if_neg hroot, if_pos rfl]

/-! What the actions do where no directory is locked. -/

lemma create_unlocked (f : Files) (path : String) : f.create path =
    match f.locate path with
    | .error e => (some ⟨"open", path, e⟩, f)
    | .ok place =>
      match f.lookup? place with
      | some .directory => (some ⟨"open", path, .isDirectory⟩, f)
      | _ => (none, f.set place (.file [])) := rfl

lemma makeDirectory_unlocked (f : Files) (path : String) : f.makeDirectory path =
    match f.locate path with
    | .error e => (some ⟨"mkdir", path, e⟩, f)
    | .ok place =>
      match f.lookup? place with
      | some _ => (some ⟨"mkdir", path, .occupied⟩, f)
      | none => (none, f.set place .directory) := rfl

lemma remove_unlocked (f : Files) (path : String) : f.remove path =
    match f.locate path with
    | .error e => (some ⟨"remove", path, e⟩, f)
    | .ok place =>
      match f.lookup? place with
      | none => (some ⟨"remove", path, .missing⟩, f)
      | some (.file _) => (none, f.unset place)
      | some .directory =>
        if (f.childNames place).isEmpty then (none, f.unset place)
        else (some ⟨"remove", path, .notEmpty⟩, f) := rfl

/-- Files that are the same but for one place. -/
structure SameOff (q : String) (f g : Files) : Prop where
  workDir : g.workDir = f.workDir
  lookup? : ∀ p, p ≠ q → g.lookup? p = f.lookup? p

lemma sameOff_refl (q : String) (f : Files) : SameOff q f f := ⟨rfl, fun _ _ => rfl⟩

lemma sameOff_set (f : Files) (q : String) (e : Entry) : SameOff q f (f.set q e) :=
  ⟨rfl, fun _ hp => lookup?_set_of_ne hp e⟩

lemma sameOff_unset (f : Files) (q : String) : SameOff q f (f.unset q) :=
  ⟨rfl, fun _ hp => lookup?_unset_of_ne hp⟩

lemma sameOff_create (f : Files) (path : String) :
    SameOff (placeOf f.workDir path) f (f.create path).2 := by
  rw [create_unlocked]
  split
  case h_1 => exact sameOff_refl _ f
  case h_2 q hl =>
    rw [← locate_eq_ok hl]
    split
    · exact sameOff_refl q f
    · exact sameOff_set f q _

lemma sameOff_write (f : Files) (path : String) (bs : List UInt8) :
    SameOff (placeOf f.workDir path) f (f.write path bs).2 := by
  unfold write
  split
  case h_1 => exact sameOff_refl _ f
  case h_2 q hl =>
    rw [← locate_eq_ok hl]
    split
    · exact sameOff_set f q _
    · exact sameOff_refl q f
    · exact sameOff_refl q f

lemma sameOff_remove (f : Files) (path : String) :
    SameOff (placeOf f.workDir path) f (f.remove path).2 := by
  rw [remove_unlocked]
  split
  case h_1 => exact sameOff_refl _ f
  case h_2 q hl =>
    rw [← locate_eq_ok hl]
    split
    · exact sameOff_refl q f
    · exact sameOff_unset f q
    · split
      · exact sameOff_unset f q
      · exact sameOff_refl q f

lemma lookup?_of_create (h : (f.create path).1 = none) :
    (f.create path).2.lookup? (placeOf f.workDir path) = some (.file []) := by
  rw [create_unlocked] at h ⊢
  split at h
  · nomatch h
  · rename_i q hl
    rw [← locate_eq_ok hl]
    split at h
    · nomatch h
    · rename_i hentry
      exact lookup?_set_self (hentry ·) _

lemma lookup?_of_write {bs : List UInt8} (h : (f.write path bs).1 = none)
    (hempty : f.lookup? (placeOf f.workDir path) = some (.file [])) :
    (f.write path bs).2.lookup? (placeOf f.workDir path) = some (.file bs) := by
  unfold write at h ⊢
  cases hl : f.locate path with
  | error e => simp [hl] at h
  | ok q =>
    rw [← locate_eq_ok hl] at hempty ⊢
    simp only [hempty, drop_nil, append_nil]
    exact lookup?_set_self (by simp [hempty]) _

/-- Files that have all that was there before. -/
structure Extends (f g : Files) : Prop where
  workDir : g.workDir = f.workDir
  lookup? : ∀ p e, f.lookup? p = some e → g.lookup? p = some e

lemma extends_refl (f : Files) : Extends f f := ⟨rfl, fun _ _ h => h⟩

/-- Files with directories made at the places of some paths, where nothing was before. -/
structure MadeAt (ps : List String) (f g : Files) : Prop where
  workDir : g.workDir = f.workDir
  lookup? : ∀ q, g.lookup? q = f.lookup? q ∨
    (f.lookup? q = none ∧ g.lookup? q = some .directory ∧ ∃ p ∈ ps, q = placeOf f.workDir p)

lemma madeAt_refl (ps : List String) (f : Files) : MadeAt ps f f := ⟨rfl, fun _ => .inl rfl⟩

lemma MadeAt.trans {h : Files} (hfg : MadeAt ps f g) (hgh : MadeAt ps g h) : MadeAt ps f h := by
  refine ⟨hgh.workDir.trans hfg.workDir, fun q => ?_⟩
  have hlast := hgh.lookup? q
  rw [hfg.workDir] at hlast
  rcases hfg.lookup? q with hsame | ⟨hnone, hmade, hq⟩
  · rwa [← hsame]
  · rcases hlast with hsame | ⟨hnone', -⟩
    · exact .inr ⟨hnone, hsame.trans hmade, hq⟩
    · exact absurd (hnone'.symm.trans hmade) (by simp)

lemma madeAt_makeDirectory (f : Files) (p : String) : MadeAt [p] f (f.makeDirectory p).2 := by
  rw [makeDirectory_unlocked]
  split
  case h_1 => exact madeAt_refl [p] f
  case h_2 place hl =>
    split
    case h_1 => exact madeAt_refl [p] f
    case h_2 hnone =>
      refine ⟨rfl, fun q => ?_⟩
      by_cases hq : q = place
      · subst hq
        refine .inr ⟨hnone, ?_, p, mem_singleton_self p, locate_eq_ok hl⟩
        exact lookup?_set_directory f q
      · exact .inl (lookup?_set_of_ne hq _)

lemma MadeAt.mono (h : MadeAt ps f g) (hps : ps ⊆ qs) : MadeAt qs f g := by
  refine ⟨h.workDir, fun q => (h.lookup? q).imp_right ?_⟩
  rintro ⟨hnone, hmade, p, hp, hq⟩
  exact ⟨hnone, hmade, p, hps hp, hq⟩

lemma madeAt_makeFirst (f : Files) (ps : List String) : MadeAt ps f (f.makeFirst ps).2 := by
  induction ps with
  | nil => exact madeAt_refl [] f
  | cons p ps ih =>
    unfold makeFirst
    cases hp : f.find p with
    | ok e => cases e <;> exact madeAt_refl _ f
    | error e =>
      cases hr : f.makeFirst ps with
      | mk failure g =>
        rw [hr] at ih
        cases failure with
        | some e => exact ih.mono (subset_cons_self p ps)
        | none =>
          exact (ih.mono (subset_cons_self p ps)).trans ((madeAt_makeDirectory g p).mono (by simp))

lemma extends_makeDirectories (f : Files) (path : String) :
    Extends f (f.makeDirectories path).2 := by
  have hmade := f.madeAt_makeFirst (ancestry path)
  refine ⟨hmade.workDir, fun q e hq => ?_⟩
  rcases hmade.lookup? q with hsame | ⟨hnone, -⟩
  · exact hsame.trans hq
  · exact absurd (hnone.symm.trans hq) nofun

end ReactiveModel.Files
