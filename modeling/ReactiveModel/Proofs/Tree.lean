import ReactiveModel.Proofs.Places

/-! The tree of directories. A place is a list of names from the root on; a path goes back from the
work directory and then along names. What a path leads to, and whether directories can be made along
it, depends on the entries at the places that it passes. -/

namespace ReactiveModel

open List ReactiveModel.Path

variable {ns : List String}

namespace Path

lemma normal_of_plain (rooted : Bool) (h : Plains ns) : Normal rooted ns.reverse := by
  have hnil : Normal rooted ([] : List String).reverse := .nil
  simpa using hnil.append h

/-- A normal list goes back and then along names. -/
lemma Normal.exists_backs {rooted : Bool} {done : List String} (h : Normal rooted done) :
    ∃ k ns, done.reverse = List.replicate k ".." ++ ns ∧ (Plains ns) ∧
      (rooted = true → k = 0) := by
  induction h with
  | nil => exact ⟨0, [], rfl, forall_mem_nil _, fun _ => rfl⟩
  | plain he _ ih =>
    obtain ⟨k, ns, heq, hns, hk⟩ := ih
    refine ⟨k, ns ++ [_], ?_, hns.concat he, hk⟩
    rw [reverse_cons, heq, append_assoc]
  | @back done hr hd =>
    have hall : done.reverse = List.replicate done.length ".." :=
      eq_replicate_iff.mpr ⟨length_reverse, fun d hm => hd d (mem_reverse.mp hm)⟩
    refine ⟨done.length + 1, [], ?_, forall_mem_nil _, fun h => ?_⟩
    · rw [reverse_cons, hall, replicate_succ', append_nil]
    · exact absurd (h.symm.trans hr) (by decide)

/-- How often a path goes back. -/
def backs (p : String) : Nat := ((elements p).takeWhile (· == "..")).length

/-- The names along which a path goes when it has gone back. -/
def names (p : String) : List String := (elements p).dropWhile (· == "..")

variable (p : String)

lemma backs_names :
    elements p = List.replicate (backs p) ".." ++ names p ∧ (Plains (names p)) ∧
      (isRooted p = true → backs p = 0) := by
  obtain ⟨k, ns, heq, hns, hk⟩ := (normal_elements p).exists_backs
  rw [reverse_reverse] at heq
  have hnames : ns.dropWhile (· == "..") = ns ∧ ns.takeWhile (· == "..") = [] := by
    cases ns with
    | nil => exact ⟨rfl, rfl⟩
    | cons n ns =>
      have hn : (n == "..") = false := beq_eq_false_iff_ne.mpr (hns n mem_cons_self).ne_dots
      simp [hn]
  have hbacks : backs p = k := by
    simp [backs, heq, takeWhile_append_of_pos, hnames.2]
  have hns' : names p = ns := by
    simp [names, heq, dropWhile_append_of_pos, hnames.1]
  rw [hbacks, hns']
  exact ⟨heq, hns, hk⟩

lemma plain_names : Plains (names p) := (backs_names p).2.1

/-- The path that goes back as often as another one, and then along some names. -/
def onward (p : String) (ns : List String) : String :=
  ofElements (isRooted p) (List.replicate (backs p) ".." ++ ns)

lemma below_eq_onward (ns : List String) : below p ns = onward p (names p ++ ns) := by
  rw [below, onward, (backs_names p).1, append_assoc]

lemma normal_onward (h : Plains ns) :
    Normal (isRooted p) (List.replicate (backs p) ".." ++ ns).reverse := by
  have hbacks : Normal (isRooted p) (List.replicate (backs p) "..").reverse := by
    rw [reverse_replicate]
    cases hk : backs p with
    | zero => exact .nil
    | succ k =>
      refine .back (eq_false_of_ne_true fun hr => ?_) fun d hd => eq_of_mem_replicate hd
      exact absurd ((backs_names p).2.2 hr) (by omega)
  exact hbacks.append h

end Path

namespace Files

variable {ws : List String} {f : Files} {es : List String} {e n p q : String}

/-! Places. -/

/-- The place with given names from the root on. -/
def placeAt (es : List String) : String := Path.ofElements true es

lemma placeAt_nil : placeAt [] = "/" := by decide

lemma placeAt_inj {es ds : List String} (hes : Plains es)
    (hds : Plains ds) (h : placeAt es = placeAt ds) : es = ds := by
  have hsteps := congrArg steps h
  rwa [placeAt, placeAt, steps_ofElements (normal_of_plain true hes),
    steps_ofElements (normal_of_plain true hds)] at hsteps

lemma placeAt_concat_ne_root (h : Plains (es ++ [e])) : placeAt (es ++ [e]) ≠ "/" := by
  intro heq
  have hnil := placeAt_inj h (forall_mem_nil _) (heq.trans placeAt_nil.symm)
  simp at hnil

lemma child_placeAt (h : Plains es) (n : String) : child (placeAt es) n = placeAt (es ++ [n]) := by
  by_cases hne : es = []
  · subst hne
    simp [child, placeAt, ofElements]
  · obtain ⟨ds, d, rfl⟩ := eq_nil_or_concat' es |>.resolve_left hne
    rw [child, if_neg (by simpa using placeAt_concat_ne_root h), placeAt, placeAt,
      ofElements_concat (normal_of_plain true h) hne]

lemma parent_placeAt (h : Plains (es ++ [e])) : parent (placeAt (es ++ [e])) = placeAt es := by
  obtain ⟨hes, he⟩ := forall_mem_append.mp h
  exact parent_ofElements (normal_of_plain true hes) (he e (mem_singleton_self e))

/-- The place where a path from a work directory has gone back. -/
def base (ws : List String) (p : String) : List String :=
  if Path.isRooted p then [] else ws.take (ws.length - Path.backs p)

lemma plain_base (h : Plains ws) (p : String) : Plains (base ws p) := by
  unfold base
  split
  · exact forall_mem_nil _
  · exact fun e he => h e (mem_of_mem_take he)

lemma climb_placeAt (h : Plains ws) (k : Nat) :
    climb (placeAt ws) (List.replicate k "..") = placeAt (ws.take (ws.length - k)) := by
  induction k generalizing ws with
  | zero => simp [climb]
  | succ k ih =>
    rcases eq_nil_or_concat' ws with rfl | ⟨ds, d, rfl⟩
    · have hroot : parent (placeAt []) = placeAt [] := by decide
      have hrest := ih (forall_mem_nil _)
      simp only [climb, replicate_succ, foldl_cons, hroot, beq_self_eq_true, if_true]
      simpa [climb] using hrest
    · have hds : Plains ds := h.left
      have hrest := ih hds
      simp only [climb, replicate_succ, foldl_cons, parent_placeAt h, beq_self_eq_true,
        if_true]
      rw [climb] at hrest
      rw [hrest, length_append, length_singleton, Nat.add_sub_add_right,
        take_append_of_le_length (Nat.sub_le _ _)]

lemma isBack_of_plain (h : Plain n) : isBack n = false := by
  simp [isBack, h.ne_empty, h.ne_dot, h.ne_dots]

/-- The parts of a path go back to its base and are then its names. -/
lemma exists_parts_onward (p : String) (h : Plains ns) :
    ∃ xs, (∀ x ∈ xs, isBack x = true) ∧ parts (onward p ns) = xs ++ ns ∧
      ∀ ws, (Plains ws) →
        climb (if isRooted p then "/" else placeAt ws) xs = placeAt (base ws p) := by
  obtain ⟨-, -, hrooted⟩ := backs_names p
  have hslash := normal_onward p h
  unfold onward base at *
  cases hr : isRooted p with
  | true =>
    rw [hrooted hr] at *
    simp only [replicate_zero, nil_append] at *
    have hpath : ofElements true ns = "" ++ "/" ++ "/".intercalate ns := by
      simp [ofElements]
    rw [hpath, parts_append]
    by_cases hne : ns = []
    · subst hne
      have hroot : climb "/" ["", ""] = placeAt [] := by decide
      exact ⟨["", ""], by decide, by decide, fun ws _ => by simpa using hroot⟩
    · have hroot : climb "/" [""] = placeAt [] := by decide
      rw [parts_intercalate hne fun e he => (h e he).slash]
      exact ⟨[""], by decide, rfl, fun ws _ => by simpa using hroot⟩
  | false =>
    by_cases hne : List.replicate (backs p) ".." ++ ns = []
    · obtain ⟨hbacks, rfl⟩ := append_eq_nil_iff.mp hne
      have hk : backs p = 0 := by simpa using hbacks
      refine ⟨["."], by decide, by rw [hk]; decide, fun ws hws => ?_⟩
      simp [hk, climb]
    · have hpath : ofElements false (List.replicate (backs p) ".." ++ ns) =
          "/".intercalate (List.replicate (backs p) ".." ++ ns) := by
        simp [ofElements, mt (intercalate_eq_empty_iff hslash).mp hne]
      refine ⟨List.replicate (backs p) "..", fun x hx => ?_, ?_, fun ws hws => ?_⟩
      · rw [eq_of_mem_replicate hx]
        decide
      · rw [hpath, parts_intercalate hne fun e he => hslash.slash (mem_reverse.mpr he)]
      · simpa using climb_placeAt hws (backs p)

/-! What a path leads to. -/

/-- What keeps a path from leading anywhere, whatever is there. -/
def pathFault (path : String) : Option PathFault :=
  if path.toList.contains '\x00' then some .invalid
  else if 4096 ≤ path.utf8ByteSize then some .nameTooLong
  else none

lemma locate_of_pathFault {e : PathFault} (h : pathFault (onward p ns) = some e) :
    f.locate (onward p ns) = .error e := by
  have hne : onward p ns ≠ "" := ofElements_ne_empty _ _
  unfold pathFault at h
  unfold locate
  rw [if_neg (by simpa using hne)]
  split at h
  · cases h
    rw [if_pos (by assumption)]
  · rw [if_neg (by assumption)]
    split at h
    · cases h
      rw [if_pos (by assumption)]
    · nomatch h

/-- The names of the work directory. -/
structure WorksAt (f : Files) (ws : List String) : Prop where
  plain : ∀ e ∈ ws, Path.Plain e
  workDir : f.workDir = placeAt ws

lemma locate_onward (hf : f.WorksAt ws) (hns : Plains ns) (h : pathFault (onward p ns) = none) :
    f.locate (onward p ns) = f.walk (placeAt (base ws p)) ns := by
  have hne : onward p ns ≠ "" := ofElements_ne_empty _ _
  obtain ⟨xs, hxs, hparts, hclimb⟩ := exists_parts_onward p hns
  have hnames : ns.dropWhile isBack = ns ∧ ns.takeWhile isBack = [] := by
    cases ns with
    | nil => exact ⟨rfl, rfl⟩
    | cons n ns => simp [isBack_of_plain (hns n mem_cons_self)]
  have hrooted : isRooted (onward p ns) = isRooted p :=
    isRooted_ofElements (normal_onward p hns)
  unfold pathFault at h
  unfold locate
  rw [if_neg (by simpa using hne)]
  split at h
  · nomatch h
  · rw [if_neg (by assumption)]
    split at h
    · nomatch h
    · rw [if_neg (by assumption)]
      simp only [hparts, hrooted, hf.workDir, takeWhile_append_of_pos hxs,
        dropWhile_append_of_pos hxs, hnames, append_nil, hclimb ws hf.plain]

/-- Directories all the way from a place along names. -/
def Opens (f : Files) (es ns : List String) : Prop :=
  ∀ ms m, ms ++ [m] <+: ns → f.lookup? (placeAt (es ++ ms)) = some .directory

lemma opens_nil (f : Files) (es : List String) : f.Opens es [] := by
  intro ms m h
  simp at h

lemma opens_cons :
    f.Opens es (n :: ns) ↔ f.lookup? (placeAt es) = some .directory ∧ f.Opens (es ++ [n]) ns := by
  constructor
  · intro h
    refine ⟨by simpa using h [] n (by simp), fun ms m hms => ?_⟩
    simpa using h (n :: ms) m (by simpa using hms)
  · rintro ⟨hdir, h⟩ ms m hms
    cases ms with
    | nil => simpa using hdir
    | cons k ms =>
      rw [cons_append, cons_prefix_cons] at hms
      obtain ⟨rfl, hms⟩ := hms
      simpa using h ms m hms

lemma opens_concat {es ns : List String} :
    f.Opens es (ns ++ [n]) ↔ f.Opens es ns ∧ f.lookup? (placeAt (es ++ ns)) = some .directory := by
  constructor
  · intro h
    exact ⟨fun ms m hms => h ms m (hms.trans (prefix_append _ _)), h ns n prefix_rfl⟩
  · rintro ⟨h, hdir⟩ ms m hms
    rcases prefix_concat_iff.mp hms with heq | hms
    · rw [(append_inj_left' heq rfl)]
      exact hdir
    · exact h ms m hms

lemma walk_eq_ok_iff {es ns : List String} (hes : Plains es) (hns : Plains ns) :
    f.walk (placeAt es) ns = .ok q ↔
      q = placeAt (es ++ ns) ∧ (∀ n ∈ ns, n.utf8ByteSize ≤ 255) ∧ f.Opens es ns := by
  induction ns generalizing es with
  | nil => simp [walk, opens_nil, eq_comm]
  | cons n ns ih =>
    obtain ⟨hn, hns⟩ := forall_mem_cons.mp hns
    have hes' : Plains (es ++ [n]) :=
      hes.concat hn
    rw [walk, opens_cons]
    cases hp : f.lookup? (placeAt es) with
    | none => simp
    | some entry =>
      cases entry with
      | file bs => simp
      | directory =>
        have hstep : (n == "" || n == ".") = false ∧ (n == "..") = false := by
          simp [hn.ne_empty, hn.ne_dot, hn.ne_dots]
        simp only [hstep, Bool.false_eq_true, if_false, child_placeAt hes]
        split
        · rename_i hlong
          simp [Nat.not_le.mpr hlong]
        · rename_i hshort
          rw [ih hes' hns]
          simp [Nat.not_lt.mp hshort]

/-- A path that can lead somewhere. -/
structure Passable (p : String) (ns : List String) : Prop where
  fault : pathFault (Path.onward p ns) = none
  short : ∀ n ∈ ns, n.utf8ByteSize ≤ 255

lemma locate_eq_ok_iff (hf : f.WorksAt ws) (hns : Plains ns) :
    f.locate (onward p ns) = .ok q ↔
      q = placeAt (base ws p ++ ns) ∧ Passable p ns ∧ f.Opens (base ws p) ns := by
  cases hfault : pathFault (onward p ns) with
  | some e =>
    rw [locate_of_pathFault hfault]
    exact iff_of_false (by nofun) fun h => absurd (hfault.symm.trans h.2.1.fault) nofun
  | none =>
    rw [locate_onward hf hns hfault, walk_eq_ok_iff (plain_base hf.plain p) hns]
    exact ⟨fun ⟨hq, hshort, hopens⟩ => ⟨hq, ⟨hfault, hshort⟩, hopens⟩,
      fun ⟨hq, hpass, hopens⟩ => ⟨hq, hpass.short, hopens⟩⟩

lemma find_eq_ok_iff (hf : f.WorksAt ws) (hns : Plains ns) {e : Entry} :
    f.find (onward p ns) = .ok e ↔ Passable p ns ∧ f.Opens (base ws p) ns ∧
      f.lookup? (placeAt (base ws p ++ ns)) = some e := by
  unfold find
  cases hl : f.locate (onward p ns) with
  | error x =>
    refine iff_of_false (by nofun) ?_
    rintro ⟨hpass, hopens, -⟩
    have hok := (locate_eq_ok_iff hf hns).mpr ⟨rfl, hpass, hopens⟩
    exact absurd (hl.symm.trans hok) nofun
  | ok q =>
    obtain ⟨rfl, hpass, hopens⟩ := (locate_eq_ok_iff hf hns).mp hl
    simp only [Bind.bind, Except.bind]
    cases f.lookup? (placeAt (base ws p ++ ns)) with
    | none => simp
    | some x => simp [hpass, hopens]

end Files

end ReactiveModel
