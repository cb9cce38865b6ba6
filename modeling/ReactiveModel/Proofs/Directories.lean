import ReactiveModel.Proofs.Drift

/-! Directories that are made. Entries stand in directories, and whether directories can be made
along a path depends only on the files that are in its way. -/

namespace ReactiveModel

open List ReactiveModel.Path

variable {es : List String}

namespace Path

/-- The paths with the first elements of a list, from the longest down. -/
def lineage (rooted : Bool) (es : List String) : List String :=
  (List.range es.length).map fun n => ofElements rooted (es.take (es.length - n))

lemma lineage_concat (rooted : Bool) (es : List String) (e : String) :
    lineage rooted (es ++ [e]) = ofElements rooted (es ++ [e]) :: lineage rooted es := by
  unfold lineage
  rw [length_append, length_singleton, range_succ_eq_map, map_cons,
    List.map_map]
  have hfirst : (es ++ [e]).take (es.length + 1 - 0) = es ++ [e] :=
    take_of_length_le (by simp)
  rw [hfirst]
  refine congrArg _ (map_congr_left fun n _ => ?_)
  have hrest : (es ++ [e]).take (es.length + 1 - (n + 1)) = es.take (es.length - n) := by
    rw [Nat.add_sub_add_right, take_append_of_le_length (Nat.sub_le _ _)]
  exact congrArg _ hrest

lemma Normal.take {rooted : Bool} (h : Normal rooted es.reverse) (k : Nat) :
    Normal rooted (es.take k).reverse := by
  induction es using List.reverseRecOn with
  | nil => simpa using h
  | append_singleton es e ih =>
    rw [reverse_concat] at h
    rcases Nat.lt_or_ge es.length k with hk | hk
    · rw [take_of_length_le (by simpa using Nat.succ_le_of_lt hk), reverse_concat]
      exact h
    · rw [take_append_of_le_length hk]
      exact ih h.tail

end Path

namespace Files

variable {ns : List String} {p : String} {f : Files} {ws : List String} {n : String}

lemma ancestry_ofElements {rooted : Bool} (h : Normal rooted es.reverse)
    (hne : es ≠ []) : ancestry (Path.ofElements rooted es) = Path.lineage rooted es := by
  have hparts : (if rooted then (parts (Path.ofElements rooted es)).tail
      else parts (Path.ofElements rooted es)) = es := by
    have hjoined := parts_intercalate hne fun e he => h.slash (mem_reverse.mpr he)
    cases rooted with
    | true =>
      have hpath : Path.ofElements true es = "" ++ "/" ++ "/".intercalate es := by
        simp [Path.ofElements]
      rw [hpath, parts_append, hjoined]
      rfl
    | false =>
      have hpath : Path.ofElements false es = "/".intercalate es := by
        simp [Path.ofElements, mt (intercalate_eq_empty_iff h).mp hne]
      simp [hpath, hjoined]
  unfold ancestry Path.lineage
  simp only [isRooted_ofElements h, hparts]
  refine map_congr_left fun n hn => ?_
  have hsome : es.take (es.length - n) ≠ [] := by
    have hlt := mem_range.mp hn
    rw [ne_eq, take_eq_nil_iff, not_or]
    exact ⟨by omega, hne⟩
  cases rooted with
  | true => rfl
  | false =>
    simp [Path.ofElements, mt (intercalate_eq_empty_iff (h.take (es.length - n))).mp hsome]

lemma pathFault_onward (h : Plains ns)
    (hfault : pathFault (onward p (ns ++ [n])) = none) : pathFault (onward p ns) = none := by
  unfold onward at *
  by_cases hne : List.replicate (backs p) ".." ++ ns = []
  · rw [hne]
    cases isRooted p <;> decide
  · rw [← append_assoc, ofElements_concat (normal_onward p h) hne] at hfault
    unfold pathFault at hfault ⊢
    split at hfault
    · nomatch hfault
    · rename_i hzero
      split at hfault
      · nomatch hfault
      · rename_i hlong
        simp only [String.toList_append, append_assoc, contains_append, Bool.or_eq_true,
          not_or, String.utf8ByteSize_append] at hzero hlong
        rw [if_neg hzero.1, if_neg (by omega)]

lemma Passable.of_concat (hns : Plains ns) (h : Passable p (ns ++ [n])) : Passable p ns :=
  ⟨pathFault_onward hns h.fault, fun m hm => h.short m (mem_append_left _ hm)⟩

/-! Where a path leads if the directories on its way are there. -/

lemma walk_of_opens {es ns : List String} (hes : Plains es) (hns : Plains ns) (h : f.Opens es ns) :
    f.walk (placeAt es) ns = if ns.any (255 < ·.utf8ByteSize) then .error .nameTooLong
      else .ok (placeAt (es ++ ns)) := by
  induction ns generalizing es with
  | nil => simp [walk]
  | cons n ns ih =>
    obtain ⟨hn, hns⟩ := forall_mem_cons.mp hns
    obtain ⟨hdir, hopens⟩ := opens_cons.mp h
    have hes' : Plains (es ++ [n]) :=
      hes.concat hn
    have hstep : (n == "" || n == ".") = false ∧ (n == "..") = false := by
      simp [hn.ne_empty, hn.ne_dot, hn.ne_dots]
    simp only [walk, hdir, hstep, Bool.false_eq_true, if_false, child_placeAt hes,
      ih hes' hns hopens, any_cons, Bool.or_eq_true, decide_eq_true_eq, append_assoc,
      singleton_append]
    split
    · rename_i hlong
      rw [if_pos (.inl hlong)]
    · rename_i hshort
      simp only [hshort, false_or]

/-- What keeps a path from leading anywhere although the directories on its way are there. -/
def stuck (p : String) (ns : List String) : Option PathFault :=
  (pathFault (Path.onward p ns)).or
    (if ns.any (255 < ·.utf8ByteSize) then some .nameTooLong else none)

lemma stuck_eq_none_iff : stuck p ns = none ↔ Passable p ns := by
  have hshort : (∀ n ∈ ns, n.utf8ByteSize ≤ 255) ↔
      ¬(ns.any (255 < ·.utf8ByteSize)) = true := by
    simp
  rw [stuck, Option.or_eq_none_iff, ite_eq_right_iff]
  refine ⟨fun h => ⟨h.1, hshort.mpr fun hlong => nomatch h.2 hlong⟩, fun h => ⟨h.fault, ?_⟩⟩
  exact fun hlong => absurd hlong (hshort.mp h.short)

lemma locate_of_opens (hf : f.WorksAt ws)
    (hns : Plains ns) (h : f.Opens (base ws p) ns) : f.locate (onward p ns) =
      (stuck p ns).elim (.ok (placeAt (base ws p ++ ns))) .error := by
  unfold stuck
  cases hfault : pathFault (onward p ns) with
  | some e => exact locate_of_pathFault hfault
  | none =>
    rw [locate_onward hf hns hfault, walk_of_opens (plain_base hf.plain p) hns h]
    split <;> rfl

/-! Directories along a path. -/

/-- What stops directories from being made along a path that goes back only. -/
def backFault : Nat → Option FileFailure
  | 0 => none
  | k + 1 =>
    (pathFault (Path.ofElements false (List.replicate (k + 1) ".."))).bind fun e =>
      (backFault k).or (some ⟨"mkdir", Path.ofElements false (List.replicate (k + 1) ".."), e⟩)

/-- What stops a directory from being made in the one before it. -/
def hurdle (f : Files) (es : List String) (p : String) (ns : List String) : Option FileFailure :=
  ((stuck p ns).or
    (if (f.content? (placeAt (es ++ ns))).isSome then some .notDirectory else none)).map
      fun e => ⟨"mkdir", Path.onward p ns, e⟩

/-- The first thing that stops directories from being made along a path. -/
def obstacle (f : Files) (es : List String) (p : String) (ns : List String) : Option FileFailure :=
  (backFault (Path.backs p)).or
    ((List.range ns.length).filterMap fun k => f.hurdle es p (ns.take (k + 1))).head?

lemma obstacle_nil (f : Files) (es : List String) (p : String) :
    f.obstacle es p [] = backFault (backs p) := by
  simp [obstacle]

lemma obstacle_concat (f : Files) (es : List String) (p : String) (ns : List String) (n : String) :
    f.obstacle es p (ns ++ [n]) = (f.obstacle es p ns).or (f.hurdle es p (ns ++ [n])) := by
  have hbefore : ((List.range ns.length).filterMap fun k =>
        f.hurdle es p ((ns ++ [n]).take (k + 1))) =
      (List.range ns.length).filterMap fun k => f.hurdle es p (ns.take (k + 1)) := by
    refine filterMap_congr fun k hk => ?_
    rw [take_append_of_le_length (Nat.succ_le_of_lt (mem_range.mp hk))]
  have hlast : (ns ++ [n]).take (ns.length + 1) = ns ++ [n] := take_of_length_le (by simp)
  unfold obstacle
  rw [length_append, length_singleton, range_succ, filterMap_append, hbefore,
    List.head?_append, ← Option.or_assoc]
  simp only [List.filterMap_cons, List.filterMap_nil, hlast]
  cases f.hurdle es p (ns ++ [n]) <;> rfl

lemma obstacle_congr {f g : Files} {es ns : List String} (p : String)
    (h : ∀ ms, ms ≠ [] → ms <+: ns →
      g.content? (placeAt (es ++ ms)) = f.content? (placeAt (es ++ ms))) :
    g.obstacle es p ns = f.obstacle es p ns := by
  refine congrArg (fun es => (backFault _).or es.head?) (filterMap_congr fun k hk => ?_)
  have hne : ns.take (k + 1) ≠ [] := by
    have hlt := mem_range.mp hk
    rw [ne_eq, take_eq_nil_iff, not_or]
    exact ⟨Nat.succ_ne_zero k, ne_nil_of_length_pos (by omega)⟩
  unfold hurdle
  rw [h _ hne ( take_prefix _ _)]

lemma hurdle_of_passable (h : Passable p ns) : f.hurdle es p ns =
      if (f.content? (placeAt (es ++ ns))).isSome then
        some ⟨"mkdir", onward p ns, .notDirectory⟩ else none := by
  rw [hurdle, stuck_eq_none_iff.mpr h]
  split <;> rfl

lemma passable_of_hurdle (h : f.hurdle es p ns = none) : Passable p ns := by
  rw [hurdle, Option.map_eq_none_iff, Option.or_eq_none_iff] at h
  exact stuck_eq_none_iff.mp h.1

lemma backFault_of_passable (h : Passable p []) : backFault (backs p) = none := by
  have hrooted := (backs_names p).2.2
  have hfault := h.fault
  unfold onward at hfault
  cases hk : backs p with
  | zero => rfl
  | succ k =>
    have hr : isRooted p = false :=
      eq_false_of_ne_true fun hr => absurd (hrooted hr) (by omega)
    rw [hr, hk, append_nil] at hfault
    rw [backFault, hfault]
    rfl

lemma obstacle_eq_none (hns : Plains ns) (hpass : Passable p ns) (hopens : f.Opens es ns)
    (hend : f.content? (placeAt (es ++ ns)) = none) : f.obstacle es p ns = none := by
  induction ns using List.reverseRecOn with
  | nil => rw [obstacle_nil, backFault_of_passable hpass]
  | append_singleton ns n ih =>
    have hns' : Plains ns := hns.left
    obtain ⟨hopens, hdir⟩ := opens_concat.mp hopens
    rw [obstacle_concat, hurdle_of_passable hpass, hend,
      ih hns' (hpass.of_concat hns') hopens (by simp [content?, hdir])]
    rfl

/-- Files in which a path has a directory to start from. A path that is too long to go back all the
way needs more of them. -/
structure Grounded (f : Files) (ws : List String) (p : String) : Prop extends WorksAt f ws where
  treelike : f.Treelike
  origin : f.lookup? (placeAt (base ws p)) = some .directory
  around : pathFault (Path.onward p []) ≠ none →
    ∀ k, f.lookup? (placeAt (ws.take k)) = some .directory

/-- Files as they can be: every entry stands in a directory, and so does the work directory, which
is one itself. -/
structure WellFormed (f : Files) : Prop where
  treelike : f.Treelike
  workDir : ∃ ws, f.WorksAt ws ∧ f.lookup? (placeAt ws) = some .directory

lemma WellFormed.around (h : f.WellFormed) :
    ∃ ws, f.WorksAt ws ∧ ∀ k, f.lookup? (placeAt (ws.take k)) = some .directory := by
  obtain ⟨ws, hworks, hdir⟩ := h.workDir
  have hopens : f.Opens [] ws := h.treelike.opens (by simpa using hworks.plain) (by simp [hdir])
  refine ⟨ws, hworks, fun k => ?_⟩
  cases hrest : ws.drop k with
  | nil =>
    rw [take_of_length_le (drop_eq_nil_iff.mp hrest)]
    exact hdir
  | cons e es =>
    refine hopens (ws.take k) e ⟨es, ?_⟩
    rw [append_assoc, singleton_append, ← hrest, take_append_drop]

lemma exists_base_eq_take (ws : List String) (p : String) : ∃ k, base ws p = ws.take k := by
  unfold base
  split
  · exact ⟨0, rfl⟩
  · exact ⟨_, rfl⟩

lemma WellFormed.grounded (h : f.WellFormed) : ∃ ws, ∀ p, f.Grounded ws p := by
  obtain ⟨ws, hworks, haround⟩ := h.around
  refine ⟨ws, fun p => ⟨hworks, h.treelike, ?_, fun _ => haround⟩⟩
  obtain ⟨k, hk⟩ := exists_base_eq_take ws p
  rw [hk]
  exact haround k

lemma wellFormed_work : (ofWorkDir "/work").WellFormed := by
  have hplain : Plains ["work"] := by
    rintro e he
    obtain rfl := mem_singleton.mp he
    exact ⟨by decide, by decide, by decide, by decide⟩
  have hentries : (ofWorkDir "/work").entries = [("/work", .directory)] := by decide
  have hwork : placeAt ["work"] = "/work" := by decide
  have hdir : (ofWorkDir "/work").lookup? (placeAt ["work"]) = some .directory := by decide
  refine ⟨fun es e hes hsome => ?_, ["work"], ⟨hplain, hwork.symm⟩, hdir⟩
  have hplace : placeAt (es ++ [e]) = placeAt ["work"] := by
    by_contra hne
    rw [hwork] at hne
    simp [lookup?, hentries, placeAt_concat_ne_root hes, hne] at hsome
  have hlist := placeAt_inj hes hplain hplace
  obtain ⟨rfl, -⟩ := append_eq_singleton_iff.mp hlist |>.resolve_right (by simp)
  decide

lemma find_base (hf : f.WorksAt ws) (hbase : f.lookup? (placeAt (base ws p)) = some .directory)
    (hfault : pathFault (onward p []) = none) : f.find (onward p []) = .ok .directory := by
  refine (find_eq_ok_iff hf (forall_mem_nil _)).mpr ?_
  exact ⟨⟨hfault, forall_mem_nil _⟩, f.opens_nil _, by simpa using hbase⟩

lemma onward_backs (k : Nat) :
    onward (Path.ofElements false (List.replicate k "..")) [] =
      Path.ofElements false (List.replicate k "..") ∧
    ∀ ws, base ws (Path.ofElements false (List.replicate k "..")) = ws.take (ws.length - k) := by
  have hnormal : Normal false (List.replicate k "..").reverse := by
    rw [reverse_replicate]
    cases k with
    | zero => exact .nil
    | succ k => exact .back rfl fun d hd => eq_of_mem_replicate hd
  have hrooted := isRooted_ofElements hnormal
  have hbacks : backs (Path.ofElements false (List.replicate k "..")) = k := by
    rw [backs, elements_ofElements hnormal]
    simp
  exact ⟨by rw [onward, hrooted, hbacks, append_nil], fun ws => by
    rw [base, hrooted, hbacks, if_neg Bool.false_ne_true]⟩

lemma makeFirst_backs (hf : f.WorksAt ws)
    (haround : ∀ k, f.lookup? (placeAt (ws.take k)) = some .directory) (k : Nat) :
    f.makeFirst (Path.lineage false (List.replicate k "..")) = (backFault k, f) := by
  induction k with
  | zero => rfl
  | succ k ih =>
    obtain ⟨honward, hbase⟩ := onward_backs (k + 1)
    rw [replicate_succ', lineage_concat, ← replicate_succ', makeFirst, backFault]
    generalize Path.ofElements false (List.replicate (k + 1) "..") = q at *
    cases hfault : pathFault q with
    | none =>
      have hfind := find_base hf (by rw [hbase]; exact haround _)
        (by rw [honward]; exact hfault)
      rw [honward] at hfind
      simp [hfind]
    | some e =>
      have hlocate := locate_of_pathFault (f := f) (honward.symm ▸ hfault)
      rw [honward] at hlocate
      have hfind : f.find q = .error e := by
        rw [find, hlocate]
        rfl
      rw [hfind, ih]
      cases backFault k with
      | some e => rfl
      | none => simp [makeDirectory_unlocked, hlocate]

lemma makeFirst_base (h : f.Grounded ws p) :
    f.makeFirst (Path.lineage (isRooted p) (List.replicate (backs p) "..")) =
      (backFault (backs p), f) := by
  have hrooted := (backs_names p).2.2
  cases hk : backs p with
  | zero => rfl
  | succ k =>
    have hr : isRooted p = false :=
      eq_false_of_ne_true fun hr => absurd (hrooted hr) (by omega)
    have honward : onward p [] = Path.ofElements false (List.replicate (k + 1) "..") := by
      rw [onward, hr, hk, append_nil]
    rw [hr]
    by_cases hfault : pathFault (onward p []) = none
    · have hfind := find_base h.toWorksAt h.origin hfault
      rw [honward] at hfind hfault
      rw [replicate_succ', lineage_concat, ← replicate_succ', makeFirst, backFault,
        hfind, hfault]
      rfl
    · exact makeFirst_backs h.toWorksAt (h.around hfault) (k + 1)

lemma makeDirectories_onward (h : f.Grounded ws p)
    (hns : Plains ns) : f.makeDirectories (onward p ns) =
      f.makeFirst (Path.lineage (isRooted p) (List.replicate (backs p) ".." ++ ns)) := by
  unfold makeDirectories
  by_cases hne : List.replicate (backs p) ".." ++ ns = []
  · -- the path is the root or the work directory, and nothing has to be made
    obtain ⟨hbacks, rfl⟩ := append_eq_nil_iff.mp hne
    have hstart : ancestry (onward p []) = [onward p []] ∧
        pathFault (onward p []) = none := by
      rw [onward, hne]
      cases isRooted p <;> decide
    rw [hstart.1, makeFirst, find_base h.toWorksAt h.origin hstart.2, hne]
    rfl
  · rw [onward, ancestry_ofElements (normal_onward p hns) hne]

/-- Directories made at places along some names. -/
def along (es ns : List String) : Reach where
  free _ := False
  opened q := ∃ ms, ms ≠ [] ∧ ms <+: ns ∧ q = placeAt (es ++ ms)
  closed _ := False

lemma along_within (es : List String) {ns ms : List String} (h : ns <+: ms) :
    (along es ns).Within (along es ms) :=
  ⟨nofun, fun _ ⟨ks, hne, hks, hq⟩ => ⟨ks, hne, hks.trans h, hq⟩, nofun⟩

lemma not_opened_along {es ns : List String} (h : Plains (es ++ (ns ++ [n]))) :
    ¬(along es ns).opened (placeAt (es ++ (ns ++ [n]))) := by
  rintro ⟨ms, -, hms, heq⟩
  have hsub : es ++ ms ⊆ es ++ (ns ++ [n]) :=
    append_subset.mpr ⟨subset_append_left .., fun m hm =>
      mem_append_right _ (mem_append_left _ (hms.subset hm))⟩
  have hlength := congrArg List.length (placeAt_inj h (fun m hm => h m (hsub hm)) heq)
  have hle := hms.length_le
  simp only [length_append, length_singleton] at hlength
  omega

lemma lookup?_eq_none_of_find (hf : f.WorksAt ws) (ht : f.Treelike) (hns : Plains ns)
    (hpass : Passable p ns) {e : PathFault} (h : f.find (onward p ns) = .error e) :
    f.lookup? (placeAt (base ws p ++ ns)) = none := by
  by_contra hsome
  obtain ⟨x, hx⟩ := Option.ne_none_iff_exists'.mp hsome
  have hplain : Plains (base ws p ++ ns) :=
    (plain_base hf.plain p).append hns
  have hok := (find_eq_ok_iff hf hns).mpr ⟨hpass, ht.opens hplain hsome, hx⟩
  exact absurd (h.symm.trans hok) nofun

lemma makeDirectory_onward (hf : f.WorksAt ws) (ht : f.Treelike) (hns : Plains (ns ++ [n]))
    (hdir : f.lookup? (placeAt (base ws p ++ ns)) = some .directory)
    (hend : Passable p (ns ++ [n]) → f.lookup? (placeAt (base ws p ++ (ns ++ [n]))) = none) :
    f.makeDirectory (onward p (ns ++ [n])) = (f.hurdle (base ws p) p (ns ++ [n]),
      if f.hurdle (base ws p) p (ns ++ [n]) = none then
        f.set (placeAt (base ws p ++ (ns ++ [n]))) .directory else f) := by
  have hplain : Plains (base ws p ++ ns) := (plain_base hf.plain p).append hns.left
  have hopens : f.Opens (base ws p) (ns ++ [n]) :=
    opens_concat.mpr ⟨ht.opens hplain (by simp [hdir]), hdir⟩
  rw [makeDirectory_unlocked, hurdle, locate_of_opens hf hns hopens]
  cases hstuck : stuck p (ns ++ [n]) with
  | some e => rfl
  | none => simp [hend (stuck_eq_none_iff.mp hstuck), content?]

lemma drift_set_directory {es : List String} (hplain : Plains (es ++ (ns ++ [n])))
    (hdir : f.lookup? (placeAt (es ++ ns)) = some .directory)
    (hnone : f.lookup? (placeAt (es ++ (ns ++ [n]))) = none) :
    f.Drift (along es (ns ++ [n])) (f.set (placeAt (es ++ (ns ++ [n]))) .directory) := by
  refine ⟨rfl, fun ht => ?_, fun q => ?_⟩
  · rw [← append_assoc] at hplain ⊢
    exact ht.set hplain hdir fun _ => rfl
  · by_cases hq : q = placeAt (es ++ (ns ++ [n]))
    · subst hq
      rw [hnone, lookup?_set_directory]
      exact .opened ⟨ns ++ [n], by simp, prefix_rfl, rfl⟩
    · rw [lookup?_set_of_ne hq]
      exact .same _

/-- Each directory on the way is there in the end, as far as nothing is in the way of it. -/
lemma makeFirst_onward (h : f.Grounded ws p) (hns : Plains ns) {r : Option FileFailure} {g : Files}
    (hr : f.makeFirst (Path.lineage (isRooted p) (List.replicate (backs p) ".." ++ ns)) = (r, g)) :
    r = f.obstacle (base ws p) p ns ∧ f.Drift (along (base ws p) ns) g ∧
      (r = none → g.lookup? (placeAt (base ws p ++ ns)) = some .directory) ∧
      ∀ ms, ms ≠ [] → ms <+: ns → g.lookup? (placeAt (base ws p ++ ms)) =
        if f.obstacle (base ws p) p ms = none then some .directory
        else f.lookup? (placeAt (base ws p ++ ms)) := by
  -- the induction follows the path from its end, as the directories are looked for
  induction ns using List.reverseRecOn generalizing r g with
  | nil =>
    rw [append_nil, makeFirst_base h] at hr
    cases hr
    exact ⟨(obstacle_nil ..).symm, .refl _ f, fun _ => by simpa using h.origin,
      fun ms hne hms => absurd (prefix_nil.mp hms) hne⟩
  | append_singleton ns n ih =>
    have hns' : Plains ns := hns.left
    rw [← append_assoc, lineage_concat, makeFirst, append_assoc, ← onward] at hr
    cases hfind : f.find (onward p (ns ++ [n])) with
    | ok e =>
      -- nothing has to be made
      obtain ⟨hpass, hopens, hentry⟩ := (find_eq_ok_iff h.toWorksAt hns).mp hfind
      obtain ⟨hbefore, hdir⟩ := opens_concat.mp hopens
      obtain ⟨rfl, rfl, hlast⟩ : r = f.obstacle (base ws p) p (ns ++ [n]) ∧ g = f ∧
          (r = none → e = .directory) := by
        rw [obstacle_concat, obstacle_eq_none hns' (hpass.of_concat hns') hbefore
          (by simp [content?, hdir]), hurdle_of_passable hpass, content?, hentry]
        rw [hfind] at hr
        cases e <;> cases hr <;> simp
      refine ⟨rfl, .refl _ g, fun hnone => hlast hnone ▸ hentry, fun ms hne hms => ?_⟩
      split
      · rename_i hnone
        obtain ⟨_ | ⟨m, rest⟩, hrest⟩ := hms
        · rw [append_nil] at hrest
          subst hrest
          exact hlast hnone ▸ hentry
        · exact hopens ms m ⟨rest, by simpa using hrest⟩
      · rfl
    | error e =>
      rw [hfind] at hr
      have hplain : Plains (base ws p ++ (ns ++ [n])) := (plain_base h.plain p).append hns
      have hwithin := along_within (base ws p) (prefix_append ns [n])
      cases hrest : f.makeFirst
        (Path.lineage (isRooted p) (List.replicate (backs p) ".." ++ ns)) with
      | mk r' f' =>
        obtain ⟨hr', hdrift, hdir, hway⟩ := ih hns' hrest
        have hsame := hdrift.lookup?_eq not_false (not_opened_along hplain) not_false
        have hend (hpass : Passable p (ns ++ [n])) := hsame.trans
          (lookup?_eq_none_of_find h.toWorksAt h.treelike hns hpass hfind)
        obtain ⟨rfl, rfl⟩ : f.obstacle (base ws p) p (ns ++ [n]) = r ∧
            (if f.obstacle (base ws p) p (ns ++ [n]) = none then
              f'.set (placeAt (base ws p ++ (ns ++ [n]))) .directory else f') = g := by
          rw [hrest] at hr
          rw [obstacle_concat, ← hr']
          cases r' with
          | some e =>
            cases hr
            exact ⟨rfl, rfl⟩
          | none =>
            have hmade := makeDirectory_onward ⟨h.plain, hdrift.workDir.trans h.workDir⟩
              (hdrift.treelike h.treelike) hns (hdir rfl) hend
            rw [hurdle, hdrift.content?_eq not_false, ← hurdle] at hmade
            exact Prod.mk.inj (hmade.symm.trans hr)
        by_cases hnone : f.obstacle (base ws p) p (ns ++ [n]) = none
        · obtain ⟨hbefore, hhurdle⟩ :=
            Option.or_eq_none_iff.mp ((obstacle_concat ..).symm.trans hnone)
          rw [if_pos hnone]
          refine ⟨rfl, (hdrift.mono hwithin).trans (drift_set_directory hplain
            (hdir (hr'.trans hbefore)) (hend (passable_of_hurdle hhurdle))),
            fun _ => lookup?_set_directory .., fun ms hne hms => ?_⟩
          rcases prefix_concat_iff.mp hms with rfl | hms
          · rw [if_pos hnone, lookup?_set_directory]
          · rw [lookup?_set_of_ne fun heq => not_opened_along hplain ⟨ms, hne, hms, heq.symm⟩,
              hway ms hne hms]
        · rw [if_neg hnone]
          refine ⟨rfl, hdrift.mono hwithin, fun h => absurd h hnone, fun ms hne hms => ?_⟩
          rcases prefix_concat_iff.mp hms with rfl | hms
          · rw [if_neg hnone, hsame]
          · exact hway ms hne hms

/-- Directories are made unless something is in the way. Nothing else is changed. -/
lemma makeDirectories_spec (h : f.Grounded ws p)
    (hns : Plains ns) : (f.makeDirectories (onward p ns)).1 = f.obstacle (base ws p) p ns ∧
      f.Drift (along (base ws p) ns) (f.makeDirectories (onward p ns)).2 ∧
      ((f.makeDirectories (onward p ns)).1 = none →
        (f.makeDirectories (onward p ns)).2.lookup? (placeAt (base ws p ++ ns)) =
          some .directory) := by
  obtain ⟨hanswer, hdrift, hdir, -⟩ := makeFirst_onward h hns (makeDirectories_onward h hns).symm
  exact ⟨hanswer, hdrift, hdir⟩

end Files

end ReactiveModel
