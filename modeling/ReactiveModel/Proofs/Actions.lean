import ReactiveModel.Proofs.Directories

/-! Actions on the paths below a directory: what they find and change, and that they find the same
in files that differ elsewhere. -/

namespace ReactiveModel.Files

open List ReactiveModel.Path

variable {es ns ws : List String} {f : Files}

lemma foldl_child_placeAt (hes : Plains es) (hns : Plains ns) :
    ns.foldl child (placeAt es) = placeAt (es ++ ns) := by
  induction ns generalizing es with
  | nil => simp
  | cons n ns ih =>
    obtain ⟨hn, hns⟩ := forall_mem_cons.mp hns
    have hes' : Plains (es ++ [n]) :=
      hes.concat hn
    rw [foldl_cons, child_placeAt hes, ih hes' hns, append_assoc, singleton_append]

lemma placeOf_onward (hws : Plains ws) (p : String) (hns : Plains ns) :
    placeOf (placeAt ws) (onward p ns) = placeAt (base ws p ++ ns) := by
  have hback : ∀ e ∈ List.replicate (backs p) "..", isBack e = true := by
    intro e he
    rw [eq_of_mem_replicate he]
    decide
  have hstart : climb (start (placeAt ws) (isRooted p)) (List.replicate (backs p) "..") =
      placeAt (base ws p) := by
    unfold start base
    cases hr : isRooted p with
    | true =>
      rw [(backs_names p).2.2 hr]
      exact placeAt_nil.symm
    | false => exact climb_placeAt hws (backs p)
  rw [onward, placeOf_ofElements (normal_onward p hns), foldl_append,
    ← climb_eq hback, hstart, foldl_descend_plain hns, foldl_child_placeAt (plain_base hws p) hns]

/-- The places of a path and those in front of it: above the work directory, or along the names that
the path goes. -/
lemma placeOf_ancestry (hws : Plains ws) {p a : String} (hns : Plains ns)
    (ha : a ∈ ancestry (onward p ns)) :
    (∃ k, placeOf (placeAt ws) a = placeAt (ws.take k)) ∨
      (along (base ws p) ns).opened (placeOf (placeAt ws) a) := by
  have hstart (q : String) : ∃ k, placeOf (placeAt ws) (onward q []) = placeAt (ws.take k) := by
    obtain ⟨k, hk⟩ := exists_base_eq_take ws q
    exact ⟨k, by rw [placeOf_onward hws q (forall_mem_nil _), hk, append_nil]⟩
  by_cases hne : List.replicate (backs p) ".." ++ ns = []
  · obtain ⟨-, rfl⟩ := append_eq_nil_iff.mp hne
    have hself : ancestry (onward p []) = [onward p []] := by
      rw [onward, hne]
      cases isRooted p <;> decide
    rw [hself] at ha
    obtain rfl := mem_singleton.mp ha
    exact .inl (hstart p)
  · rw [onward, ancestry_ofElements (normal_onward p hns) hne] at ha
    obtain ⟨n, hn, rfl⟩ := mem_map.mp ha
    have hlt := mem_range.mp hn
    rw [length_append, length_replicate] at hlt ⊢
    rw [take_append, take_replicate, length_replicate]
    generalize hj : backs p + ns.length - n = j
    rcases Nat.lt_or_ge (backs p) j with hlong | hshort
    · refine .inr ⟨ns.take (j - backs p), ?_, take_prefix .., ?_⟩
      · rw [ne_eq, take_eq_nil_iff, not_or]
        refine ⟨by omega, fun hnil => ?_⟩
        rw [hnil, length_nil] at hj
        omega
      · rw [Nat.min_eq_right (Nat.le_of_lt hlong)]
        exact placeOf_onward hws p fun m hm => hns m (mem_of_mem_take hm)
    · -- the path goes back, so it does not start from the root
      have hr : isRooted p = false :=
        eq_false_of_ne_true fun hr => absurd ((backs_names p).2.2 hr) (by omega)
      rw [Nat.min_eq_left hshort, Nat.sub_eq_zero_of_le hshort, take_zero, append_nil, hr,
        ← (onward_backs j).1]
      exact .inl (hstart _)

/-! One place at a time. -/

section

variable {r : Reach} {f g : Files} {es : List String} {e q : String} {x : Entry}

lemma drift_set (hplain : Plains (es ++ [e])) (hdir : f.lookup? (placeAt es) = some .directory)
    (hx : f.lookup? (placeAt (es ++ [e])) = some .directory → x = .directory)
    (hfree : r.free (placeAt (es ++ [e]))) : f.Drift r (f.set (placeAt (es ++ [e])) x) := by
  refine ⟨rfl, fun ht => ht.set hplain hdir hx, fun q => ?_⟩
  by_cases hq : q = placeAt (es ++ [e])
  · exact .free (hq ▸ hfree) _ _
  · rw [lookup?_set_of_ne hq]
    exact .same _

lemma drift_unset (hplain : Plains es)
    (hempty : ∀ e, (Plains (es ++ [e])) → f.lookup? (placeAt (es ++ [e])) = none)
    (hq : r.free (placeAt es) ∨ r.closed (placeAt es) ∧ f.lookup? (placeAt es) = some .directory) :
    f.Drift r (f.unset (placeAt es)) := by
  refine ⟨rfl, fun ht => ht.unset hplain hempty, fun q => ?_⟩
  by_cases heq : q = placeAt es
  · subst heq
    rcases hq with hfree | ⟨hclosed, hdir⟩
    · exact .free hfree _ _
    · rw [lookup?_unset, hdir]
      by_cases hroot : placeAt es = "/"
      · rw [if_pos hroot]
        exact .same _
      · rw [if_neg hroot, if_pos rfl]
        exact .closed hclosed
  · rw [lookup?_unset_of_ne heq]
    exact .same _

lemma Drift.set (h : f.Drift r g) (ht : (g.set q x).Treelike) :
    (f.set q x).Drift r (g.set q x) := by
  refine ⟨h.workDir, fun _ => ht, fun k => ?_⟩
  rw [lookup?_set, lookup?_set]
  split
  · exact .same _
  · split
    · exact .same _
    · exact h.lookup? k

lemma Drift.unset (h : f.Drift r g) (ht : (g.unset q).Treelike) :
    (f.unset q).Drift r (g.unset q) := by
  refine ⟨h.workDir, fun _ => ht, fun k => ?_⟩
  rw [lookup?_unset, lookup?_unset]
  split
  · exact .same _
  · split
    · exact .same _
    · exact h.lookup? k

end

/-! Where a path leads. -/

section

variable {f : Files} {ws : List String} {p : String} {ns : List String}

lemma Grounded.plain_append (h : f.Grounded ws p) (hns : Plains ns) : Plains (base ws p ++ ns) :=
  (plain_base h.plain p).append hns

lemma Grounded.opens (h : f.Grounded ws p) (hns : Plains ns)
    (hentry : f.lookup? (placeAt (base ws p ++ ns)) ≠ none) : f.Opens (base ws p) ns :=
  h.treelike.opens (h.plain_append hns) hentry

lemma Grounded.locate (h : f.Grounded ws p) (hns : Plains ns)
    (hpass : Passable p ns) {x : Entry} (hentry : f.lookup? (placeAt (base ws p ++ ns)) = some x) :
    f.locate (onward p ns) = .ok (placeAt (base ws p ++ ns)) :=
  (locate_eq_ok_iff h.toWorksAt hns).mpr ⟨rfl, hpass, h.opens hns (by simp [hentry])⟩

end

lemma childNames_eq_nil_iff {place : String} :
    f.childNames place = [] ↔
      ∀ k, k ≠ "/" → parent k = place → f.lookup? k = none := by
  have hkeys (k : String) : k ∈ f.entries.keys ↔ f.entries.get? k ≠ none := by
    rw [Table.keys]
    unfold Table.get?
    simp
  rw [childNames, map_eq_nil_iff, filter_eq_nil_iff]
  refine forall_congr' fun k => ?_
  rw [hkeys, lookup?]
  by_cases hroot : k = "/" <;> by_cases hparent : parent k = place <;>
    simp [hroot, hparent]

/-! What a path does not lead to. -/

lemma walk_append {ms : List String} (hes : Plains es) (hms : Plains ms) (hopens : f.Opens es ms)
    (hshort : ∀ m ∈ ms, m.utf8ByteSize ≤ 255) (ns : List String) :
    f.walk (placeAt es) (ms ++ ns) = f.walk (placeAt (es ++ ms)) ns := by
  induction ms generalizing es with
  | nil => simp
  | cons m ms ih =>
    obtain ⟨hm, hms⟩ := forall_mem_cons.mp hms
    obtain ⟨hlong, hshort⟩ := forall_mem_cons.mp hshort
    obtain ⟨hdir, hopens⟩ := opens_cons.mp hopens
    have hes' : Plains (es ++ [m]) :=
      hes.concat hm
    have hstep : (m == "" || m == ".") = false ∧ (m == "..") = false := by
      simp [hm.ne_empty, hm.ne_dot, hm.ne_dots]
    rw [cons_append, walk, hdir]
    simp only [hstep, Bool.false_eq_true, if_false, Nat.not_lt.mpr hlong, child_placeAt hes]
    rw [ih hes' hms hopens hshort, append_assoc, singleton_append]

/-- Directories are there all the way, or the first that is missing can be told. -/
lemma opens_or_stops (f : Files) (es ns : List String) :
    f.Opens es ns ∨ ∃ ms n rest, ns = ms ++ n :: rest ∧ f.Opens es ms ∧
      f.lookup? (placeAt (es ++ ms)) ≠ some .directory := by
  induction ns generalizing es with
  | nil => exact .inl (f.opens_nil es)
  | cons n ns ih =>
    by_cases hdir : f.lookup? (placeAt es) = some .directory
    · rcases ih (es ++ [n]) with hopens | ⟨ms, m, rest, rfl, hopens, hstop⟩
      · exact .inl (opens_cons.mpr ⟨hdir, hopens⟩)
      · refine .inr ⟨n :: ms, m, rest, rfl, opens_cons.mpr ⟨hdir, hopens⟩, ?_⟩
        simpa using hstop
    · exact .inr ⟨[], n, ns, rfl, f.opens_nil es, by simpa using hdir⟩

section

variable {f g : Files} {ws : List String} {p : String} {ns : List String}

/-- Files are not found on the way to a place that a missing entry cuts off. -/
lemma Grounded.content?_eq_none (h : f.Grounded ws p) (hns : Plains ns)
    {ms ks : List String} (hms : ms <+: ns) (hks : ks <+: ns) (hopens : f.Opens (base ws p) ms)
    (hnone : f.lookup? (placeAt (base ws p ++ ms)) = none) :
    f.content? (placeAt (base ws p ++ ks)) = none := by
  by_contra hsome
  obtain ⟨bs, hbs⟩ := Option.ne_none_iff_exists'.mp hsome
  have hfile := content?_eq_some_iff.mp hbs
  have hopens' := h.opens (fun n hn => hns n (hks.subset hn)) (by simp [hfile])
  rcases prefix_or_prefix_of_prefix hks hms with ⟨rest, rfl⟩ | ⟨rest, rfl⟩
  · cases rest with
    | nil => simp [hfile] at hnone
    | cons n rest =>
      have hdir := hopens ks n ⟨rest, by simp⟩
      exact absurd (hdir.symm.trans hfile) (by simp)
  · cases rest with
    | nil =>
      rw [append_nil] at hfile
      exact absurd (hfile.symm.trans hnone) (by simp)
    | cons n rest =>
      have hdir := hopens' ms n ⟨rest, by simp⟩
      exact absurd (hdir.symm.trans hnone) (by simp)

lemma Grounded.find (h : f.Grounded ws p) (hns : Plains ns) (hpass : Passable p ns) {x : Entry}
    (hentry : f.lookup? (placeAt (base ws p ++ ns)) = some x) : f.find (onward p ns) = .ok x :=
  (find_eq_ok_iff h.toWorksAt hns).mpr ⟨hpass, h.opens hns (by simp [hentry]), hentry⟩

/-- A path leads nowhere since a file is in the way, or since something is missing. -/
lemma find_of_none (h : f.Grounded ws p) (hns : Plains ns) (hpass : Passable p ns)
    (hnone : f.lookup? (placeAt (base ws p ++ ns)) = none) :
    (f.find (onward p ns) = .error .notDirectory ∧
      ∃ ms, ms <+: ns ∧ f.content? (placeAt (base ws p ++ ms)) ≠ none) ∨
    f.find (onward p ns) = .error .missing ∧
      ∀ ms, ms <+: ns → f.content? (placeAt (base ws p ++ ms)) = none := by
  have hlocate := locate_onward h.toWorksAt hns hpass.fault
  rcases f.opens_or_stops (base ws p) ns with hopens | ⟨ms, n, rest, rfl, hopens, hstop⟩
  · have hok := (locate_eq_ok_iff h.toWorksAt hns).mpr ⟨rfl, hpass, hopens⟩
    refine .inr ⟨?_, fun ks hks => h.content?_eq_none hns prefix_rfl hks hopens hnone⟩
    rw [find, hok]
    simp only [Bind.bind, Except.bind, hnone]
  · have hms : ms <+: ms ++ n :: rest := prefix_append ms _
    rw [walk_append (plain_base h.plain p) (fun m hm => hns m (hms.subset hm)) hopens
      (fun m hm => hpass.short m (hms.subset hm)), walk] at hlocate
    cases hentry : f.lookup? (placeAt (base ws p ++ ms)) with
    | none =>
      refine .inr ⟨?_, fun ks hks => h.content?_eq_none hns hms hks hopens hentry⟩
      rw [find, hlocate, hentry]
      rfl
    | some x =>
      cases x with
      | directory => exact absurd hentry hstop
      | file bs =>
        refine .inl ⟨?_, ms, hms, by simp [content?, hentry]⟩
        rw [find, hlocate, hentry]
        rfl

/-- A path leads to the same where its end is the same and the same files are in its way. -/
lemma find_congr (hf : f.Grounded ws p) (hg : g.Grounded ws p) (hns : Plains ns)
    (hpass : Passable p ns)
    (hend : g.lookup? (placeAt (base ws p ++ ns)) = f.lookup? (placeAt (base ws p ++ ns)))
    (hway : ∀ ms, ms <+: ns →
      g.content? (placeAt (base ws p ++ ms)) = f.content? (placeAt (base ws p ++ ms))) :
    g.find (onward p ns) = f.find (onward p ns) := by
  cases hentry : f.lookup? (placeAt (base ws p ++ ns)) with
  | some x => rw [hf.find hns hpass hentry, hg.find hns hpass (hend.trans hentry)]
  | none =>
    rcases find_of_none hf hns hpass hentry with ⟨hfind, ms, hms, hfile⟩ | ⟨hfind, hno⟩ <;>
      rcases find_of_none hg hns hpass (hend.trans hentry) with ⟨hfind', ks, hks, hfile'⟩ |
        ⟨hfind', hno'⟩
    · rw [hfind, hfind']
    · exact absurd ((hway ms hms).symm.trans (hno' ms hms)) hfile
    · exact absurd ((hway ks hks).trans (hno ks hks)) hfile'
    · rw [hfind, hfind']

lemma read_congr {path : String} (h : g.find path = f.find path) : g.read path = f.read path := by
  rw [read, read, h]

end

end ReactiveModel.Files
