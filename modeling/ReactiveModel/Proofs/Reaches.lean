import ReactiveModel.Proofs.Actions
import ReactiveModel.Proofs.ClassTask
import ReactiveModel.Proofs.Pacts

/-! What the tasks of classes may do to files, and what they leave alone: a class has its own files,
and shares only directories with the others. -/

namespace ReactiveModel

open List Files Naming ReactiveModel.Path

namespace Naming

/-- The files that the task of a class may write or remove, from the target directory on. -/
def filePlaces (a : Text) : List (List String) :=
  [[classFile a], [classFile a ++ ".error"], programDir a ++ ["main.go"],
    programDir a ++ ["main.go.error"]]

variable {a b : Text}

lemma forall_mem_filePlaces {p : List String → Prop} :
    (∀ ns ∈ filePlaces a, p ns) ↔ p [classFile a] ∧ p [classFile a ++ ".error"] ∧
      p (programDir a ++ ["main.go"]) ∧ p (programDir a ++ ["main.go.error"]) := by
  simp [filePlaces]

lemma plain_of_mem_filePlaces (h : isName a) : ∀ ns ∈ filePlaces a, Plains ns := by
  have hreached (ns : List String) (hns : ns ∈ reachedPlaces a) : Plains ns :=
    plain_of_mem_reachedPlaces h hns
  refine forall_mem_filePlaces.mpr ⟨hreached _ ?_, hreached _ ?_, hreached _ ?_, hreached _ ?_⟩ <;>
    simp [reachedPlaces, programPlaces]

@[simp] lemma program_mem_filePlaces (a : Text) : programDir a ++ ["main.go"] ∈ filePlaces a := by
  simp [filePlaces]

lemma plain_programDir (h : isName a) : Plains (programDir a) :=
  fun _ => plain_of_mem_programDir h

lemma not_prefix_programDir (a : Text) (hb : isName b) :
    ∀ ns ∈ filePlaces a, ¬ns <+: programDir b := by
  have hartifact (ending : String) : ¬[classFile a ++ ending] <+: programDir b := by
    intro h
    have hcmd : classFile a ++ ending ≠ "cmd" := classFile_append_ne (by decide)
    simp [programDir, hcmd] at h
  have hprogram (e : String) (he : '.' ∈ e.toList) : ¬programDir a ++ [e] <+: programDir b := by
    intro h
    by_cases hempty : programName b = ""
    · have hlength := h.length_le
      simp [programDir, hempty] at hlength
    · have hmem : e ∈ programDir b := h.subset (by simp)
      rcases mem_cons.mp hmem with rfl | hmem
      · simp at he
      · obtain rfl : e = programName b := by simpa [hempty] using hmem
        exact notMem_programName hb (.inr rfl) he
  refine forall_mem_filePlaces.mpr ⟨?_, hartifact ".error", hprogram _ (by decide),
    hprogram _ (by decide)⟩
  simpa using hartifact ""

lemma concat_notMem_filePlaces (h : words b ≠ words a) (e : String) :
    programDir a ++ [e] ∉ filePlaces b := by
  have hne : ∀ ns ∈ filePlaces b, programDir a ++ [e] ≠ ns := by
    have hdir (m : String) : programDir a ++ [e] ≠ programDir b ++ [m] := fun heq =>
      h (programDir_inj (append_inj_left' heq rfl)).symm
    refine forall_mem_filePlaces.mpr ⟨?_, ?_, hdir _, hdir _⟩ <;> simp [programDir]
  exact fun hmem => hne _ hmem rfl

lemma filePlaces_disjoint (h : words b ≠ words a) : ∀ ns ∈ filePlaces a, ns ∉ filePlaces b := by
  have hfile : classFile a ≠ classFile b := fun heq => h (classFile_eq_iff.mp heq).symm
  have herror (c d : Text) : classFile c ≠ classFile d ++ ".error" := by
    intro heq
    have hlast := congrArg (fun e => e.toList.getLast?) heq
    simp [classFile] at hlast
  have hboth : classFile a ++ ".error" ≠ classFile b ++ ".error" := by
    intro heq
    have hlist := congrArg String.toList heq
    rw [String.toList_append, String.toList_append] at hlist
    exact hfile (String.toList_inj.mp (append_cancel_right hlist))
  refine forall_mem_filePlaces.mpr ⟨?_, ?_, concat_notMem_filePlaces h _,
    concat_notMem_filePlaces h _⟩
  · simp [filePlaces, programDir, hfile, herror]
  · simp [filePlaces, programDir, (herror b a).symm, hboth]

end Naming

namespace Files

lemma pathFault_of_append {p : String} {ns ms : List String} (hns : Plains (ns ++ ms))
    (h : pathFault (onward p (ns ++ ms)) = none) : pathFault (onward p ns) = none := by
  induction ms using List.reverseRecOn with
  | nil => simpa using h
  | append_singleton ms m ih =>
    rw [← append_assoc] at hns h
    exact ih hns.left (pathFault_onward hns.left h)

lemma exists_child {es ds : List String} (hes : Plains es) (hds : Plains ds)
    (hroot : placeAt ds ≠ "/") (h : parent (placeAt ds) = placeAt es) : ∃ e, ds = es ++ [e] := by
  rcases eq_nil_or_concat' ds with rfl | ⟨ds, d, rfl⟩
  · exact absurd placeAt_nil hroot
  · rw [parent_placeAt hds] at h
    exact ⟨d, by rw [placeAt_inj hds.left hes h]⟩

/-- Where directories are made and removed alike, it does not matter which files come first. -/
lemma Drift.symm {r : Reach} {f g : Files} (h : f.Drift r g) (ht : f.Treelike)
    (hr : ∀ q, r.opened q ↔ r.closed q) : g.Drift r f := by
  refine ⟨h.workDir.symm, fun _ => ht, fun q => ?_⟩
  have hallowed := h.lookup? q
  generalize f.lookup? q = x, g.lookup? q = y at hallowed
  cases hallowed with
  | same => exact .same x
  | free hq => exact .free hq y x
  | opened hq => exact .closed ((hr q).mp hq)
  | closed hq => exact .opened ((hr q).mpr hq)

end Files

namespace Run

/-- The names of the target directory, from the root on. -/
def target (s : Settings) (ws : List String) : List String :=
  Files.base ws s.targetDir ++ Path.names s.targetDir

/-- A place below the target directory. -/
def spot (s : Settings) (ws ns : List String) : String := Files.placeAt (target s ws ++ ns)

/-- Directories made on a way below the target directory. -/
def wayTo (s : Settings) (ws ds : List String) : Files.Reach :=
  Files.along (Files.base ws s.targetDir) (Path.names s.targetDir ++ ds)

/-- What stops directories from being made on a way below the target directory. -/
def barrier (s : Settings) (ws ds : List String) (f : Files) : Option FileFailure :=
  f.obstacle (Files.base ws s.targetDir) s.targetDir (Path.names s.targetDir ++ ds)

/-- Whether paths below the target directory can lead anywhere. -/
def Reachable (s : Settings) : Prop := Files.pathFault (Path.below s.targetDir []) = none

/-- What the tasks of some classes may do. Directories of programs are made where programs are
wanted, and removed where they are not. -/
def reach (s : Settings) (ws : List String) (of : Text → Prop) : Files.Reach where
  free q := Reachable s ∧
    ∃ a, of a ∧ ∃ ns ∈ Naming.filePlaces a, q = spot s ws ns
  opened q :=
    (Files.along (Files.base ws s.targetDir) (Path.names s.targetDir)).opened q ∨
    s.enabled .entryPoint = true ∧ ∃ a, of a ∧ (wayTo s ws (Naming.programDir a)).opened q
  closed q := Reachable s ∧ s.enabled .entryPoint = false ∧
    ∃ a, of a ∧ q = spot s ws (Naming.programDir a)

lemma reach_mono {s : Settings} {ws : List String} {of of' : Text → Prop}
    (h : ∀ a, of a → of' a) : (reach s ws of).Within (reach s ws of') where
  free := fun _ ⟨hs, a, ha, hq⟩ => ⟨hs, a, h a ha, hq⟩
  opened := fun _ => Or.imp_right fun ⟨hs, a, ha, hq⟩ => ⟨hs, a, h a ha, hq⟩
  closed := fun _ ⟨hs, he, a, ha, hq⟩ => ⟨hs, he, a, h a ha, hq⟩

/-- The places on the way to files of classes. -/
def Passage (s : Settings) (ws : List String) (q : String) : Prop :=
  ∃ a, Naming.isName a = true ∧ (wayTo s ws (Naming.programDir a)).opened q

/-- How files may differ that have the same files apart from those of some classes. -/
def view (s : Settings) (ws : List String) (of : Text → Prop) : Files.Reach where
  free := (reach s ws of).free
  opened := Passage s ws
  closed := Passage s ws

/-- Files that differ only in the files of some classes, and in directories on the way to files. -/
structure Alike (s : Settings) (ws : List String) (of : Text → Prop) (h g : Files) : Prop where
  drift : h.Drift (view s ws of) g
  left : h.Grounded ws s.targetDir
  right : g.Grounded ws s.targetDir

section

variable {s : Settings} {ws : List String} {a : Text} {of : Text → Prop} {f g h : Files}
  {ns ms ds : List String} {q : String}

lemma spot_eq : spot s ws ns =
    placeAt (Files.base ws s.targetDir ++ (Path.names s.targetDir ++ ns)) := by
  rw [spot, target, append_assoc]

lemma plain_target (hws : Plains ws) (hns : Plains ns) : Plains (target s ws ++ ns) :=
  ((plain_base hws _).append (plain_names _)).append hns

lemma placeOf_below (hws : Plains ws) (hns : Plains ns) :
    placeOf (placeAt ws) (below s.targetDir ns) = spot s ws ns := by
  rw [below_eq_onward, placeOf_onward hws _ ((plain_names _).append hns), spot_eq]

lemma placeAt_target_inj (hws : Plains ws) (hns : Plains ns) (hms : Plains ms)
    (h : spot s ws ns = spot s ws ms) : ns = ms :=
  append_cancel_left (placeAt_inj (plain_target hws hns) (plain_target hws hms) h)

lemma prefix_of_along (hws : Plains ws) (hns : Plains ns) (hds : Plains ds)
    (h : (wayTo s ws ds).opened (spot s ws ns)) : ns <+: ds := by
  obtain ⟨ms, -, hms, heq⟩ := h
  have hms' : Plains ms := fun n hn => (plain_names _).append hds n (hms.subset hn)
  have hlist := placeAt_inj (plain_target hws hns) ((plain_base hws _).append hms') heq
  rw [target, append_assoc] at hlist
  rw [← append_cancel_left hlist] at hms
  exact (prefix_append_right_inj _).mp hms

lemma along_programDir {ms : List String} (hms : ms <+: programDir a) (hne : ms ≠ []) :
    (wayTo s ws (programDir a)).opened (spot s ws ms) :=
  ⟨Path.names s.targetDir ++ ms, by simp [hne], (prefix_append_right_inj _).mpr hms, spot_eq⟩

end

/-- A class among others, whose names have other words. -/
structure Among (ws : List String) (a : Text) (of : Text → Prop) : Prop where
  plain : ∀ e ∈ ws, Path.Plain e
  name : Naming.isName a = true
  names : ∀ b, of b → Naming.isName b = true
  words : ∀ b, of b → Naming.words b ≠ Naming.words a

section

variable {s : Settings} {ws : List String} {a : Text} {of mine : Text → Prop} {f g h : Files}
  {ns ms ds : List String} {q : String}

lemma not_passage_of_own (hws : Plains ws) (ha : isName a)
    (hns : ns ∈ filePlaces a) : ¬Passage s ws (spot s ws ns) := by
  rintro ⟨c, hc, hway⟩
  have hplain := plain_of_mem_filePlaces ha ns hns
  exact not_prefix_programDir a hc ns hns (prefix_of_along hws hplain (plain_programDir hc) hway)

lemma not_free_of_passage (hws : Plains ws)
    (hof : ∀ b, of b → isName b = true) (h : Passage s ws q) : ¬(reach s ws of).free q := by
  rintro ⟨-, b, hb, ns, hns, rfl⟩
  exact not_passage_of_own hws (hof b hb) hns h

namespace Among

variable (k : Among ws a of)

include k

lemma not_free_of_own (hns : ns ∈ filePlaces a) : ¬(reach s ws of).free (spot s ws ns) := by
  rintro ⟨-, b, hb, ms, hms, heq⟩
  have hsame := placeAt_target_inj k.plain (plain_of_mem_filePlaces k.name ns hns)
    (plain_of_mem_filePlaces (k.names b hb) ms hms) heq
  exact filePlaces_disjoint (k.words b hb) ns hns (hsame ▸ hms)

lemma not_closed_of_own : ¬(reach s ws of).closed (spot s ws (programDir a)) := by
  rintro ⟨-, -, b, hb, heq⟩
  have hsame := placeAt_target_inj k.plain (plain_programDir k.name)
    (plain_programDir (k.names b hb)) heq
  exact k.words b hb (programDir_inj hsame).symm

lemma not_closed_of_target : ¬(reach s ws of).closed (spot s ws []) := by
  rintro ⟨-, -, b, hb, heq⟩
  have hsame := placeAt_target_inj k.plain (forall_mem_nil _) (plain_programDir (k.names b hb)) heq
  simp [programDir] at hsame

lemma reach_within : (reach s ws of).Within (view s ws of) where
  free := fun _ h => h
  opened := by
    rintro q (hway | ⟨-, b, hb, hway⟩)
    · exact ⟨a, k.name, (along_within _ (prefix_append ..)).opened q hway⟩
    · exact ⟨b, k.names b hb, hway⟩
  closed := by
    rintro q ⟨-, -, b, hb, rfl⟩
    exact ⟨b, k.names b hb, along_programDir prefix_rfl (by simp [programDir])⟩

end Among

lemma grounded_of_drift (hof : ∀ b, of b → isName b = true) (hf : f.Grounded ws s.targetDir)
    (h : f.Drift (reach s ws of) g) : g.Grounded ws s.targetDir := by
  have hshort {ns : List String} (hns : ns ≠ []) (hplain : Plains ns) :
      placeAt (Files.base ws s.targetDir) ≠ spot s ws ns := by
    intro heq
    have hlist := placeAt_inj (plain_base hf.plain _) (plain_target hf.plain hplain) heq
    rw [target, append_assoc, self_eq_append_right] at hlist
    exact hns (append_eq_nil_iff.mp hlist).2
  have hunreachable (hfault : pathFault (onward s.targetDir []) ≠ none) : ¬Reachable s := by
    intro hr
    rw [Reachable, below_eq_onward, append_nil] at hr
    exact hfault (pathFault_of_append (plain_names _) hr)
  refine ⟨⟨hf.plain, h.workDir.trans hf.workDir⟩, h.treelike hf.treelike, ?_, fun hfault k => ?_⟩
  · refine h.isDirectory ?_ ?_ hf.origin
    · rintro ⟨-, b, hb, ns, hns, heq⟩
      have hne : ns ≠ [] := by
        rintro rfl
        simp [filePlaces] at hns
      exact hshort hne (plain_of_mem_filePlaces (hof b hb) ns hns) heq
    · rintro ⟨-, -, b, hb, heq⟩
      exact hshort (by simp [programDir]) (plain_programDir (hof b hb)) heq
  · exact h.isDirectory (fun hq => hunreachable hfault hq.1) (fun hq => hunreachable hfault hq.1)
      (hf.around hfault k)

namespace Alike

lemma of_rely (al : Alike s ws of h f) (k : Among ws a of) (hfg : f.Drift (reach s ws of) g) :
    Alike s ws of h g :=
  ⟨al.drift.trans (hfg.mono k.reach_within), al.left, grounded_of_drift k.names al.right hfg⟩

lemma refl (hf : f.Grounded ws s.targetDir) : Alike s ws of f f := ⟨.refl _ f, hf, hf⟩

lemma of_left (al : Alike s ws of h g) (hhf : h.Drift (view s ws of) f)
    (hf : f.Grounded ws s.targetDir) : Alike s ws of f g :=
  ⟨(hhf.symm al.left.treelike fun _ => Iff.rfl).trans al.drift, hf, al.right⟩

lemma of_right (al : Alike s ws of h f) (hfg : f.Drift (view s ws of) g)
    (hg : g.Grounded ws s.targetDir) : Alike s ws of h g :=
  ⟨al.drift.trans hfg, al.left, hg⟩

lemma lookup?_own (al : Alike s ws of h g) (k : Among ws a of) (hns : ns ∈ filePlaces a) :
    g.lookup? (spot s ws ns) = h.lookup? (spot s ws ns) :=
  al.drift.lookup?_eq (k.not_free_of_own hns) (not_passage_of_own k.plain k.name hns)
    (not_passage_of_own k.plain k.name hns)

end Alike

end

/-! Actions of a class. -/

section

variable {s : Settings} {ws : List String} {a : Text} {of : Text → Prop} {f g h : Files}
  {ds : List String} {n : String} {bs : List UInt8} {ns : List String}

lemma makeDirectories_below (hf : f.Grounded ws s.targetDir) (hds : Plains ds) :
    (f.makeDirectories (below s.targetDir ds)).1 = barrier s ws ds f ∧
    f.Drift (wayTo s ws ds) (f.makeDirectories (below s.targetDir ds)).2 ∧
    ((f.makeDirectories (below s.targetDir ds)).1 = none →
      (f.makeDirectories (below s.targetDir ds)).2.lookup? (spot s ws ds) = some .directory) := by
  rw [below_eq_onward, spot_eq]
  exact makeDirectories_spec hf ((plain_names _).append hds)

lemma placeAt_target_ne_root (hws : Plains ws)
    (hns : Plains (ds ++ [n])) : spot s ws (ds ++ [n]) ≠ "/" := by
  have hplain := plain_target (s := s) hws hns
  rw [spot]
  rw [← append_assoc] at hplain ⊢
  exact Files.placeAt_concat_ne_root hplain

lemma create_below (hf : f.Grounded ws s.targetDir) (hns : Plains (ds ++ [n]))
    (hdir : f.lookup? (spot s ws ds) = some .directory) :
    f.create (below s.targetDir (ds ++ [n])) =
      (Files.stuck s.targetDir (Path.names s.targetDir ++ (ds ++ [n]))).elim
        (if f.lookup? (spot s ws (ds ++ [n])) = some .directory then
          (some ⟨"open", below s.targetDir (ds ++ [n]), .isDirectory⟩, f)
        else (none, f.set (spot s ws (ds ++ [n])) (.file [])))
        fun e => (some ⟨"open", below s.targetDir (ds ++ [n]), e⟩, f) := by
  have hopens : f.Opens (Files.base ws s.targetDir) (Path.names s.targetDir ++ (ds ++ [n])) := by
    rw [spot_eq] at hdir
    rw [← append_assoc]
    exact opens_concat.mpr ⟨hf.opens ((plain_names _).append hns.left) (by simp [hdir]), hdir⟩
  rw [create_unlocked, below_eq_onward,
    locate_of_opens hf.toWorksAt ((plain_names _).append hns) hopens, spot_eq]
  cases Files.stuck s.targetDir (Path.names s.targetDir ++ (ds ++ [n])) with
  | some e => rfl
  | none =>
    simp only [Option.elim_none]
    split
    · rename_i hentry
      rw [if_pos hentry]
    · rename_i hentry
      rw [if_neg hentry]

lemma wayTo_within_reach (ws : List String) (hds : ds <+: programDir a)
    (hwanted : ds = [] ∨ s.enabled .entryPoint = true) :
    (wayTo s ws ds).Within (reach s ws (· = a)) := by
  refine ⟨nofun, fun q hq => ?_, nofun⟩
  rcases hwanted with rfl | hwanted
  · rw [wayTo, append_nil] at hq
    exact .inl hq
  · refine .inr ⟨hwanted, a, rfl, ?_⟩
    exact (along_within _ ((prefix_append_right_inj _).mpr hds)).opened q hq

/-- A path below the target directory that leads somewhere. -/
def Leads (s : Settings) (ns : List String) : Prop :=
  Files.Passable s.targetDir (Path.names s.targetDir ++ ns)

lemma Leads.reachable (h : Leads s ns) (hns : Plains ns) : Reachable s := by
  rw [Reachable, below_eq_onward, append_nil]
  exact pathFault_of_append ((plain_names _).append hns) h.fault

lemma create_below_of_barrier (hf : f.Grounded ws s.targetDir) (hns : Plains (ds ++ [n]))
    (hbarrier : barrier s ws ds f ≠ none) :
    ∃ e, f.create (below s.targetDir (ds ++ [n])) = (some e, f) := by
  have hds : Plains (Path.names s.targetDir ++ ds) := (plain_names _).append hns.left
  have hplain := (plain_names s.targetDir).append hns
  rw [← append_assoc] at hplain
  rw [below_eq_onward, ← append_assoc, create]
  cases hlocate : f.locate (onward s.targetDir (Path.names s.targetDir ++ ds ++ [n])) with
  | error e => exact ⟨_, rfl⟩
  | ok q =>
    obtain ⟨-, hpass, hopens⟩ := (locate_eq_ok_iff hf.toWorksAt hplain).mp hlocate
    obtain ⟨hopens, hdir⟩ := opens_concat.mp hopens
    exact absurd (obstacle_eq_none hds (hpass.of_concat hds) hopens (by simp [content?, hdir]))
      hbarrier

lemma leads_of_write (bs : List UInt8) (hf : f.WorksAt ws)
    (hns : Plains ns) (h : (f.write (below s.targetDir ns) bs).1 = none) : Leads s ns := by
  rw [below_eq_onward] at h
  unfold write at h
  split at h
  · nomatch h
  · rename_i hlocate
    exact ((locate_eq_ok_iff hf ((plain_names _).append hns)).mp hlocate).2.1

section

variable (hf : f.Grounded ws s.targetDir) (hns : Plains ns) (hleads : Leads s ns)

include hf hns hleads

lemma locate_spot {x : Entry} (hentry : f.lookup? (spot s ws ns) = some x) :
    f.locate (below s.targetDir ns) = .ok (spot s ws ns) := by
  rw [spot_eq] at hentry ⊢
  rw [below_eq_onward]
  exact hf.locate ((plain_names _).append hns) hleads hentry

lemma write_below (hfile : f.lookup? (spot s ws ns) = some (.file [])) (bs : List UInt8) :
    f.write (below s.targetDir ns) bs = (none, f.set (spot s ws ns) (.file bs)) := by
  simp only [write, locate_spot hf hns hleads hfile, hfile, drop_nil, append_nil]

lemma remove_below (hfile : f.lookup? (spot s ws ns) = some (.file bs)) :
    f.remove (below s.targetDir ns) = (none, f.unset (spot s ws ns)) := by
  simp only [remove_unlocked, locate_spot hf hns hleads hfile, hfile]

lemma list_below (hdir : f.lookup? (spot s ws ns) = some .directory) :
    f.list (below s.targetDir ns) = .ok (f.childNames (spot s ws ns)) := by
  simp only [list, locate_spot hf hns hleads hdir, hdir]

lemma remove_empty_below (hdir : f.lookup? (spot s ws ns) = some .directory)
    (hempty : f.childNames (spot s ws ns) = []) :
    f.remove (below s.targetDir ns) = (none, f.unset (spot s ws ns)) := by
  simp only [remove_unlocked, locate_spot hf hns hleads hdir, hdir, hempty, isEmpty_nil, if_true]

end

lemma directory_of_file (hf : f.Grounded ws s.targetDir) (hns : Plains (ds ++ [n]))
    (hfile : f.lookup? (spot s ws (ds ++ [n])) = some (.file bs)) :
    f.lookup? (spot s ws ds) = some .directory := by
  have hplain := plain_target (s := s) hf.plain hns
  rw [spot] at hfile
  rw [← append_assoc] at hfile hplain
  exact hf.treelike _ n hplain (by rw [hfile]; nofun)

namespace Among

variable (k : Among ws a of)

include k

lemma drift_set (bs : List UInt8) (hown : ds ++ [n] ∈ filePlaces a) (hleads : Leads s (ds ++ [n]))
    (hdir : f.lookup? (spot s ws ds) = some .directory)
    (hentry : f.lookup? (spot s ws (ds ++ [n])) ≠ some .directory) :
    f.Drift (reach s ws (· = a)) (f.set (spot s ws (ds ++ [n])) (.file bs)) := by
  have hplain := plain_of_mem_filePlaces k.name _ hown
  have hfree : (reach s ws (· = a)).free (spot s ws (ds ++ [n])) :=
    ⟨hleads.reachable hplain, a, rfl, _, hown, rfl⟩
  have hplain' := plain_target (s := s) k.plain hplain
  rw [spot, ← append_assoc] at hentry hfree ⊢
  rw [← append_assoc] at hplain'
  exact Files.drift_set hplain' hdir (fun h => absurd h hentry) hfree

lemma drift_unset (hown : ns ∈ filePlaces a) (hleads : Leads s ns) (hf : f.Treelike)
    (hfile : f.lookup? (spot s ws ns) = some (.file bs)) :
    f.Drift (reach s ws (· = a)) (f.unset (spot s ws ns)) := by
  have hplain := plain_of_mem_filePlaces k.name _ hown
  refine Files.drift_unset (plain_target k.plain hplain) (fun e he => ?_)
    (.inl ⟨hleads.reachable hplain, a, rfl, ns, hown, rfl⟩)
  by_contra hsome
  exact absurd ((hf _ e he hsome).symm.trans hfile) (by simp)

lemma wayTo_within_view (hds : ds <+: programDir a) : (wayTo s ws ds).Within (view s ws of) := by
  refine ⟨nofun, fun q hq => ⟨a, k.name, ?_⟩, nofun⟩
  exact (along_within _ ((prefix_append_right_inj _).mpr hds)).opened q hq

lemma grounded (hf : f.Grounded ws s.targetDir) (h : f.Drift (reach s ws (· = a)) g) :
    g.Grounded ws s.targetDir := by
  refine grounded_of_drift ?_ hf h
  rintro b rfl
  exact k.name

lemma barrier_eq (al : Alike s ws of h g) (hds : ds <+: programDir a) :
    barrier s ws ds g = barrier s ws ds h := by
  refine Files.obstacle_congr _ fun ms hne hms => al.drift.content?_eq ?_
  refine not_free_of_passage k.plain k.names ⟨a, k.name, ms, hne, hms.trans ?_, rfl⟩
  exact (prefix_append_right_inj _).mpr hds

lemma makeDirectories (al : Alike s ws of h g) (hds : ds <+: programDir a)
    (hwanted : ds = [] ∨ s.enabled .entryPoint = true) :
    g.Drift (reach s ws (· = a)) (g.makeDirectories (below s.targetDir ds)).2 ∧
    (g.makeDirectories (below s.targetDir ds)).1 = (h.makeDirectories (below s.targetDir ds)).1 ∧
    Alike s ws of (h.makeDirectories (below s.targetDir ds)).2
      (g.makeDirectories (below s.targetDir ds)).2 := by
  have hplain : Plains ds := fun n hn => plain_programDir k.name n (hds.subset hn)
  obtain ⟨hanswer, hdrift, -⟩ := makeDirectories_below al.left hplain
  obtain ⟨hanswer', hdrift', -⟩ := makeDirectories_below al.right hplain
  have hown := wayTo_within_reach ws hds hwanted
  refine ⟨hdrift'.mono hown, ?_, ?_⟩
  · rw [hanswer, hanswer', k.barrier_eq al hds]
  · have hleft := k.grounded al.left (hdrift.mono hown)
    have hright := k.grounded al.right (hdrift'.mono hown)
    exact (al.of_left (hdrift.mono (k.wayTo_within_view hds)) hleft).of_right
      (hdrift'.mono (k.wayTo_within_view hds)) hright

lemma alike_set (bs : List UInt8) (al : Alike s ws of h g) (hown : ds ++ [n] ∈ filePlaces a)
    (hleads : Leads s (ds ++ [n])) (hdir : h.lookup? (spot s ws ds) = some .directory)
    (hdir' : g.lookup? (spot s ws ds) = some .directory)
    (hentry : h.lookup? (spot s ws (ds ++ [n])) ≠ some .directory) :
    g.Drift (reach s ws (· = a)) (g.set (spot s ws (ds ++ [n])) (.file bs)) ∧
    Alike s ws of (h.set (spot s ws (ds ++ [n])) (.file bs))
      (g.set (spot s ws (ds ++ [n])) (.file bs)) := by
  have hentry' := hentry
  rw [← al.lookup?_own k hown] at hentry'
  have hleft := k.drift_set bs hown hleads hdir hentry
  have hright := k.drift_set bs hown hleads hdir' hentry'
  exact ⟨hright, al.drift.set (hright.treelike al.right.treelike), k.grounded al.left hleft,
    k.grounded al.right hright⟩

lemma create (al : Alike s ws of h g) (hown : ds ++ [n] ∈ filePlaces a)
    (hdir : h.lookup? (spot s ws ds) = some .directory)
    (hdir' : g.lookup? (spot s ws ds) = some .directory) :
    g.Drift (reach s ws (· = a)) (g.create (below s.targetDir (ds ++ [n]))).2 ∧
    (g.create (below s.targetDir (ds ++ [n]))).1 =
      (h.create (below s.targetDir (ds ++ [n]))).1 ∧
    Alike s ws of (h.create (below s.targetDir (ds ++ [n]))).2
      (g.create (below s.targetDir (ds ++ [n]))).2 ∧
    ((h.create (below s.targetDir (ds ++ [n]))).1 = none → Leads s (ds ++ [n]) ∧
      (h.create (below s.targetDir (ds ++ [n]))).2.lookup?
        (spot s ws (ds ++ [n])) = some (.file [])) := by
  have hplain := plain_of_mem_filePlaces k.name _ hown
  rw [create_below al.left hplain hdir, create_below al.right hplain hdir', al.lookup?_own k hown]
  cases hstuck : Files.stuck s.targetDir (Path.names s.targetDir ++ (ds ++ [n])) with
  | some e => exact ⟨.refl _ g, rfl, al, nofun⟩
  | none =>
    have hleads : Leads s (ds ++ [n]) := stuck_eq_none_iff.mp hstuck
    by_cases hentry : h.lookup? (spot s ws (ds ++ [n])) = some .directory
    · rw [if_pos hentry, if_pos hentry]
      exact ⟨.refl _ g, rfl, al, nofun⟩
    · rw [Option.elim_none, Option.elim_none, if_neg hentry, if_neg hentry]
      obtain ⟨hown', hset⟩ := k.alike_set [] al hown hleads hdir hdir' hentry
      refine ⟨hown', rfl, hset, fun _ => ⟨hleads, ?_⟩⟩
      rw [lookup?_set, if_neg (placeAt_target_ne_root k.plain hplain), if_pos rfl]

lemma write (al : Alike s ws of h g) (hown : ds ++ [n] ∈ filePlaces a)
    (hleads : Leads s (ds ++ [n])) (hfile : h.lookup? (spot s ws (ds ++ [n])) = some (.file [])) :
    g.Drift (reach s ws (· = a)) (g.write (below s.targetDir (ds ++ [n])) bs).2 ∧
    (g.write (below s.targetDir (ds ++ [n])) bs).1 =
      (h.write (below s.targetDir (ds ++ [n])) bs).1 ∧
    Alike s ws of (h.write (below s.targetDir (ds ++ [n])) bs).2
      (g.write (below s.targetDir (ds ++ [n])) bs).2 := by
  have hplain := plain_of_mem_filePlaces k.name _ hown
  have hfile' := (al.lookup?_own k hown).trans hfile
  rw [write_below al.left hplain hleads hfile, write_below al.right hplain hleads hfile']
  obtain ⟨hdrift, hset⟩ := k.alike_set bs al hown hleads (directory_of_file al.left hplain hfile)
    (directory_of_file al.right hplain hfile') (by simp [hfile])
  exact ⟨hdrift, rfl, hset⟩

lemma remove (al : Alike s ws of h g) (hown : ns ∈ filePlaces a) (hleads : Leads s ns)
    (hfile : h.lookup? (spot s ws ns) = some (.file bs)) :
    g.Drift (reach s ws (· = a)) (g.remove (below s.targetDir ns)).2 ∧
    (g.remove (below s.targetDir ns)).1 = (h.remove (below s.targetDir ns)).1 ∧
    Alike s ws of (h.remove (below s.targetDir ns)).2 (g.remove (below s.targetDir ns)).2 := by
  have hplain := plain_of_mem_filePlaces k.name _ hown
  have hfile' := (al.lookup?_own k hown).trans hfile
  rw [remove_below al.left hplain hleads hfile, remove_below al.right hplain hleads hfile']
  have hleft := k.drift_unset hown hleads al.left.treelike hfile
  have hright := k.drift_unset hown hleads al.right.treelike hfile'
  exact ⟨hright, rfl, al.drift.unset (hright.treelike al.right.treelike), k.grounded al.left hleft,
    k.grounded al.right hright⟩

lemma close (hoff : s.enabled .entryPoint = false) (hleads : Leads s (programDir a))
    (hdir : f.lookup? (spot s ws (programDir a)) = some .directory)
    (hempty : f.childNames (spot s ws (programDir a)) = []) :
    f.Drift (reach s ws (· = a)) (f.unset (spot s ws (programDir a))) ∧
    f.Drift (view s ws of) (f.unset (spot s ws (programDir a))) := by
  have hplain := plain_programDir k.name
  have hunset {r : Reach} (hr : r.closed (spot s ws (programDir a))) :
      f.Drift r (f.unset (spot s ws (programDir a))) := by
    refine Files.drift_unset (plain_target k.plain hplain) (fun e he => ?_) (.inr ⟨hr, hdir⟩)
    exact Files.childNames_eq_nil_iff.mp hempty _ (Files.placeAt_concat_ne_root he)
      (parent_placeAt he)
  refine ⟨hunset ⟨hleads.reachable hplain, hoff, a, rfl, rfl⟩, hunset ⟨a, k.name, ?_⟩⟩
  exact along_programDir prefix_rfl (by simp [programDir])

lemma childNames_eq_nil (hoff : s.enabled .entryPoint = false) (hfg : f.Drift (reach s ws of) g)
    (hempty : f.childNames (spot s ws (programDir a)) = []) :
    g.childNames (spot s ws (programDir a)) = [] := by
  have hdir := plain_target (s := s) k.plain (plain_programDir k.name)
  rw [Files.childNames_eq_nil_iff] at hempty ⊢
  refine fun q hroot hparent => hfg.isNone ?_ ?_ (hempty q hroot hparent)
  · rintro ⟨-, b, hb, ns, hns, rfl⟩
    have hns' := plain_target (s := s) k.plain (plain_of_mem_filePlaces (k.names b hb) ns hns)
    obtain ⟨e, heq⟩ := exists_child hdir hns' hroot hparent
    rw [append_assoc] at heq
    exact concat_notMem_filePlaces (k.words b hb) e (append_cancel_left heq ▸ hns)
  · rintro (⟨ms, -, hms, rfl⟩ | ⟨hon, -⟩)
    · have hms' : Plains (Files.base ws s.targetDir ++ ms) :=
        forall_mem_append.mpr ⟨plain_base k.plain _, fun n hn =>
          plain_names _ n (hms.subset hn)⟩
      obtain ⟨e, heq⟩ := exists_child hdir hms' hroot hparent
      have hlength := congrArg List.length heq
      have hle := hms.length_le
      simp only [target, length_append, length_singleton] at hlength
      omega
    · exact absurd (hon.symm.trans hoff) (by simp)

end Among

end

end Run

end ReactiveModel
