import Mathlib.Data.List.Pairwise
import ReactiveModel.Proofs.Cleanup

/-! Schedules. Whatever the order in which the actions of its tasks come, a run ends with the same
report and the same files as if each class had been generated alone. -/

namespace ReactiveModel

open List Files Naming ReactiveModel.Path Imports

namespace Run

/-- What the task of a class relies on and guarantees among others. -/
def terms (s : Settings) (ws : List String) (a : Text) (of : Text → Prop) : Terms where
  rely := Files.Drift (reach s ws of)
  guarantee := Files.Drift (reach s ws (· = a))
  refl := .refl _
  trans := .trans
  look := .refl _

/-- Directories that the files of a class are written to. -/
abbrev Wanted (s : Settings) (a : Text) (ds : List String) : Prop :=
  ds = [] ∨ ds = programDir a ∧ s.enabled .entryPoint = true

section

variable {s : Settings} {ws : List String} {a : Text} {of : Text → Prop} {f g h : Files}
  {ds : List String} {n name : String} {ns : List String} {α : Type} {bs : List UInt8}

lemma parent_own (ha : isName a) (hown : ds ++ [n] ∈ filePlaces a) :
    parent (below s.targetDir (ds ++ [n])) = below s.targetDir ds := by
  obtain ⟨hds, hn⟩ := forall_mem_append.mp (plain_of_mem_filePlaces ha _ hown)
  exact parent_below _ hds (hn n (mem_singleton_self n))

lemma directory_of_rely (k : Among ws a of) (hds : ds = [] ∨ ds = programDir a)
    (hfg : f.Drift (reach s ws of) g) (hdir : f.lookup? (spot s ws ds) = some .directory) :
    g.lookup? (spot s ws ds) = some .directory := by
  rcases hds with rfl | rfl
  · refine hfg.isDirectory ?_ k.not_closed_of_target hdir
    rintro ⟨-, b, hb, ns, hns, heq⟩
    obtain rfl := placeAt_target_inj k.plain (forall_mem_nil _)
      (plain_of_mem_filePlaces (k.names b hb) ns hns) heq
    simp [filePlaces] at hns
  · refine hfg.isDirectory (not_free_of_passage k.plain k.names ⟨a, k.name, ?_⟩)
      k.not_closed_of_own hdir
    exact along_programDir prefix_rfl (by simp [programDir])

lemma prefix_of_wanted (h : Wanted s a ds) : ds <+: programDir a := by
  rcases h with rfl | ⟨rfl, -⟩
  · exact nil_prefix
  · exact prefix_rfl

lemma mirrors_done (k : Among ws a of) (al : Alike s ws of h g) (r : α) :
    (Work.done r).Mirrors (terms s ws a of) (Alike s ws of) h g :=
  Work.mirrors_done fun _ hg => al.of_rely k hg

lemma mirrors_makeDirectories (k : Among ws a of) (al : Alike s ws of h g)
    (hown : ds ++ [n] ∈ filePlaces a) (hds : Wanted s a ds)
    {first next last : Option FileFailure → Work α}
    (hfailed : ∀ e h' g', Alike s ws of h' g' → barrier s ws ds h' ≠ none →
      (first (some e)).Mirrors (terms s ws a of) (Alike s ws of) h' g')
    (hfirst : first none = .create (below s.targetDir (ds ++ [n])) next)
    (hrefused : ∀ e, ∃ o, next (some e) = .done o)
    (hnext : next none = .write (below s.targetDir (ds ++ [n])) bs last)
    (hlast : ∀ e, ∃ o, last e = .done o) :
    (Work.makeDirectories (below s.targetDir ds) first).Mirrors (terms s ws a of)
      (Alike s ws of) h g := by
  have hpre := prefix_of_wanted hds
  have hplain : Plains ds := fun n hn => plain_programDir k.name n (hpre.subset hn)
  refine Work.mirrors_act fun g₁ hg₁ => ?_
  have al₁ := al.of_rely k hg₁
  obtain ⟨hanswer, hdrift, hdir⟩ := makeDirectories_below al.left hplain
  obtain ⟨-, -, hdir₁⟩ := makeDirectories_below al₁.right hplain
  obtain ⟨hown₁, hsame₁, al₂⟩ := k.makeDirectories al₁ hpre (hds.imp_right And.right)
  refine ⟨hown₁, hsame₁, ?_⟩
  rw [hsame₁] at hdir₁
  dsimp only [Files.act]
  cases hmade : (h.makeDirectories (below s.targetDir ds)).1 with
  | some e =>
    -- what was in the way of the directories is still there
    refine hfailed e _ _ al₂ ?_
    rw [barrier, obstacle_congr _ fun ms _ _ => hdrift.content?_eq not_false, ← barrier,
      ← hanswer, hmade]
    nofun
  | none =>
    rw [hfirst]
    refine Work.mirrors_act fun g₂ hg₂ => ?_
    have al₃ := al₂.of_rely k hg₂
    obtain ⟨hown₂, hsame₂, al₄, hfile⟩ := k.create al₃ hown (hdir hmade)
      (directory_of_rely k (hds.imp_right And.left) hg₂ (hdir₁ hmade))
    refine ⟨hown₂, hsame₂, ?_⟩
    dsimp only [Files.act]
    cases hcreated : ((h.makeDirectories (below s.targetDir ds)).2.create
        (below s.targetDir (ds ++ [n]))).1 with
    | some e =>
      obtain ⟨o, ho⟩ := hrefused e
      exact ho ▸ mirrors_done k al₄ o
    | none =>
      obtain ⟨hleads, hfile⟩ := hfile hcreated
      rw [hnext]
      refine Work.mirrors_act fun g₃ hg₃ => ?_
      obtain ⟨hown₃, hsame₃, al₅⟩ := k.write (al₄.of_rely k hg₃) hown hleads hfile
      obtain ⟨o, ho⟩ := hlast _
      exact ⟨hown₃, hsame₃, ho ▸ mirrors_done k al₅ o⟩

lemma mirrors_save (k : Among ws a of) (al : Alike s ws of h g) (hown : ds ++ [n] ∈ filePlaces a)
    (hds : Wanted s a ds) (className : Text) (text : String) :
    (save className (below s.targetDir (ds ++ [n])) text).Mirrors (terms s ws a of)
      (Alike s ws of) h g := by
  unfold save
  rw [parent_own k.name hown]
  refine mirrors_makeDirectories k al hown hds (fun e h' g' al' _ => mirrors_done k al' _) rfl
    (fun e => ⟨_, rfl⟩) rfl fun e => ?_
  cases e <;> exact ⟨_, rfl⟩

lemma mirrors_saveUnresolved (k : Among ws a of) (al : Alike s ws of h g) {path : String}
    (haside : path ++ ".error" = below s.targetDir (ds ++ [n])) (hown : ds ++ [n] ∈ filePlaces a)
    (hds : Wanted s a ds) (className : Text) (text : String) :
    (saveUnresolved className path text).Mirrors (terms s ws a of) (Alike s ws of) h g := by
  have hplain := plain_of_mem_filePlaces k.name _ hown
  unfold saveUnresolved
  simp only [haside, parent_own k.name hown]
  refine mirrors_makeDirectories k al hown hds (fun e h' g' al' hbarrier => ?_) rfl
    (fun e => ⟨_, rfl⟩) rfl fun e => ⟨_, rfl⟩
  -- what was in the way of the directories is in the way of the file, too
  refine Work.mirrors_create_failed (create_below_of_barrier al'.left hplain hbarrier)
    (fun g₂ hg₂ => ?_) (fun e => rfl) fun g₂ hg₂ => mirrors_done k (al'.of_rely k hg₂) _
  have al₂ := al'.of_rely k hg₂
  refine create_below_of_barrier al₂.right hplain ?_
  rwa [k.barrier_eq al₂ (prefix_of_wanted hds)]

/-! Imports are resolved from the path and the source alone. -/

/-- Import resolution whose result depends only on the path and the source. -/
def Resolver.ofFunction (imports : String → String → Option String) : Resolver :=
  fun path text => .done (imports path text)

/-- A file is not rendered, or some text is saved in its place or beside it. -/
lemma writeFile_cases (s : Settings) (className : Text) (file : SourceFile) (name : String)
    (imports : String → String → Option String) :
    (∃ e, writeFile s className file name (.ofFunction imports) = .done (.error e)) ∨
      ∃ text, writeFile s className file name (.ofFunction imports) =
          save className (join [s.targetDir, name]) text ∨
        writeFile s className file name (.ofFunction imports) =
          saveUnresolved className (join [s.targetDir, name]) text := by
  unfold writeFile
  cases file.render with
  | none => exact .inl ⟨_, rfl⟩
  | some text =>
    dsimp only
    split
    · rw [Resolver.ofFunction]
      cases imports (join [s.targetDir, name]) text with
      | some resolved => exact .inr ⟨resolved, .inl rfl⟩
      | none => exact .inr ⟨text, .inr rfl⟩
    · exact .inr ⟨text, .inl rfl⟩

lemma lasting_worksAt (ws : List String) : Lasting (keeping (·.WorksAt ws)) (·.WorksAt ws) ∧
    ∀ p, Access (keeping (·.WorksAt ws)) (·.WorksAt ws) p := by
  have hact {act : Files → Option FileFailure × Files} (h : ∀ f, (act f).2.workDir = f.workDir) :
      Admits (keeping (·.WorksAt ws)) (·.WorksAt ws) act := by
    refine admits_of fun f hf => ?_
    have hg : (act f).2.WorksAt ws := ⟨hf.plain, (h f).trans hf.workDir⟩
    exact ⟨fun _ => hg, hg⟩
  refine ⟨⟨id, fun p => hact fun f => (f.extends_makeDirectories p).workDir⟩, fun p => ⟨?_, ?_, ?_⟩⟩
  · exact hact fun f => (f.sameOff_create p).workDir
  · exact fun bs => hact fun f => (f.sameOff_write p bs).workDir
  · exact hact fun f => (f.sameOff_remove p).workDir

lemma leads_of_writeFile (hf : f.WorksAt ws) (hns : Plains ns) {className : Text}
    {file : SourceFile} {o : Output} {imports : String → String → Option String}
    (hpath : join [s.targetDir, name] = below s.targetDir ns)
    (h : ((writeFile s className file name (.ofFunction imports)).run f).1 = .ok o) :
    Leads s ns := by
  obtain ⟨hlasting, haccess⟩ := lasting_worksAt ws
  have hup : (writeFile s className file name (.ofFunction imports)).Upholds
      (keeping (·.WorksAt ws)) (fun r _ => ∀ o, r = .ok o → Leads s ns) f := by
    obtain ⟨e, hfailed⟩ | ⟨text, hsave | haside⟩ := writeFile_cases s className file name imports
    · rw [hfailed]
      exact fun _ _ _ => nofun
    · rw [hsave, hpath]
      refine upholds_save hlasting (haccess _) (opened_trivial ..) (fun _ _ _ _ => nofun) ?_ hf
      intro _ f g _ hf _ hwritten _ _ _
      exact leads_of_write _ hf hns (congrArg Prod.fst hwritten)
    · rw [haside]
      exact upholds_saveUnresolved hlasting (haccess _) (fun _ _ _ _ => nofun) hf
  exact hup.run o h

/-! A program of an earlier run is removed. -/

lemma utf8ByteSize_programName_le (a : Text) :
    (programName a).utf8ByteSize ≤ (classFile a).utf8ByteSize := by
  have hgap (ws : List String) :
      ("-".intercalate ws).utf8ByteSize = ("_".intercalate ws).utf8ByteSize := by
    induction ws with
    | nil => rfl
    | cons w ws ih =>
      cases ws with
      | nil => simp
      | cons v ws =>
        simp only [String.intercalate_cons_cons, String.utf8ByteSize_append, ih]
        rfl
  rw [programName, classFile, String.utf8ByteSize_append, hgap]
  exact Nat.le_add_right _ _

lemma short_program (h : Leads s [classFile a]) :
    ∀ n ∈ names s.targetDir ++ (programDir a ++ ["main.go"]),
      n.utf8ByteSize ≤ 255 := by
  obtain ⟨hnames, hfile⟩ := forall_mem_append.mp h.short
  have hprogram : (programName a).utf8ByteSize ≤ 255 :=
    Nat.le_trans (utf8ByteSize_programName_le a) (hfile _ (mem_singleton_self _))
  refine forall_mem_append.mpr ⟨hnames, forall_mem_append.mpr ⟨?_, by decide⟩⟩
  refine forall_mem_cons.mpr ⟨by decide, ?_⟩
  split
  · exact forall_mem_nil _
  · exact forall_mem_singleton.mpr hprogram

lemma read_program (k : Among ws a of) (al : Alike s ws of h g)
    (hshort : ∀ n ∈ names s.targetDir ++ (programDir a ++ ["main.go"]), n.utf8ByteSize ≤ 255) :
    g.read (below s.targetDir (programDir a ++ ["main.go"])) =
      h.read (below s.targetDir (programDir a ++ ["main.go"])) := by
  have hown := program_mem_filePlaces a
  have hsame := al.lookup?_own k hown
  have hplain := (plain_names s.targetDir).append (plain_of_mem_filePlaces k.name _ hown)
  rw [spot_eq] at hsame
  rw [below_eq_onward]
  refine read_congr ?_
  cases hfault : pathFault (onward s.targetDir
      (names s.targetDir ++ (programDir a ++ ["main.go"]))) with
  | some e =>
    rw [find, find, locate_of_pathFault hfault, locate_of_pathFault hfault]
    rfl
  | none =>
    refine find_congr al.left al.right hplain ⟨hfault, hshort⟩ hsame fun ms hms => ?_
    by_cases hne : ms = []
    · subst hne
      rw [append_nil, content?, content?, al.left.origin, al.right.origin]
    · rw [← append_assoc, prefix_concat_iff] at hms
      rcases hms with rfl | hms
      · rw [append_assoc, content?, content?, hsame]
      · exact al.drift.content?_eq
          (not_free_of_passage k.plain k.names ⟨a, k.name, ms, hne, hms, rfl⟩)

/-- The directory of a program that was removed goes away if it is empty. Whether it is may depend
on others, but nobody is told. -/
lemma mirrors_tidy (k : Among ws a of) (al : Alike s ws of h g)
    (hoff : s.enabled .entryPoint = false) (hleads : Leads s (programDir a))
    (hdir : h.lookup? (spot s ws (programDir a)) = some .directory)
    (hdir' : g.lookup? (spot s ws (programDir a)) = some .directory)
    {next : Except FileFailure (List String) → Work (Option FileFailure)}
    (hnone : next (.ok []) = .remove (below s.targetDir (programDir a)) .done)
    (hsome : ∀ n ns, next (.ok (n :: ns)) = .done none) :
    (Work.list (below s.targetDir (programDir a)) next).Mirrors (terms s ws a of)
      (Alike s ws of) h g := by
  have hplain := plain_programDir k.name
  -- alone, the directory may go away or not
  obtain ⟨h', hrun, halike⟩ : ∃ h', (Work.list (below s.targetDir (programDir a))
      next).run h = (none, h') ∧ ∀ g, Alike s ws of h g → Alike s ws of h' g := by
    simp only [Work.run, list_below al.left hplain hleads hdir]
    cases hempty : h.childNames (spot s ws (programDir a)) with
    | nil =>
      obtain ⟨hown, hview⟩ := k.close hoff hleads hdir hempty
      refine ⟨_, ?_, fun g al => al.of_left hview (k.grounded al.left hown)⟩
      simp only [hnone, Work.run, Files.act,
        remove_empty_below al.left hplain hleads hdir hempty]
    | cons n ns => exact ⟨h, by simp only [hsome, Work.run], fun g al => al⟩
  unfold Work.Mirrors
  rw [hrun]
  -- and so it is among others
  intro g₁ r hg₁ hr
  have al₁ := al.of_rely k hg₁
  have hdir₁ := directory_of_rely k (.inr rfl) hg₁ hdir'
  rw [list_below al₁.right hplain hleads hdir₁] at hr
  subst hr
  cases hempty : g₁.childNames (spot s ws (programDir a)) with
  | nil =>
    rw [hnone]
    intro g₂ r g₃ hg₂ hr
    have al₂ := al₁.of_rely k hg₂
    have hdir₂ := directory_of_rely k (.inr rfl) hg₂ hdir₁
    have hempty₂ := k.childNames_eq_nil hoff hg₂ hempty
    obtain ⟨hown, hview⟩ := k.close hoff hleads hdir₂ hempty₂
    rw [Files.act, remove_empty_below al₂.right hplain hleads hdir₂ hempty₂] at hr
    cases hr
    refine ⟨hown, fun g₄ hg₄ => ⟨rfl, halike _ ?_⟩⟩
    exact (al₂.of_right hview (k.grounded al₂.right hown)).of_rely k hg₄
  | cons n ns =>
    rw [hsome]
    exact fun g₂ hg₂ => ⟨rfl, halike _ (al₁.of_rely k hg₂)⟩

lemma leads_of_read (hf : f.WorksAt ws) (hns : Plains ns)
    (h : f.read (below s.targetDir ns) = .ok bs) :
    Leads s ns ∧ f.lookup? (spot s ws ns) = some (.file bs) := by
  unfold Files.read at h
  split at h
  · rename_i hfind
    cases h
    rw [below_eq_onward] at hfind
    obtain ⟨hpass, -, hentry⟩ := (find_eq_ok_iff hf ((plain_names _).append hns)).mp hfind
    rw [← spot_eq] at hentry
    exact ⟨hpass, hentry⟩
  · nomatch h
  · nomatch h

lemma mirrors_removeGenerated (k : Among ws a of) (al : Alike s ws of h g)
    (hoff : s.enabled .entryPoint = false) (hartifact : Leads s [classFile a]) :
    (removeGenerated s (below s.targetDir (programDir a ++ ["main.go"]))).Mirrors
      (terms s ws a of) (Alike s ws of) h g := by
  have hown := program_mem_filePlaces a
  have hplain := plain_of_mem_filePlaces k.name _ hown
  refine Work.mirrors_read fun g₁ hg₁ => ?_
  have al₁ := al.of_rely k hg₁
  refine ⟨read_program k al₁ (short_program hartifact), ?_⟩
  cases hread : h.read (below s.targetDir (programDir a ++ ["main.go"])) with
  | error e => exact mirrors_done k al₁ _
  | ok bs =>
    obtain ⟨hleads, hfile⟩ := leads_of_read al.left.toWorksAt hplain hread
    dsimp only
    split
    · refine Work.mirrors_act fun g₂ hg₂ => ?_
      have al₂ := al₁.of_rely k hg₂
      have hfile₂ := (al₂.lookup?_own k hown).trans hfile
      obtain ⟨hown₂, hsame₂, al₃⟩ := k.remove al₂ hown hleads hfile
      refine ⟨hown₂, hsame₂, ?_⟩
      dsimp only [Files.act]
      rw [remove_below al₂.left hplain hleads hfile,
        remove_below al₂.right hplain hleads hfile₂] at al₃ ⊢
      simp only [parent_own k.name hown]
      have hne : spot s ws (programDir a) ≠ spot s ws (programDir a ++ ["main.go"]) := by
        intro heq
        have hdir := placeAt_target_inj k.plain hplain.left hplain heq
        simp at hdir
      refine mirrors_tidy k al₃ hoff ?_ ?_ ?_ rfl fun _ _ => rfl
      · rw [Leads, ← append_assoc] at hleads
        exact hleads.of_concat ((plain_names _).append hplain.left)
      · rw [lookup?_unset_of_ne hne]
        exact directory_of_file al₂.left hplain hfile
      · rw [lookup?_unset_of_ne hne]
        exact directory_of_file al₂.right hplain hfile₂
    · exact mirrors_done k al₁ _

end

/-! The task of a class. -/

section

variable {s : Settings} {workDir : String} {reg : Registry} {c : Class} {ws : List String}
  {of : Text → Prop} {f g h : Files} {t : Work Outcome}

/-- Something that holds of the task of a class when it holds of the parts of the task. The answers
of a part are those that it gives on some files. -/
structure Parts (s : Settings) (ws : List String) (a : Text) (P : ∀ {α : Type}, Work α → Prop) :
    Prop where
  done : ∀ {α : Type} (x : α), P (.done x)
  bind : ∀ {α β : Type} {t : Work α} {k : α → Work β}, P t →
    (∀ f, f.WorksAt ws → P (k (t.run f).1)) → P (t >>= k)
  save : ∀ {ds : List String} {n : String}, ds ++ [n] ∈ filePlaces a → Wanted s a ds →
    ∀ className text, P (save className (below s.targetDir (ds ++ [n])) text)
  saveUnresolved : ∀ {ds : List String} {n path : String},
    path ++ ".error" = below s.targetDir (ds ++ [n]) → ds ++ [n] ∈ filePlaces a → Wanted s a ds →
    ∀ className text, P (saveUnresolved className path text)
  removeGenerated : s.enabled .entryPoint = false → Leads s [classFile a] →
    P (removeGenerated s (below s.targetDir (programDir a ++ ["main.go"])))

namespace Parts

variable {P : ∀ {α : Type}, Work α → Prop} {imports : String → String → Option String}

lemma writeFile {a : Text} (hP : Parts s ws a P) (file : SourceFile) {ds : List String}
    {n m name : String} (hpath : join [s.targetDir, name] = below s.targetDir (ds ++ [n]))
    (haside : join [s.targetDir, name] ++ ".error" = below s.targetDir (ds ++ [m]))
    (hown : ds ++ [n] ∈ filePlaces a) (hown' : ds ++ [m] ∈ filePlaces a) (hds : Wanted s a ds)
    (className : Text) : P (writeFile s className file name (.ofFunction imports)) := by
  obtain ⟨e, hfailed⟩ | ⟨text, hsave | haside'⟩ := writeFile_cases s className file name imports
  · rw [hfailed]
    exact hP.done _
  · rw [hsave, hpath]
    exact hP.save hown hds className text
  · rw [haside']
    exact hP.saveUnresolved haside hown' hds className text

lemma programTask (hP : Parts s ws c.name P) (ha : isName c.name)
    (hartifact : Leads s [classFile c.name]) (written : List Output) :
    P (programTask s workDir c written (.ofFunction imports)) := by
  have hpath : join [s.targetDir, entryPointFile c.name] =
      below s.targetDir (programDir c.name ++ ["main.go"]) := programPath_eq ha
  unfold Run.programTask
  split
  · rename_i hon
    split
    · exact hP.done _
    · rename_i file _
      refine hP.bind (hP.writeFile file hpath (programPath_error ha) (by simp [filePlaces])
        (by simp [filePlaces]) (.inr ⟨rfl, hon⟩) _) fun f _ => ?_
      split <;> exact hP.done _
  · rename_i hoff
    simp only [hpath]
    refine hP.bind (hP.removeGenerated (eq_false_of_ne_true hoff) hartifact) fun f _ => ?_
    split <;> exact hP.done _

lemma classTask (hP : isName c.name → Parts s ws c.name P) (hdone : ∀ o : Outcome, P (.done o))
    (ht : classTask s workDir reg c (.ofFunction imports) = some t) : P t := by
  unfold Run.classTask at ht
  split at ht
  · cases ht
  · cases ht
    exact hdone _
  · rename_i file hsource
    cases ht
    have ha := isName_of_check (check_of_file hsource)
    have hfile : [] ++ [classFile c.name] ∈ filePlaces c.name := by simp [filePlaces]
    have hpath : join [s.targetDir, classFile c.name] =
        below s.targetDir ([] ++ [classFile c.name]) := artifactPath_eq ha
    refine (hP ha).bind ((hP ha).writeFile file hpath (artifactPath_append ha ".error" (by decide))
      hfile (by simp [filePlaces]) (.inl rfl) _) fun f hf => ?_
    cases hwritten : ((Run.writeFile s c.name file (classFile c.name)
        (.ofFunction imports)).run f).1 with
    | error e => exact hdone _
    | ok o =>
      have hleads := leads_of_writeFile hf (plain_of_mem_filePlaces ha _ hfile) hpath hwritten
      exact (hP ha).programTask ha hleads [o]

end Parts

lemma mirrors_classTask (k : Among ws c.name of) (al : Alike s ws of h g)
    {imports : String → String → Option String}
    (ht : classTask s workDir reg c (.ofFunction imports) = some t) :
    t.Mirrors (terms s ws c.name of) (Alike s ws of) h g := by
  have hparts : Parts s ws c.name fun t => ∀ h g, Alike s ws of h g →
      t.Mirrors (terms s ws c.name of) (Alike s ws of) h g :=
    { done := fun x h g al => mirrors_done k al x
      bind := fun ht hk h g al =>
        Work.mirrors_bind (ht h g al) fun g' al' => hk h al.left.toWorksAt _ g' al'
      save := fun hown hds className text h g al => mirrors_save k al hown hds className text
      saveUnresolved := fun haside hown hds className text h g al =>
        mirrors_saveUnresolved k al haside hown hds className text
      removeGenerated := fun hoff hartifact h g al => mirrors_removeGenerated k al hoff hartifact }
  exact Parts.classTask (fun _ => hparts) hparts.done ht h g al

lemma check_of_classTask {resolver : Resolver} (ht : classTask s workDir reg c resolver = some t) :
    c.check s reg = .passed ∨ ∃ o, t = .done o := by
  unfold classTask at ht
  split at ht
  · nomatch ht
  · cases ht
    exact .inr ⟨_, rfl⟩
  · rename_i file hfile
    exact .inl (check_of_file hfile)

end

end Run

namespace Generator

open Run

/-- Other classes that pass their check. -/
def Rival (g : Generator) (c : Class) (b : Text) : Prop :=
  ∃ d ∈ g.registry.generated, d.check g.settings g.registry = .passed ∧ d.name = b ∧ b ≠ c.name

/-- What the task of a class agrees upon with the others: in the end it has done what it does alone
from the files that the run starts with. -/
def pact (g : Generator) (workDir : String) (ws : List String) (f : Files) (resolver : Resolver)
    (c : Class) : Pact Outcome where
  rely := Files.Drift (reach g.settings ws (g.Rival c))
  guarantee := Files.Drift (reach g.settings ws fun b =>
    b = c.name ∧ c.check g.settings g.registry = .passed)
  refl := .refl _
  trans := .trans
  look := .refl _
  post o f' := ∃ t, classTask g.settings workDir g.registry c resolver = some t ∧
    o = (t.run f).1 ∧ (c.check g.settings g.registry = .passed →
      Alike g.settings ws (g.Rival c) (t.run f).2 f')

/-- Classes that have their own files. -/
def FilesDiffer (g : Generator) : Prop :=
  g.registry.generated.Pairwise fun c d => Naming.classFile c.name ≠ Naming.classFile d.name ∧
    Naming.entryPointFile c.name ≠ Naming.entryPointFile d.name

instance (g : Generator) : Decidable g.FilesDiffer :=
  inferInstanceAs (Decidable (List.Pairwise _ _))

section

variable {g : Generator} {workDir : String} {ws : List String} {f f' : Files}
  {os : List (Text × Outcome)} {imports : String → String → Option String} {c : Class}

lemma agree_pact {resolver : Resolver} {d : Class} (hc : c ∈ g.registry.generated)
    (hd : d ∈ g.registry.generated) (hne : c.name ≠ d.name) :
    (g.pact workDir ws f resolver c).Agree (g.pact workDir ws f resolver d) := by
  refine ⟨fun f g' h => h.mono (reach_mono ?_), fun f g' h => h.mono (reach_mono ?_)⟩
  · rintro b ⟨rfl, hpassed⟩
    exact ⟨c, hc, hpassed, rfl, hne⟩
  · rintro b ⟨rfl, hpassed⟩
    exact ⟨d, hd, hpassed, rfl, hne.symm⟩

lemma among_rivals (hdiffer : g.FilesDiffer) (hws : Plains ws) (hc : c ∈ g.registry.generated)
    (hpassed : c.check g.settings g.registry = .passed) : Among ws c.name (g.Rival c) where
  plain := hws
  name := isName_of_check hpassed
  names := by
    rintro b ⟨d, -, hd, rfl, -⟩
    exact isName_of_check hd
  words := by
    rintro b ⟨d, hd, -, rfl, hne⟩ hwords
    have : Std.Symm fun c d : Class => classFile c.name ≠ classFile d.name ∧
        entryPointFile c.name ≠ entryPointFile d.name :=
      ⟨fun c d h => ⟨h.1.symm, h.2.symm⟩⟩
    have hfiles := hdiffer.forall hd hc fun heq => hne (heq ▸ rfl)
    exact hfiles.1 (classFile_eq_iff.mpr hwords)

lemma allUphold_pact (hdiffer : g.FilesDiffer) (hf : f.Grounded ws g.settings.targetDir)
    {ts : List (Text × Work Outcome)}
    (hts : classTasks g.settings workDir g.registry none g.registry.generated
      (.ofFunction imports) = some ts) :
    AllUphold (g.registry.generated.map (g.pact workDir ws f (.ofFunction imports))) ts f := by
  refine forall₂_map_left_iff.mpr ?_
  refine ((forall₂_and_left _ _).mpr ⟨fun _ => id, forall₂_classTasks hts⟩).imp ?_
  rintro c ⟨name, t⟩ ⟨hc, -, ⟨-, hlimit⟩ | ht⟩
  · exact absurd rfl hlimit
  by_cases hpassed : c.check g.settings g.registry = .passed
  · have k := among_rivals hdiffer hf.plain hc hpassed
    refine (mirrors_classTask k (Alike.refl hf) ht).mono (fun _ _ => id) ?_ ?_
    · exact fun f' g' h => h.mono (reach_mono fun b hb => ⟨hb, hpassed⟩)
    · exact fun o f' ⟨ho, al⟩ => ⟨t, ht, ho, fun _ => al⟩
  · obtain ⟨o, rfl⟩ := (check_of_classTask ht).resolve_left hpassed
    exact fun f' _ => ⟨_, ht, rfl, fun h => absurd h hpassed⟩

/-- In any order of the actions each class ends as it does alone, and only files of classes are
changed. -/
lemma Runs.alone (h : g.Runs workDir none f os f' (.ofFunction imports))
    (hdiffer : g.FilesDiffer) (hf : f.Grounded ws g.settings.targetDir) :
    Forall₂ (fun c o => (g.pact workDir ws f (.ofFunction imports) c).post o.2 f')
        g.registry.generated os ∧
      f.Drift (reach g.settings ws fun b => ∃ d ∈ g.registry.generated,
        d.check g.settings g.registry = .passed ∧ d.name = b) f' := by
  obtain ⟨ts, hts, hrun⟩ := h
  have hagree : (g.registry.generated.map
      (g.pact workDir ws f (.ofFunction imports))).Pairwise Pact.Agree := by
    refine pairwise_map.mpr ?_
    have hnames := pairwise_map.mp g.registry.nodup_generated
    exact hnames.imp_of_mem fun hc hd hne => agree_pact hc hd hne
  have hend := hrun.upholds (allUphold_pact hdiffer hf hts) hagree
    (Drift (reach g.settings ws fun b => ∃ d ∈ g.registry.generated,
      d.check g.settings g.registry = .passed ∧ d.name = b)) (.refl _) .trans
  refine (hend ?_).imp_left forall₂_map_left_iff.mp
  intro p hp f g' hguarantee
  obtain ⟨c, hc, rfl⟩ := mem_map.mp hp
  refine hguarantee.mono (reach_mono ?_)
  rintro b ⟨rfl, hpassed⟩
  exact ⟨c, hc, hpassed, rfl⟩

lemma Runs.eq {os' : List (Text × Outcome)} {f'' : Files}
    (h : g.Runs workDir none f os f' (.ofFunction imports))
    (h' : g.Runs workDir none f os' f'' (.ofFunction imports)) (hdiffer : g.FilesDiffer)
    (hf : f.Grounded ws g.settings.targetDir) : os = os' ∧ ∀ q, f'.content? q = f''.content? q := by
  obtain ⟨hposts, hdrift⟩ := h.alone hdiffer hf
  obtain ⟨hposts', hdrift'⟩ := h'.alone hdiffer hf
  constructor
  · -- each outcome is the one of the class alone
    have hunique : Relator.RightUnique fun (c : Class) (o : Text × Outcome) => o.1 = c.name ∧
        ∃ t, classTask g.settings workDir g.registry c (.ofFunction imports) = some t ∧
          o.2 = (t.run f).1 := by
      rintro c ⟨_, o⟩ ⟨_, o'⟩ ⟨rfl, t, ht, rfl⟩ ⟨rfl, t', ht', rfl⟩
      cases ht.symm.trans ht'
      rfl
    refine hunique.forall₂ (h.names.mp ?_ hposts) (h'.names.mp ?_ hposts')
    · exact fun c o hname ⟨t, ht, ho, _⟩ => ⟨hname, t, ht, ho⟩
    · exact fun c o hname ⟨t, ht, ho, _⟩ => ⟨hname, t, ht, ho⟩
  · intro q
    by_cases hfree : (reach g.settings ws fun b => ∃ d ∈ g.registry.generated,
        d.check g.settings g.registry = .passed ∧ d.name = b).free q
    · -- a file of a class is as the class leaves it alone
      obtain ⟨-, b, ⟨d, hd, hpassed, rfl⟩, ns, hns, rfl⟩ := hfree
      have k := among_rivals hdiffer hf.plain hd hpassed
      obtain ⟨o, -, t, ht, -, al⟩ := exists_of_mem hposts.flip hd
      obtain ⟨o', -, t', ht', -, al'⟩ := exists_of_mem hposts'.flip hd
      cases ht.symm.trans ht'
      rw [content?, content?, (al hpassed).lookup?_own k hns,
        (al' hpassed).lookup?_own k hns]
    · rw [hdrift.content?_eq hfree, hdrift'.content?_eq hfree]

/-- Schedules do not matter: where classes have their own files, imports are resolved from the path
and the source alone and no directory is locked, a run whose tasks are done in any order of their
actions tells the same, and leaves the same contents in all files, as one that takes the classes in
the order of their names. -/
theorem same_whatever_the_order {t : Work (Result × Generator)} {r : Result}
    (hf : f.WellFormed) (hdiffer : g.FilesDiffer)
    (ht : g.generate workDir none (.ofFunction imports) = some t)
    (h : g.Ends workDir none f r f' (.ofFunction imports)) :
    r = (t.run f).1.1 ∧ ∀ q, f'.content? q = (t.run f).2.content? q := by
  obtain ⟨ws, hgrounded⟩ := hf.grounded
  have hturn := ends_generate ht f
  unfold Ends at h hturn
  split at h
  · rename_i hnone
    rw [if_pos hnone] at hturn
    exact ⟨h.1.trans hturn.1.symm, fun q => by rw [h.2, hturn.2]⟩
  · rename_i hsome
    rw [if_neg hsome] at hturn
    obtain ⟨os, hrun, rfl⟩ := h
    obtain ⟨os', hrun', hr⟩ := hturn
    obtain ⟨rfl, hcontents⟩ := hrun.eq hrun' hdiffer (hgrounded _)
    exact ⟨hr.symm, hcontents⟩

end

/-- Two classes with their programs, in whatever order their files are written. -/
theorem rowItem_rowPanel_in_any_order :
    (Files.ofWorkDir "/work").WellFormed ∧
      (ofNames "RowItem" "RowPanel" ["goimports", "entrypoint"]).FilesDiffer ∧
      ∃ t, (ofNames "RowItem" "RowPanel" ["goimports", "entrypoint"]).generate "/work" none
          (.ofFunction fun _ text => some text) = some t ∧
        ∀ r f', (ofNames "RowItem" "RowPanel" ["goimports", "entrypoint"]).Ends "/work" none
            (.ofWorkDir "/work") r f' (.ofFunction fun _ text => some text) →
          r = (t.run (.ofWorkDir "/work")).1.1 ∧
            ∀ q, f'.content? q = (t.run (.ofWorkDir "/work")).2.content? q := by
  have hdiffer : (ofNames "RowItem" "RowPanel" ["goimports", "entrypoint"]).FilesDiffer := by
    decide +kernel
  obtain ⟨t, ht⟩ : ∃ t, (ofNames "RowItem" "RowPanel" ["goimports", "entrypoint"]).generate "/work"
      none (.ofFunction fun _ text => some text) = some t :=
    Option.isSome_iff_exists.mp (by decide +kernel)
  exact ⟨Files.wellFormed_work, hdiffer, t, ht, fun r f' h =>
    same_whatever_the_order Files.wellFormed_work hdiffer ht h⟩

variable {s : Settings} {workDir : String} {reg : Registry} {c : Class}

lemma classTask_of_isLaidOut {file : SourceFile} {path : String}
    (hfile : c.file s workDir reg = .file file) (hlaid : isLaidOut file)
    (hpath : join [s.targetDir, classFile c.name] = path) (himports : s.enabled .imports = false)
    (resolver : Resolver) :
    classTask s workDir reg c resolver =
      some ((save c.name path (file.render.getD "")).bind fun r =>
        match r with
        | .error f => .done { failures := [f] }
        | .ok o => programTask s workDir c [o] resolver) := by
  rw [classTask, hfile]
  dsimp only
  rw [writeFile_of_isLaidOut hlaid hpath himports]
  rfl

lemma classTasks_pair {d : Class} {t u : Work Outcome} {resolver : Resolver}
    (ht : classTask s workDir reg c resolver = some t)
    (hu : classTask s workDir reg d resolver = some u) :
    classTasks s workDir reg none [c, d] resolver = some [(c.name, t), (d.name, u)] := by
  simp [classTasks, ht, hu]

/-- Files of an earlier run, which start with the header. -/
def leftover (g : Generator) (paths : List String) : Files :=
  paths.foldl (fun f p => ((save "" p ("// " ++ g.settings.headerText)).run f).2)
    (.ofWorkDir "/work")

/-- A class and another one whose name has no words. -/
def panelAndBlank : Generator where
  registry := (Registry.ofList [some panel, some (boxed "_")]).toOption.getD {}
  settings := (scene "Generated by rengen." []).settings

def panelAndBlankFiles : Files :=
  panelAndBlank.leftover ["panel_generated.go", "_generated.go", "cmd/main.go", "cmd/panel/main.go"]

/-- Where a directory is locked, the order can matter. The program of a class whose name has no
words stands in the directory that holds those of all programs. The class that comes last empties
it, and only the class of the program there tries to remove it. -/
theorem order_matters_where_locked :
    panelAndBlank.FilesDiffer ∧ ∃ t u, classTasks panelAndBlank.settings "/work"
        panelAndBlank.registry none panelAndBlank.registry.generated = some [t, u] ∧
      (panelAndBlank.conclude ((inTurn [t, u]).run panelAndBlankFiles
        ["/work"]).1).1.report.failed = [("_" : Text)] ∧
      (panelAndBlank.conclude ((inTurn [u, t]).run panelAndBlankFiles
        ["/work"]).1).1.report.failed = [] := by
  have himports : panelAndBlank.settings.enabled .imports = false := by decide +kernel
  have hpanel := @classTask_of_isLaidOut panelAndBlank.settings "/work" panelAndBlank.registry
    panel _ "panel_generated.go" rfl isLaidOut_panelFile (by decide +kernel) himports
    resolveImports
  have hblank := @classTask_of_isLaidOut panelAndBlank.settings "/work" panelAndBlank.registry
    (boxed "_") _ "_generated.go" rfl (by decide +kernel) (by decide +kernel) himports
    resolveImports
  exact ⟨by decide +kernel, _, _, classTasks_pair hpanel hblank, by decide +kernel,
    by decide +kernel⟩

end Generator

end ReactiveModel
