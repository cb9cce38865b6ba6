import ReactiveModel.Proofs.Check
import ReactiveModel.Proofs.FileNames
import ReactiveModel.Proofs.Pacts

/-! The task of one class. It changes files only at the places that go with the name of the class,
and each file that it reports holds what the class is rendered to. -/

namespace ReactiveModel

open List Naming ReactiveModel.Path

/-- The bytes that a source file may become: its text, or what import resolution makes of it. Other
files count only if the text refers to names that it does not import. -/
def SourceFile.Renders (s : Settings) (f : SourceFile) (bs : List UInt8) : Prop :=
  ∃ text final : String, f.render = some text ∧ bs = final.toUTF8.toList ∧
    if s.enabled .imports then
      ∃ others, (Imports.isIncomplete text = false → others = []) ∧
        Imports.resolve others text = some final
    else final = text

namespace Files

variable {f g : Files} {held : List (String × List UInt8)} {touched : String → Prop}

/-- Contents that stand at the places of their paths. -/
def Holds (f : Files) (held : List (String × List UInt8)) : Prop :=
  ∀ h ∈ held, f.lookup? (placeOf f.workDir h.1) = some (.file h.2)

lemma Holds.of_extends (h : f.Holds held) (hg : f.Extends g) : g.Holds held := by
  intro e he
  rw [hg.workDir]
  exact hg.lookup? _ _ (h e he)

lemma Holds.of_sameOff (h : f.Holds held) {q : String} (hg : SameOff q f g)
    (hq : ∀ e ∈ held, placeOf f.workDir e.1 ≠ q) : g.Holds held := by
  intro e he
  rw [hg.workDir, hg.lookup? _ (hq e he)]
  exact h e he

/-- A change of files that makes directories, or reaches the place of one of some paths only. -/
def ChangesWithin (touched : String → Prop) (f g : Files) : Prop :=
  f.Extends g ∨ ∃ p, touched p ∧ SameOff (placeOf f.workDir p) f g

lemma ChangesWithin.workDir (h : ChangesWithin touched f g) : g.workDir = f.workDir := by
  rcases h with hext | ⟨p, -, hsame⟩
  · exact hext.workDir
  · exact hsame.workDir

lemma Holds.of_changes (h : f.Holds held) (hg : ChangesWithin touched f g)
    (hspared : ∀ e ∈ held, ∀ p, touched p → placeOf f.workDir e.1 ≠ placeOf f.workDir p) :
    g.Holds held := by
  rcases hg with hext | ⟨p, hp, hsame⟩
  · exact h.of_extends hext
  · exact h.of_sameOff hsame fun e he => hspared e he p hp

/-- A change of files that spares what stands at some paths. -/
structure Spares (kept : String → Prop) (f g : Files) : Prop where
  workDir : g.workDir = f.workDir
  holds : ∀ held : List (String × List UInt8), (∀ e ∈ held, kept e.1) → f.Holds held → g.Holds held

end Files

namespace Run

/-! Parts of the task, within any terms that allow them. -/

/-- An action that keeps to terms and to what holds before it. -/
def Admits (c : Terms) (inv : Files → Prop) (act : Files → Option FileFailure × Files) : Prop :=
  ∀ f r g, inv f → act f = (r, g) → c.guarantee f g ∧ inv g

lemma admits_of {c : Terms} {inv : Files → Prop} {act : Files → Option FileFailure × Files}
    (h : ∀ f, inv f → c.guarantee f (act f).2 ∧ inv (act f).2) : Admits c inv act := by
  intro f r g hf hact
  obtain rfl := congrArg Prod.snd hact
  exact h f hf

/-- What holds whatever others do, and whichever directories are made. -/
structure Lasting (c : Terms) (inv : Files → Prop) : Prop where
  stable : ∀ {f g}, c.rely f g → inv f → inv g
  make : ∀ p, Admits c inv (·.makeDirectories p)

/-- A path at which a task may do anything. -/
structure Access (c : Terms) (inv : Files → Prop) (p : String) : Prop where
  create : Admits c inv (·.create p)
  write : ∀ bs, Admits c inv (·.write p bs)
  remove : Admits c inv (·.remove p)

/-- What holds of files from when a path is opened to when it is written. -/
structure Opened (c : Terms) (inv : Files → Prop) (p : String) (opened : Files → Prop) : Prop where
  create : ∀ f g, inv f → f.create p = (none, g) → opened g
  stable : ∀ {f g}, c.rely f g → opened f → opened g

lemma opened_trivial (c : Terms) (inv : Files → Prop) (p : String) : Opened c inv p fun _ => True :=
  ⟨fun _ _ _ _ => trivial, fun _ => id⟩

section

variable {c : Terms} {inv opened : Files → Prop} {f : Files} {className : Text} {path text : String}
  {post : Except Failure Output → Files → Prop} (hinv : Lasting c inv) {s : Settings}

include hinv

lemma upholds_save (hpath : Access c inv path) (hopened : Opened c inv path opened)
    (hfail : ∀ e g, inv g → post (.error e) g)
    (hok : ∀ size f g g', inv f → opened f → f.write path text.toUTF8.toList = (none, g) →
      c.rely g g' → post (.ok ⟨path, size⟩) g')
    (hf : inv f) : (save className path text).Upholds c post f := by
  intro g made g₁ hg hmade
  obtain ⟨hguarantee, hg₁⟩ := hinv.make _ _ _ _ (hinv.stable hg hf) hmade
  refine ⟨hguarantee, ?_⟩
  cases made with
  | some e => exact fun g' hg' => hfail _ g' (hinv.stable hg' hg₁)
  | none =>
    intro g' created g₂ hg' hcreated
    have hready := hinv.stable hg' hg₁
    obtain ⟨hguarantee, hg₂⟩ := hpath.create _ _ _ hready hcreated
    refine ⟨hguarantee, ?_⟩
    cases created with
    | some e => exact fun g' hg' => hfail _ g' (hinv.stable hg' hg₂)
    | none =>
      have hopen := hopened.create _ _ hready hcreated
      intro g' written g₃ hg' hwritten
      obtain ⟨hguarantee, hg₃⟩ := hpath.write _ _ _ _ (hinv.stable hg' hg₂) hwritten
      refine ⟨hguarantee, ?_⟩
      cases written with
      | some e => exact fun g' hg' => hfail _ g' (hinv.stable hg' hg₃)
      | none =>
        exact fun g'' hg'' => hok _ g' g₃ g'' (hinv.stable hg' hg₂) (hopened.stable hg' hopen)
          hwritten hg''

lemma upholds_saveUnresolved (haside : Access c inv (path ++ ".error"))
    (hfail : ∀ e g, inv g → post (.error e) g) (hf : inv f) :
    (saveUnresolved className path text).Upholds c post f := by
  intro g made g₁ hg hmade
  obtain ⟨hguarantee, hg₁⟩ := hinv.make _ _ _ _ (hinv.stable hg hf) hmade
  refine ⟨hguarantee, fun g' created g₂ hg' hcreated => ?_⟩
  obtain ⟨hguarantee, hg₂⟩ := haside.create _ _ _ (hinv.stable hg' hg₁) hcreated
  refine ⟨hguarantee, ?_⟩
  cases created with
  | some e => exact fun g' hg' => hfail _ g' (hinv.stable hg' hg₂)
  | none =>
    intro g' written g₃ hg' hwritten
    obtain ⟨hguarantee, hg₃⟩ := haside.write _ _ _ _ (hinv.stable hg' hg₂) hwritten
    exact ⟨hguarantee, fun g' hg' => hfail _ g' (hinv.stable hg' hg₃)⟩

lemma upholds_writeFile {file : SourceFile} {name : String}
    (hpath : Access c inv (join [s.targetDir, name]))
    (haside : Access c inv (join [s.targetDir, name] ++ ".error"))
    (hopened : Opened c inv (join [s.targetDir, name]) opened)
    (hfail : ∀ e g, inv g → post (.error e) g)
    (hok : ∀ bs size f g g', file.Renders s bs → inv f → opened f →
      f.write (join [s.targetDir, name]) bs = (none, g) → c.rely g g' →
        post (.ok ⟨join [s.targetDir, name], size⟩) g')
    (hf : inv f) : (writeFile s className file name).Upholds c post f := by
  unfold writeFile
  cases hrender : file.render with
  | none => exact fun g hg => hfail _ g (hinv.stable hg hf)
  | some text =>
    cases himports : s.enabled .imports with
    | false =>
      refine upholds_save hinv hpath hopened hfail (fun size f g g' => hok _ size f g g' ?_) hf
      exact ⟨text, text, hrender, rfl, by simp [himports]⟩
    | true =>
      refine (looks_resolveImports _ text).upholds.bind ?_
      rintro _ g ⟨⟨others, hothers, rfl⟩, hg⟩
      cases hresolved : Imports.resolve others text with
      | none => exact upholds_saveUnresolved hinv haside hfail (hinv.stable hg hf)
      | some final =>
        refine upholds_save hinv hpath hopened hfail (fun size f g g' => hok _ size f g g' ?_)
          (hinv.stable hg hf)
        exact ⟨text, final, hrender, rfl, by simpa [himports] using ⟨others, hothers, hresolved⟩⟩

lemma upholds_removeGenerated {post : Option FileFailure → Files → Prop}
    (hpath : Access c inv path ∨ ∀ f bs, inv f → f.read path = .ok bs →
      ("// " ++ s.headerText).toUTF8.toList.isPrefixOf bs = false)
    (hdir : Access c inv (parent path)) (hpost : ∀ e g, inv g → post e g) (hf : inv f) :
    (removeGenerated s path).Upholds c post f := by
  have hdone (e : Option FileFailure) {f : Files} (hf : inv f) : (Work.done e).Upholds c post f :=
    fun g hg => hpost e g (hinv.stable hg hf)
  intro g found hg hfound
  cases found with
  | error e => exact hdone _ (hinv.stable hg hf)
  | ok bs =>
    show Work.Upholds c post (if _ then _ else _) g
    split
    · rename_i hmarked
      rcases hpath with hpath | hunmarked
      · intro g' removed g₁ hg' hremoved
        obtain ⟨hguarantee, hg₁⟩ :=
          hpath.remove _ _ _ (hinv.stable hg' (hinv.stable hg hf)) hremoved
        refine ⟨hguarantee, ?_⟩
        cases removed with
        | some e => exact hdone _ hg₁
        | none =>
          intro g₂ listed hg₂ _
          rcases listed with e | ⟨_ | ⟨n, ns⟩⟩
          · exact hdone _ (hinv.stable hg₂ hg₁)
          · intro g₃ removed g₄ hg₃ hremoved
            exact (hdir.remove _ _ _ (hinv.stable hg₃ (hinv.stable hg₂ hg₁)) hremoved).imp_right
              (hdone _)
          · exact hdone _ (hinv.stable hg₂ hg₁)
      · rw [hunmarked g bs (hinv.stable hg hf) hfound] at hmarked
        nomatch hmarked
    · exact hdone _ (hinv.stable hg hf)

end

/-! Paths of the files of a class. -/

def artifactPath (s : Settings) (name : Text) : String :=
  Path.join [s.targetDir, Naming.classFile name]

def programPath (s : Settings) (name : Text) : String :=
  Path.join [s.targetDir, Naming.entryPointFile name]

/-- The paths that a class takes, in the order in which they are written. -/
def ownPaths (s : Settings) (name : Text) : List String := [artifactPath s name, programPath s name]

section

variable {s : Settings} {name other : Text}

lemma targetDir_ne_empty (s : Settings) : s.targetDir ≠ "" := by
  unfold Settings.targetDir Settings.orElse
  split
  · decide
  · rename_i h
    simpa using h

section

variable (h : isName name)

include h

lemma artifactPath_append (ending : String) (hending : '/' ∉ ending.toList) :
    artifactPath s name ++ ending = below s.targetDir [classFile name ++ ending] := by
  have hfile : Plain (classFile name) := by
    simpa using plain_classFile h "" (by simp)
  have hsteps : steps (classFile name) = [classFile name] := by
    simp [steps, parts_eq_singleton hfile.slash, isStep, hfile.ne_empty,
      hfile.ne_dot]
  have hpath : artifactPath s name = below s.targetDir ([] ++ [classFile name]) := by
    rw [artifactPath, join_eq_below (targetDir_ne_empty s) (by simpa [Plains, hsteps] using hfile),
      hsteps, nil_append]
  rw [hpath, below_append _ (forall_mem_nil _) hfile (plain_classFile h ending hending),
    nil_append]

lemma artifactPath_eq : artifactPath s name = below s.targetDir [classFile name] := by
  simpa using artifactPath_append h "" (by simp)

lemma programPath_eq : programPath s name = below s.targetDir (programDir name ++ ["main.go"]) := by
  have hplain : ∀ e ∈ steps (entryPointFile name), Plain e := by
    rw [steps_entryPointFile h]
    exact plain_of_mem_reachedPlaces h (by simp [reachedPlaces, programPlaces])
  rw [programPath, join_eq_below (targetDir_ne_empty s) hplain, steps_entryPointFile h]

lemma programPath_error :
    programPath s name ++ ".error" =
      below s.targetDir (programDir name ++ ["main.go.error"]) := by
  rw [programPath_eq h]
  exact below_append _ (fun n hn => plain_of_mem_programDir h hn) plain_main
    ⟨by decide, by decide, by decide, by decide⟩

lemma parent_programPath : parent (programPath s name) = below s.targetDir (programDir name) := by
  rw [programPath_eq h]
  exact parent_below _ (fun n hn => plain_of_mem_programDir h hn) plain_main

lemma ownPaths_eq : ownPaths s name = (ownPlaces name).map (below s.targetDir) := by
  rw [ownPaths, artifactPath_eq h, programPath_eq h]
  rfl

lemma nodup_ownPaths : (ownPaths s name).Nodup := by
  have hplaces : ∀ ns ∈ ownPlaces name, ∀ n ∈ ns, Plain n := fun ns hns =>
    plain_of_mem_reachedPlaces h (mem_reachedPlaces_of_ownPlaces hns)
  have hnodup : (ownPlaces name).Nodup := by
    have hne := classFile_notMem_programPlaces name name
    rw [programPlaces, mem_cons, not_or] at hne
    simpa [ownPlaces] using hne.1
  rw [ownPaths_eq h]
  exact hnodup.map_on fun ns hns ms hms heq =>
    eq_of_below (hplaces ns hns) (hplaces ms hms) heq

end

lemma artifactPath_eq_of_words (h : words name = words other) :
    artifactPath s name = artifactPath s other := by
  rw [artifactPath, artifactPath, classFile_eq_iff.mpr h]

lemma disjoint_ownPaths_iff (h : isName name) (hother : isName other) :
    (ownPaths s name).Disjoint (ownPaths s other) ↔ words name ≠ words other := by
  refine ⟨fun hdisjoint hwords => ?_, fun hwords p hp hp' => ?_⟩
  · have hmem : artifactPath s other ∈ ownPaths s other := mem_cons_self
    rw [← artifactPath_eq_of_words hwords] at hmem
    exact hdisjoint mem_cons_self hmem
  · rw [ownPaths_eq h] at hp
    rw [ownPaths_eq hother] at hp'
    obtain ⟨ns, hns, rfl⟩ := mem_map.mp hp
    obtain ⟨ms, hms, heq⟩ := mem_map.mp hp'
    have hreached := mem_reachedPlaces_of_ownPlaces hms
    obtain rfl : ms = ns := eq_of_below
      (plain_of_mem_reachedPlaces hother hreached)
      (plain_of_mem_reachedPlaces h (mem_reachedPlaces_of_ownPlaces hns)) heq
    exact ownPlaces_disjoint_reachedPlaces hother hwords ms hns hreached

end

/-! What a class answers for. -/

/-- What a file that a class writes may hold. -/
inductive Renders (s : Settings) (workDir : String) (reg : Registry) (c : Class) :
    String → List UInt8 → Prop
  | artifact {f : SourceFile} {bs : List UInt8} (hfile : c.file s workDir reg = .file f)
      (hbs : f.Renders s bs) : Renders s workDir reg c (artifactPath s c.name) bs
  | program {f : SourceFile} {bs : List UInt8} (henabled : s.enabled .entryPoint = true)
      (hfile : c.entryPoint s (s.goPackage workDir) = .ok f) (hbs : f.Renders s bs) :
      Renders s workDir reg c (programPath s c.name) bs

/-- An outcome that reports files which hold what the class is rendered to. -/
def Rendered (s : Settings) (workDir : String) (reg : Registry) (c : Class)
    (held : List (String × List UInt8)) (o : Outcome) : Prop :=
  ∀ w ∈ o.written, ∃ bs, (w.path, bs) ∈ held ∧ Renders s workDir reg c w.path bs

/-- What the task of a class agrees upon with the others: only a class that passes its check changes
anything, at the paths that go with its name, and the others leave alone what it has written. -/
def duty (s : Settings) (workDir : String) (reg : Registry) (c : Class) : Pact Outcome where
  rely := Files.Spares fun p => c.check s reg = .passed ∧
    ∃ ns ∈ Naming.ownPlaces c.name, p = Path.below s.targetDir ns
  guarantee := Files.ChangesWithin fun p => c.check s reg = .passed ∧
    ∃ ns ∈ Naming.reachedPlaces c.name, p = Path.below s.targetDir ns
  refl _ := ⟨rfl, fun _ _ => id⟩
  trans hfg hgh := ⟨hgh.workDir.trans hfg.workDir, fun held hkept =>
    hgh.holds held hkept ∘ hfg.holds held hkept⟩
  look f := .inl f.extends_refl
  post o f := ∃ held, Rendered s workDir reg c held o ∧ f.Holds held

section

variable {s : Settings} {workDir p : String} {reg : Registry} {c : Class}
  {held : List (String × List UInt8)} {ns : List String} {bs : List UInt8} {f g : Files}

lemma isName_of_check (h : c.check s reg = .passed) : isName c.name = true :=
  (Class.check_eq_passed_iff.mp h).1

lemma check_of_file {f : SourceFile} (h : c.file s workDir reg = .file f) :
    c.check s reg = .passed := by
  unfold Class.file at h
  split at h
  · assumption
  · nomatch h
  · nomatch h

lemma lasting_held (h : c.check s reg = .passed)
    (hheld : ∀ e ∈ held, ∃ ns ∈ ownPlaces c.name, e.1 = below s.targetDir ns) :
    Lasting (duty s workDir reg c).toTerms (·.Holds held) where
  stable hfg := hfg.holds held fun e he => ⟨h, hheld e he⟩
  make p := admits_of fun f hf =>
    ⟨.inl (f.extends_makeDirectories p), hf.of_extends (f.extends_makeDirectories p)⟩

lemma access_of_spared (h : c.check s reg = .passed) (hns : ns ∈ reachedPlaces c.name)
    (hheld : ∀ dir, ∀ e ∈ held, Files.placeOf dir e.1 ≠ Files.placeOf dir (below s.targetDir ns)) :
    Access (duty s workDir reg c).toTerms (·.Holds held) (below s.targetDir ns) := by
  have hadmits {act : Files → Option FileFailure × Files} (hact : ∀ f, Files.SameOff
      (Files.placeOf f.workDir (below s.targetDir ns)) f (act f).2) :
      Admits (duty s workDir reg c).toTerms (·.Holds held) act :=
    admits_of fun f hf => ⟨.inr ⟨_, ⟨h, ns, hns, rfl⟩, hact f⟩, hf.of_sameOff (hact f) (hheld _)⟩
  exact ⟨hadmits (·.sameOff_create _), fun bs => hadmits (·.sameOff_write _ bs),
    hadmits (·.sameOff_remove _)⟩

/-- From when a class opens a file to when it writes it, the file is empty. -/
lemma opened_own (h : c.check s reg = .passed)
    (hp : ∃ ns ∈ ownPlaces c.name, p = below s.targetDir ns) :
    Opened (duty s workDir reg c).toTerms (·.Holds held) p (·.Holds [(p, [])]) where
  create f g _ hcreate := by
    have hentry := Files.lookup?_of_create (congrArg Prod.fst hcreate)
    rw [← (f.sameOff_create p).workDir, hcreate] at hentry
    exact forall_mem_singleton.mpr hentry
  stable hfg := hfg.holds _ (forall_mem_singleton.mpr ⟨h, hp⟩)

lemma holds_of_write (hp : Access (duty s workDir reg c).toTerms (·.Holds held) p)
    (hf : f.Holds held) (hempty : f.Holds [(p, [])]) (hwrite : f.write p bs = (none, g)) :
    g.Holds ((p, bs) :: held) := by
  obtain ⟨hchange, hg⟩ := hp.write bs f none g hf hwrite
  have hentry := Files.lookup?_of_write (congrArg Prod.fst hwrite)
    (hempty (p, []) (mem_singleton_self _))
  rw [hwrite, ← hchange.workDir] at hentry
  exact forall_mem_cons.mpr ⟨hentry, hg⟩

lemma access_program (workDir : String) (h : c.check s reg = .passed) (bs : List UInt8)
    (hns : ns ∈ programPlaces c.name) :
    Access (duty s workDir reg c).toTerms (·.Holds [(artifactPath s c.name, bs)])
      (below s.targetDir ns) := by
  have hname := isName_of_check h
  have hreached : ns ∈ reachedPlaces c.name := by simp [reachedPlaces, hns]
  have hfile : [classFile c.name] ∈ reachedPlaces c.name := by
    simp [reachedPlaces]
  refine access_of_spared h hreached fun dir => forall_mem_singleton.mpr fun heq => ?_
  rw [artifactPath_eq hname] at heq
  have hsame := Files.eq_of_placeOf_below (plain_of_mem_reachedPlaces hname hfile)
    (plain_of_mem_reachedPlaces hname hreached) heq
  exact classFile_notMem_programPlaces c.name c.name (hsame ▸ hns)

lemma upholds_programTask (h : c.check s reg = .passed) {size : Nat}
    (hbs : Renders s workDir reg c (artifactPath s c.name) bs)
    (hf : f.Holds [(artifactPath s c.name, bs)]) :
    (programTask s workDir c [⟨artifactPath s c.name, size⟩]).Upholds
      (duty s workDir reg c).toTerms (duty s workDir reg c).post f := by
  have hname := isName_of_check h
  have hown : ∃ ns ∈ ownPlaces c.name, artifactPath s c.name = below s.targetDir ns :=
    ⟨_, mem_cons_self, artifactPath_eq hname⟩
  have hown' : ∃ ns ∈ ownPlaces c.name, programPath s c.name = below s.targetDir ns :=
    ⟨_, mem_cons_of_mem _ mem_cons_self, programPath_eq hname⟩
  have hlasting : Lasting (duty s workDir reg c).toTerms (·.Holds [(artifactPath s c.name, bs)]) :=
    lasting_held h (forall_mem_singleton.mpr hown)
  have hartifact (failures : List Failure) {g : Files}
      (hg : g.Holds [(artifactPath s c.name, bs)]) :
      (Work.done (Outcome.mk [⟨artifactPath s c.name, size⟩] failures)).Upholds
        (duty s workDir reg c).toTerms (duty s workDir reg c).post g :=
    fun g' hg' => ⟨_, by simpa [Rendered] using hbs, hlasting.stable hg' hg⟩
  have haccess : ∀ ns ∈ programPlaces c.name, Access (duty s workDir reg c).toTerms
      (·.Holds [(artifactPath s c.name, bs)]) (below s.targetDir ns) :=
    fun ns hns => access_program workDir h bs hns
  simp only [programPlaces, forall_mem_cons, ← programPath_eq hname,
    ← programPath_error hname, ← parent_programPath hname] at haccess
  obtain ⟨hprogram, haside, hdir, -⟩ := haccess
  unfold programTask
  split
  · rename_i henabled
    split
    · exact hartifact _ hf
    · rename_i file hfile
      refine Work.Upholds.bind (upholds_writeFile hlasting hprogram haside (opened_own h hown')
        (fun e g hg => hartifact _ hg)
        (fun bs' size' f g g' hbs' hf hempty hwrite hg' g'' hg'' => ?_) hf) fun _ _ => id
      refine ⟨[(programPath s c.name, bs'), (artifactPath s c.name, bs)], ?_, ?_⟩
      · exact forall_mem_cons.mpr ⟨⟨bs, by simp, hbs⟩, forall_mem_singleton.mpr
          ⟨bs', mem_cons_self, .program henabled hfile hbs'⟩⟩
      · have hboth : Lasting (duty s workDir reg c).toTerms
            (·.Holds [(programPath s c.name, bs'), (artifactPath s c.name, bs)]) :=
          lasting_held h (forall_mem_cons.mpr ⟨hown', forall_mem_singleton.mpr hown⟩)
        exact hboth.stable hg'' (hboth.stable hg' (holds_of_write hprogram hf hempty hwrite))
  · refine (upholds_removeGenerated hlasting (.inl hprogram) hdir
      (fun _ _ hg => hg) hf).bind fun e g hg => ?_
    cases e <;> exact hartifact _ hg

lemma upholds_classTask {t : Work Outcome} (h : classTask s workDir reg c = some t) (f : Files) :
    t.Upholds (duty s workDir reg c).toTerms (duty s workDir reg c).post f := by
  unfold classTask at h
  split at h
  · nomatch h
  · cases h
    exact fun g _ => ⟨[], forall_mem_nil _, forall_mem_nil _⟩
  · rename_i file hfile
    cases h
    have hpassed := check_of_file hfile
    have hname := isName_of_check hpassed
    have haccess : ∀ ns ∈ reachedPlaces c.name, Access (duty s workDir reg c).toTerms
        (·.Holds []) (below s.targetDir ns) :=
      fun ns hns => access_of_spared hpassed hns fun _ => forall_mem_nil _
    simp only [reachedPlaces, forall_mem_cons, ← artifactPath_eq hname,
      ← artifactPath_append hname ".error" (by decide)] at haccess
    obtain ⟨hartifact, haside, -⟩ := haccess
    have hown : ∃ ns ∈ ownPlaces c.name, artifactPath s c.name = below s.targetDir ns :=
      ⟨_, mem_cons_self, artifactPath_eq hname⟩
    refine Work.Upholds.bind (upholds_writeFile (lasting_held hpassed (forall_mem_nil _)) hartifact
      haside (opened_own hpassed hown)
      (fun e g _ g' _ => ⟨[], forall_mem_nil _, forall_mem_nil _⟩)
      (fun bs size f g g' hbs hf hempty hwrite hg' => ?_) (forall_mem_nil _)) fun _ _ => id
    refine upholds_programTask hpassed (.artifact hfile hbs) (hg'.holds _ ?_
      (holds_of_write hartifact hf hempty hwrite))
    exact forall_mem_singleton.mpr ⟨hpassed, _, mem_cons_self, artifactPath_eq hname⟩

/-- A class does not reach what another class has written, if the words of their names differ. -/
lemma agree_duty {d : Class}
    (h : c.check s reg = .passed → d.check s reg = .passed → words c.name ≠ words d.name)
    (hfg : (duty s workDir reg d).guarantee f g) : (duty s workDir reg c).rely f g := by
  refine ⟨hfg.workDir, fun held hkept hf => hf.of_changes hfg ?_⟩
  rintro e he p ⟨hd, ms, hms, rfl⟩ heq
  obtain ⟨hc, ns, hns, hpath⟩ := hkept e he
  rw [hpath] at heq
  have hsame := Files.eq_of_placeOf_below
    (plain_of_mem_reachedPlaces (isName_of_check hc) (mem_reachedPlaces_of_ownPlaces hns))
    (plain_of_mem_reachedPlaces (isName_of_check hd) hms) heq
  subst hsame
  exact ownPlaces_disjoint_reachedPlaces (isName_of_check hd) (h hc hd) ns hns hms

end

end Run

end ReactiveModel
