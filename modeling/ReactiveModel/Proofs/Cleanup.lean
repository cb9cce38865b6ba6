import ReactiveModel.Proofs.Headers
import ReactiveModel.Proofs.Stale

/-! Programs that are no longer wanted. A later run knows a program of an earlier one by the header,
which the earlier run wrote at the top of it. -/

namespace ReactiveModel

open List Files Naming ReactiveModel.Path SourceFile Source

/-- What is known to be generated under settings: contents that start with the header, as a line
comment. -/
def Settings.Recognizes (s : Settings) (bs : List UInt8) : Prop :=
  ("// " ++ s.headerText).toUTF8.toList <+: bs

lemma toUTF8_prefix_iff {u v : String} :
    u.toUTF8.toList <+: v.toUTF8.toList ↔ u.toList <+: v.toList := by
  rw [Text.toUTF8_toList, Text.toUTF8_toList, ← Text.startsWith_ofString, Text.startsWith,
    isPrefixOf_iff_prefix]
  rfl

/-! Contents that start with a program. -/

namespace Run.IsProgram

variable {s : Settings} {workDir : String} {c : Class} {bs cs : List UInt8}

lemma starts_of_comment (h : IsProgram s workDir c bs) (himports : s.enabled .imports = false)
    {w : String} (htext : Code.commentText s.headerText = .ofString w)
    (hw : Source.IsLineComment w) :
    ∃ out : String, bs = out.toUTF8.toList ∧ w.toList <+: out.toList := by
  obtain ⟨file, hfile, text, final, hrender, hbs, hfinal⟩ := h
  rw [himports] at hfinal
  obtain rfl : final = text := by simpa using hfinal
  unfold Class.entryPoint at hfile
  split at hfile
  · cases hfile
  · cases hfile
    obtain ⟨source, hsource, hformat⟩ := Option.bind_eq_some_iff.mp hrender
    exact ⟨final, hbs, prefix_format hw isLineComment_caution
      (hasHeading_text htext _ hsource) hformat⟩

lemma recognizes (h : IsProgram s workDir c cs) (himports : s.enabled .imports = false)
    (hheader : s.HasLineHeader) (hcs : cs <+: bs) : s.Recognizes bs := by
  have hbreak : '\n' ∉ s.headerText.toList := fun hmem => hheader.kept.notMem_break (by simp [hmem])
  obtain ⟨out, rfl, hout⟩ := h.starts_of_comment himports
    (commentText_unmarked hheader.unmarked hheader.unopened hbreak) hheader.kept
  exact (toUTF8_prefix_iff.mpr hout).trans hcs

/-- The mark of the header stands where the header would have to start. -/
lemma not_recognizes (h : IsProgram s workDir c cs) (himports : s.enabled .imports = false)
    (hheader : s.HasMarkedHeader) (hcs : cs <+: bs) : ¬s.Recognizes bs := by
  obtain ⟨d, r, hd, hne⟩ := hheader.marked
  obtain ⟨out, rfl, hout⟩ := h.starts_of_comment himports
    (commentText_marked ⟨' ' :: d :: r, hd.symm⟩) hheader.kept
  rw [hd] at hout
  intro hrecognized
  obtain ⟨x, y, hxy⟩ :
      ∃ x y, ("// " ++ s.headerText).toList ++ x = '/' :: '/' :: ' ' :: d :: y := by
    rcases prefix_or_prefix_of_prefix hrecognized hcs with hshort | hlong
    · obtain ⟨x, hx⟩ := toUTF8_prefix_iff.mp hshort
      obtain ⟨y, hy⟩ := hout
      exact ⟨x, r ++ y, hx.trans hy.symm⟩
    · obtain ⟨y, hy⟩ := hout.trans (toUTF8_prefix_iff.mp hlong)
      exact ⟨[], r ++ y, (append_nil _).trans hy.symm⟩
  rw [String.toList_append, hd] at hxy
  obtain ⟨hslash, -⟩ : '/' = d ∧ _ := by simpa using hxy
  exact hne hslash.symm

end Run.IsProgram

namespace Files

/-- Files where one place, with those that it stands in, is as in others. -/
structure KeepsAt (q : String) (f g : Files) : Prop where
  workDir : g.workDir = f.workDir
  lookup? : ∀ p, Below p q → g.lookup? p = f.lookup? p

lemma Stands.of_keepsAt {dir : String} {es : List String} {bs : List UInt8} {f g : Files}
    (h : f.Stands dir es bs) (hfg : KeepsAt (placeAt es) f g) : g.Stands dir es bs := by
  have habove {ms ns : List String} (hms : ms ++ ns = es) : Below (placeAt ms) (placeAt es) :=
    ⟨ms, ns, hms ▸ h.plain, rfl, congrArg placeAt hms.symm⟩
  refine ⟨hfg.workDir.trans h.workDir, h.plain, ?_, fun ms m hms => ?_⟩
  · rw [hfg.lookup? _ (habove (append_nil es))]
    exact h.file
  · obtain ⟨ns, hns⟩ := hms
    rw [append_assoc] at hns
    rw [nil_append, hfg.lookup? _ (habove hns)]
    exact h.opens ms m ⟨ns, by rw [append_assoc, hns]⟩

end Files

namespace Generator

open Run

variable {features : List String} {header : String} {f g : Files} {o : Output}

/-- Where the program of a class stands. -/
def programPlace (g : Generator) (f : Files) (a : Text) : String :=
  Files.placeOf f.workDir (programPath g.settings a)

/-- The directory of the program. -/
def programDirPlace (g : Generator) (f : Files) (a : Text) : String :=
  Files.placeOf f.workDir (Path.parent (programPath g.settings a))

section

variable {g : Generator} {workDir : String} {limit : Option Nat} {f f' : Files}
  {os : List (Text × Outcome)} {ws : List String} {a : Text}

lemma programPlace_eq (hf : f.WorksAt ws) (ha : isName a) :
    g.programPlace f a = placeAt (programNames g.settings ws a) := by
  rw [programPlace, hf.workDir, placeOf_program hf.plain ha]

lemma programDirPlace_eq (hf : f.WorksAt ws) (ha : isName a) :
    g.programDirPlace f a = placeAt (programDirNames g.settings ws a) := by
  rw [programDirPlace, hf.workDir, parent_programPath ha,
    placeOf_below hf.plain (plain_programDir ha), programDirNames, spot]

/-- What a class that succeeds where programs are not wanted makes of its program. -/
lemma Runs.program_cleared (h : g.Runs workDir limit f os f')
    (hoff : g.settings.enabled .entryPoint = false) (hws : Plains ws) {o : Outcome}
    (ho : (a, o) ∈ os) (hdone : o.failures = []) (ha : isName a)
    (hleads : Leads g.settings (programDir a ++ ["main.go"])) {bs : List UInt8}
    (hf : f.Stands (placeAt ws) (programNames g.settings ws a) bs) :
    (g.settings.Recognizes bs ∧
        f'.lookup? (placeAt (programNames g.settings ws a)) = none ∧
        (f.HoldsOnly (placeAt (programDirNames g.settings ws a))
            (placeAt (programNames g.settings ws a)) →
          f'.lookup? (placeAt (programDirNames g.settings ws a)) = none)) ∨
      (¬g.settings.Recognizes bs ∧
        f'.lookup? (placeAt (programNames g.settings ws a)) = some (.file bs)) := by
  by_cases hbs : g.settings.Recognizes bs
  · exact .inl ⟨hbs, h.program_removed hoff hws ho hdone ha hleads hf
      ( isPrefixOf_iff_prefix.mpr hbs)⟩
  · have hnot := mt isPrefixOf_iff_prefix.mp hbs
    exact .inr ⟨hbs, (h.stands hoff hws ha (Bool.not_eq_true _ ▸ hnot) hf).file⟩

end

/-! A class under two headers that make the same comment. -/

def panel : Class := boxed "Panel"

def scene (header : String) (features : List String) : Generator where
  registry := (Registry.ofList [some panel]).toOption.getD {}
  settings := { header, package := "rengine", runtime := "rengine", features }

/-- The artifact and the program as files; headers are put on top of them. -/
def panelFile : SourceFile :=
  (panel.artifact (scene "" []).settings (scene "" []).registry).file (scene "" []).settings
    ((scene "" []).settings.goPackage "/work")

def panelMain : SourceFile where
  package := "main"
  hints := [("rengine", (scene "" []).settings.goPackage "/work")]
  body := .declarations [.phrase ["func", "main", .params [], .block
    [.call (.qualified "rengine" "Main")
      [.call (.qualified "rengine" "NewSurfaceForGenerated")
        [.callOf "new" [.qualified "rengine" "Panel"]]]]]]

lemma path_panelMain : join [".", entryPointFile panel.name] = "cmd/panel/main.go" := by
  decide +kernel

lemma programPath_panel :
    programPath (scene header features).settings panel.name = "cmd/panel/main.go" :=
  path_panelMain

lemma programPlace_panel :
    (scene header features).programPlace (.ofWorkDir "/work") panel.name =
      "/work/cmd/panel/main.go" := by
  rw [programPlace, programPath_panel]
  decide +kernel

lemma programDirPlace_panel :
    (scene header features).programDirPlace (.ofWorkDir "/work") panel.name =
      "/work/cmd/panel" := by
  rw [programDirPlace, programPath_panel]
  decide +kernel

lemma isLaidOut_panelFile :
    isLaidOut (panelFile.withHeader (scene "Generated by rengen." []).settings) := by
  decide +kernel

lemma isLaidOut_panelMain :
    isLaidOut (panelMain.withHeader (scene "Generated by rengen." []).settings) := by
  decide +kernel

/-- A header that makes the comment of both texts. -/
structure IsSceneHeader (header : String) : Prop where
  commentText_eq : Code.commentText (scene header []).settings.headerText =
    Code.commentText (scene "Generated by rengen." []).settings.headerText

lemma IsSceneHeader.render_eq (h : IsSceneHeader header) (features : List String) (f : SourceFile) :
    (f.withHeader (scene header features).settings).render =
      (f.withHeader (scene "Generated by rengen." []).settings).render := by
  have hcomment : Code.commentText (scene header features).settings.headerText =
      Code.commentText (scene "Generated by rengen." []).settings.headerText := h.commentText_eq
  simp [render, text, withHeader, hcomment]

/-- What a file of the class is rendered to. -/
def panelText (f : SourceFile) : String :=
  (f.withHeader (scene "Generated by rengen." []).settings).render.getD ""

lemma IsSceneHeader.writeFile_eq (h : IsSceneHeader header)
    (himports : (scene header features).settings.enabled .imports = false) {f : SourceFile}
    (hf : isLaidOut (f.withHeader (scene "Generated by rengen." []).settings)) {name path : String}
    (hpath : join [".", name] = path) :
    writeFile (scene header features).settings panel.name
      (f.withHeader (scene header features).settings) name =
        save panel.name path (panelText f) := by
  have htarget : (scene header features).settings.targetDir = "." := rfl
  obtain ⟨out, hout⟩ := exists_render hf
  rw [writeFile, htarget, hpath, h.render_eq, panelText, hout, himports]
  rfl

def saveArtifact : Work (Except Failure Output) :=
  save panel.name "panel_generated.go" (panelText panelFile)

def saveProgram : Work (Except Failure Output) :=
  save panel.name "cmd/panel/main.go" (panelText panelMain)

lemma IsSceneHeader.run_classTask (h : IsSceneHeader header)
    (hfeatures : features = [] ∨ features = ["entrypoint"])
    (hsave : saveArtifact.run f = (.ok o, g)) :
    ∃ t, classTask (scene header features).settings "/work" (scene header features).registry panel =
      some t ∧ t.run f =
        (programTask (scene header features).settings "/work" panel [o]).run g := by
  have hpath : join [".", classFile panel.name] = "panel_generated.go" := by decide +kernel
  have hfile : panel.file (scene header features).settings "/work"
        (scene header features).registry =
      .file (panelFile.withHeader (scene header features).settings) := by
    rcases hfeatures with rfl | rfl <;> rfl
  have himports : (scene header features).settings.enabled .imports = false := by
    rcases hfeatures with rfl | rfl <;> rfl
  rw [saveArtifact] at hsave
  rw [classTask, hfile]
  refine ⟨_, rfl, ?_⟩
  simp only [bind, Work.run_bind, h.writeFile_eq himports isLaidOut_panelFile hpath, hsave]

lemma IsSceneHeader.run_programTask (h : IsSceneHeader header) {o' : Output}
    (hsave : saveProgram.run f = (.ok o', g)) :
    (programTask (scene header ["entrypoint"]).settings "/work" panel [o]).run f =
      (⟨[o, o'], []⟩, g) := by
  have hon : (scene header ["entrypoint"]).settings.enabled .entryPoint = true := by rfl
  have himports : (scene header ["entrypoint"]).settings.enabled .imports = false := by rfl
  have hmain : panel.entryPoint (scene header ["entrypoint"]).settings
      ((scene header ["entrypoint"]).settings.goPackage "/work") =
        .ok (panelMain.withHeader (scene header ["entrypoint"]).settings) := by rfl
  rw [saveProgram] at hsave
  simp only [programTask, hon, if_true, hmain, bind, Work.run_bind,
    h.writeFile_eq himports isLaidOut_panelMain path_panelMain, hsave]
  rfl

lemma failures_programTask (o : Output)
    (hremoved : ((removeGenerated (scene header []).settings "cmd/panel/main.go").run f).1 = none) :
    ((programTask (scene header []).settings "/work" panel [o]).run f).1.failures = [] := by
  have hoff : (scene header []).settings.enabled .entryPoint = false := by rfl
  have htarget : (scene header []).settings.targetDir = "." := rfl
  simp only [programTask, hoff, Bool.false_eq_true, if_false, bind, Work.run_bind, htarget,
    path_panelMain, hremoved]
  rfl

lemma runs_scene {t : Work Outcome}
    (ht : classTask (scene header features).settings "/work"
      (scene header features).registry panel =
      some t)
    {f' : Files} {o : Outcome} (hrun : t.run f = (o, f')) :
    (scene header features).Runs "/work" none f [(panel.name, o)] f' := by
  have hdone : Interleaved [(panel.name, t)] f [(panel.name, (t.run f).1)] (t.run f).2 :=
    .cons_run (.done [(panel.name, (t.run f).1)] _)
  rw [hrun] at hdone
  refine ⟨[(panel.name, t)], ?_, hdone⟩
  change classTasks _ _ _ none [panel] = _
  simp [classTasks, ht]

/-- The files after the first run, and after the artifact of a later one. -/
def programFiles : Files := (saveProgram.run (saveArtifact.run (.ofWorkDir "/work")).2).2

def laterFiles : Files := (saveArtifact.run programFiles).2

lemma exists_saved (t : Work (Except Failure Output)) (f : Files) (p : String)
    (h : (t.run f).1.toOption.map Output.path = some p) :
    ∃ o, t.run f = (.ok o, (t.run f).2) ∧ o.path = p := by
  cases hrun : (t.run f).1 with
  | error e =>
    rw [hrun] at h
    cases h
  | ok o =>
    rw [hrun] at h
    exact ⟨o, Prod.ext hrun rfl, Option.some.inj h⟩

lemma run_removeProgram (s : Settings) :
    ((removeGenerated s "cmd/panel/main.go").run laterFiles).1 = none := by
  have hread : (laterFiles.read "cmd/panel/main.go").toBool = true := by decide +kernel
  have hremoved : (laterFiles.remove "cmd/panel/main.go").1 = none := by decide +kernel
  have hparent : parent "cmd/panel/main.go" = "cmd/panel" := by decide +kernel
  have hlist : (laterFiles.remove "cmd/panel/main.go").2.list "cmd/panel" = .ok [] := by
    decide +kernel
  have hclosed : ((laterFiles.remove "cmd/panel/main.go").2.remove "cmd/panel").1 = none := by
    decide +kernel
  rw [removeGenerated, Work.run]
  cases hfound : laterFiles.read "cmd/panel/main.go" with
  | error e =>
    rw [hfound] at hread
    cases hread
  | ok bs =>
    dsimp only
    split
    · simp only [Work.run, Files.act, hremoved, hparent, hlist, hclosed]
    · rfl

lemma IsSceneHeader.exists_runs (h : IsSceneHeader header) :
    ∃ o f o' f', (scene header ["entrypoint"]).Runs "/work" none (.ofWorkDir "/work")
        [(panel.name, o)] f ∧
      "cmd/panel/main.go" ∈ o.written.map Output.path ∧
      f.HoldsOnly "/work/cmd/panel" "/work/cmd/panel/main.go" ∧
      (scene header []).Runs "/work" none f [(panel.name, o')] f' ∧ o'.failures = [] := by
  obtain ⟨o₁, hartifact, -⟩ := exists_saved saveArtifact (.ofWorkDir "/work") "panel_generated.go"
    (by decide +kernel)
  obtain ⟨o₂, hprogram, hpath⟩ := exists_saved saveProgram
    (saveArtifact.run (.ofWorkDir "/work")).2 "cmd/panel/main.go" (by decide +kernel)
  obtain ⟨o₃, hagain, -⟩ := exists_saved saveArtifact programFiles "panel_generated.go"
    (by decide +kernel)
  obtain ⟨t, ht, hrun⟩ := h.run_classTask (.inr rfl) hartifact
  obtain ⟨t', ht', hrun'⟩ := h.run_classTask (.inl rfl) hagain
  rw [h.run_programTask hprogram] at hrun
  refine ⟨_, programFiles, _, _, runs_scene ht hrun, by simp [hpath], fun k hk hsome => ?_,
    runs_scene ht' hrun', failures_programTask _ (run_removeProgram _)⟩
  by_contra hne
  have hroot : k ≠ "/" := by
    rintro rfl
    exact absurd hk (by decide +kernel)
  refine hsome ?_
  rw [← lookup?_unset_of_ne hne]
  exact childNames_eq_nil_iff.mp (by decide +kernel) k hroot hk

/-! Programs of an earlier run. -/

/-- Programs are wanted in one run and not in a later one, which is told the same in all other
respects. If the program of a class was written by the first run, is still there, and the class
succeeds in the later run, then the program is gone exactly if it starts with the header, and so is
its directory if nothing else was in it; any other program stays as it was written. As long as
imports are not resolved, programs start with the header if it makes a line comment, and do not if
it is one already. All this holds even if several classes write to one place at once. -/
theorem program_gone_iff_recognizes {on off : Generator} {features : List String} {workDir : String}
    {limit limit' : Option Nat} {f f₁ f₂ f₃ : Files} {os os' : List (Text × Outcome)} {a : Text}
    {o o' : Outcome} (hf : f.WellFormed) (hon : on.settings.enabled .entryPoint = true)
    (hoff : off.settings.enabled .entryPoint = false)
    (hsame : off.settings = { on.settings with features })
    (hfirst : on.Runs workDir limit f os f₁) (ho : (a, o) ∈ os)
    (hwritten : programPath on.settings a ∈ o.written.map Output.path)
    (hkept : Files.KeepsAt (on.programPlace f a) f₁ f₂)
    (hlater : off.Runs workDir limit' f₂ os' f₃) (ho' : (a, o') ∈ os') (hdone : o'.failures = []) :
    ∃ bs, on.Programs workDir (programPath on.settings a) bs ∧
      (on.WordsDiffer → ∃ c ∈ on.registry.generated, c.name = a ∧
        IsProgram on.settings workDir c bs) ∧
      f₁.lookup? (on.programPlace f a) = some (.file bs) ∧
      (f₃.lookup? (on.programPlace f a) = none ↔ on.settings.Recognizes bs) ∧
      (¬on.settings.Recognizes bs → f₃.lookup? (on.programPlace f a) = some (.file bs)) ∧
      (on.settings.Recognizes bs →
        f₂.HoldsOnly (on.programDirPlace f a) (on.programPlace f a) →
          f₃.lookup? (on.programDirPlace f a) = none) ∧
      (on.settings.enabled .imports = false →
        (on.settings.HasLineHeader → on.settings.Recognizes bs) ∧
          (on.settings.HasMarkedHeader → ¬on.settings.Recognizes bs)) := by
  obtain ⟨ws, hws, haround⟩ := hf.around
  obtain ⟨ha, hleads, bs, hstands, hprograms⟩ :=
    hfirst.program_stands hon hws haround ho hwritten
  obtain ⟨hnames, hdirNames, hrecognizes, hleads'⟩ :
      programNames off.settings ws a = programNames on.settings ws a ∧
      programDirNames off.settings ws a = programDirNames on.settings ws a ∧
      off.settings.Recognizes bs = on.settings.Recognizes bs ∧
      Leads off.settings (Naming.programDir a ++ ["main.go"]) := by
    rw [hsame]
    exact ⟨rfl, rfl, rfl, hleads⟩
  rw [programPlace_eq hws ha] at hkept ⊢
  rw [programDirPlace_eq hws ha]
  have hcleared := hlater.program_cleared hoff hws.plain ho' hdone ha hleads'
    (hnames ▸ hstands.of_keepsAt hkept)
  rw [hnames, hdirNames, hrecognizes] at hcleared
  have hheaders (himports : on.settings.enabled .imports = false) :
      (on.settings.HasLineHeader → on.settings.Recognizes bs) ∧
        (on.settings.HasMarkedHeader → ¬on.settings.Recognizes bs) := by
    obtain ⟨c, -, -, cs, hprogram, hcs⟩ := hprograms
    exact ⟨(hprogram.recognizes himports · hcs), (hprogram.not_recognizes himports · hcs)⟩
  have hown (hwords : on.WordsDiffer) : ∃ c ∈ on.registry.generated, c.name = a ∧
      IsProgram on.settings workDir c bs := by
    refine hfirst.program_own hwords ho hwritten ha ?_
    rw [hws.workDir, placeOf_program hws.plain ha]
    exact hstands.file
  refine ⟨bs, hprograms, hown, hstands.file, ?_⟩
  rcases hcleared with ⟨hbs, hnone, hdir⟩ | ⟨hbs, hfile⟩
  · exact ⟨⟨fun _ => hbs, fun _ => hnone⟩, absurd hbs, fun _ => hdir, hheaders⟩
  · refine ⟨⟨fun hnone => ?_, fun h => absurd h hbs⟩, fun _ => hfile,
      fun h => absurd h hbs, hheaders⟩
    rw [hfile] at hnone
    cases hnone

theorem panel_program_gone :
    (Files.ofWorkDir "/work").WellFormed ∧
      (scene "Generated by rengen." ["entrypoint"]).settings.HasLineHeader ∧
      ∃ o f o' f', (scene "Generated by rengen." ["entrypoint"]).Runs "/work" none
          (.ofWorkDir "/work") [(panel.name, o)] f ∧
        "cmd/panel/main.go" ∈ o.written.map Output.path ∧
        (scene "Generated by rengen." []).Runs "/work" none f [(panel.name, o')] f' ∧
        o'.failures = [] ∧ (∃ bs, f.lookup? "/work/cmd/panel/main.go" = some (.file bs)) ∧
        f'.lookup? "/work/cmd/panel/main.go" = none ∧ f'.lookup? "/work/cmd/panel" = none := by
  have hheader : (scene "Generated by rengen." ["entrypoint"]).settings.HasLineHeader := by
    refine ⟨?_, ?_, ?_, Source.unbroken_of_all ?_, ?_, ?_, ?_⟩
    all_goals decide +kernel
  have hsame : (scene "Generated by rengen." []).settings =
      { (scene "Generated by rengen." ["entrypoint"]).settings with features := [] } := rfl
  obtain ⟨o, f, o', f', hfirst, hwritten, honly, hlater, hdone⟩ :=
    IsSceneHeader.exists_runs (⟨rfl⟩ : IsSceneHeader "Generated by rengen.")
  obtain ⟨bs, -, -, hfile, hgone, -, hdir, hheaders⟩ := program_gone_iff_recognizes
    Files.wellFormed_work (by decide +kernel) (by decide +kernel) hsame hfirst
    (List.mem_singleton_self _) (by rwa [programPath_panel]) ⟨rfl, fun _ _ => rfl⟩ hlater
    (List.mem_singleton_self _) hdone
  rw [programPlace_panel] at hfile hgone hdir
  rw [programDirPlace_panel] at hdir
  have hknown := (hheaders (by decide +kernel)).1 hheader
  exact ⟨Files.wellFormed_work, hheader, o, f, o', f', hfirst, hwritten, hlater, hdone, ⟨bs, hfile⟩,
    hgone.mpr hknown, hdir hknown honly⟩

/-- A header that is a comment already heads the same files, but the program is not known by it. -/
theorem panel_program_stays :
    ∃ o f o' f', (scene "// Generated by rengen." ["entrypoint"]).Runs "/work" none
        (.ofWorkDir "/work") [(panel.name, o)] f ∧
      "cmd/panel/main.go" ∈ o.written.map Output.path ∧
      (scene "// Generated by rengen." []).Runs "/work" none f [(panel.name, o')] f' ∧
      o'.failures = [] ∧ ∃ bs, f.lookup? "/work/cmd/panel/main.go" = some (.file bs) ∧
        f'.lookup? "/work/cmd/panel/main.go" = some (.file bs) := by
  have hheader : (scene "// Generated by rengen." ["entrypoint"]).settings.HasMarkedHeader := by
    refine ⟨⟨'G', _, rfl, by decide⟩, ?_, Source.unbroken_of_all ?_, ?_, ?_, ?_⟩
    all_goals decide +kernel
  have hscene : IsSceneHeader "// Generated by rengen." := ⟨by decide +kernel⟩
  obtain ⟨o, f, o', f', hfirst, hwritten, -, hlater, hdone⟩ := hscene.exists_runs
  obtain ⟨ws, hws, haround⟩ := Files.wellFormed_work.around
  obtain ⟨ha, hleads, bs, hstands, c, -, -, cs, hprogram, hcs⟩ :=
    hfirst.program_stands (by decide +kernel) hws haround (List.mem_singleton_self _)
      (by rwa [programPath_panel])
  have hplace := programPlace_eq (g := scene "// Generated by rengen." ["entrypoint"]) hws ha
  rw [programPlace_panel] at hplace
  have hcleared := hlater.program_cleared (by decide +kernel) hws.plain (List.mem_singleton_self _)
    hdone ha hleads hstands
  have hfile := (hcleared.resolve_left
    fun hknown => hprogram.not_recognizes (by decide +kernel) hheader hcs hknown.1).2
  refine ⟨o, f, o', f', hfirst, hwritten, hlater, hdone, bs, ?_, ?_⟩
  · rw [hplace]
    exact hstands.file
  · rw [hplace]
    exact hfile

end Generator

end ReactiveModel
