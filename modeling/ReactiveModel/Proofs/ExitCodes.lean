import ReactiveModel.CommandLine.Invocation
import ReactiveModel.Proofs.Faults
import ReactiveModel.Proofs.Loaded
import ReactiveModel.Proofs.Options

/-! Exit codes of invocations. A command line that is accepted gives settings that are accepted, a
registry that was loaded is generated without a crash, and no setting is blamed by then; so the code
tells at which stage an invocation has failed. -/

namespace ReactiveModel

open List Settings

variable {args : List String}

/-! Settings of a command line. -/

namespace Settings

lemma rejection?_features (s : Settings) (fs : List Feature) :
    ∀ o ∈ if fs.isEmpty then [] else [Setting.features (fs.map Feature.name)],
      s.rejection? o = none := by
  split
  · exact forall_mem_nil _
  have hknown : (fs.map Feature.name).findSome? s.featureFault? = none := by
    rw [findSome?_eq_none_iff]
    intro n hn
    obtain ⟨f, -, rfl⟩ := mem_map.mp hn
    cases f <;> rfl
  rw [forall_mem_singleton, rejection?, applyOne, withFeatures, hknown]

end Settings

namespace CommandLine

variable {r : Request} {env : Environment}

lemma Options.rejection?_settings {o : Options} (h : 0 ≤ o.workers) (s : Settings) :
    ∀ x ∈ o.settings, s.rejection? x = none := by
  unfold Options.settings
  simp only [forall_mem_append]
  refine ⟨⟨⟨?_, ?_⟩, ?_⟩, ?_⟩
  · simp [rejection?, applyOne, h]
  · split
    · exact forall_mem_nil _
    · rename_i hne
      simpa [rejection?, applyOne] using hne
  · split
    · exact forall_mem_nil _
    · rename_i hne
      simpa [rejection?, applyOne] using hne
  · exact s.rejection?_features _

lemma of_request {o : Options} {model : String} (h : request o model = .ok r) :
    r.options = o ∧ 0 ≤ o.workers := by
  unfold request at h
  split at h
  · cases h
  · cases h
  · split at h
    · cases h
    · rename_i hworkers
      split at h
      · cases h
      · cases h
        exact ⟨rfl, Int.not_lt.mp hworkers⟩

lemma of_parse (h : parse env args = .request r) :
    ∃ o model, readFlags args (.ofEnvironment env) = .ok (o, [model]) ∧
      request o model = .ok r := by
  unfold parse at h
  dsimp only at h
  split at h
  · cases h
  · cases h
  · cases h
  · rename_i o model hread
    split at h
    · rename_i hrequest
      cases h
      exact ⟨o, model, hread, hrequest⟩
    · cases h
  · cases h

lemma exists_settings_of_parse
    (h : parse env args = .request r) : ∃ s, ofList r.options.settings = .ok s := by
  obtain ⟨o, model, -, hrequest⟩ := of_parse h
  obtain ⟨hoptions, hworkers⟩ := of_request hrequest
  have haccepted := Options.rejection?_settings (hoptions ▸ hworkers) {}
  exact ⟨_, ofList_eq_ok_iff.mpr (apply_eq_of_accepted haccepted)⟩

end CommandLine

/-! Runs of what was loaded. -/

namespace Run

variable {reg : Registry}

/-- Loading gives the registry of a description, or a failure in which no setting is blamed. The
files stay as they are. -/
lemma run_load (path : String) (f : Files) :
    ((load path).run f).2 = f ∧
      ((∃ e, ((load path).run f).1 = .error e ∧ e.has .config = false) ∨
        ∃ d : Description, ∃ reg, ((load path).run f).1 = .ok reg ∧ d.build = .ok reg) := by
  unfold load
  cases hformat : Format.ofPath path with
  | error e =>
    unfold Format.ofPath at hformat
    dsimp only at hformat
    split at hformat
    all_goals cases hformat
    simp
  | ok format =>
    simp only [Work.run]
    cases f.read path with
    | error e => exact ⟨rfl, .inl ⟨_, rfl, by simp⟩⟩
    | ok bs =>
      cases hdecode : Description.decode format bs with
      | error cause =>
        simp only [hdecode]
        exact ⟨rfl, .inl ⟨_, rfl, by simp⟩⟩
      | ok d =>
        simp only [hdecode, Work.run_done, true_and]
        cases hbuild : d.build with
        | error e => exact .inl ⟨e, rfl, Description.has_config_of_build hbuild⟩
        | ok reg => exact .inr ⟨d, reg, rfl, hbuild⟩

lemma exists_classTask {c : Class} (h : c.Described) (s : Settings) (workDir : String)
    (reg : Registry) : ∃ t, classTask s workDir reg c = some t := by
  unfold classTask Class.file
  rcases h.check_cases s reg with hpassed | ⟨e, hfailed, -⟩
  · rw [hpassed]
    exact ⟨_, rfl⟩
  · rw [hfailed]
    exact ⟨_, rfl⟩

lemma exists_classTasks {s : Settings} {workDir : String} {cs : List Class} {resolver : Resolver}
    (h : ∀ c ∈ cs, ∃ t, classTask s workDir reg c resolver = some t) (limit : Option Nat) :
    ∃ ts, classTasks s workDir reg limit cs resolver = some ts := by
  fun_induction classTasks s workDir reg limit cs resolver with
  | case1 limit resolver => exact ⟨[], rfl⟩
  | case2 c cs resolver ih =>
    obtain ⟨ts, hts⟩ := ih (forall_mem_cons.mp h).2
    exact ⟨_, by rw [hts]; rfl⟩
  | case3 limit c cs resolver hlimit ih =>
    obtain ⟨⟨t, ht⟩, hcs⟩ := forall_mem_cons.mp h
    obtain ⟨ts, hts⟩ := ih hcs
    exact ⟨_, by rw [ht, hts]; rfl⟩

lemma finished_of_build {d : Description} (h : d.build = .ok reg) (s : Settings)
    (workDir : String) (limit : Option Nat) (f : Files) :
    ∃ r f', ((ofSettings reg s workDir limit).run f).1 = .finished r ∧
      ({ registry := reg, settings := s } : Generator).Ends workDir limit f r f' := by
  obtain ⟨ts, hts⟩ := exists_classTasks (fun c hc =>
    exists_classTask (Class.described_of_build h hc) s workDir reg) limit
  obtain ⟨t, ht⟩ : ∃ t, Generator.generate { registry := reg, settings := s } workDir limit =
      some t := by
    unfold Generator.generate
    split
    · exact ⟨_, rfl⟩
    · exact ⟨_, by rw [hts]; rfl⟩
  refine ⟨(t.run f).1.1, (t.run f).2, ?_, Generator.ends_generate ht f⟩
  unfold ofSettings
  rw [ht]
  exact congrArg Prod.fst (Work.run_bind t _ f)

section

variable {path : String} {settings : List Setting} {s : Settings} {workDir : String}
  {limit : Option Nat} {f : Files} (hs : ofList settings = .ok s)

include hs

lemma ofPath_error {e : Failure} (he : ((load path).run f).1 = .error e) :
    ((ofPath path settings workDir limit).run f).1 = .refused e := by
  unfold ofPath
  rw [hs]
  refine (congrArg Prod.fst (Work.run_bind (load path) _ f)).trans ?_
  rw [he]
  rfl

lemma ofPath_ok (hreg : ((load path).run f).1 = .ok reg) :
    ((ofPath path settings workDir limit).run f).1 =
      ((ofSettings reg s workDir limit).run ((load path).run f).2).1 := by
  unfold ofPath
  rw [hs]
  refine (congrArg Prod.fst (Work.run_bind (load path) _ f)).trans ?_
  rw [hreg]

end

end Run

/-! Exits. -/

namespace CommandLine

lemma exitOf_finished {r : Run.Result} (h : ∀ e ∈ r.report.failures, e.has .config = false) :
    ∃ exit log, exitOf (.finished r) = some (exit, log) ∧
      (r.report.failures = [] → exit = {}) ∧ (r.report.failures ≠ [] → exit.code = 1) := by
  have hfailure : r.failure? = if r.report.failures = [] then none
      else some (.join r.report.failures) := r.report.failure?_eq
  by_cases hnone : r.report.failures = []
  · rw [if_pos hnone] at hfailure
    simp only [exitOf, hfailure]
    exact ⟨_, _, rfl, fun _ => rfl, absurd hnone⟩
  · rw [if_neg hnone] at hfailure
    simp only [exitOf, hfailure, Failure.has_join_eq_false h]
    exact ⟨_, _, rfl, fun hnil => absurd hnil hnone, fun _ => rfl⟩

/-- What goes wrong for a request: its model cannot be loaded, or the report on the classes of the
model has a failure. -/
def Request.Fails (r : Request) (workDir : String) (f : Files) : Prop :=
  (∃ e, ((Run.load r.model).run f).1 = .error e) ∨
    ∃ reg s result, ((Run.load r.model).run f).1 = .ok reg ∧
      ofList r.options.settings = .ok s ∧
      ((Run.ofSettings reg s workDir none).run f).1 = .finished result ∧
      result.report.failures ≠ []

lemma Request.exists_exit {r : Request} {s : Settings}
    (hs : ofList r.options.settings = .ok s) (workDir : String) (f : Files) :
    ∃ exit log, ((r.run workDir).run f).1 = some (exit, log) ∧
      (r.Fails workDir f → exit.code = 1) ∧ (¬ r.Fails workDir f → exit = {}) := by
  have hrun : ((r.run workDir).run f).1 =
      exitOf ((Run.ofPath r.model r.options.settings workDir none).run f).1 :=
    congrArg Prod.fst (Work.run_bind _ _ f)
  obtain ⟨hfiles, ⟨e, he, hconfig⟩ | ⟨d, reg, hreg, hbuild⟩⟩ := Run.run_load r.model f
  · rw [Run.ofPath_error hs he] at hrun
    refine ⟨_, _, hrun, fun _ => ?_, fun hnot => absurd (.inl ⟨e, he⟩) hnot⟩
    simp [hconfig]
  · obtain ⟨result, f', hfinished, hends⟩ := Run.finished_of_build hbuild s workDir none f
    rw [Run.ofPath_ok hs hreg, hfiles, hfinished] at hrun
    obtain ⟨exit, log, hexit, hempty, hfailed⟩ := exitOf_finished hends.has_config
    have hfails : r.Fails workDir f ↔ result.report.failures ≠ [] := by
      constructor
      · rintro (⟨e, he⟩ | ⟨reg', s', result', hreg', hs', hfinished', hne⟩)
        · cases hreg.symm.trans he
        · cases hreg.symm.trans hreg'
          cases hs.symm.trans hs'
          cases hfinished.symm.trans hfinished'
          exact hne
      · exact fun hne => .inr ⟨reg, s, result, hreg, hs, hfinished, hne⟩
    refine ⟨exit, log, hrun.trans hexit, fun h => hfailed (hfails.mp h), fun h => hempty ?_⟩
    exact not_not.mp fun hne => h (hfails.mpr hne)

lemma run_invoke {env : Environment} {r : Request} (hparse : parse env args = .request r)
    (hwatch : r.options.watch = false) (workDir : String) (f : Files) :
    ((invoke env args workDir).run f).1 =
      ((r.run workDir).run f).1.map fun (exit, log) => (exit, Log.write r.form r.level log) := by
  rw [invoke, hparse]
  simp only [hwatch, Bool.false_eq_true, if_false]
  exact congrArg Prod.fst (Work.run_bind (r.run workDir) _ f)

/-- The exit code of an invocation that does not watch: two if the command line is rejected, one if
what it asks for fails, and otherwise zero. This rests on the settings, which are accepted together
with the command line and are not blamed later, whatever the order of the actions of a run. -/
theorem exit_code_tells_stage (env : Environment) (args : List String) (workDir : String)
    (f : Files) (hwatch : ∀ r, parse env args = .request r → r.options.watch = false) :
    (∃ exit output, ((invoke env args workDir).run f).1 = some (exit, output) ∧
      (exit.code = 2 ↔ ∃ message shown, parse env args = .rejected message shown) ∧
      (exit.code = 1 ↔ ∃ r, parse env args = .request r ∧ r.Fails workDir f) ∧
      (exit.code ≠ 2 → exit.code ≠ 1 → exit = {})) ∧
    (∀ r, parse env args = .request r → ∃ s, Settings.ofList r.options.settings = .ok s) ∧
    ∀ (g : Generator) (limit : Option Nat) (result : Run.Result) (f' : Files),
      g.Ends workDir limit f result f' →
        (∀ e, result.failure? = some e → e.has .config = false) ∧
        ∃ exit log, exitOf (.finished result) = some (exit, log) ∧
          (result.report.failures = [] → exit = {}) ∧
          (result.report.failures ≠ [] → exit.code = 1) := by
  refine ⟨?_, fun r => exists_settings_of_parse, fun g limit result f' hends => ?_⟩
  · cases hparse : parse env args with
    | shown output =>
      refine ⟨{}, output, by rw [invoke, hparse]; rfl, ?_⟩
      simp
    | rejected message output =>
      refine ⟨_, output, by rw [invoke, hparse]; rfl, ?_⟩
      simp
    | request r =>
      obtain ⟨s, hs⟩ := exists_settings_of_parse hparse
      obtain ⟨exit, log, hrun, hfails, hsucceeds⟩ := r.exists_exit hs workDir f
      have hinvoke := run_invoke hparse (hwatch r hparse) workDir f
      rw [hrun] at hinvoke
      refine ⟨exit, _, hinvoke, ?_⟩
      by_cases h : r.Fails workDir f
      · simp [hfails h, h]
      · simp [hsucceeds h, h]
  · exact ⟨fun e => Run.Result.has_config hends.has_config, exitOf_finished hends.has_config⟩

def Parsed.request? : Parsed → Option Request
  | .request r => some r
  | .shown _ | .rejected _ _ => none

/-- A command line on which there is nothing to reject. -/
def sceneArguments : List String := ["-main", "-pkg", "app/scene", "-workers=2", "scene.yaml"]

/-- There is no model where it is looked for. -/
theorem exit_code_without_scene :
    (∀ a ∈ sceneArguments, ∀ value, shape a ≠ .flag "watch" value) ∧
      ∃ exit output, ((invoke {} sceneArguments "/work").run (.ofWorkDir "/work")).1 =
        some (exit, output) ∧ exit.code = 1 := by
  have hargs : ∀ a ∈ sceneArguments, ∀ value, shape a ≠ .flag "watch" value := by
    simp [sceneArguments, shape, splitValue]
  have hparse : (parse {} sceneArguments).request?.map (fun r => (r.model, r.options.watch)) =
      some ("scene.yaml", false) := by decide +kernel
  obtain ⟨r, hr, hsame⟩ := Option.map_eq_some_iff.mp hparse
  obtain ⟨hmodel, hwatch⟩ := Prod.mk.inj hsame
  have hrequest : parse {} sceneArguments = .request r := by
    cases h : parse {} sceneArguments <;> simp_all [Parsed.request?]
  obtain ⟨⟨exit, output, hinvoke, -, hone, -⟩, -⟩ :=
    exit_code_tells_stage {} sceneArguments "/work" (.ofWorkDir "/work") fun r' hr' => by
      cases hrequest.symm.trans hr'
      exact hwatch
  have hload : ((Run.load "scene.yaml").run (.ofWorkDir "/work")).1.toOption.isNone = true := by
    decide +kernel
  refine ⟨hargs, exit, output, hinvoke, hone.mpr ⟨r, hrequest, .inl ?_⟩⟩
  rw [hmodel]
  cases hresult : ((Run.load "scene.yaml").run (.ofWorkDir "/work")).1 with
  | error e => exact ⟨e, rfl⟩
  | ok reg => simp [hresult, Except.toOption] at hload

end CommandLine

end ReactiveModel
