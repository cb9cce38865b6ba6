import ReactiveModel.Proofs.Comments
import ReactiveModel.Proofs.Handwritten

/-! The frame of a run. What a run has changed belongs to a class that passed its check: it is a
file that the class accounts for by its outcome, or a directory made on the way to one. All of this
is in the target directory. -/

namespace ReactiveModel

open List Files Naming ReactiveModel.Path Source

variable {phase path : String}

namespace Deed

def LeadsTo (d : Deed) (p : String) : Prop :=
  d = .makes (Path.parent p) ∨ d = .writes p ∨ d = .removes p

lemma leadsTo_of_subset {ds : List Deed} {d : Deed} {p : String}
    (hds : ds ⊆ saving p) (hd : d ∈ ds) : d.LeadsTo p := by
  have hmem := hds hd
  simp only [saving, mem_cons, not_mem_nil, or_false] at hmem
  exact hmem.imp_right .inl

end Deed

namespace Run

variable {e : Failure}

/-! What an outcome accounts for. -/

def Outcome.FailsIn (o : Outcome) (phase path : String) : Prop :=
  ∃ name m cause, Failure.generation name phase path m cause ∈ o.failures

lemma failsIn_singleton {ws : List Output} {name phase' path' m : Text} {cause : Option Failure}
    (h : Outcome.FailsIn ⟨ws, [.generation name phase' path' m cause]⟩ phase path) :
    Text.ofString phase = phase' ∧ Text.ofString path = path' := by
  obtain ⟨name, m, cause, h⟩ := h
  obtain ⟨-, hphase, hpath, -⟩ := Failure.generation.inj (mem_singleton.mp h)
  exact ⟨hphase, hpath⟩

lemma Outcome.FailsIn.unique {o : Outcome} {phase path phase' path' : String}
    (ho : o.failures = [e]) (h : o.FailsIn phase path) (h' : o.FailsIn phase' path') :
    phase = phase' ∧ path = path' := by
  obtain ⟨name, m, cause, h⟩ := h
  obtain ⟨name', m', cause', h'⟩ := h'
  rw [ho, mem_singleton] at h h'
  obtain ⟨-, hphase, hpath, -⟩ := Failure.generation.inj (h.trans h'.symm)
  exact ⟨Text.ofString_inj.mp hphase, Text.ofString_inj.mp hpath⟩

/-- The paths at which the task of a class has changed something, by its outcome. -/
inductive Touches (s : Settings) (a : Text) (o : Outcome) : String → Prop
  /-- A file that is reported. -/
  | written {p : String} (hp : p ∈ ownPaths s a) (h : p ∈ o.written.map Output.path) :
      Touches s a o p
  /-- A file that could not be opened, or not be filled. -/
  | unsaved {p phase : String} (hp : p ∈ ownPaths s a) (hphase : phase = "open" ∨ phase = "write")
      (h : o.FailsIn phase p) : Touches s a o p
  /-- What is kept of a file whose imports could not be resolved. -/
  | unresolved {p : String} (hp : p ∈ ownPaths s a) (h : o.FailsIn "format" p) :
      Touches s a o (p ++ ".error")
  /-- A program that is not wanted, and its directory. -/
  | stale {p : String} (hp : p = programPath s a ∨ p = Path.parent (programPath s a))
      (hoff : s.enabled .entryPoint = false) (h : artifactPath s a ∈ o.written.map Output.path) :
      Touches s a o p

inductive SourceAt (s : Settings) (workDir : String) (reg : Registry) (c : Class) :
    String → SourceFile → Prop
  | artifact {f : SourceFile} (h : c.file s workDir reg = .file f) :
      SourceAt s workDir reg c (artifactPath s c.name) f
  | program {f : SourceFile} (henabled : s.enabled .entryPoint = true)
      (h : c.entryPoint s (s.goPackage workDir) = .ok f) :
      SourceAt s workDir reg c (programPath s c.name) f

section

variable {s : Settings} {workDir : String} {reg : Registry} {c : Class} {ds : List Deed}
  {o : Outcome} {d : Deed} {p : String} {f : SourceFile} {a : Text}

lemma Saving.touches (hp : p ∈ ownPaths s c.name) (h : Saving s c.name f p ds (.error e))
    (he : e ∈ o.failures) (hd : d ∈ ds) : ∃ q, Touches s c.name o q ∧ d.LeadsTo q := by
  cases h with
  | unrendered _ => cases hd
  | unresolved _ _ _ hds =>
    exact ⟨p ++ ".error", .unresolved hp ⟨_, _, _, he⟩, Deed.leadsTo_of_subset hds hd⟩
  | unsaved hphase hds =>
    rcases hphase with rfl | rfl
    · exact ⟨p, .unsaved hp (.inl rfl) ⟨_, _, _, he⟩, Deed.leadsTo_of_subset hds hd⟩
    · exact ⟨p, .unsaved hp (.inr rfl) ⟨_, _, _, he⟩, Deed.leadsTo_of_subset hds hd⟩

lemma Way.touches (h : Way s workDir reg c ds o) (hd : d ∈ ds) :
    c.check s reg = .passed ∧ ∃ p, Touches s c.name o p ∧ d.LeadsTo p := by
  have hartifact : artifactPath s c.name ∈ ownPaths s c.name := mem_cons_self
  have hprogram : programPath s c.name ∈ ownPaths s c.name := mem_cons_of_mem _ mem_cons_self
  have hsaved {ds : List Deed} {failures : List Failure} {size : Nat}
      (hds : ds ⊆ Deed.saving (artifactPath s c.name)) (hd : d ∈ ds) :
      ∃ p, Touches s c.name ⟨[⟨artifactPath s c.name, size⟩], failures⟩ p ∧ d.LeadsTo p :=
    ⟨artifactPath s c.name, .written hartifact (by simp), Deed.leadsTo_of_subset hds hd⟩
  cases h with
  | unstarted | refused _ => cases hd
  | noArtifact hpassed _ h => exact ⟨hpassed, h.touches hartifact (mem_singleton_self _) hd⟩
  | noProgram hpassed hds _ _ => exact ⟨hpassed, hsaved hds hd⟩
  | unsavedProgram hpassed hds _ _ h =>
    rcases mem_append.mp hd with hd | hd
    · exact ⟨hpassed, hsaved hds hd⟩
    · exact ⟨hpassed, h.touches hprogram (mem_singleton_self _) hd⟩
  | withProgram hpassed hds _ hes =>
    rcases mem_append.mp hd with hd | hd
    · exact ⟨hpassed, _, .written hartifact mem_cons_self, Deed.leadsTo_of_subset hds hd⟩
    · exact ⟨hpassed, _, .written hprogram (by simp), Deed.leadsTo_of_subset hes hd⟩
  | withoutProgram hpassed hds hoff hes =>
    rcases mem_append.mp hd with hd | hd
    · exact ⟨hpassed, hsaved hds hd⟩
    · have hmem := hes hd
      simp only [mem_cons, not_mem_nil, or_false] at hmem
      rcases hmem with rfl | rfl
      · exact ⟨hpassed, _, .stale (.inl rfl) hoff (by simp), .inr (.inr rfl)⟩
      · exact ⟨hpassed, _, .stale (.inr rfl) hoff (by simp), .inr (.inr rfl)⟩

/-! Failures before anything is saved. -/

/-- A failure that does not come from files has not touched more than what is reported, and what is
kept of a file whose imports could not be resolved. -/
lemma touches_of_failsIn (ho : o.failures = [e]) (hfails : o.FailsIn phase path)
    (hphase : phase ≠ "open" ∧ phase ≠ "write") (h : Touches s c.name o p) :
    p ∈ o.written.map Output.path ∨ phase = "format" ∧ p = path ++ ".error" ∨
      s.enabled .entryPoint = false ∧ artifactPath s c.name ∈ o.written.map Output.path := by
  cases h with
  | written _ h => exact .inl h
  | unsaved _ hphase' h =>
    obtain ⟨rfl, -⟩ := h.unique ho hfails
    exact absurd hphase' (not_or.mpr hphase)
  | unresolved _ h =>
    obtain ⟨rfl, rfl⟩ := h.unique ho hfails
    exact .inr (.inl ⟨rfl, rfl⟩)
  | stale _ hoff h => exact .inr (.inr ⟨hoff, h⟩)

/-- A source file that cannot be rendered, or whose imports cannot be resolved. -/
def Unfit (s : Settings) (file : SourceFile) (phase : String) : Prop :=
  phase = "render" ∧ file.render = none ∨
    phase = "format" ∧ s.enabled .imports = true ∧
      ∃ text others, file.render = some text ∧ Imports.resolve others text = none

lemma Saving.unfit {ws : List Output} (h : Saving s c.name f p ds (.error e))
    (hfails : Outcome.FailsIn ⟨ws, [e]⟩ phase path) (hphase : phase ≠ "open" ∧ phase ≠ "write") :
    path = p ∧ Unfit s f phase := by
  cases h with
  | unrendered hrender =>
    obtain ⟨hphase, hpath⟩ := failsIn_singleton hfails
    exact ⟨Text.ofString_inj.mp hpath, .inl ⟨Text.ofString_inj.mp hphase, hrender⟩⟩
  | unresolved himports hrender h _ =>
    obtain ⟨hphase, hpath⟩ := failsIn_singleton hfails
    exact ⟨Text.ofString_inj.mp hpath,
      .inr ⟨Text.ofString_inj.mp hphase, himports, _, _, hrender, h⟩⟩
  | unsaved hsaving _ =>
    obtain ⟨rfl, -⟩ := failsIn_singleton hfails
    exact absurd (hsaving.imp Text.ofString_inj.mp Text.ofString_inj.mp) (not_or.mpr hphase)

/-- How a class can fail before one of its files is saved: it is not started, or refused, or its
artifact or its program is unfit. -/
lemma Way.fails (h : Way s workDir reg c ds o)
    (hphase : phase ∈ ["check", "schedule", "render", "format"]) (hfails : o.FailsIn phase path) :
    ∃ e, o.failures = [e] ∧ (phase ∈ ["check", "schedule"] ∧ o.written = [] ∨
      c.check s reg = .passed ∧ ∃ file, SourceAt s workDir reg c path file ∧ Unfit s file phase ∧
        (path = artifactPath s c.name ∧ o.written = [] ∨ path = programPath s c.name ∧
          s.enabled .entryPoint = true ∧ o.written.map Output.path = [artifactPath s c.name])) := by
  have hsaving : phase ≠ "open" ∧ phase ≠ "write" := by
    constructor <;> rintro rfl <;> revert hphase <;> decide
  cases h with
  | unstarted | refused _ =>
    refine ⟨_, rfl, .inl ⟨?_, rfl⟩⟩
    rw [Text.ofString_inj.mp (failsIn_singleton hfails).1]
    decide
  | noArtifact hpassed hfile h =>
    obtain ⟨rfl, hunfit⟩ := h.unfit hfails hsaving
    exact ⟨_, rfl, .inr ⟨hpassed, _, .artifact hfile, hunfit, .inl ⟨rfl, rfl⟩⟩⟩
  | noProgram _ _ _ h =>
    unfold Class.entryPoint at h
    split at h
    · cases h
      obtain rfl := Text.ofString_inj.mp (failsIn_singleton hfails).1
      exact absurd hphase (by decide)
    · cases h
  | unsavedProgram hpassed _ henabled hfile h =>
    obtain ⟨rfl, hunfit⟩ := h.unfit hfails hsaving
    exact ⟨_, rfl, .inr ⟨hpassed, _, .program henabled hfile, hunfit, .inr ⟨rfl, henabled, rfl⟩⟩⟩
  | withProgram _ _ _ _ =>
    obtain ⟨_, _, _, hmem⟩ := hfails
    cases hmem
  | @withoutProgram _ _ _ e _ _ _ _ =>
    cases e with
    | none =>
      obtain ⟨_, _, _, hmem⟩ := hfails
      cases hmem
    | some e =>
      obtain rfl := Text.ofString_inj.mp (failsIn_singleton hfails).1
      exact absurd hphase (by decide)

/-! Where the paths of a class lead. -/

lemma Touches.below (h : Touches s a o p) (ha : isName a) :
    ∃ ns ∈ reachedPlaces a, p = Path.below s.targetDir ns := by
  have hown {p : String} (hp : p ∈ ownPaths s a) :
      ∃ ns ∈ reachedPlaces a, p = Path.below s.targetDir ns := by
    rw [ownPaths_eq ha] at hp
    obtain ⟨ns, hns, rfl⟩ := mem_map.mp hp
    exact ⟨ns, mem_reachedPlaces_of_ownPlaces hns, rfl⟩
  cases h with
  | written hp _ | unsaved hp _ _ => exact hown hp
  | unresolved hp _ =>
    simp only [ownPaths, mem_cons, not_mem_nil, or_false] at hp
    rcases hp with rfl | rfl
    · exact ⟨_, by simp [reachedPlaces], artifactPath_append ha ".error" (by decide)⟩
    · exact ⟨_, by simp [reachedPlaces, programPlaces], programPath_error ha⟩
  | stale hp _ _ =>
    rcases hp with rfl | rfl
    · exact hown (mem_cons_of_mem _ mem_cons_self)
    · exact ⟨_, by simp [reachedPlaces, programPlaces], parent_programPath ha⟩

lemma exists_concat_of_mem_reachedPlaces {ns : List String} (h : ns ∈ reachedPlaces a) :
    ∃ ms n, ns = ms ++ [n] ∧ ms <+: programDir a := by
  simp only [reachedPlaces, programPlaces, mem_cons, not_mem_nil, or_false] at h
  rcases h with rfl | rfl | rfl | rfl | rfl
  · exact ⟨[], _, rfl, nil_prefix⟩
  · exact ⟨[], _, rfl, nil_prefix⟩
  · exact ⟨_, _, rfl, prefix_rfl⟩
  · exact ⟨_, _, rfl, prefix_rfl⟩
  · rcases eq_nil_or_concat' (programDir a) with hnil | ⟨ms, n, hconcat⟩
    · simp [programDir] at hnil
    · exact ⟨ms, n, hconcat, hconcat ▸ prefix_append ..⟩

end

end Run

namespace Files

/-- A place that is another one, or stands below it. -/
def Below (p q : String) : Prop :=
  ∃ es ns, (∀ n ∈ es ++ ns, Path.Plain n) ∧ p = placeAt es ∧ q = placeAt (es ++ ns)

end Files

namespace Generator

open Run

section

variable {g : Generator} {workDir : String} {limit : Option Nat} {f f' : Files}
  {os : List (Text × Outcome)} {ws : List String} {q : String} {o : Outcome}

section

variable (h : g.Runs workDir limit f os f')

include h

lemma Runs.way {c : Class} (hc : c ∈ g.registry.generated) (ho : (c.name, o) ∈ os) :
    ∃ ds, Way g.settings workDir g.registry c ds o := by
  obtain ⟨d, hd, hname, hway⟩ := exists_of_mem h.ways ho
  obtain rfl := Registry.eq_of_name hc hd hname
  exact hway

lemma Runs.outcome_unique {name : Text} {o' : Outcome} (ho : (name, o) ∈ os)
    (ho' : (name, o') ∈ os) : o = o' := by
  have hnames : os.map Prod.fst = g.registry.generated.map fun c => c.name := by
    rw [← forall₂_eq_eq_eq, forall₂_map_left_iff, forall₂_map_right_iff]
    exact h.names.flip
  have hnodup : (os.map Prod.fst).Nodup := by
    rw [hnames]
    exact g.registry.nodup_generated
  exact congrArg Prod.snd (inj_on_of_nodup_map hnodup ho ho' rfl)

lemma Runs.changed (hws : f.WorksAt ws)
    (haround : ∀ k, f.lookup? (placeAt (ws.take k)) = some .directory)
    (hq : f'.lookup? q ≠ f.lookup? q) :
    ∃ c ∈ g.registry.generated, c.check g.settings g.registry = .passed ∧
      ∃ o, (c.name, o) ∈ os ∧ ∃ p, Touches g.settings c.name o p ∧
        ∃ ms n, ms ++ [n] ∈ reachedPlaces c.name ∧ ms <+: programDir c.name ∧
          p = Path.below g.settings.targetDir (ms ++ [n]) ∧
          (q = spot g.settings ws (ms ++ [n]) ∨ f.lookup? q = none ∧
            f'.lookup? q = some .directory ∧ (wayTo g.settings ws ms).opened q) := by
  obtain ⟨ways, rfl, hways, hexplained⟩ := h.endings
  have hdeed : ∃ d ∈ ways.flatMap Prod.fst, d.Sets f.workDir q ∨
      f.lookup? q = none ∧ f'.lookup? q = some .directory ∧ d.Makes f.workDir q := by
    rcases hexplained.lookup? q with hsame | ⟨d, hd, hsets⟩ | ⟨hnone, hdir, d, hd, hmakes⟩
    · exact absurd hsame hq
    · exact ⟨d, hd, .inl hsets⟩
    · exact ⟨d, hd, .inr ⟨hnone, hdir, hmakes⟩⟩
  obtain ⟨d, hd, hdone⟩ := hdeed
  obtain ⟨w, hw, hd⟩ := mem_flatMap.mp hd
  obtain ⟨c, hc, hname, hway⟩ := exists_of_mem hways hw
  obtain ⟨hpassed, p, htouches, hleads⟩ := hway.touches hd
  have ha := isName_of_check hpassed
  obtain ⟨ns, hns, rfl⟩ := htouches.below ha
  obtain ⟨ms, n, rfl, hms⟩ := exists_concat_of_mem_reachedPlaces hns
  have hplain := plain_of_mem_reachedPlaces ha hns
  refine ⟨c, hc, hpassed, w.2.2, mem_map.mpr ⟨w, hw, ?_⟩, _, htouches, ms, n, hns, hms, rfl, ?_⟩
  · rw [← hname]
  · rw [hws.workDir] at hdone
    rcases hleads with rfl | hleads
    · rcases hdone with hsets | ⟨hnone, hdir, a, hmem, rfl⟩
      · exact hsets.elim
      · obtain ⟨hmsplain, hn⟩ := forall_mem_append.mp hplain
        rw [parent_below _ hmsplain (hn n (mem_singleton_self n)), below_eq_onward] at hmem
        refine .inr ⟨hnone, hdir, ?_⟩
        rcases placeOf_ancestry hws.plain ((plain_names _).append hmsplain) hmem with
          ⟨k, hk⟩ | hway
        · rw [hk, haround k] at hnone
          nomatch hnone
        · exact hway
    · rcases hleads with rfl | rfl
      all_goals
        rcases hdone with hsets | ⟨-, -, hmakes⟩
        · rw [hsets, placeOf_below hws.plain hplain]
          exact .inl rfl
        · exact hmakes.elim

end

lemma below_of_along {s : Settings} {ms : List String} {n : String}
    (hplain : Plains (target s ws ++ (ms ++ [n]))) (h : (wayTo s ws ms).opened q) :
    Below q (spot s ws (ms ++ [n])) ∧
      (Below (placeAt (target s ws)) q ∨ Below q (placeAt (target s ws))) := by
  obtain ⟨ks, -, ⟨rest, hrest⟩, rfl⟩ := h
  have hway : target s ws ++ (ms ++ [n]) = base ws s.targetDir ++ ks ++ (rest ++ [n]) := by
    rw [target, append_assoc, ← append_assoc _ ms, ← hrest]
    simp
  refine ⟨⟨_, _, hway ▸ hplain, rfl, by rw [spot, hway]⟩, ?_⟩
  rcases prefix_or_prefix_of_prefix ⟨rest, hrest⟩ (prefix_append _ ms) with ⟨r, hr⟩ | ⟨r, hr⟩
  · have heq : base ws s.targetDir ++ ks ++ r = target s ws := by
      rw [target, ← hr, append_assoc]
    exact .inr ⟨_, r, heq ▸ hplain.left, rfl, by rw [heq]⟩
  · have heq : target s ws ++ r = base ws s.targetDir ++ ks := by
      rw [target, ← hr, append_assoc]
    rw [hway] at hplain
    exact .inl ⟨_, r, heq ▸ hplain.left, rfl, by rw [heq]⟩

end

/-- What a run has changed, and what it has left alone. -/
structure Framed (g : Generator) (workDir : String) (f f' : Files) (os : List (Text × Outcome)) :
    Prop where
  /-- What is changed belongs to a class that passed its check: a file for which the class accounts,
  or a directory made on the way to it. -/
  changed : ∀ q, f'.lookup? q ≠ f.lookup? q → ∃ c ∈ g.registry.generated,
    c.declarationOnly = false ∧ c.check g.settings g.registry = .passed ∧
      ∃ o, (c.name, o) ∈ os ∧ ∃ p, Touches g.settings c.name o p ∧
        (q = Files.placeOf f.workDir p ∨ Files.Below q (Files.placeOf f.workDir p) ∧
          f.lookup? q = none ∧ f'.lookup? q = some .directory)
  /-- It is in the target directory, but for directories made to get there. -/
  inside : ∀ q, f'.lookup? q ≠ f.lookup? q →
    Files.Below (Files.placeOf f.workDir (Path.clean g.settings.targetDir)) q ∨
      Files.Below q (Files.placeOf f.workDir (Path.clean g.settings.targetDir)) ∧
        f.lookup? q = none ∧ f'.lookup? q = some .directory
  /-- A class that is refused, not started or not rendered has changed nothing, and one whose
  program is not rendered has changed its artifact only. -/
  idle : ∀ c ∈ g.registry.generated, ∀ o, (c.name, o) ∈ os → ∀ phase path,
    phase ∈ ["check", "schedule", "render"] → o.FailsIn phase path →
      (phase = "render" → path = artifactPath g.settings c.name) ∧
          (∀ p, ¬Touches g.settings c.name o p) ∨
        phase = "render" ∧ path = programPath g.settings c.name ∧
          ∀ p, Touches g.settings c.name o p ↔ p = artifactPath g.settings c.name
  /-- Where imports of a file could not be resolved, the file is as it was, unless another class has
  touched it. -/
  unresolved : ∀ c ∈ g.registry.generated, ∀ o, (c.name, o) ∈ os → ∀ path,
    o.FailsIn "format" path →
      (∃ file, SourceAt g.settings workDir g.registry c path file ∧
        Unfit g.settings file "format") ∧
      (f'.lookup? (Files.placeOf f.workDir path) = f.lookup? (Files.placeOf f.workDir path) ∨
        ∃ d ∈ g.registry.generated, d.name ≠ c.name ∧
          ∃ o', (d.name, o') ∈ os ∧ Touches g.settings d.name o' path)
  /-- Where programs are not wanted, a file in the place of one stays with its directory if it does
  not start with the header. -/
  handwritten : g.settings.enabled .entryPoint = false → ∀ a, Naming.isName a = true → ∀ bs,
    f.lookup? (Files.placeOf f.workDir (programPath g.settings a)) = some (.file bs) →
    ("// " ++ g.settings.headerText).toUTF8.toList.isPrefixOf bs = false →
      f'.lookup? (Files.placeOf f.workDir (programPath g.settings a)) = some (.file bs) ∧
        f'.lookup? (Files.placeOf f.workDir (Path.parent (programPath g.settings a))) =
          some .directory

section

variable {g : Generator} {workDir : String} {limit : Option Nat} {f f' : Files}
  {os : List (Text × Outcome)} {ws : List String} {c : Class} {o : Outcome}

section

variable (h : g.Runs workDir limit f os f')

include h

lemma Runs.idle (hc : c ∈ g.registry.generated) (ho : (c.name, o) ∈ os)
    (hphase : phase ∈ ["check", "schedule", "render"]) (hfails : o.FailsIn phase path) :
    (phase = "render" → path = artifactPath g.settings c.name) ∧
        (∀ p, ¬Touches g.settings c.name o p) ∨
      phase = "render" ∧ path = programPath g.settings c.name ∧
        ∀ p, Touches g.settings c.name o p ↔ p = artifactPath g.settings c.name := by
  obtain ⟨ds, hway⟩ := h.way hc ho
  have hphases : phase ≠ "open" ∧ phase ≠ "write" ∧ phase ≠ "format" := by
    refine ⟨?_, ?_, ?_⟩ <;> rintro rfl <;> revert hphase <;> decide
  have hmem : phase ∈ ["check", "schedule", "render", "format"] :=
    mem_append_left ["format"] hphase
  obtain ⟨e, he, hcase⟩ := hway.fails hmem hfails
  have htouches {p : String} (htouch : Touches g.settings c.name o p) :
      p ∈ o.written.map Output.path ∨ g.settings.enabled .entryPoint = false ∧
        artifactPath g.settings c.name ∈ o.written.map Output.path := by
    rcases touches_of_failsIn he hfails ⟨hphases.1, hphases.2.1⟩ htouch with h | ⟨h, -⟩ | h
    · exact .inl h
    · exact absurd h hphases.2.2
    · exact .inr h
  have hnothing (hnone : o.written = []) (p : String) : ¬Touches g.settings c.name o p := by
    intro htouch
    simpa [hnone] using htouches htouch
  rcases hcase with ⟨hearly, hnone⟩ | ⟨-, file, -, hunfit, ⟨hpath, hnone⟩ | ⟨hpath, hon, hwritten⟩⟩
  · refine .inl ⟨?_, hnothing hnone⟩
    rintro rfl
    exact absurd hearly (by decide)
  · exact .inl ⟨fun _ => hpath, hnothing hnone⟩
  · refine .inr ⟨?_, hpath, fun p => ⟨fun htouch => ?_, ?_⟩⟩
    · exact (hunfit.resolve_right fun hformat => hphases.2.2 hformat.1).1
    · rcases htouches htouch with h | ⟨hoff, -⟩
      · rw [hwritten] at h
        exact mem_singleton.mp h
      · exact absurd (hon.symm.trans hoff) (by decide)
    · rintro rfl
      exact .written mem_cons_self (hwritten ▸ mem_singleton_self _)

lemma Runs.unresolved (hws : f.WorksAt ws)
    (haround : ∀ k, f.lookup? (placeAt (ws.take k)) = some .directory)
    (hc : c ∈ g.registry.generated) (ho : (c.name, o) ∈ os) {path : String}
    (hfails : o.FailsIn "format" path) :
    (∃ file, SourceAt g.settings workDir g.registry c path file ∧ Unfit g.settings file "format") ∧
      (f'.lookup? (placeOf f.workDir path) = f.lookup? (placeOf f.workDir path) ∨
        ∃ d ∈ g.registry.generated, d.name ≠ c.name ∧
          ∃ o', (d.name, o') ∈ os ∧ Touches g.settings d.name o' path) := by
  obtain ⟨ds, hway⟩ := h.way hc ho
  obtain ⟨e, he, hcase⟩ := hway.fails (by decide) hfails
  obtain ⟨hearly, -⟩ | ⟨hpassed, file, hsource, hunfit, hplace⟩ := hcase
  · exact absurd hearly (by decide)
  refine ⟨⟨file, hsource, hunfit⟩, or_iff_not_imp_left.mpr fun hq => ?_⟩
  have ha := isName_of_check hpassed
  have hspared : ¬Touches g.settings c.name o path := by
    intro htouch
    rcases touches_of_failsIn he hfails (by decide) htouch with h | ⟨-, h⟩ | ⟨hoff, h⟩
    · rcases hplace with ⟨rfl, hnone⟩ | ⟨rfl, -, hwritten⟩
      · simp [hnone] at h
      · rw [hwritten, mem_singleton] at h
        have hnodup := nodup_ownPaths (s := g.settings) ha
        simp [ownPaths, h] at hnodup
    · simpa using congrArg String.length h
    · rcases hplace with ⟨-, hnone⟩ | ⟨-, hon, -⟩
      · simp [hnone] at h
      · exact absurd (hon.symm.trans hoff) (by decide)
  obtain ⟨ns, hns, rfl⟩ : ∃ ns ∈ filePlaces c.name, path = Path.below g.settings.targetDir ns := by
    rcases hplace with ⟨rfl, -⟩ | ⟨rfl, -⟩
    · exact ⟨_, by simp [filePlaces], artifactPath_eq ha⟩
    · exact ⟨_, by simp [filePlaces], programPath_eq ha⟩
  have hplain := plain_of_mem_filePlaces ha ns hns
  rw [hws.workDir, placeOf_below hws.plain hplain] at hq
  obtain ⟨d, hd, hdpassed, o', ho', p, htouch, ms, n, hms, hdir, rfl, hsame | ⟨-, -, hway⟩⟩ :=
    h.changed hws haround hq
  · obtain rfl := placeAt_target_inj hws.plain hplain
      (plain_of_mem_reachedPlaces (isName_of_check hdpassed) hms) hsame
    refine ⟨d, hd, fun hname => ?_, o', ho', htouch⟩
    rw [hname] at ho' htouch
    rw [h.outcome_unique ho' ho] at htouch
    exact hspared htouch
  · have hd' := isName_of_check hdpassed
    have hmsplain : Plains ms := fun m hm => plain_programDir hd' m (hdir.subset hm)
    exact (not_prefix_programDir c.name hd' ns hns
      ((prefix_of_along hws.plain hplain hmsplain hway).trans hdir)).elim

lemma Runs.handwritten (hf : f.Treelike) (hws : f.WorksAt ws)
    (hoff : g.settings.enabled .entryPoint = false) {a : Text} (ha : isName a) {bs : List UInt8}
    (hfile : f.lookup? (placeOf f.workDir (programPath g.settings a)) = some (.file bs))
    (hbs : ("// " ++ g.settings.headerText).toUTF8.toList.isPrefixOf bs = false) :
    f'.lookup? (placeOf f.workDir (programPath g.settings a)) = some (.file bs) ∧
      f'.lookup? (placeOf f.workDir (parent (programPath g.settings a))) = some .directory := by
  have hmain := plain_of_mem_filePlaces ha _ (program_mem_filePlaces a)
  have hplain := plain_target (s := g.settings) hws.plain hmain
  rw [parent_programPath ha, programPath_eq ha, hws.workDir, placeOf_below hws.plain hmain,
    placeOf_below hws.plain hmain.left, spot, spot] at *
  have hstands := h.stands hoff hws.plain ha hbs
    ⟨hws.workDir, hplain, hfile, hf.opens (by simpa using hplain) (by simp [hfile])⟩
  refine ⟨hstands.file, ?_⟩
  simpa using hstands.opens (target g.settings ws ++ programDir a) "main.go" (by simp)

end

/-- Whatever the order of its actions, a run changes only files of classes that passed their check,
for which they account by their outcomes, and makes directories on the way to them. All of that is
in the target directory. -/
theorem runs_framed (hf : f.WellFormed) (h : g.Runs workDir limit f os f') :
    g.Framed workDir f f' os := by
  obtain ⟨ws, hws, haround⟩ := hf.around
  have hplain {a : Text} (ha : Naming.isName a = true) {ns : List String}
      (hns : ns ∈ Naming.reachedPlaces a) := Naming.plain_of_mem_reachedPlaces ha hns
  refine ⟨fun q hq => ?_, fun q hq => ?_, fun c hc o ho phase path => h.idle hc ho,
    fun c hc o ho path => h.unresolved hws haround hc ho,
    fun hoff a ha bs => h.handwritten hf.treelike hws hoff ha⟩
  · obtain ⟨c, hc, hpassed, o, ho, p, htouch, ms, n, hns, -, rfl, hplace⟩ :=
      h.changed hws haround hq
    have hns' := hplain (isName_of_check hpassed) hns
    refine ⟨c, hc, ?_, hpassed, o, ho, _, htouch, ?_⟩
    · simpa [Outline.isGenerated] using (List.mem_filter.mp hc).2
    · rw [hws.workDir, placeOf_below hws.plain hns']
      refine hplace.imp_right ?_
      rintro ⟨hnone, hdir, hway⟩
      exact ⟨(below_of_along (plain_target hws.plain hns') hway).1, hnone, hdir⟩
  · obtain ⟨c, hc, hpassed, o, ho, p, htouch, ms, n, hns, -, rfl, hplace⟩ :=
      h.changed hws haround hq
    have hns' := plain_target (s := g.settings) hws.plain (hplain (isName_of_check hpassed) hns)
    have htarget : Files.placeOf f.workDir (Path.clean g.settings.targetDir) =
        Files.placeAt (target g.settings ws) := by
      have hclean := placeOf_below (s := g.settings) hws.plain (List.forall_mem_nil _)
      rw [hws.workDir]
      simpa [Path.below, Path.clean, spot] using hclean
    rw [htarget]
    rcases hplace with rfl | ⟨hnone, hdir, hway⟩
    · exact Or.inl ⟨_, _, hns', rfl, rfl⟩
    · exact (below_of_along hns' hway).2.imp_right fun habove => ⟨habove, hnone, hdir⟩

end

theorem runs_framed_rowItem_rowPanel :
    (Files.ofWorkDir "/work").WellFormed ∧
      ∃ os f', (ofNames "RowItem" "RowPanel").Runs "/work" none (.ofWorkDir "/work") os f' ∧
        (ofNames "RowItem" "RowPanel").Framed "/work" (.ofWorkDir "/work") f' os := by
  obtain ⟨t, ht⟩ := generates_rows
  obtain ⟨os, hrun, -⟩ := runs_generate ht (.ofWorkDir "/work")
  exact ⟨Files.wellFormed_work, os, _, hrun, runs_framed Files.wellFormed_work hrun⟩

/-! Files by their characters. -/

def opensUnclosed (f : SourceFile) : Bool :=
  (f.text.pieces.mapM Text.Piece.char?).any fun cs =>
    cs.take 2 == ['/', '*'] && (spanComment [] (cs.drop 2)).isNone

def isLaidOut (f : SourceFile) : Bool :=
  (f.text.pieces.mapM Text.Piece.char?).any fun cs =>
    cs.head? == some '/' && (tokensOf cs).any haveLayout

variable {f : SourceFile}

lemma render_of_chars {cs : List Char} (h : f.text.pieces.mapM Text.Piece.char? = some cs) :
    f.render = format (String.ofList cs) := by
  have htext : f.text.toString? = some (String.ofList cs) := congrArg (Option.map String.ofList) h
  rw [SourceFile.render, htext, Option.bind_some]

lemma exists_render (h : isLaidOut f) : ∃ out, f.render = some out := by
  obtain ⟨cs, hcs, hlaid⟩ := (Option.any_eq_true _ _).mp h
  obtain ⟨hhead, hlayout⟩ := Bool.and_eq_true_iff.mp hlaid
  cases cs with
  | nil => cases hhead
  | cons c cs =>
    obtain rfl : c = '/' := by simpa using hhead
    rw [render_of_chars hcs]
    exact exists_format (ofString?_of_toList String.toList_ofList (by decide)) hlayout

lemma writeFile_of_isLaidOut {s : Settings} {name path : String} (hf : isLaidOut f)
    (hpath : join [s.targetDir, name] = path) (himports : s.enabled .imports = false)
    (className : Text) (resolver : Resolver) :
    writeFile s className f name resolver = save className path (f.render.getD "") := by
  obtain ⟨out, hout⟩ := exists_render hf
  rw [writeFile, hpath, hout, himports]
  rfl

lemma render_of_opensUnclosed (h : opensUnclosed f) : f.render = none := by
  obtain ⟨cs, hcs, hopens⟩ := (Option.any_eq_true _ _).mp h
  obtain ⟨hhead, hspan⟩ := Bool.and_eq_true_iff.mp hopens
  rw [render_of_chars hcs]
  refine format_unclosed ?_ (Option.isNone_iff_eq_none.mp hspan)
  rw [String.toList_ofList]
  exact (take_append_drop 2 cs).symm.trans (congrArg (· ++ cs.drop 2) (eq_of_beq hhead))

/-! A class whose program is not rendered has written its artifact already. The header opens a
comment, which is ended by the code that allocates an object. The program has no such code. -/

def row : Class :=
  let box : Outline :=
    { name := "Box", declarationOnly := true, alloc := "*/\n\npackage scene\n\nfunc _() \x7b" }
  { name := "Row", root := some (.node { id := "box", type := some box } []) }

def commented : Generator where
  registry := (Registry.ofList [some row]).toOption.getD {}
  settings :=
    { header := "/*", package := "p", runtime := "p", packageName := "scene"
      features := ["entrypoint"] }

lemma exists_writeFile_row : ∃ out, writeFile commented.settings row.name
    ((row.artifact commented.settings commented.registry).file commented.settings
      (commented.settings.goPackage "/work")) (classFile row.name) =
        save "Row" "row_generated.go" out := by
  have hpath : join [commented.settings.targetDir, classFile row.name] =
      "row_generated.go" := by decide +kernel
  have himports : commented.settings.enabled .imports = false := by decide +kernel
  exact ⟨_, writeFile_of_isLaidOut (by decide +kernel) hpath himports row.name resolveImports⟩

def unrendered : Failure :=
  .generation row.name "render" "cmd/row/main.go" "render artifact" openCause

lemma programTask_row (written : List Output) :
    programTask commented.settings "/work" row written = .done ⟨written, [unrendered]⟩ := by
  have hprogram : (row.entryPoint commented.settings
        (commented.settings.goPackage "/work")).toOption.any
      opensUnclosed = true := by decide +kernel
  have hpath : join [commented.settings.targetDir, entryPointFile row.name] =
      "cmd/row/main.go" := by decide +kernel
  have hprograms : commented.settings.enabled .entryPoint = true := by decide +kernel
  cases hfile : row.entryPoint commented.settings (commented.settings.goPackage "/work") with
  | error e =>
    rw [hfile] at hprogram
    cases hprogram
  | ok f =>
    rw [hfile] at hprogram
    have hwrite : writeFile commented.settings row.name f (entryPointFile row.name) =
        .done (.error unrendered) := by
      rw [writeFile, hpath, render_of_opensUnclosed hprogram]
      rfl
    simp only [programTask, hprograms, if_true, hfile, hwrite]
    rfl

theorem artifact_stays_where_program_fails :
    ∃ os f', commented.Runs "/work" none (.ofWorkDir "/work") os f' ∧
      (∃ o, (row.name, o) ∈ os ∧ o.FailsIn "render" "cmd/row/main.go") ∧
      (Files.ofWorkDir "/work").lookup? "/work/row_generated.go" = none ∧
      ∃ bs, f'.lookup? "/work/row_generated.go" = some (.file bs) := by
  obtain ⟨out, hartifact⟩ := exists_writeFile_row
  obtain ⟨f', hsave, hlookup⟩ : ∃ f', (save "Row" "row_generated.go" out).run (.ofWorkDir "/work") =
      (.ok ⟨"row_generated.go", out.utf8ByteSize⟩, f') ∧
        ∃ bs, f'.lookup? "/work/row_generated.go" = some (.file bs) := ⟨_, rfl, _, rfl⟩
  obtain ⟨t, htask, hrun⟩ : ∃ t,
      classTask commented.settings "/work" commented.registry row = some t ∧
        t.run (.ofWorkDir "/work") =
          (⟨[⟨"row_generated.go", out.utf8ByteSize⟩], [unrendered]⟩, f') := by
    refine ⟨_, rfl, ?_⟩
    simp only [bind, Work.run_bind, hartifact, hsave, programTask_row, Work.run_done]
  refine ⟨[(row.name, (t.run (.ofWorkDir "/work")).1)], (t.run (.ofWorkDir "/work")).2,
    ⟨[(row.name, t)], ?_, ?_⟩, ?_, rfl, ?_⟩
  · change classTasks _ _ _ none [row] = _
    simp [classTasks, htask]
  · exact .cons_run (.done [(row.name, (t.run (.ofWorkDir "/work")).1)] _)
  · exact ⟨_, List.mem_singleton_self _, _, _, _, by rw [hrun]; exact List.mem_singleton_self _⟩
  · rwa [hrun]

end Generator

end ReactiveModel
