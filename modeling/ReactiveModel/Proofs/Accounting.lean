import ReactiveModel.Proofs.Artifacts

/-! What a report accounts for. However the tasks of a run interleave and whenever it is cancelled,
each class that is generated is reported with its files or with its failures, in the order of the
names. -/

namespace ReactiveModel

open List

lemma Registry.pairwise_classes (r : Registry) : r.classes.Pairwise fun a b => a.name < b.name := by
  refine pairwise_map.mpr (r.ordered.imp_of_mem fun {d e} hd he hlt => ?_)
  rwa [r.named d hd, r.named e he]

lemma Registry.pairwise_generated (r : Registry) :
    (r.generated.map fun c => c.name).Pairwise (· < ·) :=
  pairwise_map.mpr (r.pairwise_classes.sublist filter_sublist)

lemma Registry.nodup_generated (r : Registry) : (r.generated.map fun c => c.name).Nodup := by
  refine r.pairwise_generated.imp fun {a b} hlt heq => ?_
  rw [heq] at hlt
  exact List.lt_irrefl b.bytes hlt

variable {r : Registry} {c : Class}

lemma Registry.lookup_name (h : c ∈ r.classes) : r.lookup c.name = some c := by
  obtain ⟨e, he, rfl⟩ := mem_map.mp h
  rw [r.named e he]
  exact r.ordered.get?_eq_some he

lemma Registry.eq_of_name {d : Class} (hc : c ∈ r.generated) (hd : d ∈ r.generated)
    (h : c.name = d.name) : c = d := by
  have heq := lookup_name (mem_filter.mp hc).1
  rw [h, lookup_name (mem_filter.mp hd).1] at heq
  exact (Option.some.inj heq).symm

namespace Run

def wantedPaths (s : Settings) (name : Text) : List String :=
  if s.enabled .entryPoint then ownPaths s name else [artifactPath s name]

def IsAbout (name : Text) (e : Failure) : Prop :=
  ∃ phase file message cause, e = .generation name phase file message cause

/-- An outcome of a class: some first ones of its files, and failures to generate it if that is not
all. -/
structure Tells (s : Settings) (c : Class) (o : Outcome) : Prop where
  inOrder : o.written.map Output.path <+: ownPaths s c.name
  named : ∀ e ∈ o.failures, IsAbout c.name e
  complete : o.failures = [] → o.written.map Output.path = wantedPaths s c.name

section

variable {s : Settings} {workDir : String} {reg : Registry} {c : Class} {ds : List Deed}
  {e : Failure}

lemma Saving.isAbout {f : SourceFile} {path : String} {name : Text}
    (h : Saving s name f path ds (.error e)) : IsAbout name e := by
  cases h <;> exact ⟨_, _, _, _, rfl⟩

lemma isAbout_entryPoint {package : String} (h : c.entryPoint s package = .error e) :
    IsAbout c.name e := by
  unfold Class.entryPoint at h
  split at h
  · cases h
    exact ⟨_, _, _, _, rfl⟩
  · nomatch h

lemma Way.tells {o : Outcome} (h : Way s workDir reg c ds o) : Tells s c o := by
  have hleading := h.leading.1
  cases h with
  | unstarted | refused =>
    exact ⟨hleading, forall_mem_singleton.mpr ⟨_, _, _, _, rfl⟩, nofun⟩
  | noArtifact _ _ h | unsavedProgram _ _ _ _ h =>
    exact ⟨hleading, forall_mem_singleton.mpr h.isAbout, nofun⟩
  | noProgram _ _ _ h =>
    exact ⟨hleading, forall_mem_singleton.mpr (isAbout_entryPoint h), nofun⟩
  | withProgram _ _ henabled =>
    exact ⟨hleading, forall_mem_nil _, fun _ => by simp [wantedPaths, henabled, ownPaths]⟩
  | withoutProgram _ _ hdisabled =>
    refine ⟨hleading, fun e he => ?_, fun _ => by simp [wantedPaths, hdisabled]⟩
    obtain ⟨x, -, rfl⟩ := mem_map.mp he
    exact ⟨_, _, _, _, rfl⟩

end

/-- A report that accounts for each class that is generated. -/
structure AccountsFor (s : Settings) (reg : Registry) (r : Report) : Prop where
  increasing : r.failed.Pairwise (· < ·)
  failed_iff : ∀ name, name ∈ r.failed ↔
    (∃ c ∈ reg.generated, c.name = name) ∧ ∃ e ∈ r.failures, IsAbout name e
  /-- Failures are grouped by the classes that failed, in the same order. -/
  failures : ∃ groups : List (List Failure), groups.flatten = r.failures ∧
    List.Forall₂ (fun name es => es ≠ [] ∧ ∀ e ∈ es, IsAbout name e) r.failed groups
  /-- Files are grouped by the classes that are generated, in the same order. -/
  written : ∃ groups : List (List String), groups.flatten = r.written ∧
    List.Forall₂ (fun c ps => ps <+: ownPaths s c.name ∧
      (c.name ∉ r.failed → ps = wantedPaths s c.name)) reg.generated groups

lemma flatMap_failures_filter (os : List (Text × Outcome)) :
    (os.filter fun o => !o.2.failures.isEmpty).flatMap (fun o => o.2.failures) =
      os.flatMap fun o => o.2.failures := by
  induction os with
  | nil => rfl
  | cons o os ih =>
    rw [filter_cons, flatMap_cons]
    split
    · rw [flatMap_cons, ih]
    · rename_i h
      have hnone : o.2.failures = [] := by simpa using h
      rw [ih, hnone, nil_append]

variable {s : Settings} {reg : Registry}

lemma accountsFor_ofOutcomes {os : List (Text × Outcome)}
    (h : Forall₂ (fun c o => o.1 = c.name ∧ Tells s c o.2) reg.generated os) (metrics : Metrics) :
    AccountsFor s reg (.ofOutcomes metrics os) := by
  have hnames : os.map Prod.fst = reg.generated.map fun c => c.name := by
    rw [← forall₂_eq_eq_eq, forall₂_map_left_iff, forall₂_map_right_iff]
    exact (h.imp fun _ _ ho => ho.1).flip
  have habout : ∀ o ∈ os, ∀ e ∈ o.2.failures, IsAbout o.1 e := by
    intro o ho e he
    obtain ⟨c, -, hname, htells⟩ := exists_of_mem h ho
    exact hname ▸ htells.named e he
  have hfailed {o : Text × Outcome} (ho : o ∈ os) (hne : o.2.failures ≠ []) :
      o.1 ∈ (os.filter fun o => !o.2.failures.isEmpty).map Prod.fst :=
    mem_map.mpr ⟨o, mem_filter.mpr ⟨ho, by simpa using hne⟩, rfl⟩
  constructor
  case increasing =>
    have hsub : ((os.filter fun o => !o.2.failures.isEmpty).map Prod.fst).Sublist
        (reg.generated.map fun c => c.name) := hnames ▸ filter_sublist.map Prod.fst
    exact reg.pairwise_generated.sublist hsub
  case failed_iff =>
    intro name
    constructor
    · intro hname
      obtain ⟨o, ho, rfl⟩ := mem_map.mp hname
      obtain ⟨ho, hne⟩ := mem_filter.mp ho
      obtain ⟨c, hc, hname, -⟩ := exists_of_mem h ho
      obtain ⟨e, he⟩ := exists_mem_of_ne_nil o.2.failures (by simpa using hne)
      exact ⟨⟨c, hc, hname.symm⟩, e, mem_flatMap.mpr ⟨o, ho, he⟩, habout o ho e he⟩
    · rintro ⟨-, e, he, phase, file, message, cause, rfl⟩
      obtain ⟨o, ho, he⟩ := mem_flatMap.mp he
      obtain ⟨_, _, _, _, heq⟩ := habout o ho _ he
      cases heq
      exact hfailed ho (ne_nil_of_mem he)
  case failures =>
    refine ⟨(os.filter fun o => !o.2.failures.isEmpty).map fun o => o.2.failures, ?_, ?_⟩
    · exact flatMap_failures_filter os
    · refine forall₂_map_left_iff.mpr (forall₂_map_right_iff.mpr ?_)
      refine forall₂_same.mpr fun o ho => ?_
      obtain ⟨ho, hne⟩ := mem_filter.mp ho
      exact ⟨by simpa using hne, habout o ho⟩
  case written =>
    refine ⟨os.map fun o => o.2.written.map Output.path, (flatMap_def ..).symm, ?_⟩
    have hspared : ∀ o ∈ os, o.1 ∉ (os.filter fun o => !o.2.failures.isEmpty).map Prod.fst →
        o.2.failures = [] := fun o ho => not_imp_comm.mp (hfailed ho)
    have hflip : Forall₂ (fun o c => o.1 = c.name ∧ Tells s c o.2) os reg.generated := h.flip
    have hboth := (forall₂_and_left os reg.generated).mpr ⟨hspared, hflip⟩
    refine forall₂_map_right_iff.mpr (Forall₂.flip (hboth.imp ?_))
    rintro o c ⟨hspared, hname, htells⟩
    exact ⟨htells.inOrder, fun hc => htells.complete (hspared (hname ▸ hc))⟩

lemma accountsFor_empty (h : reg.generated = []) : AccountsFor s reg {} := by
  refine accountsFor_ofOutcomes (forall₂_nil_right_iff.mpr ?_) {}
  exact h

namespace AccountsFor

variable {s : Settings} {reg : Registry} {r : Report} {c : Class}

lemma written_or_failed (h : AccountsFor s reg r) (hc : c ∈ reg.generated) :
    artifactPath s c.name ∈ r.written ∨ c.name ∈ r.failed := by
  obtain ⟨groups, hgroups, hwritten⟩ := h.written
  by_cases hfailed : c.name ∈ r.failed
  · exact .inr hfailed
  · obtain ⟨ps, hps, -, hcomplete⟩ := exists_of_mem hwritten.flip hc
    have hartifact : artifactPath s c.name ∈ wantedPaths s c.name := by
      unfold wantedPaths
      split
      · exact mem_cons_self
      · exact mem_cons_self
    refine .inl (hgroups ▸ mem_flatten.mpr ⟨ps, hps, ?_⟩)
    exact hcomplete hfailed ▸ hartifact

lemma exists_generated (h : AccountsFor s reg r) {p : String} (hp : p ∈ r.written) :
    ∃ c ∈ reg.generated, p ∈ ownPaths s c.name := by
  obtain ⟨groups, hgroups, hwritten⟩ := h.written
  obtain ⟨ps, hps, hp⟩ := mem_flatten.mp (hgroups ▸ hp)
  obtain ⟨c, hc, hleading, -⟩ := exists_of_mem hwritten hps
  exact ⟨c, hc, hleading.subset hp⟩

lemma notMem_failed (h : AccountsFor s reg r) (hc : c ∈ reg.classes)
    (hdeclared : c.isGenerated = false) : c.name ∉ r.failed := by
  intro hfailed
  obtain ⟨⟨d, hd, hname⟩, -⟩ := (h.failed_iff c.name).mp hfailed
  obtain ⟨hd, hgenerated⟩ := mem_filter.mp hd
  have heq := Registry.lookup_name hd
  rw [hname, Registry.lookup_name hc] at heq
  cases heq
  exact absurd (hdeclared.symm.trans hgenerated) (by simp)

end AccountsFor

lemma Report.failure?_eq (r : Report) :
    r.failure? = if r.failures = [] then none else some (.join r.failures) := by
  have hall : (r.failures.map some).filterMap id = r.failures := by
    rw [filterMap_map]
    exact filterMap_some
  unfold Report.failure? Failure.join?
  rw [hall]
  cases r.failures <;> rfl

end Run

namespace Generator

open Run

variable {g : Generator} {workDir : String} {limit : Option Nat} {f f' : Files}

/-- How a run ends, with the tasks in any order: where there is nothing to generate it says so, and
otherwise the outcomes make the result. -/
def Ends (g : Generator) (workDir : String) (limit : Option Nat) (f : Files) (r : Result)
    (f' : Files) (resolver : Resolver := resolveImports) : Prop :=
  if g.registry.generated = [] then r = { report := {}, log := [nothingEntry] } ∧ f' = f
  else ∃ os, g.Runs workDir limit f os f' resolver ∧ r = (g.conclude os).1

lemma ends_generate {t : Work (Result × Generator)} {resolver : Resolver}
    (h : g.generate workDir limit resolver = some t) (f : Files) :
    g.Ends workDir limit f (t.run f).1.1 (t.run f).2 resolver := by
  obtain ⟨os, hruns, hend⟩ := runs_generate h f
  have hnone (hnone : g.registry.generated = []) : (t.run f).2 = f := by
    simp only [generate, hnone, Option.some.injEq] at h
    rw [← h, Work.run_done]
  unfold Ends
  rw [hend]
  split
  · exact ⟨rfl, hnone ‹_›⟩
  · exact ⟨os, hruns, rfl⟩

/-- The report of a run accounts for all classes of the registry, whatever the order of the actions
of the tasks and the moment at which the run is cancelled, and the failure that it returns joins
those of the report. -/
theorem report_accounts_for_classes {r : Result} (h : g.Ends workDir limit f r f') :
    AccountsFor g.settings g.registry r.report ∧
      (∀ c ∈ g.registry.generated,
        artifactPath g.settings c.name ∈ r.report.written ∨ c.name ∈ r.report.failed) ∧
      (∀ c ∈ g.registry.classes, c.declarationOnly = true → c.name ∉ r.report.failed) ∧
      (∀ p ∈ r.report.written, ∃ c ∈ g.registry.generated, p ∈ ownPaths g.settings c.name) ∧
      (r.failure? = none ↔ r.report.failures = []) ∧
      (r.report.failures ≠ [] → r.failure? = some (.join r.report.failures)) := by
  have haccounts : AccountsFor g.settings g.registry r.report := by
    unfold Ends at h
    split at h
    · rename_i hnone
      rw [h.1]
      exact accountsFor_empty hnone
    · obtain ⟨os, hrun, rfl⟩ := h
      exact accountsFor_ofOutcomes
        (hrun.ways.imp fun c o ⟨hname, ds, hway⟩ => ⟨hname, hway.tells⟩) _
  refine ⟨haccounts, fun c => haccounts.written_or_failed, fun c hc hdeclared => ?_,
    fun p => haccounts.exists_generated, ?_, fun hne => ?_⟩
  · exact haccounts.notMem_failed hc (by simp [Outline.isGenerated, hdeclared])
  · rw [Result.failure?, Report.failure?_eq]
    split
    · rename_i hnone
      exact iff_of_true rfl hnone
    · rename_i hne
      exact iff_of_false nofun hne
  · rw [Result.failure?, Report.failure?_eq, if_neg hne]

/-- A class that is refused, and one that is not started since the run is cancelled. -/
theorem report_accounts_refused_and_cancelled :
    ∃ t, (ofNames "RowItem" "1x").generate "/work" (some 1) = some t ∧
      (t.run (.ofWorkDir "/work")).1.1.report.failed = ["1x", "RowItem"] ∧
      AccountsFor (ofNames "RowItem" "1x").settings (ofNames "RowItem" "1x").registry
        (t.run (.ofWorkDir "/work")).1.1.report := by
  have hsome : ((ofNames "RowItem" "1x").generate "/work" (some 1)).any (fun t =>
      (t.run (.ofWorkDir "/work")).1.1.report.failed ==
        (["1x", "RowItem"] : List Text)) = true := by
    decide +kernel
  obtain ⟨t, ht, hfailed⟩ := (Option.any_eq_true _ _).mp hsome
  exact ⟨t, ht, beq_iff_eq.mp hfailed,
    (report_accounts_for_classes (ends_generate ht (.ofWorkDir "/work"))).1⟩

end Generator

end ReactiveModel
