import ReactiveModel.Proofs.Deeds

/-! Whether a run loses an artifact. Classes write to different places exactly when the words of
their names differ, and then every file that a run reports holds what its class is rendered to. -/

namespace ReactiveModel

open List Naming

namespace Run

variable {s : Settings} {workDir : String} {reg : Registry}

lemma Way.leading {c : Class} {ds : List Deed} {o : Outcome} (h : Way s workDir reg c ds o) :
    o.written.map Output.path <+: ownPaths s c.name ∧
      (o.written ≠ [] → c.check s reg = .passed) := by
  cases h with
  | unstarted | refused | noArtifact => exact ⟨ nil_prefix, absurd rfl⟩
  | noProgram hpassed | unsavedProgram hpassed | withoutProgram hpassed =>
    exact ⟨by simp [ownPaths], fun _ => hpassed⟩
  | withProgram hpassed => exact ⟨prefix_rfl, fun _ => hpassed⟩

lemma allUphold_classTasks {limit : Option Nat} {cs : List Class} {ts : List (Text × Work Outcome)}
    (h : classTasks s workDir reg limit cs = some ts) (f : Files) :
    AllUphold (cs.map (duty s workDir reg)) ts f := by
  refine forall₂_map_left_iff.mpr ((forall₂_classTasks h).imp ?_)
  rintro c ⟨name, t⟩ ⟨-, ⟨rfl, -⟩ | ht⟩
  · exact fun _ _ => ⟨[], forall_mem_nil _, forall_mem_nil _⟩
  · exact upholds_classTask ht f

end Run

namespace Generator

open Run

variable {g : Generator} {workDir : String} {limit : Option Nat} {f f' : Files}
  {os : List (Text × Outcome)}

/-- Whether classes that are accepted have names with different words. -/
def WordsDiffer (g : Generator) : Prop :=
  g.registry.generated.Pairwise fun c d =>
    c.check g.settings g.registry = .passed → d.check g.settings g.registry = .passed →
      Naming.words c.name ≠ Naming.words d.name

section

variable (h : g.Runs workDir limit f os f')

include h

lemma Runs.rendered (hwords : g.WordsDiffer) :
    Forall₂ (fun c o => ∀ w ∈ o.2.written, ∃ bs,
      Renders g.settings workDir g.registry c w.path bs ∧
        f'.lookup? (Files.placeOf f.workDir w.path) = some (.file bs))
      g.registry.generated os := by
  obtain ⟨ts, hts, hrun⟩ := h
  have hagree : (g.registry.generated.map
      (duty g.settings workDir g.registry)).Pairwise Pact.Agree := by
    refine pairwise_map.mpr (hwords.imp fun hcd =>
      ⟨fun _ _ => agree_duty ?_, fun _ _ => agree_duty hcd⟩)
    exact fun hd hc heq => hcd hc hd heq.symm
  obtain ⟨hposts, hdir⟩ := hrun.upholds (allUphold_classTasks hts f) hagree
    (fun f g => g.workDir = f.workDir) (fun _ => rfl) (fun hfg hgh => hgh.trans hfg) fun p hp => by
      obtain ⟨c, -, rfl⟩ := mem_map.mp hp
      exact fun _ _ => Files.ChangesWithin.workDir
  refine (forall₂_map_left_iff.mp hposts).imp ?_
  rintro c o ⟨held, hpost, hholds⟩ w hw
  obtain ⟨bs, hmem, hbs⟩ := hpost w hw
  have hentry := hholds (w.path, bs) hmem
  rw [hdir] at hentry
  exact ⟨bs, hbs, hentry⟩

lemma Runs.leading_ownPaths {o : Text × Outcome} (ho : o ∈ os) :
    o.2.written.map Output.path <+: ownPaths g.settings o.1 ∧
      (o.2.written ≠ [] → isName o.1 = true) := by
  obtain ⟨c, -, hname, ds, hway⟩ := exists_of_mem h.ways ho
  obtain ⟨hleading, haccepted⟩ := hway.leading
  rw [hname]
  exact ⟨hleading, fun hne => isName_of_check (haccepted hne)⟩

lemma Runs.artifactPath_mem {o : Text × Outcome} (ho : o ∈ os) (hne : o.2.written ≠ []) :
    artifactPath g.settings o.1 ∈ o.2.written.map Output.path := by
  obtain ⟨hleading, -⟩ := h.leading_ownPaths ho
  cases hw : o.2.written with
  | nil => exact absurd hw hne
  | cons w ws =>
    rw [hw, map_cons, ownPaths, cons_prefix_cons] at hleading
    rw [← hleading.1]
    exact mem_cons_self

/-- Paths are reported once unless names of classes that report have the same words. -/
lemma Runs.nodup_iff :
    (os.flatMap fun o => o.2.written.map Output.path).Nodup ↔
      os.Pairwise fun x y => x.2.written ≠ [] → y.2.written ≠ [] →
        words x.1 ≠ words y.1 := by
  have heach : ∀ o ∈ os, (o.2.written.map Output.path).Nodup := by
    intro o ho
    obtain ⟨hleading, hname⟩ := h.leading_ownPaths ho
    by_cases hne : o.2.written = []
    · simp [hne]
    · exact (nodup_ownPaths (hname hne)).sublist hleading.sublist
  have hpair : ∀ x ∈ os, ∀ y ∈ os,
      ((x.2.written.map Output.path).Disjoint (y.2.written.map Output.path) ↔
        (x.2.written ≠ [] → y.2.written ≠ [] → words x.1 ≠ words y.1)) := by
    intro x hx y hy
    obtain ⟨hxleading, hxname⟩ := h.leading_ownPaths hx
    obtain ⟨hyleading, hyname⟩ := h.leading_ownPaths hy
    refine ⟨fun hdisjoint hxne hyne hwords => ?_, fun hwords p hpx hpy => ?_⟩
    · have hmem := h.artifactPath_mem hy hyne
      rw [← artifactPath_eq_of_words hwords] at hmem
      exact hdisjoint (h.artifactPath_mem hx hxne) hmem
    · have hxne : x.2.written ≠ [] := fun hnil => by simp [hnil] at hpx
      have hyne : y.2.written ≠ [] := fun hnil => by simp [hnil] at hpy
      exact (disjoint_ownPaths_iff (hxname hxne) (hyname hyne)).mpr (hwords hxne hyne)
        (hxleading.subset hpx) (hyleading.subset hpy)
  rw [nodup_flatMap]
  refine ⟨fun hnodup => ?_, fun hwords => ⟨heach, ?_⟩⟩
  · exact hnodup.2.imp_of_mem fun hx hy => (hpair _ hx _ hy).mp
  · exact hwords.imp_of_mem fun hx hy => (hpair _ hx _ hy).mpr

lemma Runs.pairwise_words (hwords : g.WordsDiffer) :
    os.Pairwise fun x y => x.2.written ≠ [] → y.2.written ≠ [] →
      words x.1 ≠ words y.1 := by
  have hboth : Forall₂ (fun c o => o.1 = c.name ∧
      (o.2.written ≠ [] → c.check g.settings g.registry = .passed)) g.registry.generated os :=
    h.ways.imp fun c o ⟨hname, ds, hway⟩ => ⟨hname, hway.leading.2⟩
  obtain ⟨hlength, hget⟩ := forall₂_iff_get.mp hboth
  rw [WordsDiffer, pairwise_iff_getElem] at hwords
  refine pairwise_iff_getElem.mpr fun i j hi hj hij hwritten hwritten' => ?_
  obtain ⟨hname, hpassed⟩ := hget i (lt_of_lt_of_eq hi hlength.symm) hi
  obtain ⟨hname', hpassed'⟩ := hget j (lt_of_lt_of_eq hj hlength.symm) hj
  have hne := hwords i j _ _ hij (hpassed hwritten) (hpassed' hwritten')
  exact fun heq => hne (hname ▸ hname' ▸ heq)

end

lemma runs_generate {t : Work (Result × Generator)} {resolver : Resolver}
    (h : g.generate workDir limit resolver = some t) (f : Files) :
    ∃ os, g.Runs workDir limit f os (t.run f).2 resolver ∧
      (t.run f).1 = if g.registry.generated = [] then ({ report := {}, log := [nothingEntry] }, g)
        else g.conclude os := by
  unfold generate at h
  split at h
  · rename_i hnone
    cases h
    refine ⟨[], ⟨[], ?_, .done [] f⟩, (if_pos hnone).symm⟩
    rw [hnone]
    cases limit <;> rfl
  · rename_i hsome
    obtain ⟨ts, hts, hrun⟩ := Option.bind_eq_some_iff.mp h
    cases hrun
    have hrun : ((inTurn ts).bind fun os => .done (g.conclude os)).run f =
        (g.conclude ((inTurn ts).run f).1, ((inTurn ts).run f).2) := by
      rw [Work.run_bind, Work.run_done]
    refine ⟨((inTurn ts).run f).1, ⟨ts, hts, ?_⟩, ?_⟩
    · exact congrArg Prod.snd hrun ▸ interleaved_inTurn ts f
    · exact (congrArg Prod.fst hrun).trans (if_neg hsome).symm

/-- Each path that a run reports is reported once, and leads to what the class that reports it is
rendered to. -/
structure Keeps (g : Generator) (workDir : String) (f f' : Files) (os : List (Text × Outcome)) :
    Prop where
  once : (g.conclude os).1.report.written.Nodup
  rendered : List.Forall₂ (fun c o => o.1 = c.name ∧ ∀ w ∈ o.2.written, ∃ bs,
    Renders g.settings workDir g.registry c w.path bs ∧
      f'.lookup? (Files.placeOf f.workDir w.path) = some (.file bs)) g.registry.generated os

/-- Two classes that pass their check share files exactly if the words of their names are the same.
In every run, paths are reported once unless classes with the same words report; and where the words
of all accepted names differ, nothing that is reported is lost. -/
theorem artifacts_kept_where_words_differ (h : g.Runs workDir limit f os f') :
    (∀ c d : Class, c.check g.settings g.registry = .passed →
      d.check g.settings g.registry = .passed →
        (Naming.classFile c.name = Naming.classFile d.name ↔
          Naming.words c.name = Naming.words d.name) ∧
        (Naming.entryPointFile c.name = Naming.entryPointFile d.name ↔
          Naming.words c.name = Naming.words d.name) ∧
        ((ownPaths g.settings c.name).Disjoint (ownPaths g.settings d.name) ↔
          Naming.words c.name ≠ Naming.words d.name)) ∧
      ((g.conclude os).1.report.written.Nodup ↔
        os.Pairwise fun x y => x.2.written ≠ [] → y.2.written ≠ [] →
          Naming.words x.1 ≠ Naming.words y.1) ∧
      (g.WordsDiffer → g.Keeps workDir f f' os) := by
  refine ⟨fun c d hc hd => ?_, h.nodup_iff, fun hwords => ⟨?_, ?_⟩⟩
  · have hcname := isName_of_check hc
    have hdname := isName_of_check hd
    exact ⟨Naming.classFile_eq_iff, Naming.entryPointFile_eq_iff hcname hdname,
      disjoint_ownPaths_iff hcname hdname⟩
  · exact h.nodup_iff.mpr (h.pairwise_words hwords)
  · exact h.names.mp (fun c o hname hrendered => ⟨hname, hrendered⟩) (h.rendered hwords)

def boxed (name : Text) : Class :=
  let box : Outline := { name := "Box", declarationOnly := true, alloc := "rengine.NewBox()" }
  { name, root := some (.node { id := "box", type := some box } []) }

def ofNames (a b : Text) (features : List String := []) : Generator where
  registry := (Registry.ofList [some (boxed a), some (boxed b)]).toOption.getD {}
  settings := { package := "github.com/org/app/scene", features }

lemma generates_rows : ∃ t, (ofNames "RowItem" "RowPanel").generate "/work" none = some t :=
  Option.isSome_iff_exists.mp (by decide +kernel)

theorem artifacts_kept_rowItem_rowPanel :
    (ofNames "RowItem" "RowPanel").WordsDiffer ∧
      ∃ os f', (ofNames "RowItem" "RowPanel").Runs "/work" none (.ofWorkDir "/work") os f' ∧
        (ofNames "RowItem" "RowPanel").Keeps "/work" (.ofWorkDir "/work") f' os := by
  have hwords : (ofNames "RowItem" "RowPanel").WordsDiffer := by
    have hdiffer : ((ofNames "RowItem" "RowPanel").registry.generated.map
        fun c => Naming.words c.name).Pairwise (· ≠ ·) := by decide +kernel
    exact (List.pairwise_map.mp hdiffer).imp fun hne _ _ => hne
  obtain ⟨t, ht⟩ := generates_rows
  obtain ⟨os, hrun, -⟩ := runs_generate ht (.ofWorkDir "/work")
  exact ⟨hwords, os, _, hrun, (artifacts_kept_where_words_differ hrun).2.2 hwords⟩

/-- Two classes that are accepted together and share their files. -/
theorem rowItem_shares_files :
    boxed "RowItem" ∈ (ofNames "RowItem" "Row_Item").registry.generated ∧
      boxed "Row_Item" ∈ (ofNames "RowItem" "Row_Item").registry.generated ∧
      (boxed "RowItem").check (ofNames "RowItem" "Row_Item").settings
        (ofNames "RowItem" "Row_Item").registry = .passed ∧
      (boxed "Row_Item").check (ofNames "RowItem" "Row_Item").settings
        (ofNames "RowItem" "Row_Item").registry = .passed ∧
      ("RowItem" : Text) ≠ "Row_Item" ∧
      Naming.classFile "RowItem" = Naming.classFile "Row_Item" ∧
      Naming.entryPointFile "RowItem" = Naming.entryPointFile "Row_Item" := by
  have hwords : Naming.words "RowItem" = Naming.words "Row_Item" := by decide +kernel
  refine ⟨.head _, .tail _ (.head _), by rfl, by rfl, by decide, ?_, ?_⟩
  · exact Naming.classFile_eq_iff.mpr hwords
  · rw [Naming.entryPointFile, Naming.entryPointFile, hwords]

end Generator

end ReactiveModel
