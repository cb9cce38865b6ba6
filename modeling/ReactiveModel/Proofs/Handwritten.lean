import ReactiveModel.Proofs.Accounting
import ReactiveModel.Proofs.Reaches

/-! Programs written by hand. Where programs are not wanted, those of earlier runs are removed,
which start with the header. Any other file in the place of a program stays, with the directories
that it stands in. -/

namespace ReactiveModel

open List Files Naming ReactiveModel.Path

namespace Files

section

variable {f g : Files} {p q : String} {bs : List UInt8}

lemma lookup?_of_read (h : f.read p = .ok bs) :
    f.lookup? (placeOf f.workDir p) = some (.file bs) := by
  unfold read find at h
  cases hlocate : f.locate p with
  | error e =>
    rw [hlocate] at h
    nomatch h
  | ok place =>
    rw [← locate_eq_ok hlocate]
    simp only [hlocate, bind, Except.bind] at h
    cases hentry : f.lookup? place with
    | none =>
      rw [hentry] at h
      nomatch h
    | some x =>
      rw [hentry] at h
      cases x with
      | directory => nomatch h
      | file cs =>
        cases h
        rfl

/-! Directories stay when files are written, and when something is in them. -/

variable (h : f.lookup? q = some .directory)

include h

lemma isDirectory_create : (f.create p).2.lookup? q = some .directory := by
  rw [create_unlocked]
  split
  · exact h
  · split
    · exact h
    · rename_i place _ _ hplace
      have hne : q ≠ place := by
        rintro rfl
        exact hplace h
      rw [lookup?_set_of_ne hne]
      exact h

lemma isDirectory_write : (f.write p bs).2.lookup? q = some .directory := by
  unfold write
  split
  · exact h
  · split
    · rename_i place _ _ _ hplace
      have hne : q ≠ place := by
        rintro rfl
        exact absurd (hplace.symm.trans h) (by simp)
      rw [lookup?_set_of_ne hne]
      exact h
    · exact h
    · exact h

lemma isDirectory_remove (hchildren : f.childNames q ≠ []) :
    (f.remove p).2.lookup? q = some .directory := by
  rw [remove_unlocked]
  split
  · exact h
  · split
    · exact h
    · rename_i place _ _ _ hplace
      have hne : q ≠ place := by
        rintro rfl
        exact absurd (hplace.symm.trans h) (by simp)
      rw [lookup?_unset_of_ne hne]
      exact h
    · split
      · rename_i place _ _ _ hempty
        have hne : q ≠ place := by
          rintro rfl
          exact hchildren (isEmpty_iff.mp hempty)
        rw [lookup?_unset_of_ne hne]
        exact h
      · exact h

end

/-- A file with its content, and the directories that it stands in. -/
structure Stands (dir : String) (es : List String) (bs : List UInt8) (f : Files) : Prop where
  workDir : f.workDir = dir
  plain : ∀ e ∈ es, Path.Plain e
  file : f.lookup? (placeAt es) = some (.file bs)
  opens : f.Opens [] es

namespace Stands

variable {dir p : String} {es : List String} {bs : List UInt8} {f g : Files}

lemma childNames_ne_nil (h : Stands dir es bs f) {ms : List String} {m : String}
    (hms : ms ++ [m] <+: es) : f.childNames (placeAt ms) ≠ [] := by
  have hplain : Plains (ms ++ [m]) := fun e he => h.plain e (hms.subset he)
  intro hempty
  have hnone := childNames_eq_nil_iff.mp hempty _ (placeAt_concat_ne_root hplain)
    (parent_placeAt hplain)
  obtain ⟨rest, hrest⟩ := hms
  cases rest with
  | nil =>
    rw [append_nil] at hrest
    rw [hrest, h.file] at hnone
    nomatch hnone
  | cons e rest =>
    have hdir := h.opens (ms ++ [m]) e ⟨rest, by simpa using hrest⟩
    rw [nil_append, hnone] at hdir
    nomatch hdir

lemma of_extends (h : Stands dir es bs f) (hfg : f.Extends g) : Stands dir es bs g :=
  ⟨hfg.workDir.trans h.workDir, h.plain, hfg.lookup? _ _ h.file, fun ms m hms =>
    hfg.lookup? _ _ (h.opens ms m hms)⟩

lemma of_sameOff (h : Stands dir es bs f) (hp : placeOf dir p ≠ placeAt es)
    (hfg : SameOff (placeOf f.workDir p) f g)
    (hdirs : ∀ ms m, ms ++ [m] <+: es → f.lookup? (placeAt ms) = some .directory →
      g.lookup? (placeAt ms) = some .directory) : Stands dir es bs g := by
  rw [h.workDir] at hfg
  refine ⟨hfg.workDir.trans h.workDir, h.plain, ?_,
    fun ms m hms => hdirs ms m hms (h.opens ms m hms)⟩
  rw [hfg.lookup? _ hp.symm]
  exact h.file

end Stands

end Files

namespace Run

variable {dir : String} {es : List String} {bs : List UInt8}

lemma lasting_stands : Lasting (keeping (Stands dir es bs)) (Stands dir es bs) where
  stable hfg hf := hfg hf
  make p := admits_of fun f hf => ⟨fun _ => hf.of_extends (f.extends_makeDirectories p),
    hf.of_extends (f.extends_makeDirectories p)⟩

lemma access_of_ne {p : String} (h : placeOf dir p ≠ placeAt es) :
    Access (keeping (Stands dir es bs)) (Stands dir es bs) p := by
  have hadmits {act : Files → Option FileFailure × Files}
      (hact : ∀ f, Stands dir es bs f → Stands dir es bs (act f).2) :
      Admits (keeping (Stands dir es bs)) (Stands dir es bs) act :=
    admits_of fun f hf => ⟨fun _ => hact f hf, hact f hf⟩
  refine ⟨hadmits fun f hf => ?_, fun bs => hadmits fun f hf => ?_, hadmits fun f hf => ?_⟩
  · exact hf.of_sameOff h (f.sameOff_create p) fun _ _ _ => isDirectory_create
  · exact hf.of_sameOff h (f.sameOff_write p bs) fun _ _ _ => isDirectory_write
  · exact hf.of_sameOff h (f.sameOff_remove p) fun _ _ hms hdir =>
      isDirectory_remove hdir (hf.childNames_ne_nil hms)

/-- The task of a class keeps what lasts, where programs are not wanted. -/
lemma keeps_classTask {inv : Files → Prop} {f : Files} (hinv : Lasting (keeping inv) inv)
    {s : Settings} {workDir : String} {reg : Registry} {c : Class} {t : Work Outcome}
    (ht : classTask s workDir reg c = some t) (hoff : s.enabled .entryPoint = false)
    (hartifact : c.check s reg = .passed → Access (keeping inv) inv (artifactPath s c.name) ∧
      Access (keeping inv) inv (artifactPath s c.name ++ ".error"))
    (hprogram : c.check s reg = .passed → Access (keeping inv) inv (programPath s c.name) ∨
      ∀ f bs, inv f → f.read (programPath s c.name) = .ok bs →
        ("// " ++ s.headerText).toUTF8.toList.isPrefixOf bs = false)
    (hdir : c.check s reg = .passed → Access (keeping inv) inv (parent (programPath s c.name)))
    (hf : inv f) : t.Upholds (keeping inv) (fun _ g => inv g) f := by
  unfold classTask at ht
  split at ht
  · nomatch ht
  · cases ht
    exact fun _ h => h hf
  · rename_i file hfile
    cases ht
    have hpassed := check_of_file hfile
    obtain ⟨hpath, haside⟩ := hartifact hpassed
    have hwrite : (writeFile s c.name file (classFile c.name)).Upholds (keeping inv)
        (fun _ g => inv g) f :=
      upholds_writeFile hinv hpath haside (opened_trivial ..) (fun _ _ hg => hg)
        (fun bs _ f g g' _ hf _ hw hg' => hg' (hpath.write bs f none g hf hw).2) hf
    refine hwrite.bind fun written g hg => ?_
    cases written with
    | error e => exact fun _ h => h hg
    | ok o =>
      show (programTask s workDir c [o]).Upholds _ _ g
      unfold programTask
      rw [if_neg (by simp [hoff])]
      refine (upholds_removeGenerated hinv (hprogram hpassed) (hdir hpassed) (fun _ _ hg => hg)
        hg).bind fun removed g hg => ?_
      cases removed <;> exact fun _ h => h hg

end Run

namespace Generator

open Run

variable {g : Generator} {workDir : String} {limit : Option Nat} {f f' : Files}
  {os : List (Text × Outcome)}

/-- A program that does not start with the header stays where programs are not wanted. -/
lemma Runs.stands (h : g.Runs workDir limit f os f') (hoff : g.settings.enabled .entryPoint = false)
    {ws : List String} {a : Text} {bs : List UInt8} (hws : Plains ws) (ha : isName a)
    (hbs : ("// " ++ g.settings.headerText).toUTF8.toList.isPrefixOf bs = false)
    (hf : f.Stands (placeAt ws) (target g.settings ws ++ (programDir a ++ ["main.go"])) bs) :
    f'.Stands (placeAt ws) (target g.settings ws ++ (programDir a ++ ["main.go"])) bs := by
  have hplain := plain_of_mem_filePlaces ha _ (program_mem_filePlaces a)
  have haccess {ns : List String} (hns : Plains ns) (hne : ns ≠ programDir a ++ ["main.go"]) :
      Access (keeping
        (Stands (placeAt ws) (target g.settings ws ++ (programDir a ++ ["main.go"])) bs))
        (Stands (placeAt ws) (target g.settings ws ++ (programDir a ++ ["main.go"])) bs)
        (below g.settings.targetDir ns) := by
    refine access_of_ne fun heq => hne ?_
    rw [placeOf_below hws hns] at heq
    exact placeAt_target_inj hws hns hplain heq
  obtain ⟨ts, hts, hrun⟩ := h
  refine hrun.keeps (fun t ht => ?_) hf
  obtain ⟨c, -, hname, ⟨hcancelled, -⟩ | ht⟩ := exists_of_mem (forall₂_classTasks hts) ht
  · rw [hcancelled]
    exact fun _ hg => hg hf
  · refine keeps_classTask lasting_stands ht hoff (fun hpassed => ?_) (fun hpassed => ?_)
      (fun hpassed => ?_) hf
    · have hc := isName_of_check hpassed
      obtain ⟨hfile, haside, -⟩ := forall_mem_filePlaces.mp (plain_of_mem_filePlaces hc)
      rw [artifactPath_append hc ".error" (by decide), artifactPath_eq hc]
      exact ⟨haccess hfile (by simp [programDir]), haccess haside (by simp [programDir])⟩
    · have hc := isName_of_check hpassed
      have hmain := plain_of_mem_filePlaces hc _ (program_mem_filePlaces c.name)
      rw [programPath_eq hc]
      by_cases hsame : programDir c.name ++ ["main.go"] = programDir a ++ ["main.go"]
      · -- the program that is looked at is the one that stays
        refine .inr fun f cs hstands hread => ?_
        have hfile := lookup?_of_read hread
        rw [hstands.workDir, placeOf_below hws hmain, hsame] at hfile
        cases hstands.file.symm.trans hfile
        exact hbs
      · exact .inl (haccess hmain hsame)
    · have hc := isName_of_check hpassed
      rw [parent_programPath hc]
      refine haccess (plain_programDir hc) fun heq => ?_
      exact not_prefix_programDir a hc _ (program_mem_filePlaces a) (heq ▸ prefix_rfl)

end Generator

end ReactiveModel
