import ReactiveModel.Proofs.ClassTask
import ReactiveModel.Proofs.Directories

/-! What tasks do to files. Each way that a task can take has its deeds and its result, and what a
run has changed in the end was a deed of one of its tasks. -/

namespace ReactiveModel

open List ReactiveModel.Path

/-- Something that a task does to files. -/
inductive Deed
  /-- The directory is made with those that it stands in, as far as that is possible. -/
  | makes (path : String)
  | writes (path : String)
  | removes (path : String)

namespace Deed

/-- What is done to save a file. -/
def saving (path : String) : List Deed := [.makes (Path.parent path), .writes path]

/-- What was done if nothing failed. -/
def given (d : Deed) : Option FileFailure → List Deed
  | none => [d]
  | some _ => []

/-- A place whose entry a deed sets or takes away. -/
def Sets (workDir q : String) : Deed → Prop
  | .makes _ => False
  | .writes p | .removes p => q = Files.placeOf workDir p

/-- A place where a deed may make a directory. -/
def Makes (workDir q : String) : Deed → Prop
  | .makes p => ∃ a ∈ Files.ancestry p, q = Files.placeOf workDir a
  | .writes _ | .removes _ => False

end Deed

/-- What an action does, by what it tells. -/
def FileAction.deeds : FileAction → Option FileFailure → List Deed
  | .makeDirectories p, _ => [.makes p]
  | .create p, r | .write p _, r => (Deed.writes p).given r
  | .remove p, r => (Deed.removes p).given r

namespace Files

variable {p : String} {e : FileFailure} {f g : Files}

/-- Files that some deeds may have turned into others. -/
structure Explained (ds : List Deed) (f g : Files) : Prop where
  workDir : g.workDir = f.workDir
  lookup? : ∀ q, g.lookup? q = f.lookup? q ∨ (∃ d ∈ ds, d.Sets f.workDir q) ∨
    (f.lookup? q = none ∧ g.lookup? q = some .directory ∧ ∃ d ∈ ds, d.Makes f.workDir q)

lemma explained_refl (ds : List Deed) (f : Files) : Explained ds f f :=
  ⟨rfl, fun _ => .inl rfl⟩

variable {ds : List Deed}

lemma Explained.mono {es : List Deed} (h : Explained ds f g) (hds : ds ⊆ es) :
    Explained es f g := by
  refine ⟨h.workDir, fun q => (h.lookup? q).imp_right (Or.imp ?_ ?_)⟩
  · exact fun ⟨d, hd, hq⟩ => ⟨d, hds hd, hq⟩
  · exact fun ⟨hf, hg, d, hd, hq⟩ => ⟨hf, hg, d, hds hd, hq⟩

lemma Explained.trans {h : Files} (hfg : Explained ds f g) (hgh : Explained ds g h) :
    Explained ds f h := by
  refine ⟨hgh.workDir.trans hfg.workDir, fun q => ?_⟩
  have hlast := hgh.lookup? q
  rw [hfg.workDir] at hlast
  rcases hfg.lookup? q with hsame | hset | ⟨hnone, hmade, hmakes⟩
  · rwa [← hsame]
  · exact .inr (.inl hset)
  · rcases hlast with hsame | hset | ⟨hnone', -⟩
    · exact .inr (.inr ⟨hnone, hsame.trans hmade, hmakes⟩)
    · exact .inr (.inl hset)
    · exact absurd (hnone'.symm.trans hmade) (by simp)

variable {d : Deed}

lemma SameOff.explained (h : SameOff (placeOf f.workDir p) f g)
    (hd : d.Sets f.workDir (placeOf f.workDir p)) : Explained [d] f g := by
  refine ⟨h.workDir, fun q => ?_⟩
  by_cases hq : q = placeOf f.workDir p
  · exact .inr (.inl ⟨d, mem_singleton_self d, hq ▸ hd⟩)
  · exact .inl (h.lookup? q hq)

lemma explained_given {e : Option FileFailure} (hsame : SameOff (placeOf f.workDir p) f g)
    (hfailed : ∀ x, e = some x → g = f) (hd : d.Sets f.workDir (placeOf f.workDir p)) :
    Explained (d.given e) f g := by
  cases e with
  | some x =>
    rw [hfailed x rfl]
    exact explained_refl _ f
  | none => exact hsame.explained hd

lemma create_failed (h : (f.create p).1 = some e) : (f.create p).2 = f := by
  rw [create_unlocked] at h ⊢
  split at h
  · rfl
  · split at h
    · rfl
    · nomatch h

lemma write_failed {bs : List UInt8} (h : (f.write p bs).1 = some e) : (f.write p bs).2 = f := by
  unfold write at h ⊢
  split at h
  · rfl
  · split at h
    · nomatch h
    · rfl
    · rfl

lemma remove_failed (h : (f.remove p).1 = some e) : (f.remove p).2 = f := by
  rw [remove_unlocked] at h ⊢
  split at h
  · rfl
  · split at h
    · rfl
    · nomatch h
    · split at h
      · nomatch h
      · rename_i hchildren
        rw [if_neg hchildren]

/-- What an action has changed is explained by what it did. -/
lemma explained_act (f : Files) (a : FileAction) :
    Explained (a.deeds (f.act a).1) f (f.act a).2 := by
  cases a with
  | makeDirectories p =>
    have hmade := f.madeAt_makeFirst (ancestry p)
    refine ⟨hmade.workDir, fun q => (hmade.lookup? q).imp_right fun ⟨hnone, hdir, hq⟩ => ?_⟩
    exact .inr ⟨hnone, hdir, .makes p, mem_singleton_self _, hq⟩
  | create p => exact explained_given (f.sameOff_create p) (fun _ => create_failed) rfl
  | write p bs => exact explained_given (f.sameOff_write p bs) (fun _ => write_failed) rfl
  | remove p => exact explained_given (f.sameOff_remove p) (fun _ => remove_failed) rfl

end Files

/-! Ways of a task. -/

namespace Work

variable {α β : Type} {t : Work α} {a : α}

/-- A way that a task can take, whatever its actions find: its deeds and what it gives in the end.
-/
def Does : Work α → List Deed → α → Prop
  | .done a, ds, b => ds = [] ∧ b = a
  | .read _ next, ds, b => ∃ r, (next r).Does ds b
  | .list _ next, ds, b => ∃ r, (next r).Does ds b
  | .act a next, ds, b => ∃ r es, (next r).Does es b ∧ ds = a.deeds r ++ es

variable {ds : List Deed}

lemma Does.of_bind {k : α → Work β} {b : β} (h : (t >>= k).Does ds b) :
    ∃ ds₁ a ds₂, t.Does ds₁ a ∧ (k a).Does ds₂ b ∧ ds = ds₁ ++ ds₂ := by
  induction t generalizing ds with
  | done a => exact ⟨[], a, ds, ⟨rfl, rfl⟩, h, rfl⟩
  | read p next ih | list p next ih =>
    obtain ⟨r, h⟩ := h
    obtain ⟨ds₁, a, ds₂, h₁, h₂, rfl⟩ := ih r h
    exact ⟨ds₁, a, ds₂, ⟨r, h₁⟩, h₂, rfl⟩
  | act a next ih =>
    obtain ⟨r, es, h, rfl⟩ := h
    obtain ⟨ds₁, a, ds₂, h₁, h₂, rfl⟩ := ih r h
    exact ⟨_, a, ds₂, ⟨r, ds₁, h₁, rfl⟩, h₂, by simp⟩

lemma Looks.does {post : α → Prop} (h : t.Looks post) (hd : t.Does ds a) : ds = [] ∧ post a := by
  induction t with
  | done b =>
    obtain ⟨rfl, rfl⟩ := hd
    exact ⟨rfl, h⟩
  | read p next ih | list p next ih =>
    obtain ⟨r, hd⟩ := hd
    exact ih r (h r) hd
  | act => cases h

/-- The first action of a task is the first of what it does, and explains what has changed. -/
lemma Does.of_step {u : Work α} {f g : Files} (h : u.Does ds a) (hs : t.step? f = some (u, g)) :
    ∃ es, t.Does (es ++ ds) a ∧ f.Explained es g := by
  cases t with
  | done a => nomatch hs
  | read p next | list p next =>
    cases hs
    exact ⟨[], ⟨_, h⟩, f.explained_refl []⟩
  | act a next =>
    cases hs
    exact ⟨_, ⟨_, ds, h, rfl⟩, f.explained_act a⟩

end Work

namespace Run

variable {α : Type} {ds : List Deed} {s : Settings} {workDir : String} {r : Except Failure Output}
  {reg : Registry} {path text : String} {className : Text} {c : Class} {ts : List (Text × Work α)}
  {f g : Files} {o : Outcome}

/-- Tasks with the ways that they take, in which each gives its outcome. -/
def Take (ts : List (Text × Work α)) (ways : List (List Deed × Text × α)) : Prop :=
  List.Forall₂ (fun t w => t.1 = w.2.1 ∧ t.2.Does w.1 w.2.2) ts ways

lemma Take.ways {γ : Type} {cs : List γ} {ways : List (List Deed × Text × α)}
    {p : γ → Text × Work α → Prop} {q : γ → List Deed × Text × α → Prop} (h : Take ts ways)
    (hcs : Forall₂ p cs ts) (hq : ∀ c t w, p c t → t.1 = w.2.1 → t.2.Does w.1 w.2.2 → q c w) :
    Forall₂ q cs ways := by
  induction hcs generalizing ways with
  | nil =>
    cases h
    exact .nil
  | cons hc _ ih =>
    obtain _ | ⟨hw, hrest⟩ := h
    exact .cons (hq _ _ _ hc hw.1 hw.2) (ih hrest)

lemma Take.of_advance {us : List (Text × Work α)} {ways : List (List Deed × Text × α)}
    (h : Take us ways) (ha : Advance ts f us g) :
    ∃ ways' es, Take ts ways' ∧ ways'.map Prod.snd = ways.map Prod.snd ∧
      es ++ ways.flatMap Prod.fst ⊆ ways'.flatMap Prod.fst ∧ f.Explained es g := by
  induction ha generalizing ways with
  | first hs =>
    obtain _ | ⟨⟨hname, hdoes⟩, hrest⟩ := h
    rename_i w ways
    obtain ⟨es, hdoes', hexplained⟩ := hdoes.of_step hs
    refine ⟨(es ++ w.1, w.2) :: ways, es, .cons ⟨hname, hdoes'⟩ hrest, rfl, ?_, hexplained⟩
    simp
  | later ha ih =>
    obtain _ | ⟨hw, hrest⟩ := h
    rename_i w ways
    obtain ⟨ways', es, htake, hsnd, hsub, hexplained⟩ := ih hrest
    refine ⟨w :: ways', es, .cons hw htake, by simp [hsnd], ?_, hexplained⟩
    obtain ⟨hes, hways⟩ := append_subset.mp hsub
    simp only [flatMap_cons, append_subset]
    exact ⟨Subset.trans hes (subset_append_right ..), subset_append_left ..,
      Subset.trans hways (subset_append_right ..)⟩

/-- What a run has changed was done by its tasks on their ways. -/
lemma Interleaved.explained {os : List (Text × α)} (h : Interleaved ts f os g) :
    ∃ ways, Take ts ways ∧ ways.map Prod.snd = os ∧ f.Explained (ways.flatMap Prod.fst) g := by
  induction h with
  | done os f =>
    have hsnd : (os.map fun o => (([] : List Deed), o)).map Prod.snd = os := by
      rw [map_map]
      exact map_id os
    refine ⟨os.map fun o => ([], o), ?_, hsnd, f.explained_refl _⟩
    refine forall₂_map_left_iff.mpr (forall₂_map_right_iff.mpr ?_)
    exact forall₂_same.mpr fun o _ => ⟨rfl, rfl, rfl⟩
  | step ha _ ih =>
    obtain ⟨ways, htake, hos, hrest⟩ := ih
    obtain ⟨ways', es, htake', hsnd, hsub, hfirst⟩ := htake.of_advance ha
    obtain ⟨hes, hways⟩ := append_subset.mp hsub
    exact ⟨ways', htake', hsnd.trans hos, (hfirst.mono hes).trans (hrest.mono hways)⟩

/-! Ways of the task of a class. -/

attribute [local simp] FileAction.deeds Deed.given Deed.saving

lemma does_save
    (h : (save className path text).Does ds r) : ds ⊆ Deed.saving path ∧
      ((∃ size, r = .ok ⟨path, size⟩) ∨ ∃ phase m cause, (phase = "open" ∨ phase = "write") ∧
        r = .error (.generation className phase path m (some (.plain cause)))) := by
  obtain ⟨made, ds, h, rfl⟩ := h
  cases made with
  | some e =>
    obtain ⟨rfl, rfl⟩ := h
    exact ⟨by simp, .inr ⟨"open", _, _, .inl rfl, rfl⟩⟩
  | none =>
    obtain ⟨created, ds, h, rfl⟩ := h
    cases created with
    | some e =>
      obtain ⟨rfl, rfl⟩ := h
      exact ⟨by simp, .inr ⟨"open", _, _, .inl rfl, rfl⟩⟩
    | none =>
      obtain ⟨written, ds, h, rfl⟩ := h
      cases written with
      | some e =>
        obtain ⟨rfl, rfl⟩ := h
        exact ⟨by simp, .inr ⟨"write", _, _, .inr rfl, rfl⟩⟩
      | none =>
        obtain ⟨rfl, rfl⟩ := h
        exact ⟨by simp, .inl ⟨_, rfl⟩⟩

lemma does_saveUnresolved (h : (saveUnresolved className path text).Does ds r) :
    ds ⊆ Deed.saving (path ++ ".error") ∧
      ∃ m cause, r = .error (.generation className "format" path m (some (.plain cause))) := by
  obtain ⟨made, ds, ⟨created, es, h, rfl⟩, rfl⟩ := h
  cases created with
  | some e =>
    obtain ⟨rfl, rfl⟩ := h
    exact ⟨by simp, _, _, rfl⟩
  | none =>
    obtain ⟨written, ds, ⟨rfl, rfl⟩, rfl⟩ := h
    refine ⟨?_, _, _, rfl⟩
    cases written <;> simp

/-- How it can end to write a file: the deeds and the result. -/
inductive Saving (s : Settings) (className : Text) (f : SourceFile) (path : String) :
    List Deed → Except Failure Output → Prop
  | unrendered (h : f.render = none) :
      Saving s className f path []
        (.error (.generation className "render" path "render artifact" openCause))
  | unresolved {text : String} {others : List Imports.Sibling} {ds : List Deed} {m cause : Text}
      (himports : s.enabled .imports = true) (hrender : f.render = some text)
      (h : Imports.resolve others text = none) (hds : ds ⊆ Deed.saving (path ++ ".error")) :
      Saving s className f path ds
        (.error (.generation className "format" path m (some (.plain cause))))
  | unsaved {ds : List Deed} {phase m cause : Text} (hphase : phase = "open" ∨ phase = "write")
      (hds : ds ⊆ Deed.saving path) : Saving s className f path ds
        (.error (.generation className phase path m (some (.plain cause))))
  | saved {ds : List Deed} {size : Nat} (hds : ds ⊆ Deed.saving path) :
      Saving s className f path ds (.ok ⟨path, size⟩)

lemma does_writeFile {f : SourceFile} {name : String}
    (h : (writeFile s className f name).Does ds r) :
    Saving s className f (join [s.targetDir, name]) ds r := by
  have hsave {text : String} {ds : List Deed}
      (h : (save className (join [s.targetDir, name]) text).Does ds r) :
      Saving s className f (join [s.targetDir, name]) ds r := by
    obtain ⟨hds, ⟨size, rfl⟩ | ⟨phase, m, cause, hphase, rfl⟩⟩ := does_save h
    · exact .saved hds
    · exact .unsaved (hphase.imp (congrArg _) (congrArg _)) hds
  unfold writeFile at h
  cases hrender : f.render with
  | none =>
    rw [hrender] at h
    obtain ⟨rfl, rfl⟩ := h
    exact .unrendered hrender
  | some text =>
    simp only [hrender] at h
    split at h
    · rename_i himports
      obtain ⟨ds₁, resolved, ds₂, h₁, h₂, rfl⟩ := Work.Does.of_bind h
      obtain ⟨rfl, others, -, rfl⟩ := (looks_resolveImports _ _).does h₁
      cases hresolved : Imports.resolve others text with
      | none =>
        rw [hresolved] at h₂
        obtain ⟨hds, m, cause, rfl⟩ := does_saveUnresolved h₂
        exact .unresolved himports hrender hresolved hds
      | some final =>
        rw [hresolved] at h₂
        exact hsave h₂
    · exact hsave h

lemma does_removeGenerated {path : String} {r : Option FileFailure}
    (h : (removeGenerated s path).Does ds r) : ds ⊆ [.removes path, .removes (parent path)] := by
  obtain ⟨found, h⟩ := h
  cases found with
  | error e =>
    rw [h.1]
    exact nil_subset _
  | ok bs =>
    simp only at h
    split at h
    · obtain ⟨removed, ds, h, rfl⟩ := h
      cases removed with
      | some e =>
        rw [h.1]
        exact nil_subset _
      | none =>
        obtain ⟨listed, h⟩ := h
        rcases listed with e | ⟨_ | ⟨n, ns⟩⟩
        · rw [h.1]
          simp
        · obtain ⟨removed, ds, ⟨rfl, -⟩, rfl⟩ := h
          cases removed <;> simp
        · rw [h.1]
          simp
    · rw [h.1]
      exact nil_subset _

/-- How the task of a class can end: the deeds and the outcome. -/
inductive Way (s : Settings) (workDir : String) (reg : Registry) (c : Class) :
    List Deed → Outcome → Prop
  | unstarted : Way s workDir reg c [] (cancelled c)
  | refused {e : Failure} (h : c.check s reg = .failed e) : Way s workDir reg c []
      { failures := [.generation c.name "check" (Naming.classFile c.name) "artifact not written"
          (some e)] }
  | noArtifact {f : SourceFile} {ds : List Deed} {e : Failure} (hpassed : c.check s reg = .passed)
      (hfile : c.file s workDir reg = .file f)
      (h : Saving s c.name f (artifactPath s c.name) ds (.error e)) :
      Way s workDir reg c ds { failures := [e] }
  | noProgram {ds : List Deed} {size : Nat} {e : Failure} (hpassed : c.check s reg = .passed)
      (hds : ds ⊆ Deed.saving (artifactPath s c.name)) (henabled : s.enabled .entryPoint = true)
      (h : c.entryPoint s (s.goPackage workDir) = .error e) :
      Way s workDir reg c ds { written := [⟨artifactPath s c.name, size⟩], failures := [e] }
  | unsavedProgram {f : SourceFile} {ds es : List Deed} {size : Nat} {e : Failure}
      (hpassed : c.check s reg = .passed) (hds : ds ⊆ Deed.saving (artifactPath s c.name))
      (henabled : s.enabled .entryPoint = true)
      (hfile : c.entryPoint s (s.goPackage workDir) = .ok f)
      (h : Saving s c.name f (programPath s c.name) es (.error e)) :
      Way s workDir reg c (ds ++ es)
        { written := [⟨artifactPath s c.name, size⟩], failures := [e] }
  | withProgram {ds es : List Deed} {size size' : Nat} (hpassed : c.check s reg = .passed)
      (hds : ds ⊆ Deed.saving (artifactPath s c.name)) (henabled : s.enabled .entryPoint = true)
      (hes : es ⊆ Deed.saving (programPath s c.name)) :
      Way s workDir reg c (ds ++ es)
        { written := [⟨artifactPath s c.name, size⟩, ⟨programPath s c.name, size'⟩] }
  | withoutProgram {ds es : List Deed} {size : Nat} {e : Option FileFailure}
      (hpassed : c.check s reg = .passed) (hds : ds ⊆ Deed.saving (artifactPath s c.name))
      (hdisabled : s.enabled .entryPoint = false)
      (hes : es ⊆ [.removes (programPath s c.name),
        .removes (Path.parent (programPath s c.name))]) :
      Way s workDir reg c (ds ++ es)
        { written := [⟨artifactPath s c.name, size⟩],
          failures := e.toList.map fun e => .generation c.name "cleanup"
            (Naming.entryPointFile c.name) "remove stale entry point" (fileCause e) }

lemma does_programTask {ds es : List Deed} {size : Nat} (hpassed : c.check s reg = .passed)
    (hds : ds ⊆ Deed.saving (artifactPath s c.name))
    (h : (programTask s workDir c [⟨artifactPath s c.name, size⟩]).Does es o) :
    Way s workDir reg c (ds ++ es) o := by
  unfold programTask at h
  split at h
  · rename_i henabled
    split at h
    · rename_i e he
      obtain ⟨rfl, rfl⟩ := h
      rw [append_nil]
      exact .noProgram hpassed hds henabled he
    · rename_i f hfile
      obtain ⟨es, r, ds', hwrite, h, rfl⟩ := Work.Does.of_bind h
      cases r with
      | ok output =>
        obtain ⟨rfl, rfl⟩ := h
        obtain _ | _ | _ | hes := does_writeFile hwrite
        rw [append_nil]
        exact .withProgram hpassed hds henabled hes
      | error e =>
        obtain ⟨rfl, rfl⟩ := h
        rw [append_nil]
        exact .unsavedProgram hpassed hds henabled hfile (does_writeFile hwrite)
  · rename_i hdisabled
    obtain ⟨es, r, ds', hremove, h, rfl⟩ := Work.Does.of_bind h
    have hes := does_removeGenerated hremove
    cases r with
    | none =>
      obtain ⟨rfl, rfl⟩ := h
      rw [append_nil]
      exact .withoutProgram (e := none) hpassed hds (eq_false_of_ne_true hdisabled) hes
    | some e =>
      obtain ⟨rfl, rfl⟩ := h
      rw [append_nil]
      exact .withoutProgram (e := some e) hpassed hds (eq_false_of_ne_true hdisabled) hes

lemma check_of_file_failed {e : Failure} (h : c.file s workDir reg = .failed e) :
    ∃ cause, c.check s reg = .failed cause ∧ e = .generation c.name "check"
      (Naming.classFile c.name) "artifact not written" (some cause) := by
  unfold Class.file at h
  split at h
  · nomatch h
  · rename_i cause hcheck
    cases h
    exact ⟨cause, hcheck, rfl⟩
  · nomatch h

lemma does_classTask {t : Work Outcome} (ht : classTask s workDir reg c = some t)
    (h : t.Does ds o) : Way s workDir reg c ds o := by
  unfold classTask at ht
  split at ht
  · nomatch ht
  · rename_i e hfile
    cases ht
    obtain ⟨cause, hcheck, rfl⟩ := check_of_file_failed hfile
    obtain ⟨rfl, rfl⟩ := h
    exact .refused hcheck
  · rename_i f hfile
    cases ht
    obtain ⟨ds₁, r, ds₂, hwrite, h, rfl⟩ := Work.Does.of_bind h
    cases r with
    | error e =>
      obtain ⟨rfl, rfl⟩ := h
      rw [append_nil]
      exact .noArtifact (check_of_file hfile) hfile (does_writeFile hwrite)
    | ok output =>
      obtain _ | _ | _ | hds := does_writeFile hwrite
      exact does_programTask (check_of_file hfile) hds h

lemma forall₂_classTasks {limit : Option Nat} {cs : List Class} {ts : List (Text × Work Outcome)}
    {resolver : Resolver} (h : classTasks s workDir reg limit cs resolver = some ts) :
    Forall₂ (fun c t => t.1 = c.name ∧ (t.2 = .done (cancelled c) ∧ limit ≠ none ∨
      classTask s workDir reg c resolver = some t.2)) cs ts := by
  fun_induction classTasks s workDir reg limit cs resolver generalizing ts with
  | case1 limit resolver =>
    cases h
    exact .nil
  | case2 c cs resolver ih =>
    obtain ⟨rest, hrest, hts⟩ := Option.bind_eq_some_iff.mp h
    cases hts
    exact .cons ⟨rfl, .inl ⟨rfl, nofun⟩⟩ (ih hrest)
  | case3 limit c cs resolver hlimit ih =>
    obtain ⟨t, ht, hts⟩ := Option.bind_eq_some_iff.mp h
    obtain ⟨rest, hrest, hts⟩ := Option.bind_eq_some_iff.mp hts
    cases hts
    refine .cons ⟨rfl, .inr ht⟩ ((ih hrest).imp fun c t hc => hc.imp_right ?_)
    exact Or.imp_left (And.imp_right (mt fun hnone => by rw [hnone]; rfl))

end Run

namespace Generator

open Run

/-- A run of a generator: the tasks of its classes are done, in whatever order their actions
come. -/
def Runs (g : Generator) (workDir : String) (limit : Option Nat) (f : Files)
    (os : List (Text × Outcome)) (f' : Files) (resolver : Resolver := resolveImports) : Prop :=
  ∃ ts, classTasks g.settings workDir g.registry limit g.registry.generated resolver = some ts ∧
    Interleaved ts f os f'

variable {g : Generator} {workDir : String} {limit : Option Nat} {f f' : Files}
  {os : List (Text × Outcome)}

/-- What each class of a run does and gives, and that this is all that the run has changed. -/
lemma Runs.endings (h : g.Runs workDir limit f os f') :
    ∃ ways : List (List Deed × Text × Outcome), ways.map Prod.snd = os ∧
      Forall₂ (fun c w => w.2.1 = c.name ∧
        Way g.settings workDir g.registry c w.1 w.2.2) g.registry.generated ways ∧
      f.Explained (ways.flatMap Prod.fst) f' := by
  obtain ⟨ts, hts, hrun⟩ := h
  obtain ⟨ways, htake, hos, hexplained⟩ := hrun.explained
  refine ⟨ways, hos, htake.ways (forall₂_classTasks hts) ?_, hexplained⟩
  rintro c ⟨name, t⟩ w ⟨rfl, ht⟩ hname hdoes
  refine ⟨hname.symm, ?_⟩
  rcases ht with ⟨rfl, -⟩ | ht
  · rw [hdoes.1, hdoes.2]
    exact .unstarted
  · exact does_classTask ht hdoes

lemma Runs.ways (h : g.Runs workDir limit f os f') :
    Forall₂ (fun c o => o.1 = c.name ∧ ∃ ds, Way g.settings workDir g.registry c ds o.2)
      g.registry.generated os := by
  obtain ⟨ways, rfl, hways, -⟩ := h.endings
  exact forall₂_map_right_iff.mpr (hways.imp fun _ w hw => ⟨hw.1, w.1, hw.2⟩)

lemma Runs.names {resolver : Resolver} (h : g.Runs workDir limit f os f' resolver) :
    Forall₂ (fun c o => o.1 = c.name) g.registry.generated os := by
  obtain ⟨ts, hts, hrun⟩ := h
  obtain ⟨ways, htake, rfl, -⟩ := hrun.explained
  refine forall₂_map_right_iff.mpr (htake.ways (forall₂_classTasks hts) ?_)
  rintro c ⟨name, t⟩ w ⟨rfl, -⟩ hname -
  exact hname.symm

end Generator

end ReactiveModel
