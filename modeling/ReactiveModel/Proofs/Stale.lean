import ReactiveModel.Proofs.Conduct
import ReactiveModel.Proofs.Frame

/-! Programs of earlier runs. Where programs are no longer wanted, a class that succeeds has removed
its program if that starts with the header, and any other file in its place is still there. -/

namespace ReactiveModel

open List Files Naming ReactiveModel.Path

namespace Files

variable {f : Files} {es ns ms ws : List String} {e p : String}

lemma Opens.of_prefix (h : f.Opens es ns) (hms : ms <+: ns) : f.Opens es ms :=
  fun ks k hk => h ks k (hk.trans hms)

lemma Opens.of_append (h : f.Opens [] (es ++ ns)) : f.Opens es ns := by
  intro ms m hms
  refine h (es ++ ms) m ?_
  rw [append_assoc]
  exact (prefix_append_right_inj es).mpr hms

lemma Opens.isDirectory (h : f.Opens [] (es ++ [e])) (hms : ms <+: es) :
    f.lookup? (placeAt ms) = some .directory := by
  obtain ⟨rest, rfl⟩ := hms
  cases rest with
  | nil => exact h ms e (by simp)
  | cons n rest => exact h ms n ⟨rest ++ [e], by simp⟩

/-- The directories in front of a path are those around the work directory. -/
lemma Opens.of_around (haround : ∀ k, f.lookup? (placeAt (ws.take k)) = some .directory)
    (h : f.Opens (base ws p) ns) : f.Opens [] (base ws p ++ ns) := by
  intro ms m hms
  by_cases hlong : (base ws p).length ≤ ms.length
  · obtain ⟨rest, rfl⟩ : base ws p <+: ms :=
      prefix_of_prefix_length_le (prefix_append _ ns)
        ((prefix_append ms [m]).trans hms) hlong
    refine h rest m ?_
    rw [append_assoc] at hms
    exact (prefix_append_right_inj _).mp hms
  · obtain ⟨k, hk⟩ := exists_base_eq_take ws p
    have hshort : ms <+: ws := by
      refine IsPrefix.trans ?_ ( take_prefix k ws)
      rw [← hk]
      exact prefix_of_prefix_length_le ((prefix_append ms [m]).trans hms)
        (prefix_append _ ns) (Nat.le_of_not_le hlong)
    rw [prefix_iff_eq_take.mp hshort]
    exact haround _

lemma remove_eq_or_isNone (f : Files) (p q : String) :
    (f.remove p).2.lookup? q = f.lookup? q ∨ (f.remove p).2.lookup? q = none := by
  have hunset (place : String) :
      (f.unset place).lookup? q = f.lookup? q ∨ (f.unset place).lookup? q = none := by
    by_cases hq : q = place
    · by_cases hroot : q = "/"
      · rw [hroot]
        exact .inl rfl
      · rw [← hq]
        exact .inr (lookup?_unset_self hroot)
    · exact .inl (lookup?_unset_of_ne hq)
  rw [remove_unlocked]
  split
  · exact .inl rfl
  · split
    · exact .inl rfl
    · exact hunset _
    · split
      · exact hunset _
      · exact .inl rfl

lemma isNone_remove {q : String} (h : f.lookup? q = none) : (f.remove p).2.lookup? q = none :=
  (f.remove_eq_or_isNone p q).elim (·.trans h) id

lemma childNames_ne_nil (hplain : Plains (es ++ [e])) (h : f.lookup? (placeAt (es ++ [e])) ≠ none) :
    f.childNames (placeAt es) ≠ [] := fun hempty =>
  h (childNames_eq_nil_iff.mp hempty _ (placeAt_concat_ne_root hplain) (parent_placeAt hplain))

/-- Only one entry may be in a directory. -/
def HoldsOnly (f : Files) (dir q : String) : Prop :=
  ∀ k, Path.parent k = dir → f.lookup? k ≠ none → k = q

lemma makeDirectories_of_directory (hf : f.WorksAt ws) (hns : Plains ns) (hpass : Passable p ns)
    (hopens : f.Opens (base ws p) ns)
    (hdir : f.lookup? (placeAt (base ws p ++ ns)) = some .directory) :
    f.makeDirectories (onward p ns) = (none, f) := by
  obtain ⟨ps, hps⟩ : ∃ ps, ancestry (onward p ns) = onward p ns :: ps := by
    by_cases hne : List.replicate (backs p) ".." ++ ns = []
    · rw [onward, hne]
      refine ⟨[], ?_⟩
      cases isRooted p <;> decide
    · rw [onward, ancestry_ofElements (normal_onward p hns) hne, lineage]
      cases hlength : (List.replicate (backs p) ".." ++ ns).length with
      | zero => exact absurd (length_eq_zero_iff.mp hlength) hne
      | succ n =>
        rw [range_succ_eq_map, map_cons, Nat.sub_zero, ← hlength, take_length]
        exact ⟨_, rfl⟩
  rw [makeDirectories, hps, makeFirst, (find_eq_ok_iff hf hns).mpr ⟨hpass, hopens, hdir⟩]

end Files

namespace Run

section

variable {s : Settings} {ws ns : List String} {f g : Files} {bs : List UInt8}

lemma Leads.of_append {ms : List String} (h : Leads s (ns ++ ms))
    (hplain : Plains (ns ++ ms)) : Leads s ns := by
  have hplain' := (plain_names s.targetDir).append hplain
  rw [Leads, ← append_assoc] at h
  rw [← append_assoc] at hplain'
  exact ⟨pathFault_of_append hplain' h.fault, fun n hn => h.short n (mem_append_left _ hn)⟩

lemma locate_below (hf : f.WorksAt ws) (hns : Plains ns) (hleads : Leads s ns)
    (hopens : f.Opens [] (target s ws ++ ns)) :
    f.locate (below s.targetDir ns) = .ok (spot s ws ns) := by
  rw [target, append_assoc] at hopens
  rw [below_eq_onward, spot_eq]
  exact (locate_eq_ok_iff hf ((plain_names _).append hns)).mpr
    ⟨rfl, hleads, hopens.of_append⟩

lemma stands_of_create (hf : f.WorksAt ws)
    (haround : ∀ k, f.lookup? (placeAt (ws.take k)) = some .directory)
    (hns : Plains ns) (h : f.create (below s.targetDir ns) = (none, g)) :
    Leads s ns ∧ g.Stands (placeAt ws) (target s ws ++ ns) [] := by
  have hg : (f.create (below s.targetDir ns)).2 = g := congrArg Prod.snd h
  have hplain := plain_target (s := s) hf.plain hns
  rw [create_unlocked] at h
  split at h
  · cases h
  · rename_i place hlocate
    rw [below_eq_onward] at hlocate
    obtain ⟨rfl, hleads, hopens⟩ := (locate_eq_ok_iff hf ((plain_names _).append hns)).mp hlocate
    have hway := Opens.of_around haround hopens
    rw [← append_assoc] at hway h
    split at h
    · cases h
    · rename_i hentry
      cases h
      refine ⟨hleads, hf.workDir, hplain, lookup?_set_self (hentry ·) _, fun ms m hms => ?_⟩
      rw [← hg]
      exact isDirectory_create (hway ms m hms)

variable (hstands : f.Stands (placeAt ws) (target s ws ++ ns) bs)
  (hws : Plains ws) (hns : Plains ns) (hleads : Leads s ns)

include hstands hws hns hleads

lemma locate_of_stands : f.locate (below s.targetDir ns) = .ok (spot s ws ns) :=
  locate_below ⟨hws, hstands.workDir⟩ hns hleads hstands.opens

lemma read_of_stands : f.read (below s.targetDir ns) = .ok bs := by
  have hfile : f.lookup? (spot s ws ns) = some (.file bs) := hstands.file
  simp only [Files.read, Files.find, locate_of_stands hstands hws hns hleads, bind, Except.bind,
    hfile]

lemma remove_of_stands : f.remove (below s.targetDir ns) = (none, f.unset (spot s ws ns)) := by
  have hfile : f.lookup? (spot s ws ns) = some (.file bs) := hstands.file
  simp only [remove_unlocked, locate_of_stands hstands hws hns hleads, hfile]

lemma stands_of_write {cs : List UInt8} {r : Option FileFailure}
    (h : f.write (below s.targetDir ns) cs = (r, g)) :
    g.Stands (placeAt ws) (target s ws ++ ns) (cs ++ bs.drop cs.length) := by
  have hfile : f.lookup? (spot s ws ns) = some (.file bs) := hstands.file
  have hwrite : f.write (below s.targetDir ns) cs =
      (none, f.set (spot s ws ns) (.file (cs ++ bs.drop cs.length))) := by
    simp only [write, locate_of_stands hstands hws hns hleads, hfile]
  have hg : (f.write (below s.targetDir ns) cs).2 = g := congrArg Prod.snd h
  cases hwrite.symm.trans h
  refine ⟨hstands.workDir, hstands.plain, lookup?_set_self ?_ _, fun ms m hms => ?_⟩
  · simp [hfile]
  · rw [← hg]
    exact isDirectory_write (hstands.opens ms m hms)

end

/-! Where the actions of a class lead. -/

/-- The names of the directory of a program, from the root on. -/
def programDirNames (s : Settings) (ws : List String) (a : Text) : List String :=
  target s ws ++ Naming.programDir a

/-- The names of the program of a class, from the root on. -/
def programNames (s : Settings) (ws : List String) (a : Text) : List String :=
  target s ws ++ (Naming.programDir a ++ ["main.go"])

lemma programNames_eq (s : Settings) (ws : List String) (a : Text) :
    programNames s ws a = programDirNames s ws a ++ ["main.go"] :=
  (append_assoc ..).symm

section

variable {s : Settings} {ws : List String} {a b : Text} {p : String}

lemma plain_program (ha : isName a) : Plains (programDir a ++ ["main.go"]) :=
  plain_of_mem_filePlaces ha _ (program_mem_filePlaces a)

section

variable (hws : Plains ws) (ha : isName a)

include hws ha

lemma plain_programNames : Plains (programNames s ws a) :=
  plain_target hws (plain_program ha)

lemma parent_program :
    parent (placeAt (programNames s ws a)) = placeAt (programDirNames s ws a) := by
  have hplain := plain_programNames (s := s) hws ha
  rw [programNames_eq] at hplain ⊢
  exact parent_placeAt hplain

lemma placeOf_program : placeOf (placeAt ws) (programPath s a) = placeAt (programNames s ws a) := by
  rw [programPath_eq ha, placeOf_below hws (plain_program ha), programNames, spot]

lemma placeOf_ne {ns : List String} (hns : Plains ns) (hne : ns ≠ programDir a ++ ["main.go"]) :
    placeOf (placeAt ws) (below s.targetDir ns) ≠ placeAt (programNames s ws a) := by
  rw [placeOf_below hws hns]
  exact fun heq => hne (placeAt_target_inj hws hns (plain_program ha) heq)

lemma programPath_eq_of_place (hb : isName b)
    (h : placeOf (placeAt ws) (programPath s b) = placeAt (programNames s ws a)) :
    programPath s b = programPath s a := by
  rw [placeOf_program hws hb] at h
  rw [programPath_eq ha, programPath_eq hb,
    placeAt_target_inj hws (plain_program hb) (plain_program ha) h]

end

/-- An artifact stands in the target directory, and not where directories of programs do. -/
lemma exists_artifact_name (hb : isName b)
    (hp : p = artifactPath s b ∨ p = artifactPath s b ++ ".error") :
    ∃ n, Plain n ∧ [n] ∈ filePlaces b ∧ p = below s.targetDir [n] := by
  obtain ⟨hfile, haside, -⟩ := forall_mem_filePlaces.mp (plain_of_mem_filePlaces hb)
  rcases hp with rfl | rfl
  · exact ⟨_, hfile _ (mem_singleton_self _), by simp [filePlaces], artifactPath_eq hb⟩
  · exact ⟨_, haside _ (mem_singleton_self _), by simp [filePlaces],
      artifactPath_append hb ".error" (by decide)⟩

lemma placeOf_artifact_ne (hws : Plains ws) (ha : isName a) (hb : isName b)
    (hp : p = artifactPath s b ∨ p = artifactPath s b ++ ".error") :
    placeOf (placeAt ws) p ≠ placeAt (programNames s ws a) := by
  obtain ⟨n, hn, -, rfl⟩ := exists_artifact_name hb hp
  exact placeOf_ne hws ha (forall_mem_singleton.mpr hn) (by simp [programDir])

lemma placeOf_aside_ne (hws : Plains ws) (ha : isName a) (hb : isName b) :
    placeOf (placeAt ws) (programPath s b ++ ".error") ≠ placeAt (programNames s ws a) := by
  rw [programPath_error hb]
  refine placeOf_ne hws ha (plain_of_mem_filePlaces hb _ (by simp [filePlaces])) fun hnames => ?_
  simpa using append_inj_right' hnames rfl

lemma placeOf_programDir_ne (hws : Plains ws) (ha : isName a) (hb : isName b) :
    placeOf (placeAt ws) (parent (programPath s b)) ≠ placeAt (programNames s ws a) := by
  rw [parent_programPath hb]
  refine placeOf_ne hws ha (plain_programDir hb) fun hnames => ?_
  exact not_prefix_programDir a hb _ (program_mem_filePlaces a) (hnames ▸ prefix_rfl)

end

/-! Actions at other places. -/

section

variable {dir : String} {es : List String} {bs : List UInt8} {e : FileEvent} {f g : Files}

lemma stands_of_effect (he : e.Effect f g) (hf : f.Stands dir es bs)
    (hne : ∀ p, e.Changes p → placeOf dir p ≠ placeAt es) : g.Stands dir es bs := by
  cases e with
  | read p r | list p r =>
    rw [he.2]
    exact hf
  | act a r =>
    cases a with
    | makeDirectories p => exact (lasting_stands.make p f r g hf he).2
    | create p => exact ((access_of_ne (hne p rfl)).create f r g hf he).2
    | write p cs => exact ((access_of_ne (hne p rfl)).write cs f r g hf he).2
    | remove p => exact ((access_of_ne (hne p rfl)).remove f r g hf he).2

end

/-! A run that writes programs. -/

section

variable {s : Settings} {ws : List String} {a b : Text} {α : Type} {good : List UInt8 → Prop}
  {e : FileEvent} {u : Work α} {f g : Files}

lemma Conduct.keeps_directories (h : Conduct s b good e u) (hon : s.enabled .entryPoint)
    (he : e.Effect f g) : g.workDir = f.workDir ∧
      ∀ q, f.lookup? q = some .directory → g.lookup? q = some .directory := by
  cases h with
  | read | list =>
    rw [he.2]
    exact ⟨rfl, fun _ => id⟩
  | makeTarget | makeDirectory =>
    obtain rfl := congrArg Prod.snd he
    exact ⟨(f.extends_makeDirectories _).workDir,
      fun q => (f.extends_makeDirectories _).lookup? q _⟩
  | createArtifact | createAside | create =>
    obtain rfl := congrArg Prod.snd he
    exact ⟨(f.sameOff_create _).workDir, fun q => isDirectory_create⟩
  | writeArtifact | writeAside | write =>
    obtain rfl := congrArg Prod.snd he
    exact ⟨(f.sameOff_write _ _).workDir, fun q => isDirectory_write⟩
  | remove hoff | close hoff => exact absurd (hon.symm.trans hoff) (by decide)

/-- A program is made and then filled where programs are wanted, removed where they are not, and not
changed otherwise. -/
lemma Conduct.program_cases (h : Conduct s b good e u) (hws : Plains ws)
    (ha : isName a) (hb : isName b) :
    programPath s b = programPath s a ∧
      (s.enabled .entryPoint = true ∧
        ((∃ r, e = .create (programPath s a) r ∧ (r = none → u.Fills (programPath s a) good)) ∨
          ∃ bs r, e = .write (programPath s a) bs r ∧ good bs) ∨
      s.enabled .entryPoint = false ∧
        ∃ r, e = .remove (programPath s a) r ∧
          (r = none → u.Closes (parent (programPath s a)))) ∨
    ∀ p, e.Changes p → placeOf (placeAt ws) p ≠ placeAt (programNames s ws a) := by
  have hother (hne : programPath s b ≠ programPath s a) (p : String) (hp : programPath s b = p) :
      placeOf (placeAt ws) p ≠ placeAt (programNames s ws a) :=
    hp ▸ mt (programPath_eq_of_place hws ha hb) hne
  cases h with
  | read | list | makeTarget | makeDirectory => exact .inr fun p hp => hp.elim
  | createArtifact hp | writeArtifact hp =>
    refine .inr ?_
    rintro _ rfl
    exact placeOf_artifact_ne hws ha hb hp
  | createAside | writeAside =>
    refine .inr ?_
    rintro _ rfl
    exact placeOf_aside_ne hws ha hb
  | create hon hu =>
    by_cases hsame : programPath s b = programPath s a
    · exact .inl ⟨hsame, .inl ⟨hon, .inl ⟨_, by rw [hsame], hsame ▸ hu⟩⟩⟩
    · exact .inr (hother hsame)
  | write hon hbs =>
    by_cases hsame : programPath s b = programPath s a
    · exact .inl ⟨hsame, .inl ⟨hon, .inr ⟨_, _, by rw [hsame], hbs⟩⟩⟩
    · exact .inr (hother hsame)
  | remove hoff hu =>
    by_cases hsame : programPath s b = programPath s a
    · exact .inl ⟨hsame, .inr ⟨hoff, _, by rw [hsame], hsame ▸ hu⟩⟩
    · exact .inr (hother hsame)
  | close =>
    refine .inr ?_
    rintro _ rfl
    exact placeOf_programDir_ne hws ha hb

end

end Run

namespace Generator

open Run

/-- What may stand in the place of a program after a run: the program of a class that has this
place, and after it the end of a longer one if several classes have the place. -/
def Programs (g : Generator) (workDir path : String) (bs : List UInt8) : Prop :=
  ∃ c ∈ g.registry.generated, programPath g.settings c.name = path ∧
    ∃ cs, IsProgram g.settings workDir c cs ∧ cs <+: bs

/-- The program of a class stands and is filled, or some task is about to fill it. -/
def Filled (g : Generator) (workDir : String) (ws : List String) (a : Text)
    (ts : List (Text × Work Outcome)) (f : Files) : Prop :=
  Leads g.settings (Naming.programDir a ++ ["main.go"]) ∧
    ∃ bs, f.Stands (Files.placeAt ws) (programNames g.settings ws a) bs ∧
      (g.Programs workDir (programPath g.settings a) bs ∨
        ∃ t ∈ ts, t.2.Fills (programPath g.settings a)
          (g.Programs workDir (programPath g.settings a)))

/-- While a run writes programs: the task of a class has not made its program yet, or it stands and
is filled soon. -/
structure Filling (g : Generator) (workDir : String) (ws : List String) (a : Text)
    (ts : List (Text × Work Outcome)) (f : Files) : Prop where
  works : f.WorksAt ws
  around : ∀ k, f.lookup? (Files.placeAt (ws.take k)) = some .directory
  tasks : ∀ t ∈ ts, g.Tasked workDir t.2
  state : (∃ t, (a, t) ∈ ts ∧ t.Unless (· = .create (programPath g.settings a) none)
      fun o => programPath g.settings a ∉ o.written.map Output.path) ∨ g.Filled workDir ws a ts f

section

variable {g : Generator} {workDir : String} {limit : Option Nat} {ws : List String} {a : Text}
  {ts us : List (Text × Work Outcome)} {f f' : Files} {os : List (Text × Outcome)} {o : Outcome}

lemma Filling.advance (h : g.Filling workDir ws a ts f) (hon : g.settings.enabled .entryPoint)
    (ha : isName a) (hadvance : Advance ts f us f') : g.Filling workDir ws a us f' := by
  obtain ⟨name, t, u, e, ht, hu, hnext, heffect, hts, hus⟩ := hadvance.exists_next
  obtain ⟨hrest, c, hc, hname, hconduct⟩ := (h.tasks _ ht).next hnext
  obtain ⟨hworkDir, hdirs⟩ := hconduct.keeps_directories hon heffect
  -- a program that was made is filled by the task that has made it
  have hmade (he : e = .create (programPath g.settings a) none) : g.Filled workDir ws a us f' := by
    subst he
    have hcreate : f.create (programPath g.settings a) = (none, f') := heffect
    rw [programPath_eq ha] at hcreate
    obtain ⟨hleads, hstands⟩ := stands_of_create h.works h.around (plain_program ha) hcreate
    refine ⟨hleads, [], hstands, .inr ⟨_, hu, ?_⟩⟩
    rcases hconduct.program_cases h.works.plain ha hname with
      ⟨hsame, ⟨-, ⟨r, hr, hfills⟩ | ⟨bs, r, hr, -⟩⟩ | ⟨hoff, -⟩⟩ | hne
    · cases hr
      exact (hfills rfl).mono fun bs hbs => ⟨c, hc, hsame, bs, hbs, prefix_rfl⟩
    · cases hr
    · exact absurd (hon.symm.trans hoff) (by decide)
    · exact absurd (placeOf_program h.works.plain ha) (hne _ rfl)
  have hpending (hne : ∀ bs r, e ≠ .write (programPath g.settings a) bs r)
      (hfills : ∃ t ∈ ts, t.2.Fills (programPath g.settings a)
        (g.Programs workDir (programPath g.settings a))) :
      ∃ t ∈ us, t.2.Fills (programPath g.settings a)
        (g.Programs workDir (programPath g.settings a)) := by
    obtain ⟨x, hx, hfills⟩ := hfills
    rcases hts x hx with rfl | hx
    · obtain ⟨bs, r, he⟩ := hfills.next hnext
      exact absurd he (hne bs r)
    · exact ⟨x, hx, hfills⟩
  refine ⟨⟨h.works.plain, hworkDir.trans h.works.workDir⟩, fun k => hdirs _ (h.around k), ?_, ?_⟩
  · intro x hx
    rcases hus x hx with rfl | hx
    · exact hrest
    · exact h.tasks x hx
  · rcases h.state with ⟨t', ht', hunless⟩ | ⟨hleads, bs, hstands, hstate⟩
    · rcases hts _ ht' with heq | ht'
      · cases heq
        rcases hunless.next hnext with he | hunless
        · exact .inr (hmade he)
        · exact .inl ⟨u, hu, hunless⟩
      · exact .inl ⟨t', ht', hunless⟩
    · rcases hconduct.program_cases h.works.plain ha hname with
        ⟨hsame, ⟨-, ⟨r, rfl, -⟩ | ⟨cs, r, rfl, hcs⟩⟩ | ⟨hoff, -⟩⟩ | hne
      · cases r with
        | none => exact .inr (hmade rfl)
        | some x =>
          have hcreate : f.create (programPath g.settings a) = (some x, f') := heffect
          obtain rfl : f' = f :=
            (congrArg Prod.snd hcreate).symm.trans (create_failed (congrArg Prod.fst hcreate))
          exact .inr ⟨hleads, bs, hstands, hstate.imp_right (hpending nofun)⟩
      · have hwrite : f.write (programPath g.settings a) cs = (r, f') := heffect
        rw [programPath_eq ha] at hwrite
        have hstands' := stands_of_write hstands h.works.plain (plain_program ha) hleads hwrite
        exact .inr ⟨hleads, _, hstands', .inl ⟨c, hc, hsame, cs, hcs, prefix_append ..⟩⟩
      · exact absurd (hon.symm.trans hoff) (by decide)
      · refine .inr ⟨hleads, bs, stands_of_effect heffect hstands hne,
          hstate.imp_right (hpending ?_)⟩
        rintro cs r rfl
        exact hne _ rfl (placeOf_program h.works.plain ha)

/-- A program that is reported stands in its place, with the content of a program. -/
lemma Runs.program_stands (h : g.Runs workDir limit f os f') (hon : g.settings.enabled .entryPoint)
    (hf : f.WorksAt ws) (haround : ∀ k, f.lookup? (placeAt (ws.take k)) = some .directory)
    (ho : (a, o) ∈ os) (hwritten : programPath g.settings a ∈ o.written.map Output.path) :
    isName a = true ∧ Leads g.settings (programDir a ++ ["main.go"]) ∧
      ∃ bs, f'.Stands (placeAt ws) (programNames g.settings ws a) bs ∧
        g.Programs workDir (programPath g.settings a) bs := by
  obtain ⟨c, hc, hname⟩ := exists_of_mem h.names ho
  obtain rfl : a = c.name := hname
  have hpassed : c.check g.settings g.registry = .passed := by
    obtain ⟨ds, hway⟩ := h.way hc ho
    cases hway with
    | unstarted | refused | noArtifact => cases hwritten
    | noProgram hpassed | unsavedProgram hpassed | withProgram hpassed | withoutProgram hpassed =>
      exact hpassed
  have ha := isName_of_check hpassed
  obtain ⟨ts, hts, hrun⟩ := id h
  obtain ⟨⟨name, t⟩, ht, rfl, htask⟩ := exists_of_mem (forall₂_classTasks hts).flip hc
  have hstart : g.Filling workDir ws c.name ts f := by
    refine ⟨hf, haround, tasked_of_mem hts, .inl ⟨t, ht, ?_⟩⟩
    rcases htask with ⟨rfl, -⟩ | htask
    · exact not_mem_nil
    · exact unless_created htask hon
  have hend := hrun.invariant (fun _ _ _ _ hadvance hfilling => hfilling.advance hon ha hadvance)
    hstart
  rcases hend.state with ⟨t, ht, hunless⟩ | ⟨hleads, bs, hstands, hprograms | ⟨t, ht, hfills⟩⟩
  · obtain ⟨⟨name, o'⟩, ho', heq⟩ := mem_map.mp ht
    cases heq
    rw [h.outcome_unique ho' ho] at hunless
    exact absurd hwritten hunless
  · exact ⟨ha, hleads, bs, hstands, hprograms⟩
  · obtain ⟨o', -, rfl⟩ := mem_map.mp ht
    obtain ⟨_, _, heq, -⟩ := hfills
    cases heq

/-- Where the words of names differ, it is the program of the class that has reported it. -/
lemma Runs.program_own (h : g.Runs workDir limit f os f') (hwords : g.WordsDiffer)
    (ho : (a, o) ∈ os) (hwritten : programPath g.settings a ∈ o.written.map Output.path)
    (ha : isName a) {bs : List UInt8}
    (hbs : f'.lookup? (placeOf f.workDir (programPath g.settings a)) = some (.file bs)) :
    ∃ c ∈ g.registry.generated, c.name = a ∧ IsProgram g.settings workDir c bs := by
  have hown := h.names.mp (fun _ _ hname hrendered => And.intro hname hrendered)
    (h.rendered hwords)
  obtain ⟨c, hc, hname, hrendered⟩ := exists_of_mem hown ho
  obtain rfl : a = c.name := hname
  obtain ⟨w, hw, hpath⟩ := mem_map.mp hwritten
  obtain ⟨cs, hcs, hfile⟩ := hrendered w hw
  rw [hpath] at hcs hfile
  obtain rfl : bs = cs := by simpa using hbs.symm.trans hfile
  refine ⟨c, hc, rfl, ?_⟩
  generalize hp : programPath g.settings c.name = p at hcs
  cases hcs with
  | artifact =>
    have hne : artifactPath g.settings c.name ∉ [programPath g.settings c.name] :=
      (nodup_cons.mp (nodup_ownPaths ha)).1
    exact absurd (mem_singleton.mpr hp.symm) hne
  | program _ hfile hbs => exact ⟨_, hfile, hbs⟩

end

end Generator

/-! A run that removes programs. -/

namespace Run

/-- A change of files that leaves the way to a program as it is: nothing comes into its directory,
and if one of the directories goes, then that one. -/
structure Spares (s : Settings) (ws : List String) (a : Text) (f g : Files) : Prop where
  workDir : g.workDir = f.workDir
  target : ∀ ms, ms <+: target s ws → f.lookup? (Files.placeAt ms) = some .directory →
    g.lookup? (Files.placeAt ms) = some .directory
  inside : ∀ k, Path.parent k = Files.placeAt (programDirNames s ws a) → f.lookup? k = none →
    g.lookup? k = none
  directory : f.lookup? (Files.placeAt (programDirNames s ws a)) = none →
    g.lookup? (Files.placeAt (programDirNames s ws a)) = none
  opens : f.Opens [] (programNames s ws a) →
    g.lookup? (Files.placeAt (programDirNames s ws a)) = none ∨ g.Opens [] (programNames s ws a)

section

variable {s : Settings} {ws ns : List String} {a : Text} {f g : Files} {n : String} {α : Type}
  {e : FileEvent}

lemma spares_refl (s : Settings) (ws : List String) (a : Text) (f : Files) : Spares s ws a f f :=
  ⟨rfl, fun _ _ => id, fun _ _ => id, id, .inr⟩

lemma spares_of_file (hws : Plains ws) (ha : isName a) (hn : Plain n)
    (hne : ¬[n] <+: programDir a) (hsame : SameOff (spot s ws [n]) f g)
    (hdirs : ∀ q, f.lookup? q = some .directory → g.lookup? q = some .directory) :
    Spares s ws a f g := by
  have hdir := plain_programDir ha
  have hfile : Plains [n] := forall_mem_singleton.mpr hn
  refine ⟨hsame.workDir, fun ms _ => hdirs _, fun k hk hnone => ?_,
    fun hnone => ?_, fun hopens => ?_⟩
  · rw [hsame.lookup? k, hnone]
    rintro rfl
    rw [spot, parent_placeAt (plain_target hws hfile)] at hk
    have hnames := placeAt_target_inj hws (forall_mem_nil _) hdir
      (by rw [spot, append_nil]; exact hk)
    simp [programDir] at hnames
  · rw [hsame.lookup? _, hnone]
    intro heq
    exact hne (placeAt_target_inj hws hdir hfile heq ▸ prefix_rfl)
  · exact .inr fun ms m hms => hdirs _ (hopens ms m hms)

lemma spares_remove (hf : f.WorksAt ws) (ha : isName a) (hns : Plains ns)
    (hne : ns ≠ []) : Spares s ws a f (f.remove (below s.targetDir ns)).2 := by
  have hsame := f.sameOff_remove (below s.targetDir ns)
  rw [hf.workDir, placeOf_below hf.plain hns] at hsame
  have hplain := plain_programNames (s := s) hf.plain ha
  refine ⟨hsame.workDir, fun ms hms hdir => ?_, fun _ _ => isNone_remove, isNone_remove,
    fun hopens => or_iff_not_imp_left.mpr fun hgone ms m hms => ?_⟩
  · rw [hsame.lookup? _, hdir]
    intro heq
    obtain ⟨rest, hrest⟩ := hms
    have htarget := plain_target (s := s) hf.plain hns
    have hlength := congrArg List.length
      (placeAt_inj (hrest ▸ htarget.left : Plains (ms ++ rest)).left htarget heq)
    have hpositive := length_pos_iff.mpr hne
    rw [← hrest] at hlength
    simp only [length_append] at hlength
    omega
  · have hdir := hopens ms m hms
    rw [nil_append] at hdir ⊢
    rw [programNames_eq] at hms hopens
    rcases prefix_concat_iff.mp hms with heq | hms
    · -- the directory of the program, which is not gone
      rw [append_inj_left' heq rfl] at hdir ⊢
      rcases f.remove_eq_or_isNone (below s.targetDir ns)
        (placeAt (programDirNames s ws a)) with hsame | hnone
      · exact hsame.trans hdir
      · exact absurd hnone hgone
    · -- a directory in which there is another one
      refine isDirectory_remove hdir (childNames_ne_nil ?_ (e := m) ?_)
      · rw [programNames_eq] at hplain
        exact fun n hn => hplain.left n (hms.subset hn)
      · rw [hopens.isDirectory hms]
        nofun

/-- Nothing that is done where programs are not wanted takes away more than the directory of a
program. -/
lemma Conduct.spares {b : Text} {good : List UInt8 → Prop} {u : Work α} (h : Conduct s b good e u)
    (hoff : s.enabled .entryPoint = false) (hf : f.WorksAt ws)
    (htarget : ∀ ms, ms <+: target s ws → f.lookup? (placeAt ms) = some .directory) (ha : isName a)
    (hb : isName b) (hleads : Leads s (programDir a ++ ["main.go"])) (he : e.Effect f g) :
    Spares s ws a f g := by
  have hfile {p : String} (hp : p = artifactPath s b ∨ p = artifactPath s b ++ ".error")
      (hsame : SameOff (placeOf f.workDir p) f g)
      (hdirs : ∀ q, f.lookup? q = some .directory → g.lookup? q = some .directory) :
      Spares s ws a f g := by
    obtain ⟨n, hn, hown, rfl⟩ := exists_artifact_name hb hp
    rw [hf.workDir, placeOf_below hf.plain (forall_mem_singleton.mpr hn)] at hsame
    exact spares_of_file hf.plain ha hn (not_prefix_programDir b ha _ hown) hsame hdirs
  cases h with
  | read | list =>
    rw [he.2]
    exact spares_refl ..
  | makeTarget r =>
    have hmade : f.makeDirectories (below s.targetDir []) = (r, g) := he
    have hreach : Leads s [] := Leads.of_append hleads (plain_program ha)
    rw [below_eq_onward, makeDirectories_of_directory hf ?_ hreach ?_ ?_] at hmade
    · cases hmade
      exact spares_refl ..
    · rw [append_nil]
      exact plain_names _
    · rw [append_nil]
      refine Opens.of_append fun ms m hms => htarget ms ?_
      exact (prefix_append ms [m]).trans hms
    · rw [append_nil]
      exact htarget _ prefix_rfl
  | createArtifact hp =>
    obtain rfl := congrArg Prod.snd he
    exact hfile hp (f.sameOff_create _) fun q => isDirectory_create
  | writeArtifact hp bs =>
    obtain rfl := congrArg Prod.snd he
    exact hfile hp (f.sameOff_write _ bs) fun q => isDirectory_write
  | makeDirectory hon | createAside hon | writeAside hon | create hon | write hon =>
    exact absurd (hon.symm.trans hoff) (by decide)
  | remove =>
    obtain rfl := congrArg Prod.snd he
    rw [programPath_eq hb]
    exact spares_remove hf ha (plain_program hb) (by simp)
  | close =>
    obtain rfl := congrArg Prod.snd he
    rw [parent_programPath hb]
    exact spares_remove hf ha (plain_programDir hb) (by simp [programDir])

/-- A task that is about to remove a directory, which is empty, has done it or will do it next. -/
lemma closes_of_effect {t u : Work α} (hf : f.WorksAt ws) (ha : isName a)
    (hleads : Leads s (programDir a ++ ["main.go"]))
    (hempty : f.childNames (placeAt (programDirNames s ws a)) = [])
    (hopens : f.Opens [] (programNames s ws a)) (hcloses : t.Closes (parent (programPath s a)))
    (hnext : t.Next e u) (he : e.Effect f g) :
    g.lookup? (placeAt (programDirNames s ws a)) = none ∨ u.Closes (parent (programPath s a)) := by
  have hplain := plain_programDir ha
  have hlocate : f.locate (parent (programPath s a)) = .ok (placeAt (programDirNames s ws a)) := by
    rw [parent_programPath ha]
    refine locate_below hf hplain (hleads.of_append (plain_program ha)) (hopens.of_prefix ?_)
    rw [programNames_eq]
    exact prefix_append _ _
  have hdir : f.lookup? (placeAt (programDirNames s ws a)) = some .directory := by
    rw [programNames_eq] at hopens
    exact hopens.isDirectory prefix_rfl
  rcases hcloses.next hnext with ⟨r, rfl⟩ | ⟨r, rfl, hr⟩
  · left
    obtain rfl := congrArg Prod.snd he
    simp only [Files.act, remove_unlocked, hlocate, hdir, hempty]
    refine lookup?_unset_self fun hroot => ?_
    have hnames : programDirNames s ws a = [] :=
      placeAt_inj (plain_target hf.plain hplain) (forall_mem_nil _)
        (hroot.trans placeAt_nil.symm)
    simp [programDirNames, programDir] at hnames
  · right
    refine hr ?_
    rw [← he.1]
    simp only [list, hlocate, hdir, hempty]

end

end Run

namespace Generator

open Run

/-- While a run removes programs: the program of a class stands and its task has not succeeded yet,
or it is gone. If nothing else was in its directory, that is gone, too, or some task is about to
remove it. -/
structure Clearing (g : Generator) (workDir : String) (ws : List String) (a : Text)
    (bs : List UInt8) (lone : Prop) (ts : List (Text × Work Outcome)) (f : Files) : Prop where
  works : f.WorksAt ws
  tasks : ∀ t ∈ ts, g.Tasked workDir t.2
  target : ∀ ms, ms <+: Run.target g.settings ws →
    f.lookup? (Files.placeAt ms) = some .directory
  only : lone → f.HoldsOnly (Files.placeAt (programDirNames g.settings ws a))
    (Files.placeAt (programNames g.settings ws a))
  state : f.Stands (Files.placeAt ws) (programNames g.settings ws a) bs ∧
      (∃ t, (a, t) ∈ ts ∧ t.Unless
        (fun e => (∃ r, e = .read (programPath g.settings a) r ∧ r ≠ .ok bs) ∨
          e = .remove (programPath g.settings a) none) fun o => o.failures ≠ []) ∨
    f.lookup? (Files.placeAt (programNames g.settings ws a)) = none ∧
      (f.lookup? (Files.placeAt (programDirNames g.settings ws a)) = none ∨
        f.Opens [] (programNames g.settings ws a) ∧
          (lone → ∃ t ∈ ts, t.2.Closes (Path.parent (programPath g.settings a))))

section

variable {g : Generator} {workDir : String} {limit : Option Nat} {ws : List String} {a : Text}
  {bs : List UInt8} {lone : Prop} {ts us : List (Text × Work Outcome)} {f f' : Files}
  {os : List (Text × Outcome)}

/-- The directory is empty when the program is gone and nothing else was in it. -/
lemma Clearing.childNames_eq_nil (h : g.Clearing workDir ws a bs lone ts f) (hlone : lone)
    (hnone : f.lookup? (placeAt (programNames g.settings ws a)) = none) :
    f.childNames (placeAt (programDirNames g.settings ws a)) = [] := by
  refine childNames_eq_nil_iff.mpr fun k _ hk => ?_
  by_contra hsome
  rw [h.only hlone k hk hsome] at hsome
  exact hsome hnone

lemma Clearing.advance (h : g.Clearing workDir ws a bs lone ts f)
    (hoff : g.settings.enabled .entryPoint = false) (ha : isName a)
    (hleads : Leads g.settings (programDir a ++ ["main.go"]))
    (hadvance : Advance ts f us f') : g.Clearing workDir ws a bs lone us f' := by
  obtain ⟨name, t, u, e, ht, hu, hnext, heffect, hts, hus⟩ := hadvance.exists_next
  obtain ⟨hrest, c, hc, hname, hconduct⟩ := (h.tasks _ ht).next hnext
  have hspares := hconduct.spares hoff h.works h.target ha hname hleads heffect
  refine ⟨⟨h.works.plain, hspares.workDir.trans h.works.workDir⟩, ?_,
    fun ms hms => hspares.target ms hms (h.target ms hms),
    fun hlone k hk hsome => h.only hlone k hk (mt (hspares.inside k hk) hsome), ?_⟩
  · intro x hx
    rcases hus x hx with rfl | hx
    · exact hrest
    · exact h.tasks x hx
  rcases h.state with ⟨hf, t', ht', hunless⟩ | ⟨hnone, hstate⟩
  · -- what is left of the task of the class when the program still stands
    have hwaits (hread : ∀ r, e = .read (programPath g.settings a) r → r = .ok bs)
        (hremove : e ≠ .remove (programPath g.settings a) none) :
        ∃ t, (a, t) ∈ us ∧ t.Unless
          (fun e => (∃ r, e = .read (programPath g.settings a) r ∧ r ≠ .ok bs) ∨
            e = .remove (programPath g.settings a) none) fun o => o.failures ≠ [] := by
      rcases hts _ ht' with heq | ht'
      · cases heq
        rcases hunless.next hnext with (⟨r, he, hr⟩ | he) | hunless
        · exact absurd (hread r he) hr
        · exact absurd he hremove
        · exact ⟨u, hu, hunless⟩
      · exact ⟨t', ht', hunless⟩
    rcases hconduct.program_cases h.works.plain ha hname with
      ⟨-, ⟨hon, -⟩ | ⟨-, r, rfl, hcloses⟩⟩ | hne
    · exact absurd (hon.symm.trans hoff) (by decide)
    · have hremove : f.remove (programPath g.settings a) = (r, f') := heffect
      rw [programPath_eq ha, remove_of_stands hf h.works.plain (plain_program ha) hleads] at hremove
      cases hremove
      have hroot := placeAt_target_ne_root (s := g.settings) h.works.plain (plain_program ha)
      refine .inr ⟨lookup?_unset_self hroot, (hspares.opens hf.opens).imp_right ?_⟩
      exact fun hway => ⟨hway, fun _ => ⟨_, hu, hcloses rfl⟩⟩
    · refine .inl ⟨stands_of_effect heffect hf hne, hwaits ?_ ?_⟩
      · rintro r rfl
        rw [← heffect.1, programPath_eq ha]
        exact read_of_stands hf h.works.plain (plain_program ha) hleads
      · rintro rfl
        exact hne _ rfl (placeOf_program h.works.plain ha)
  · refine .inr ⟨hspares.inside _ (parent_program h.works.plain ha) hnone,
      or_iff_not_imp_left.mpr fun hgone => ?_⟩
    obtain ⟨hway, htodo⟩ := hstate.resolve_left (mt hspares.directory hgone)
    refine ⟨(hspares.opens hway).resolve_left hgone, fun hlone => ?_⟩
    obtain ⟨x, hx, hcloses⟩ := htodo hlone
    rcases hts x hx with rfl | hx
    · have hempty := h.childNames_eq_nil hlone hnone
      have hdone := closes_of_effect h.works ha hleads hempty hway hcloses hnext heffect
      exact ⟨_, hu, hdone.resolve_left hgone⟩
    · exact ⟨x, hx, hcloses⟩

/-- A class that succeeds where programs are not wanted has removed its program if that starts with
the header, and the directory if nothing else was in it. -/
lemma Runs.program_removed (h : g.Runs workDir limit f os f')
    (hoff : g.settings.enabled .entryPoint = false) (hws : Plains ws) {o : Outcome}
    (ho : (a, o) ∈ os) (hdone : o.failures = []) (ha : isName a)
    (hleads : Leads g.settings (programDir a ++ ["main.go"]))
    (hf : f.Stands (placeAt ws) (programNames g.settings ws a) bs)
    (hbs : ("// " ++ g.settings.headerText).toUTF8.toList.isPrefixOf bs = true) :
    f'.lookup? (placeAt (programNames g.settings ws a)) = none ∧
      (f.HoldsOnly (placeAt (programDirNames g.settings ws a))
          (placeAt (programNames g.settings ws a)) →
        f'.lookup? (placeAt (programDirNames g.settings ws a)) = none) := by
  obtain ⟨c, hc, hname⟩ := exists_of_mem h.names ho
  obtain rfl : a = c.name := hname
  obtain ⟨ts, hts, hrun⟩ := id h
  obtain ⟨⟨name, t⟩, ht, rfl, htask⟩ := exists_of_mem (forall₂_classTasks hts).flip hc
  have hstart : g.Clearing workDir ws c.name bs
      (f.HoldsOnly (placeAt (programDirNames g.settings ws c.name))
        (placeAt (programNames g.settings ws c.name))) ts f := by
    refine ⟨⟨hws, hf.workDir⟩, tasked_of_mem hts, fun ms hms => ?_, id, .inl ⟨hf, t, ht, ?_⟩⟩
    · have hopens := hf.opens
      rw [programNames_eq] at hopens
      exact hopens.isDirectory (hms.trans (prefix_append _ _))
    · rcases htask with ⟨rfl, -⟩ | htask
      · exact cons_ne_nil _ _
      · exact unless_removed htask hoff hbs
  have hend := hrun.invariant
    (fun _ _ _ _ hadvance hclearing => hclearing.advance hoff ha hleads hadvance) hstart
  rcases hend.state with ⟨-, t, ht, hunless⟩ | ⟨hnone, hstate⟩
  · obtain ⟨⟨name, o'⟩, ho', heq⟩ := mem_map.mp ht
    cases heq
    rw [h.outcome_unique ho' ho] at hunless
    exact absurd hdone hunless
  · refine ⟨hnone, fun hlone => hstate.resolve_right ?_⟩
    rintro ⟨-, htodo⟩
    obtain ⟨t, ht, hcloses⟩ := htodo hlone
    obtain ⟨o', -, rfl⟩ := mem_map.mp ht
    cases hcloses

end

end Generator

end ReactiveModel
