import ReactiveModel.Proofs.Accounting
import ReactiveModel.Proofs.Reaches

/-! The conduct of tasks, action by action. What the task of a class may do next is told together
with what it has to do after that: a program that was made is filled, and a directory from which a
program was removed is removed as well if nothing is left in it. -/

namespace ReactiveModel

open List ReactiveModel.Path

/-- What a task does, with what it gets from it. -/
inductive FileEvent
  | read (path : String) (r : Except FileFailure (List UInt8))
  | list (path : String) (r : Except FileFailure (List String))
  | act (a : FileAction) (r : Option FileFailure)

namespace FileEvent

abbrev create (path : String) : Option FileFailure → FileEvent := act (.create path)

abbrev write (path : String) (content : List UInt8) : Option FileFailure → FileEvent :=
  act (.write path content)

abbrev remove (path : String) : Option FileFailure → FileEvent := act (.remove path)

/-- What an action finds in files, and what it makes of them. -/
def Effect (f g : Files) : FileEvent → Prop
  | .read p r => f.read p = r ∧ g = f
  | .list p r => f.list p = r ∧ g = f
  | .act a r => f.act a = (r, g)

/-- Whether an action may change the entry at a path. Directories are made along other paths. -/
def Changes (p : String) : FileEvent → Prop
  | .act (.create p') _ | .act (.write p' _) _ | .act (.remove p') _ => p' = p
  | .read _ _ | .list _ _ | .act (.makeDirectories _) _ => False

end FileEvent

namespace Work

variable {α β : Type} {t u : Work α} {p : String} {e : FileEvent} {post : α → Prop} {k : α → Work β}
  {good : List UInt8 → Prop}

/-- An action of a task, and what is left to do after it. -/
inductive Next : Work α → FileEvent → Work α → Prop
  | read (p next r) : Next (.read p next) (.read p r) (next r)
  | list (p next r) : Next (.list p next) (.list p r) (next r)
  | act (a next r) : Next (.act a next) (.act a r) (next r)

lemma exists_next {f g : Files} (h : t.step? f = some (u, g)) : ∃ e, t.Next e u ∧ e.Effect f g := by
  cases t with
  | done a => cases h
  | read p next | list p next =>
    cases h
    refine ⟨_, by constructor, ?_⟩
    exact ⟨rfl, rfl⟩
  | act a next =>
    cases h
    refine ⟨_, by constructor, ?_⟩
    rfl

/-- A task whose actions, each with what is left to do after it, follow a rule, and that ends as
promised. -/
def Follows (rule : FileEvent → Work α → Prop) (post : α → Prop) : Work α → Prop
  | .done a => post a
  | .read p next => ∀ r, rule (.read p r) (next r) ∧ (next r).Follows rule post
  | .list p next => ∀ r, rule (.list p r) (next r) ∧ (next r).Follows rule post
  | .act a next => ∀ r, rule (.act a r) (next r) ∧ (next r).Follows rule post

variable {rule : FileEvent → Work α → Prop}

lemma Follows.next (h : t.Follows rule post) (hn : t.Next e u) :
    rule e u ∧ u.Follows rule post := by
  cases hn <;> exact h _

lemma Follows.bind {rule' : FileEvent → Work β → Prop} {post : β → Prop} {t : Work α}
    (h : t.Follows rule fun a => (k a).Follows rule' post)
    (hrule : ∀ e u, rule e u → rule' e (u.bind k)) : (t.bind k).Follows rule' post := by
  induction t with
  | done a => exact h
  | read p next ih | list p next ih | act a next ih =>
    exact fun r => ⟨hrule _ _ (h r).1, ih r (h r).2⟩

lemma Looks.follows (h : t.Looks post) (hread : ∀ p r u, rule (.read p r) u)
    (hlist : ∀ p r u, rule (.list p r) u) : t.Follows rule post := by
  induction t with
  | done a => exact h
  | read p next ih => exact fun r => ⟨hread p r _, ih r (h r)⟩
  | list p next ih => exact fun r => ⟨hlist p r _, ih r (h r)⟩
  | act => cases h

/-- A task that ends as promised unless something happens before. -/
def Unless (event : FileEvent → Prop) (post : α → Prop) : Work α → Prop
  | .done a => post a
  | .read p next => ∀ r, event (.read p r) ∨ (next r).Unless event post
  | .list p next => ∀ r, event (.list p r) ∨ (next r).Unless event post
  | .act a next => ∀ r, event (.act a r) ∨ (next r).Unless event post

variable {event : FileEvent → Prop}

lemma Unless.next (h : t.Unless event post) (hn : t.Next e u) : event e ∨ u.Unless event post := by
  cases hn <;> exact h _

lemma Unless.bind {post : β → Prop} {t : Work α}
    (h : t.Unless event fun a => (k a).Unless event post) : (t.bind k).Unless event post := by
  induction t with
  | done a => exact h
  | read p next ih | list p next ih | act a next ih => exact fun r => (h r).imp_right (ih r)

lemma Looks.unless (h : t.Looks post) : t.Unless event post := by
  induction t with
  | done a => exact h
  | read p next ih | list p next ih => exact fun r => .inr (ih r (h r))
  | act => cases h

/-! What a task is about to do. -/

/-- The next action fills a file. -/
def Fills (p : String) (good : List UInt8 → Prop) (t : Work α) : Prop :=
  ∃ bs next, t = .write p bs next ∧ good bs

/-- The next action removes a directory, or looks whether anything is in it and removes it then. -/
inductive Closes (p : String) : Work α → Prop
  | remove (next) : Closes p (.remove p next)
  | list (next k) (h : next (.ok []) = .remove p k) : Closes p (.list p next)

lemma Fills.bind {t : Work α} (h : t.Fills p good) (k : α → Work β) : (t.bind k).Fills p good := by
  obtain ⟨bs, next, rfl, hbs⟩ := h
  exact ⟨bs, _, rfl, hbs⟩

lemma Fills.mono {good' : List UInt8 → Prop} {t : Work α} (h : t.Fills p good)
    (hgood : ∀ bs, good bs → good' bs) : t.Fills p good' := by
  obtain ⟨bs, next, rfl, hbs⟩ := h
  exact ⟨bs, next, rfl, hgood bs hbs⟩

lemma Fills.next (h : t.Fills p good) (hn : t.Next e u) : ∃ bs r, e = .write p bs r := by
  obtain ⟨bs, next, rfl, -⟩ := h
  cases hn
  exact ⟨bs, _, rfl⟩

lemma Closes.bind {t : Work α} (h : t.Closes p) (k : α → Work β) : (t.bind k).Closes p := by
  cases h with
  | remove next => exact .remove _
  | list next k' h => exact .list _ (fun r => (k' r).bind k) (by rw [h]; rfl)

lemma Closes.next (h : t.Closes p) (hn : t.Next e u) :
    (∃ r, e = .remove p r) ∨ ∃ r, e = .list p r ∧ (r = .ok [] → u.Closes p) := by
  cases h with
  | remove next =>
    cases hn
    exact .inl ⟨_, rfl⟩
  | list next k h =>
    cases hn with
    | list _ _ r =>
      refine .inr ⟨r, rfl, ?_⟩
      rintro rfl
      rw [h]
      exact .remove k

end Work

namespace Run

variable {α : Type} {post : Except Failure Output → Prop} {ts : List (Text × Work α)} {f g : Files}

lemma Advance.exists_next {us : List (Text × Work α)} (h : Advance ts f us g) :
    ∃ name t u e, (name, t) ∈ ts ∧ (name, u) ∈ us ∧ t.Next e u ∧ e.Effect f g ∧
      (∀ x ∈ ts, x = (name, t) ∨ x ∈ us) ∧ ∀ x ∈ us, x = (name, u) ∨ x ∈ ts := by
  induction h with
  | first hs =>
    obtain ⟨e, hnext, heffect⟩ := Work.exists_next hs
    refine ⟨_, _, _, e, mem_cons_self, mem_cons_self, hnext, heffect, ?_, ?_⟩
    · exact fun x hx => (mem_cons.mp hx).imp_right (mem_cons_of_mem _)
    · exact fun x hx => (mem_cons.mp hx).imp_right (mem_cons_of_mem _)
  | later _ ih =>
    obtain ⟨name, t, u, e, ht, hu, hnext, heffect, hts, hus⟩ := ih
    refine ⟨name, t, u, e, mem_cons_of_mem _ ht, mem_cons_of_mem _ hu, hnext, heffect,
      ?_, ?_⟩
    · rintro x (_ | ⟨_, hx⟩)
      · exact .inr mem_cons_self
      · exact (hts x hx).imp_right (mem_cons_of_mem _)
    · rintro x (_ | ⟨_, hx⟩)
      · exact .inr mem_cons_self
      · exact (hus x hx).imp_right (mem_cons_of_mem _)

/-- What holds of tasks and files and is kept by each action, holds in the end. -/
lemma Interleaved.invariant {inv : List (Text × Work α) → Files → Prop} {os : List (Text × α)}
    (h : Interleaved ts f os g) (hstep : ∀ ts us f g, Advance ts f us g → inv ts f → inv us g)
    (hf : inv ts f) : inv (os.map fun o => (o.1, .done o.2)) g := by
  induction h with
  | done os f => exact hf
  | step ha _ ih => exact ih (hstep _ _ _ _ ha hf)

/-! Class tasks. -/

/-- What the task of a class may do, each action with what is left to do after it. A program is made
and then filled, where programs are wanted. It is removed where they are not, and then its directory
is looked at. -/
inductive Conduct (s : Settings) (a : Text) (good : List UInt8 → Prop) : FileEvent → Work α → Prop
  | read (p r u) : Conduct s a good (.read p r) u
  | list (p r u) : Conduct s a good (.list p r) u
  | makeTarget (r u) : Conduct s a good (.act (.makeDirectories (Path.below s.targetDir [])) r) u
  | createArtifact {p : String} (hp : p = artifactPath s a ∨ p = artifactPath s a ++ ".error")
      (r u) : Conduct s a good (.create p r) u
  | writeArtifact {p : String} (hp : p = artifactPath s a ∨ p = artifactPath s a ++ ".error")
      (bs r u) : Conduct s a good (.write p bs r) u
  | makeDirectory (hon : s.enabled .entryPoint = true) (p r u) :
      Conduct s a good (.act (.makeDirectories p) r) u
  | createAside (hon : s.enabled .entryPoint = true) (r u) :
      Conduct s a good (.create (programPath s a ++ ".error") r) u
  | writeAside (hon : s.enabled .entryPoint = true) (bs r u) :
      Conduct s a good (.write (programPath s a ++ ".error") bs r) u
  | create (hon : s.enabled .entryPoint = true) {r : Option FileFailure} {u : Work α}
      (hu : r = none → u.Fills (programPath s a) good) :
      Conduct s a good (.create (programPath s a) r) u
  | write (hon : s.enabled .entryPoint = true) {bs : List UInt8} (hbs : good bs) (r u) :
      Conduct s a good (.write (programPath s a) bs r) u
  | remove (hoff : s.enabled .entryPoint = false) {r : Option FileFailure} {u : Work α}
      (hu : r = none → u.Closes (Path.parent (programPath s a))) :
      Conduct s a good (.remove (programPath s a) r) u
  | close (hoff : s.enabled .entryPoint = false) (r u) :
      Conduct s a good (.remove (Path.parent (programPath s a)) r) u

lemma Conduct.bind {β : Type} {s : Settings} {a : Text} {good : List UInt8 → Prop} {e : FileEvent}
    {u : Work α} (h : Conduct s a good e u) (k : α → Work β) : Conduct s a good e (u.bind k) := by
  cases h with
  | read p r => exact .read p r _
  | list p r => exact .list p r _
  | makeTarget r => exact .makeTarget r _
  | createArtifact hp r => exact .createArtifact hp r _
  | writeArtifact hp bs r => exact .writeArtifact hp bs r _
  | makeDirectory hon p r => exact .makeDirectory hon p r _
  | createAside hon r => exact .createAside hon r _
  | writeAside hon bs r => exact .writeAside hon bs r _
  | create hon hu => exact .create hon fun hr => (hu hr).bind k
  | write hon hbs r => exact .write hon hbs r _
  | remove hoff hu => exact .remove hoff fun hr => (hu hr).bind k
  | close hoff r => exact .close hoff r _

section

variable {s : Settings} {a : Text} {good : List UInt8 → Prop} {className : Text}
  {path text : String}

lemma follows_bind {β : Type} {post : β → Prop} {t : Work α} {k : α → Work β}
    (h : t.Follows (Conduct s a good) fun x => (k x).Follows (Conduct s a good) post) :
    (t.bind k).Follows (Conduct s a good) post :=
  h.bind fun _ _ hconduct => hconduct.bind k

/-- An action that may come whatever it gives and whatever follows. -/
def May (s : Settings) (a : Text) (good : List UInt8 → Prop) (action : FileAction) : Prop :=
  ∀ r (u : Work (Except Failure Output)), Conduct s a good (.act action r) u

lemma follows_save (hmake : May s a good (.makeDirectories (parent path)))
    (hcreate : ∀ r (u : Work (Except Failure Output)),
      (r = none → u.Fills path (· = text.toUTF8.toList)) → Conduct s a good (.create path r) u)
    (hwrite : May s a good (.write path text.toUTF8.toList)) (hpost : ∀ r, post r) :
    (save className path text).Follows (Conduct s a good) post := by
  intro made
  refine ⟨hmake made _, ?_⟩
  cases made with
  | some e => exact hpost _
  | none =>
    refine fun created => ⟨hcreate created _ fun hr => ?_, ?_⟩
    · rw [hr]
      exact ⟨_, _, rfl, rfl⟩
    · cases created with
      | some e => exact hpost _
      | none =>
        refine fun written => ⟨hwrite written _, ?_⟩
        cases written <;> exact hpost _

lemma follows_saveUnresolved (hmake : May s a good (.makeDirectories (parent (path ++ ".error"))))
    (hcreate : May s a good (.create (path ++ ".error")))
    (hwrite : ∀ bs, May s a good (.write (path ++ ".error") bs)) (hpost : ∀ r, post r) :
    (saveUnresolved className path text).Follows (Conduct s a good) post := by
  refine fun made => ⟨hmake made _, fun created => ⟨hcreate created _, ?_⟩⟩
  cases created with
  | some e => exact hpost _
  | none => exact fun written => ⟨hwrite _ written _, hpost _⟩

lemma follows_writeFile {file : SourceFile} {name : String}
    (hmake : May s a good (.makeDirectories (parent (join [s.targetDir, name]))))
    (hcreate : ∀ bs, file.Renders s bs → ∀ r (u : Work (Except Failure Output)),
      (r = none → u.Fills (join [s.targetDir, name]) (· = bs)) →
        Conduct s a good (.create (join [s.targetDir, name]) r) u)
    (hwrite : ∀ bs, file.Renders s bs → May s a good (.write (join [s.targetDir, name]) bs))
    (hmakeAside : May s a good (.makeDirectories (parent (join [s.targetDir, name] ++ ".error"))))
    (hcreateAside : May s a good (.create (join [s.targetDir, name] ++ ".error")))
    (hwriteAside : ∀ bs, May s a good (.write (join [s.targetDir, name] ++ ".error") bs))
    (hpost : ∀ r, post r) : (writeFile s className file name).Follows (Conduct s a good) post := by
  unfold writeFile
  cases hrender : file.render with
  | none => exact hpost _
  | some text =>
    cases himports : s.enabled .imports with
    | false =>
      have hbs : file.Renders s text.toUTF8.toList :=
        ⟨text, text, hrender, rfl, by simp [himports]⟩
      exact follows_save hmake (hcreate _ hbs) (hwrite _ hbs) hpost
    | true =>
      refine follows_bind (((looks_resolveImports _ text).mono ?_).follows .read .list)
      rintro _ ⟨others, hothers, rfl⟩
      cases hresolved : Imports.resolve others text with
      | none => exact follows_saveUnresolved hmakeAside hcreateAside hwriteAside hpost
      | some final =>
        have hbs : file.Renders s final.toUTF8.toList :=
          ⟨text, final, hrender, rfl, by simpa [himports] using ⟨others, hothers, hresolved⟩⟩
        exact follows_save hmake (hcreate _ hbs) (hwrite _ hbs) hpost

lemma follows_removeGenerated {post : Option FileFailure → Prop}
    (hoff : s.enabled .entryPoint = false) (hpost : ∀ r, post r) :
    (removeGenerated s (programPath s a)).Follows (Conduct s a good) post := by
  refine fun found => ⟨.read _ _ _, ?_⟩
  cases found with
  | error e => exact hpost _
  | ok bs =>
    show Work.Follows _ _ (if _ then _ else _)
    split
    · refine fun removed => ⟨.remove hoff fun hr => ?_, ?_⟩
      · rw [hr]
        exact .list _ _ rfl
      · cases removed with
        | some e => exact hpost _
        | none =>
          refine fun listed => ⟨.list _ _ _, ?_⟩
          rcases listed with e | ⟨_ | ⟨n, ns⟩⟩
          · exact hpost _
          · exact fun closed => ⟨.close hoff closed _, hpost _⟩
          · exact hpost _
    · exact hpost _

end

/-- What the program of a class may hold. -/
def IsProgram (s : Settings) (workDir : String) (c : Class) (bs : List UInt8) : Prop :=
  ∃ file, c.entryPoint s (s.goPackage workDir) = .ok file ∧ file.Renders s bs

section

variable {s : Settings} {workDir : String} {reg : Registry} {c : Class}

lemma follows_programTask (written : List Output) :
    (programTask s workDir c written).Follows (Conduct s c.name (IsProgram s workDir c))
      fun _ => True := by
  unfold programTask
  split
  · rename_i hon
    split
    · trivial
    · rename_i file hfile
      refine follows_bind (follows_writeFile (fun r => .makeDirectory hon _ r)
        (fun bs hbs r u hu => .create hon fun hr => ?_)
        (fun bs hbs r => .write hon ⟨file, hfile, hbs⟩ r) (fun r => .makeDirectory hon _ r)
        (fun r => .createAside hon r) (fun bs r => .writeAside hon bs r) fun r => ?_)
      · obtain ⟨cs, next, hfills, rfl⟩ := hu hr
        exact ⟨cs, next, hfills, file, hfile, hbs⟩
      · cases r <;> trivial
  · rename_i hoff
    refine follows_bind (follows_removeGenerated (eq_false_of_ne_true hoff) fun r => ?_)
    cases r <;> trivial

/-- The task of a class keeps to what it may do. A class that does not pass its check does nothing.
-/
lemma follows_classTask {t : Work Outcome} (h : classTask s workDir reg c = some t) :
    (∃ o, t = .done o) ∨ c.check s reg = .passed ∧
      t.Follows (Conduct s c.name (IsProgram s workDir c)) fun _ => True := by
  unfold classTask at h
  split at h
  · cases h
  · cases h
    exact .inl ⟨_, rfl⟩
  · rename_i file hfile
    cases h
    have hpassed := check_of_file hfile
    have hname := isName_of_check hpassed
    obtain ⟨hplain, haside, -⟩ :=
      Naming.forall_mem_filePlaces.mp (Naming.plain_of_mem_filePlaces hname)
    have hparent {n : String} (hn : Plains [n]) :
        parent (below s.targetDir [n]) = below s.targetDir [] :=
      @parent_below [] n _ (forall_mem_nil _) (hn n (mem_singleton_self n))
    have hdir : parent (join [s.targetDir, Naming.classFile c.name]) =
        below s.targetDir [] := by
      rw [← hparent hplain, ← artifactPath_eq hname]
      rfl
    have hdirAside : parent (join [s.targetDir, Naming.classFile c.name] ++ ".error") =
        below s.targetDir [] := by
      rw [← hparent haside, ← artifactPath_append hname ".error" (by decide)]
      rfl
    refine .inr ⟨hpassed, follows_bind (follows_writeFile (fun r => ?_)
      (fun bs _ r u _ => .createArtifact (.inl rfl) r u)
      (fun bs _ r => .writeArtifact (.inl rfl) bs r) (fun r => ?_)
      (fun r => .createArtifact (.inr rfl) r) (fun bs r => .writeArtifact (.inr rfl) bs r)
      fun r => ?_)⟩
    · rw [hdir]
      exact .makeTarget r
    · rw [hdirAside]
      exact .makeTarget r
    · cases r with
      | error e => trivial
      | ok o => exact follows_programTask [o]

end

/-! What happens before a task is done. -/

section

variable {event : FileEvent → Prop} {className : Text} {path text : String}
  (hfail : ∀ e, post (.error e))

include hfail

lemma unless_save (hok : event (.create path none) ∨ ∀ size, post (.ok ⟨path, size⟩)) :
    (save className path text).Unless event post := by
  intro made
  cases made with
  | some e => exact .inr (hfail _)
  | none =>
    refine .inr fun created => ?_
    cases created with
    | some e => exact .inr (hfail _)
    | none =>
      refine hok.imp_right fun hok written => ?_
      cases written with
      | some e => exact .inr (hfail _)
      | none => exact .inr (hok _)

lemma unless_saveUnresolved : (saveUnresolved className path text).Unless event post := by
  refine fun made => .inr fun created => ?_
  cases created with
  | some e => exact .inr (hfail _)
  | none => exact .inr fun written => .inr (hfail _)

lemma unless_writeFile {s : Settings} {file : SourceFile} {name : String}
    (hok : event (.create (join [s.targetDir, name]) none) ∨
      ∀ size, post (.ok ⟨join [s.targetDir, name], size⟩)) :
    (writeFile s className file name).Unless event post := by
  unfold writeFile
  cases file.render with
  | none => exact hfail _
  | some text =>
    show Work.Unless event post (if _ then _ else _)
    split
    · refine Work.Unless.bind ((looks_resolveImports _ text).mono fun resolved _ => ?_).unless
      cases resolved with
      | some final => exact unless_save hfail hok
      | none => exact unless_saveUnresolved hfail
    · exact unless_save hfail hok

end

section

variable {s : Settings} {workDir : String} {reg : Registry} {c : Class} {t : Work Outcome}

lemma unless_created (h : classTask s workDir reg c = some t) (hon : s.enabled .entryPoint) :
    t.Unless (· = .create (programPath s c.name) none)
      fun o => programPath s c.name ∉ o.written.map Output.path := by
  unfold classTask at h
  split at h
  · cases h
  · cases h
    exact not_mem_nil
  · rename_i file hfile
    cases h
    have hne : programPath s c.name ≠ artifactPath s c.name := by
      intro heq
      have hnodup := nodup_ownPaths (s := s) (isName_of_check (check_of_file hfile))
      simp [ownPaths, heq] at hnodup
    refine Work.Unless.bind (unless_writeFile (fun e => not_mem_nil) (.inr fun size => ?_))
    show (programTask s workDir c [⟨artifactPath s c.name, size⟩]).Unless _ _
    have hartifact (failures : List Failure) : programPath s c.name ∉
        (Outcome.mk [⟨artifactPath s c.name, size⟩] failures).written.map Output.path := by
      simpa using hne
    unfold programTask
    rw [if_pos hon]
    split
    · exact hartifact _
    · exact Work.Unless.bind (unless_writeFile (fun e => hartifact _) (.inl rfl))

lemma unless_removed (h : classTask s workDir reg c = some t) (hoff : s.enabled .entryPoint = false)
    {bs : List UInt8} (hbs : ("// " ++ s.headerText).toUTF8.toList.isPrefixOf bs = true) :
    t.Unless (fun e => (∃ r, e = .read (programPath s c.name) r ∧ r ≠ .ok bs) ∨
      e = .remove (programPath s c.name) none) fun o => o.failures ≠ [] := by
  unfold classTask at h
  split at h
  · cases h
  · cases h
    exact cons_ne_nil _ _
  · cases h
    refine Work.Unless.bind (unless_writeFile (fun e => cons_ne_nil _ _) (.inr fun size => ?_))
    show (programTask s workDir c [⟨artifactPath s c.name, size⟩]).Unless _ _
    unfold programTask
    rw [if_neg (by simp [hoff])]
    refine Work.Unless.bind fun found => ?_
    by_cases hfound : found = .ok bs
    · rw [hfound]
      refine .inr ?_
      show Work.Unless _ _ (if _ then _ else _)
      rw [if_pos hbs]
      intro removed
      cases removed with
      | none => exact .inl (.inr rfl)
      | some e => exact .inr (cons_ne_nil _ _)
    · exact .inl (.inl ⟨found, rfl, hfound⟩)

end

end Run

namespace Generator

open Run

/-- What is left of the task of a class. -/
def Tasked (g : Generator) (workDir : String) (t : Work Outcome) : Prop :=
  (∃ o, t = .done o) ∨ ∃ c ∈ g.registry.generated, c.check g.settings g.registry = .passed ∧
    t.Follows (Conduct g.settings c.name (IsProgram g.settings workDir c)) fun _ => True

variable {g : Generator} {workDir : String} {limit : Option Nat} {ts : List (Text × Work Outcome)}

lemma Tasked.next {t u : Work Outcome} {e : FileEvent} (h : g.Tasked workDir t) (hn : t.Next e u) :
    g.Tasked workDir u ∧ ∃ c ∈ g.registry.generated, Naming.isName c.name = true ∧
      Conduct g.settings c.name (IsProgram g.settings workDir c) e u := by
  rcases h with ⟨o, rfl⟩ | ⟨c, hc, hpassed, hfollows⟩
  · cases hn
  · obtain ⟨hconduct, hrest⟩ := hfollows.next hn
    exact ⟨.inr ⟨c, hc, hpassed, hrest⟩, c, hc, isName_of_check hpassed, hconduct⟩

lemma tasked_of_mem
    (h : classTasks g.settings workDir g.registry limit g.registry.generated = some ts) :
    ∀ t ∈ ts, g.Tasked workDir t.2 := by
  intro t ht
  obtain ⟨c, hc, -, ⟨hcancelled, -⟩ | htask⟩ := exists_of_mem (forall₂_classTasks h) ht
  · exact .inl ⟨_, hcancelled⟩
  · rcases follows_classTask htask with hdone | ⟨hpassed, hfollows⟩
    · exact .inl hdone
    · exact .inr ⟨c, hc, hpassed, hfollows⟩

end Generator

end ReactiveModel
