import ReactiveModel.Proofs.Accounting

/-! What the failures of a run are made of. Faults of a check and of a description have known forms,
and the tasks of classes wrap the former or what the files gave; so no setting is ever blamed after
it was accepted. -/

namespace ReactiveModel

open List

variable {reg : Registry} {s : Settings} {fs : List Failure}

namespace Failure

lemma anyCause_eq (p : Failure → Bool) (cause : Option Failure) :
    anyCause p cause = cause.any (any p) := by
  cases cause <;> rfl

lemma anyPart_eq (p : Failure → Bool) (fs : List Failure) : anyPart p fs = fs.any (any p) := by
  induction fs with
  | nil => rfl
  | cons f fs ih => rw [anyPart, ih, any_cons]

section

variable (k : FailureKind)

@[simp] lemma has_plain (m : Text) : (plain m).has k = false := rfl

@[simp] lemma has_sentinel (j : FailureKind) : (sentinel j).has k = false := rfl

@[simp] lemma has_decode (d : DecodeFailure) : (decode d).has k = false := rfl

@[simp] lemma has_reference (source kind target m : Text) :
    (reference source kind target m).has k = (some .reference == some k) := rfl

@[simp] lemma has_schema (c member m : Text) (cause : Option Failure) :
    (schema c member m cause).has k = (some .schema == some k || cause.any (·.has k)) := by
  rw [has, any, anyCause_eq]
  rfl

@[simp] lemma has_generation (c phase file m : Text) (cause : Option Failure) :
    (generation c phase file m cause).has k =
      (some .generation == some k || cause.any (·.has k)) := by
  rw [has, any, anyCause_eq]
  rfl

@[simp] lemma has_load (c object m : Text) (cause : Option Failure) :
    (load c object m cause).has k = cause.any (·.has k) := by
  rw [has, any, anyCause_eq]
  rfl

@[simp] lemma has_join (fs : List Failure) : (join fs).has k = fs.any (·.has k) := by
  rw [has, any, anyPart_eq]
  rfl

end

lemma has_join_eq_false {k : FailureKind}
    (h : ∀ f ∈ fs, f.has k = false) : (join fs).has k = false := by
  rw [has_join, any_eq_false]
  intro f hf
  rw [h f hf]
  exact Bool.false_ne_true

end Failure

/-! Faults of a check. -/

namespace Class

/-- The forms that the faults of a class have. -/
inductive Fault (c : Class) : Failure → Prop
  | bare (member message : Text) : Fault c (c.schemaFault member message)
  | caused (member message cause : Text) :
      Fault c (.schema c.name member message (some (.plain cause)))
  | reference (kind target message : Text) : Fault c (.reference c.name kind target message)

lemma Fault.has_config {c : Class} {f : Failure} (h : c.Fault f) : f.has .config = false := by
  cases h with
  | bare member message => simp [schemaFault]
  | caused member message cause => simp
  | reference kind target message => simp

section

variable {c : Class} {f : Failure} {seen : List Text} {id : Text}

lemma fault_of_ite {p : Prop} [Decidable p] {fs gs : List Failure} (h : f ∈ if p then fs else gs)
    (hfs : f ∈ fs → c.Fault f) (hgs : f ∈ gs → c.Fault f) : c.Fault f := by
  split at h
  · exact hfs h
  · exact hgs h

lemma fault_of_bare {member message : Text} (h : f ∈ [c.schemaFault member message]) :
    c.Fault f := by
  rw [mem_singleton.mp h]
  exact .bare member message

lemma fault_of_nil (h : f ∈ []) : c.Fault f := absurd h not_mem_nil

lemma fault_of_valueFaults {p : Text × Value} (h : f ∈ c.valueFaults id p) : c.Fault f := by
  rcases mem_append.mp h with h | h
  · exact fault_of_ite h fault_of_nil fault_of_bare
  · split at h
    · exact fault_of_nil h
    · rw [mem_singleton.mp h]
      exact .caused ..

lemma fault_of_objectFaults {o : Node} (h : f ∈ c.objectFaults seen o) : c.Fault f := by
  refine fault_of_ite h fault_of_bare fun h => ?_
  rcases mem_append.mp h with h | h
  · rcases mem_append.mp h with h | h
    · exact fault_of_ite h fault_of_bare fun h => fault_of_ite h fault_of_bare fault_of_nil
    · split at h
      · exact fault_of_bare h
      · exact fault_of_ite h fault_of_bare fault_of_nil
  · obtain ⟨p, -, h⟩ := mem_flatMap.mp h
    exact fault_of_valueFaults h

lemma fault_of_treeFaults {os : List Node} (h : f ∈ c.treeFaults seen os) : c.Fault f := by
  obtain ⟨_, _, -, h⟩ := exists_of_mem_faultsInTurn h
  exact fault_of_objectFaults h

lemma fault_of_dependencyFaults {name : Text} {d : Dependency}
    (h : f ∈ c.dependencyFaults id name d) : c.Fault f := by
  unfold dependencyFaults at h
  split at h
  · rw [mem_singleton.mp h]
    exact .reference ..
  · refine fault_of_ite h fault_of_bare fun h => ?_
    split at h
    · exact fault_of_nil h
    · refine fault_of_ite h (fun h => ?_) fault_of_nil
      rw [mem_singleton.mp h]
      exact .reference ..

lemma fault_of_referenceFaults (hfs : c.referenceFaults = some fs) (h : f ∈ fs) : c.Fault f := by
  obtain ⟨_, _, _, hf⟩ := exists_dependency_of_mem hfs h
  exact fault_of_dependencyFaults hf

lemma fault_of_replicatorFaults {r : Replicator}
    (h : f ∈ c.replicatorFaults reg seen r) : c.Fault f := by
  simp only [replicatorFaults, mem_append] at h
  rcases h with ((h | h) | h) | h
  · exact fault_of_ite h fault_of_bare fun h => fault_of_ite h fault_of_bare fault_of_nil
  · split at h
    · rw [mem_singleton.mp h]
      exact .reference ..
    · exact fault_of_ite h fault_of_bare fault_of_nil
  · split at h
    · exact fault_of_nil h
    · rw [mem_singleton.mp h]
      exact .caused ..
  · refine fault_of_ite h (fun h => ?_) fault_of_nil
    rw [mem_singleton.mp h]
    exact .reference ..

lemma fault_of_replicatorsFaults {rs : List Replicator}
    (h : f ∈ c.replicatorsFaults reg seen rs) : c.Fault f := by
  obtain ⟨_, _, -, h⟩ := exists_of_mem_faultsInTurn h
  exact fault_of_replicatorFaults h

lemma fault_of_propertyFaults {p : Property} (h : f ∈ c.propertyFaults p) : c.Fault f := by
  rcases mem_append.mp h with h | h
  · exact fault_of_ite h fault_of_nil fault_of_bare
  · exact fault_of_ite h fault_of_bare fault_of_nil

lemma fault_of_signalFaults {s : Signal} (h : f ∈ c.signalFaults s) : c.Fault f := by
  rcases mem_append.mp h with h | h
  · exact fault_of_ite h fault_of_nil fault_of_bare
  · refine fault_of_ite h (fun h => ?_) fault_of_nil
    rw [mem_singleton.mp h]
    exact .caused ..

lemma fault_of_functionFaults {g : Function} (h : f ∈ c.functionFaults g) : c.Fault f :=
  fault_of_ite h fault_of_nil fault_of_bare

lemma fault_of_resourceFaults {r : Resource} (h : f ∈ c.resourceFaults r) : c.Fault f := by
  rcases mem_append.mp h with h | h
  · exact fault_of_ite h fault_of_nil fault_of_bare
  · exact fault_of_ite h fault_of_bare fault_of_nil

lemma fault_of_faults (hfs : c.faults reg = some fs) (h : f ∈ fs) : c.Fault f := by
  obtain ⟨references, hreferences, rfl⟩ := Option.map_eq_some_iff.mp hfs
  simp only [mem_append, mem_flatMap] at h
  rcases h with (((((h | h) | h) | ⟨_, -, h⟩) | ⟨_, -, h⟩) | ⟨_, -, h⟩) | ⟨_, -, h⟩
  · exact fault_of_treeFaults h
  · exact fault_of_referenceFaults hreferences h
  · exact fault_of_replicatorsFaults h
  · exact fault_of_propertyFaults h
  · exact fault_of_signalFaults h
  · exact fault_of_functionFaults h
  · exact fault_of_resourceFaults h

/-- A check fails with a fault of the class, or with several. -/
lemma fault_of_check (h : c.check s reg = .failed f) :
    c.Fault f ∨ ∃ fs, f = .join fs ∧ ∀ g ∈ fs, c.Fault g := by
  unfold check at h
  split at h
  · cases h
    exact .inl (.bare ..)
  · split at h
    · cases h
      exact .inl (.bare ..)
    · split at h
      · cases h
      · split at h
        · cases h
        · rename_i e hnames
          cases h
          obtain ⟨rs, hrs, -⟩ := c.checkNames_eq_reports s
          rw [hnames] at hrs
          split at hrs
          · cases hrs
          · refine .inr ⟨_, Option.some.inj hrs, fun g hg => ?_⟩
            obtain ⟨r, -, rfl⟩ := mem_map.mp hg
            exact .bare ..
      · rename_i fs hne hfs
        cases h
        exact .inr ⟨fs, rfl, fun g hg => fault_of_faults hfs hg⟩

lemma has_config_of_check (h : c.check s reg = .failed f) : f.has .config = false := by
  rcases fault_of_check h with hf | ⟨fs, rfl, hfs⟩
  · exact hf.has_config
  · exact Failure.has_join_eq_false fun g hg => (hfs g hg).has_config

lemma has_config_of_entryPoint {package : String}
    (h : c.entryPoint s package = .error f) : f.has .config = false := by
  unfold entryPoint at h
  split at h
  · cases h
    simp
  · cases h

end

end Class

/-! Faults of a description. -/

section

variable {ε α β : Type} {e : ε} {x : Except ε α} {xs : List α}

lemma bind_eq_error {k : α → Except ε β} (h : (x >>= k) = .error e) :
    x = .error e ∨ ∃ a, k a = .error e := by
  cases x with
  | error e' =>
    cases h
    exact .inl rfl
  | ok a => exact .inr ⟨a, h⟩

lemma map_eq_error {k : α → β} (h : x.map k = .error e) : x = .error e := by
  cases x with
  | error e' =>
    cases h
    rfl
  | ok a => cases h

lemma exists_of_mapM_eq_error {g : α → Except ε β} (h : xs.mapM g = .error e) :
    ∃ x, g x = .error e := by
  induction xs with
  | nil => cases h
  | cons x xs ih =>
    rw [mapM_cons] at h
    rcases bind_eq_error h with hx | ⟨b, h⟩
    · exact ⟨x, hx⟩
    · rcases bind_eq_error h with hxs | ⟨bs, h⟩
      · exact ih hxs
      · cases h

lemma exists_of_foldlM_eq_error {g : β → α → Except ε β} {b : β} (h : xs.foldlM g b = .error e) :
    ∃ b x, g b x = .error e := by
  induction xs generalizing b with
  | nil => cases h
  | cons x xs ih =>
    rcases bind_eq_error h with hx | ⟨b', h⟩
    · exact ⟨b, x, hx⟩
    · exact ih h

end

namespace Description

/-- The forms that the faults of a description have. -/
inductive Fault : Failure → Prop
  | bare (c object message : Text) : Fault (.load c object message none)
  | caused (c object message cause : Text) : Fault (.load c object message (some (.plain cause)))

lemma Fault.has_config {f : Failure} (h : Fault f) : f.has .config = false := by
  cases h <;> simp

variable {f : Failure} {className : Text} {d : Description}

lemma fault_of_replicator {r : Option ReplicatorDescription}
    (h : ReplicatorDescription.build className r = .error f) : Fault f := by
  cases r with
  | none =>
    cases h
    exact .bare ..
  | some r =>
    rw [ReplicatorDescription.build] at h
    split at h
    · cases h
      exact .caused ..
    · cases h

lemma fault_of_buildProperties {id : Text} {ps : List (Text × Option ValueDescription)}
    (h : ObjectDescription.buildProperties className id ps = .error f) : Fault f := by
  induction ps with
  | nil => cases h
  | cons p ps ih =>
    rw [ObjectDescription.buildProperties] at h
    split at h
    · cases h
      exact .caused ..
    · exact ih (map_eq_error h)

mutual

lemma fault_of_buildObject {lookup : Text → Option Outline} {className : Text} :
    ∀ d : ObjectDescription, d.build lookup className = .error f → Fault f
  | .absent, h => by
    cases h
    exact .bare ..
  | .object id type properties children, h => by
    rw [ObjectDescription.build] at h
    split at h
    · cases h
      exact .bare ..
    · rcases bind_eq_error h with h | ⟨_, h⟩
      · exact fault_of_buildProperties h
      · rcases bind_eq_error h with h | ⟨_, h⟩
        · exact fault_of_buildAll children h
        · cases h

lemma fault_of_buildAll {lookup : Text → Option Outline} {className : Text} :
    ∀ ds : List ObjectDescription, ObjectDescription.buildAll lookup className ds = .error f →
      Fault f
  | [], h => by cases h
  | d :: ds, h => by
    rw [ObjectDescription.buildAll] at h
    rcases bind_eq_error h with h | ⟨_, h⟩
    · exact fault_of_buildObject d h
    · rcases bind_eq_error h with h | ⟨_, h⟩
      · exact fault_of_buildAll ds h
      · cases h

end

lemma fault_of_buildRoot {lookup : Text → Option Outline} {d : ClassDescription}
    (h : d.buildRoot lookup = .error f) : Fault f := by
  unfold ClassDescription.buildRoot at h
  split at h
  · cases h
    exact .bare ..
  · split at h
    · cases h
      exact .bare ..
    · split at h
      · cases h
      · exact fault_of_buildObject d.root (map_eq_error h)

lemma fault_of_register {d : Option ClassDescription}
    (h : register reg d = .error f) : Fault f := by
  cases d with
  | none =>
    cases h
    exact .bare ..
  | some d =>
    rcases bind_eq_error h with h | ⟨c, h⟩
    · rcases bind_eq_error h with h | ⟨rs, h⟩
      · obtain ⟨r, hr⟩ := exists_of_mapM_eq_error h
        exact fault_of_replicator hr
      · cases h
    · split at h
      · cases h
      · cases h
        exact .caused ..

/-- A description is refused with one fault, or with those of its trees. -/
lemma fault_of_build (h : d.build = .error f) :
    Fault f ∨ ∃ fs, f = .join fs ∧ ∀ g ∈ fs, Fault g := by
  rcases bind_eq_error h with h | ⟨heads, h⟩
  · obtain ⟨reg, entry, h⟩ := exists_of_foldlM_eq_error h
    exact .inl (fault_of_register h)
  · dsimp only at h
    split at h
    · cases h
    · cases h
      refine .inr ⟨_, rfl, fun g hg => ?_⟩
      obtain ⟨x, hx, hg⟩ := mem_filterMap.mp hg
      obtain ⟨k, -, rfl⟩ := mem_map.mp hx
      split at hg
      · rename_i e he
        cases hg
        exact fault_of_buildRoot he
      · cases hg

lemma has_config_of_build (h : d.build = .error f) : f.has .config = false := by
  rcases fault_of_build h with hf | ⟨fs, rfl, hfs⟩
  · exact hf.has_config
  · exact Failure.has_join_eq_false fun g hg => (hfs g hg).has_config

end Description

/-! Failures of tasks. -/

namespace Run

variable {ds : List Deed} {e : Failure}

lemma Saving.has_config {className : Text} {file : SourceFile} {path : String}
    (h : Saving s className file path ds (.error e)) : e.has .config = false := by
  cases h <;> simp [openCause]

/-- No setting is blamed in the outcome of a class. -/
lemma Way.has_config {workDir : String} {c : Class} {o : Outcome} (h : Way s workDir reg c ds o) :
    ∀ e ∈ o.failures, e.has .config = false := by
  cases h with
  | unstarted => simp [cancelled]
  | refused h => simp [Class.has_config_of_check h]
  | noArtifact _ _ h | unsavedProgram _ _ _ _ h => exact forall_mem_singleton.mpr h.has_config
  | noProgram _ _ _ h => exact forall_mem_singleton.mpr (Class.has_config_of_entryPoint h)
  | withProgram => exact forall_mem_nil _
  | withoutProgram => simp [fileCause]

lemma Result.has_config {r : Result} (h : ∀ e ∈ r.report.failures, e.has .config = false)
    (he : r.failure? = some e) : e.has .config = false := by
  rw [Result.failure?, Report.failure?_eq] at he
  split at he
  · cases he
  · cases he
    exact Failure.has_join_eq_false h

end Run

namespace Generator

open Run

variable {g : Generator} {workDir : String} {limit : Option Nat} {f f' : Files}

/-- No setting is blamed in the report of a run, whatever the order of the actions of its tasks and
the moment at which it is cancelled. -/
lemma Ends.has_config {r : Result} (h : g.Ends workDir limit f r f') :
    ∀ e ∈ r.report.failures, e.has .config = false := by
  unfold Ends at h
  split at h
  · rw [h.1]
    exact forall_mem_nil _
  · obtain ⟨os, hrun, rfl⟩ := h
    intro e he
    obtain ⟨o, ho, he⟩ := mem_flatMap.mp he
    obtain ⟨c, -, -, ds, hway⟩ := exists_of_mem hrun.ways ho
    exact hway.has_config e he

end Generator

end ReactiveModel
