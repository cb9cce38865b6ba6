import ReactiveModel.Proofs.Accounting
import ReactiveModel.Proofs.Build
import ReactiveModel.Proofs.Emission

/-! What the generator can rely on when its classes were described. A class of a registry that was
built is never checked or emitted past something that is missing, and its check has no word on what
a description cannot leave out. -/

namespace ReactiveModel

open List

/-! Counts that are refused. -/

/-- A value that is no number of instances: no number, or a finite one that is negative, fractional
or too large. -/
inductive Value.Uncountable (v : Value) : Prop
  | text (h : v.kind = .string)
  | binding (h : v.kind = .binding)
  | negative (h : v.kind = .number) (hfinite : v.num.isFinite = true)
      (hzero : v.num.isZero = false) (hnegative : v.num.negative = true)
  | fractional (h : v.kind = .number) (hfinite : v.num.isFinite = true)
      (hratio : ¬ v.num.ratio.2 ∣ v.num.ratio.1)
  | large (h : v.kind = .number) (hfinite : v.num.isFinite = true)
      (hratio : 2147483647 * v.num.ratio.2 < v.num.ratio.1)

variable {x : Binary64}

lemma Binary64.toNat?_eq_none (hfinite : x.isFinite) (h : x.toNat? = none) :
    (x.isZero = false ∧ x.negative = true) ∨ ¬ x.ratio.2 ∣ x.ratio.1 := by
  unfold toNat? at h
  cases hzero : x.isZero with
  | true => simp [hfinite, hzero] at h
  | false =>
    cases hnegative : x.negative with
    | true => exact .inl ⟨rfl, rfl⟩
    | false =>
      refine .inr fun hdvd => ?_
      simp [hfinite, hzero, hnegative, Nat.mod_eq_zero_of_dvd hdvd] at h

lemma Binary64.ratio_of_toNat? {n : Nat} (h : x.toNat? = some n) (hn : 0 < n) :
    x.isFinite = true ∧ x.ratio.1 = n * x.ratio.2 := by
  unfold toNat? at h
  split at h
  · nomatch h
  · rename_i hfinite
    split at h
    · cases h
      nomatch hn
    · split at h
      · nomatch h
      · dsimp only at h
        split at h
        · rename_i hmod
          cases h
          have hfinite : x.isFinite = true := by simpa using hfinite
          refine ⟨hfinite, (Nat.div_mul_cancel (Nat.dvd_of_mod_eq_zero ?_)).symm⟩
          simpa using hmod
        · nomatch h

lemma Binary64.ratio_pos (x : Binary64) : 0 < x.ratio.2 := by
  unfold ratio
  split
  · exact Nat.one_pos
  · exact Nat.pow_pos (Nat.succ_pos 1)

lemma Value.uncountable_of_count {v : Value} (hfault : v.fault? = none) {e : CountFault}
    (h : v.count = .error e) : v.Uncountable := by
  cases hk : v.kind with
  | string => exact .text hk
  | binding => exact .binding hk
  | other n => simp [fault?, hk] at hfault
  | number =>
    have hfinite : v.num.isFinite = true := by
      simp only [fault?, hk] at hfault
      split at hfault
      · cases hfault
      · split at hfault
        · cases hfault
        · simpa using ‹¬ (!v.num.isFinite) = true›
    cases hn : v.num.toNat? with
    | none =>
      rcases Binary64.toNat?_eq_none hfinite hn with ⟨hzero, hnegative⟩ | hratio
      · exact .negative hk hfinite hzero hnegative
      · exact .fractional hk hfinite hratio
    | some n =>
      have hlarge : maxCount < n := by
        by_contra hle
        have hok : v.count = .ok n := count_eq_ok_iff.mpr ⟨hk, hn, Nat.le_of_not_lt hle⟩
        cases h.symm.trans hok
      obtain ⟨-, hratio⟩ := Binary64.ratio_of_toNat? hn (Nat.zero_lt_of_lt hlarge)
      refine .large hk hfinite ?_
      rw [hratio]
      exact Nat.mul_lt_mul_of_pos_right hlarge v.num.ratio_pos

/-! Messages that stand in failures. -/

namespace Failure

mutual

/-- The messages of a failure and of those behind it. -/
def texts : Failure → List Text
  | .plain m | .reference _ _ _ m => [m]
  | .sentinel k => [k.text]
  | .schema _ _ m cause | .generation _ _ _ m cause | .load _ _ m cause => m :: causeTexts cause
  | .config _ _ m => [m]
  | .decode d => [d.message]
  | .join fs => partTexts fs

def causeTexts : Option Failure → List Text
  | none => []
  | some f => texts f

def partTexts : List Failure → List Text
  | [] => []
  | f :: fs => texts f ++ partTexts fs

end

def parts : Failure → List Failure
  | .join fs => fs
  | f => [f]

lemma partTexts_eq (fs : List Failure) : partTexts fs = fs.flatMap texts := by
  induction fs with
  | nil => rfl
  | cons f fs ih => rw [partTexts, ih, flatMap_cons]

lemma texts_eq_parts (f : Failure) : f.texts = f.parts.flatMap texts := by
  cases f with
  | join fs => exact partTexts_eq fs
  | _ => simp [parts]

end Failure

/-! Messages of a check. -/

namespace Class

variable {message : Text} {fs gs : List Failure}

/-- Messages of the check on what a description always gives. -/
def undescribed : List Text :=
  ["generated class has no root object", "object has no class", "invalid property value"]

/-- These, and the message on counts. -/
def noted : List Text := "invalid count" :: undescribed

/-- A message is none of these if a part of it stands in none of them. -/
lemma notMem_noted (part : Text) (h : part.bytes <:+: message.bytes)
    (hpart : (noted.all fun m => !decide (part.bytes <:+: m.bytes)) = true) : message ∉ noted := by
  intro hmem
  have hnot := all_eq_true.mp hpart message hmem
  simp [h] at hnot

lemma ofString_append_notMem (part rest : String)
    (hpart : (noted.all fun m => !decide ((part : Text).bytes <:+: m.bytes)) = true) :
    Text.ofString (part ++ rest) ∉ noted := by
  rw [Text.ofString_append]
  exact notMem_noted part (prefix_append _ _).isInfix hpart

lemma countFault_notMem (e : Value.CountFault) : Text.ofString e.message ∉ noted := by
  cases e with
  | kind k => exact ofString_append_notMem "count must be a number, got " k.name (by decide)
  | number t =>
    exact ofString_append_notMem "count must be a non-negative integer, got " t (by decide)

/-- Failures without any of these messages. -/
def Unnoted (fs : List Failure) : Prop := ∀ f ∈ fs, ∀ m ∈ f.texts, m ∉ noted

lemma unnoted_nil : Unnoted [] := forall_mem_nil _

lemma Unnoted.append (hfs : Unnoted fs) (hgs : Unnoted gs) :
    Unnoted (fs ++ gs) := forall_mem_append.mpr ⟨hfs, hgs⟩

lemma unnoted_flatMap {α : Type} {xs : List α} {f : α → List Failure}
    (h : ∀ x ∈ xs, Unnoted (f x)) : Unnoted (xs.flatMap f) := by
  intro g hg
  obtain ⟨x, hx, hg⟩ := mem_flatMap.mp hg
  exact h x hx g hg

lemma unnoted_singleton {f : Failure} (h : ∀ m ∈ f.texts, m ∉ noted) : Unnoted [f] :=
  forall_mem_singleton.mpr h

lemma unnoted_schemaFault (c : Class) (member : Text) (h : message ∉ noted) :
    Unnoted [c.schemaFault member message] :=
  unnoted_singleton (forall_mem_singleton.mpr h)

lemma unnoted_reference (name kind target : Text) (h : message ∉ noted) :
    Unnoted [.reference name kind target message] :=
  unnoted_singleton (forall_mem_singleton.mpr h)

lemma unnoted_ite {p : Prop} [Decidable p] (hfs : Unnoted fs) (hgs : Unnoted gs) :
    Unnoted (if p then fs else gs) := by
  split
  · exact hfs
  · exact hgs

section

variable (c : Class)

lemma noAlloc_notMem (name : Text) :
    ("class " ++ name ++ " has no alloc expression" : Text) ∉ noted :=
  notMem_noted " has no alloc expression" (suffix_append _ _).isInfix (by decide)

/-- An object with its class and with values that are in order. -/
lemma unnoted_objectFaults (seen : List Text) {o : Node} (htyped : ∃ t, o.type = some t)
    (hvalues : ∀ p ∈ o.properties.table, p.2.fault? = none) : Unnoted (c.objectFaults seen o) := by
  obtain ⟨t, ht⟩ := htyped
  refine unnoted_ite (c.unnoted_schemaFault _ (by decide)) ((Unnoted.append ?_ ?_).append ?_)
  · exact unnoted_ite (c.unnoted_schemaFault _ (by decide))
      (unnoted_ite (c.unnoted_schemaFault _ (by decide)) unnoted_nil)
  · rw [ht]
    exact unnoted_ite (c.unnoted_schemaFault _ (noAlloc_notMem t.name)) unnoted_nil
  · refine unnoted_flatMap fun p hp => ?_
    unfold valueFaults
    rw [hvalues p hp]
    exact (unnoted_ite unnoted_nil (c.unnoted_schemaFault _ (by decide))).append unnoted_nil

lemma unnoted_treeFaults {os : List Node}
    (h : ∀ o ∈ os, (∃ t, o.type = some t) ∧ ∀ p ∈ o.properties.table, p.2.fault? = none)
    (seen : List Text) : Unnoted (c.treeFaults seen os) := by
  intro f hf
  obtain ⟨before, o, ho, hf⟩ := exists_of_mem_faultsInTurn hf
  exact c.unnoted_objectFaults before (h o ho).1 (h o ho).2 f hf

lemma unnoted_dependencyFaults (id name : Text) (d : Dependency) :
    Unnoted (c.dependencyFaults id name d) := by
  have hobject : ("binding " ++ id ++ "." ++ name ++ " depends on an unknown object" : Text) ∉
        noted :=
    notMem_noted " depends on an unknown object" (suffix_append _ _).isInfix (by decide)
  have hproperty : ("dependency property " ++ d.property.quoted ++
        " is not a Go identifier" : Text) ∉
      noted :=
    notMem_noted " is not a Go identifier" (suffix_append _ _).isInfix (by decide)
  have hdeclared (type : Text) : ("binding " ++ id ++ "." ++ name ++
      " depends on a property class " ++ type ++ " does not declare" : Text) ∉ noted :=
    notMem_noted " does not declare" (suffix_append _ _).isInfix (by decide)
  unfold dependencyFaults
  split
  · exact unnoted_reference _ _ _ hobject
  · refine unnoted_ite (c.unnoted_schemaFault _ hproperty) ?_
    split
    · exact unnoted_nil
    · exact unnoted_ite (unnoted_reference _ _ _ (hdeclared _)) unnoted_nil

lemma unnoted_referenceFaults {fs : List Failure} (h : c.referenceFaults = some fs) :
    Unnoted fs := by
  intro f hf
  obtain ⟨id, name, d, hf⟩ := exists_dependency_of_mem h hf
  exact c.unnoted_dependencyFaults id name d f hf

/-- The failure of a replicator whose count is refused. -/
def countFailure (r : Replicator) (e : Value.CountFault) : Failure :=
  .schema c.name ("replicator " ++ r.id) "invalid count" (some (.plain e.message))

lemma replicatorFaults_noted (reg : Registry) (seen : List Text) (r : Replicator) :
    ∀ f ∈ c.replicatorFaults reg seen r, (∀ m ∈ f.texts, m ∉ noted) ∨
      ∃ e, r.count.count = .error e ∧ f = c.countFailure r e := by
  have hunknown : ("replicator " ++ r.id ++ " instantiates an unknown class" : Text) ∉ noted :=
    notMem_noted " instantiates an unknown class" (suffix_append _ _).isInfix (by decide)
  have hparent : ("replicator " ++ r.id ++ " attaches to an unknown object" : Text) ∉ noted :=
    notMem_noted " attaches to an unknown object" (suffix_append _ _).isInfix (by decide)
  have hid : Unnoted (if !Naming.isBase r.id then
      [c.schemaFault ("replicator " ++ r.id) "replicator id is not a Go identifier"]
      else if seen.contains r.id then
        [c.schemaFault ("replicator " ++ r.id) "duplicate replicator id"] else []) :=
    unnoted_ite (c.unnoted_schemaFault _ (by decide))
      (unnoted_ite (c.unnoted_schemaFault _ (by decide)) unnoted_nil)
  intro f hf
  simp only [replicatorFaults, mem_append] at hf
  rcases hf with ((hf | hf) | hf) | hf
  · exact .inl (hid f hf)
  · refine .inl ?_
    split at hf
    · exact unnoted_reference _ _ _ hunknown f hf
    · exact unnoted_ite (c.unnoted_schemaFault _ (noAlloc_notMem _)) unnoted_nil f hf
  · split at hf
    · cases hf
    · rename_i e he
      exact .inr ⟨e, he, mem_singleton.mp hf⟩
  · exact .inl (unnoted_ite (unnoted_reference _ _ _ hparent) unnoted_nil f hf)

lemma replicatorsFaults_noted (reg : Registry) (seen : List Text) (rs : List Replicator) :
    ∀ f ∈ c.replicatorsFaults reg seen rs, (∀ m ∈ f.texts, m ∉ noted) ∨
      ∃ r ∈ rs, ∃ e, r.count.count = .error e ∧ f = c.countFailure r e := by
  intro f hf
  obtain ⟨before, r, hr, hf⟩ := exists_of_mem_faultsInTurn hf
  exact (c.replicatorFaults_noted reg before r f hf).imp_right fun h => ⟨r, hr, h⟩

lemma unnoted_declarations :
    Unnoted (c.properties.flatMap c.propertyFaults) ∧ Unnoted (c.signals.flatMap c.signalFaults) ∧
      Unnoted (c.functions.flatMap c.functionFaults) ∧
      Unnoted (c.resources.flatMap c.resourceFaults) := by
  refine ⟨unnoted_flatMap fun p _ => ?_, unnoted_flatMap fun s _ => ?_,
    unnoted_flatMap fun f _ => ?_, unnoted_flatMap fun r _ => ?_⟩
  · exact (unnoted_ite unnoted_nil (c.unnoted_schemaFault _ (by decide))).append
      (unnoted_ite (c.unnoted_schemaFault _ (by decide)) unnoted_nil)
  · refine (unnoted_ite unnoted_nil (c.unnoted_schemaFault _ (by decide))).append ?_
    refine unnoted_ite (unnoted_singleton ?_) unnoted_nil
    exact forall_mem_cons.mpr ⟨by decide, forall_mem_singleton.mpr (by decide)⟩
  · exact unnoted_ite unnoted_nil (c.unnoted_schemaFault _ (by decide))
  · exact (unnoted_ite unnoted_nil (c.unnoted_schemaFault _ (by decide))).append
      (unnoted_ite (c.unnoted_schemaFault _ (by decide)) unnoted_nil)

lemma unnoted_collisions (seen ms : List Member) : Unnoted (c.collisions seen ms) := by
  have hcollides (role earlier : Text) : (role ++ " collides with " ++ earlier : Text) ∉ noted :=
    notMem_noted " collides with " ⟨role.bytes, earlier.bytes, rfl⟩ (by decide)
  induction ms generalizing seen with
  | nil => exact unnoted_nil
  | cons m ms ih =>
    unfold collisions
    split
    · exact (c.unnoted_schemaFault _ (hcollides _ _)).append (ih seen)
    · exact ih _

end

/-! Classes that were described. -/

/-- What a description gives to a class that is generated. -/
structure Described (c : Class) : Prop where
  rooted : ∃ t, c.root = some t
  typed : ∀ o ∈ c.objects, ∃ t, o.type = some t
  values : ∀ o ∈ c.objects, ∀ p ∈ o.properties.table, p.2.fault? = none
  counts : ∀ r ∈ c.replicators, r.count.fault? = none

lemma typed_of_headDescribes {lookup : Text → Option Outline} {d : ObjectDescription} {o : Node}
    (h : d.HeadDescribes lookup o) : ∃ t, o.type = some t := by
  cases h
  exact ⟨_, rfl⟩

lemma described_of_build {d : Description} {reg : Registry} (h : d.build = .ok reg) {c : Class}
    (hc : c ∈ reg.generated) : c.Described := by
  obtain ⟨ds, -, hformed, hdescribes⟩ := Description.describes_of_build h
  obtain ⟨hmem, hgenerated⟩ := mem_filter.mp hc
  have hlookup := Registry.lookup_name hmem
  obtain ⟨k, hk, hname⟩ := mem_map.mp (hdescribes.only c.name (by simp [hlookup]))
  obtain ⟨c', hc', hclass⟩ := hdescribes.held k hk
  rw [hname, hlookup] at hc'
  obtain rfl := Option.some.inj hc'
  obtain ⟨t, ht⟩ : ∃ t, c.root = some t := by
    have hpresent : k.root.isAbsent = false := by
      rw [(hformed.classes k hk).rooted, ← hclass.outline]
      simpa [Outline.isGenerated] using hgenerated
    have hroot := hclass.root
    rw [hpresent] at hroot
    exact hroot.imp fun _ ht => ht.1
  refine ⟨⟨t, ht⟩, ?_, hdescribes.values c.name c hlookup, hdescribes.counts c.name c hlookup⟩
  intro o ho
  rw [objects_of_root ht, ← t.map_snd_withParents none] at ho
  obtain ⟨x, hx, rfl⟩ := mem_map.mp ho
  have hplaces := hdescribes.parents k hk c t (hname ▸ hlookup) ht
  obtain ⟨e, -, -, he⟩ := exists_of_mem hplaces hx
  exact typed_of_headDescribes he

namespace Described

variable {s : Settings} {reg : Registry} {c : Class}

/-- No binding is missing where the check follows its dependencies. -/
lemma exists_referenceFaults (h : c.Described) : ∃ fs, c.referenceFaults = some fs := by
  have hall : ∀ x ∈ c.objects.flatMap fun o => o.properties.table.map (c.bindingFaults o.id),
      id x = some (x.getD []) := by
    intro x hx
    obtain ⟨o, ho, hx⟩ := mem_flatMap.mp hx
    obtain ⟨p, hp, rfl⟩ := mem_map.mp hx
    have hvalue := h.values o ho p hp
    unfold bindingFaults
    split
    · rename_i hb
      have hkind : p.2.kind = .binding := by simpa [Value.isBinding] using hb
      cases hbinding : p.2.binding with
      | none => simp [Value.fault?, hkind, hbinding] at hvalue
      | some b => rfl
    · rfl
  exact ⟨_, by rw [referenceFaults, mapM_eq_some_map hall, Option.map_some]⟩

/-- Of the messages that are noted, only that on counts can stand in the faults of the class. -/
lemma faults_noted (h : c.Described) (reg : Registry) :
    ∃ fs, c.faults reg = some fs ∧ ∀ f ∈ fs, (∀ m ∈ f.texts, m ∉ noted) ∨
      ∃ r ∈ c.replicators, ∃ e, r.count.count = .error e ∧ f = c.countFailure r e := by
  obtain ⟨references, hreferences⟩ := h.exists_referenceFaults
  obtain ⟨hproperties, hsignals, hfunctions, hresources⟩ := c.unnoted_declarations
  have htree := c.unnoted_treeFaults (fun o ho => ⟨h.typed o ho, h.values o ho⟩) []
  refine ⟨_, by rw [faults, hreferences, Option.map_some], ?_⟩
  intro f hf
  simp only [mem_append] at hf
  rcases hf with (((((hf | hf) | hf) | hf) | hf) | hf) | hf
  · exact .inl (htree f hf)
  · exact .inl (c.unnoted_referenceFaults hreferences f hf)
  · exact c.replicatorsFaults_noted reg [] c.replicators f hf
  · exact .inl (hproperties f hf)
  · exact .inl (hsignals f hf)
  · exact .inl (hfunctions f hf)
  · exact .inl (hresources f hf)

/-- The check of the class ends, and is silent on what the description gave. -/
lemma check_cases (h : c.Described) (s : Settings) (reg : Registry) :
    c.check s reg = .passed ∨ ∃ e, c.check s reg = .failed e ∧
      ∀ f ∈ e.parts, (∀ m ∈ f.texts, m ∉ noted) ∨
        ∃ r ∈ c.replicators, ∃ e, r.count.count = .error e ∧ f = c.countFailure r e := by
  obtain ⟨t, ht⟩ := h.rooted
  obtain ⟨fs, hfs, hnoted⟩ := h.faults_noted reg
  unfold check
  rw [hfs, ht]
  split
  · exact .inr ⟨_, rfl, fun f hf => .inl (c.unnoted_schemaFault _ (by decide) f hf)⟩
  · cases fs with
    | cons f fs => exact .inr ⟨_, rfl, hnoted⟩
    | nil =>
      cases hnames : c.checkNames s with
      | none => exact .inl rfl
      | some e =>
        refine .inr ⟨e, rfl, fun f hf => .inl ?_⟩
        unfold checkNames at hnames
        split at hnames
        · nomatch hnames
        · cases hnames
          exact c.unnoted_collisions [] (c.members s) f hf

end Described

lemma texts_countFailure (c : Class) (r : Replicator) (e : Value.CountFault) :
    ∀ m ∈ (c.countFailure r e).texts, m ∉ undescribed :=
  forall_mem_cons.mpr ⟨by decide, forall_mem_singleton.mpr fun hmem =>
    countFault_notMem e (mem_cons_of_mem _ hmem)⟩

/-- A class of a registry that was built becomes a file, to which nothing is missing, or fails its
check with an error that is silent on what was described. Counts that are refused are texts,
bindings, or numbers that are negative, fractional or too large. -/
theorem described_class_emits_or_fails (d : Option Description) (reg : Registry)
    (h : Description.buildOptional d = .ok reg) (s : Settings) (workDir : String) (c : Class)
    (hc : c ∈ reg.generated) :
    ((∃ a, c.artifact? s reg = some a ∧
        c.file s workDir reg = .file (a.file s (s.goPackage workDir))) ∨
      ∃ e, c.file s workDir reg =
          .failed (.generation c.name "check" (Naming.classFile c.name) "artifact not written"
            (some e)) ∧
        c.check s reg = .failed e ∧
        (∀ m ∈ ["generated class has no root object", "object has no class",
          "invalid property value"], Text.ofString m ∉ e.texts) ∧
        ∀ f ∈ e.parts, Text.ofString "invalid count" ∈ f.texts → ∃ r ∈ c.replicators, ∃ fault,
          r.count.count = .error fault ∧ f = c.countFailure r fault) ∧
      ∀ r ∈ c.replicators, ∀ fault, r.count.count = .error fault → r.count.Uncountable := by
  have hdescribed : c.Described := by
    cases d with
    | none => nomatch h
    | some d => exact described_of_build h hc
  refine ⟨?_, fun r hr fault hfault => Value.uncountable_of_count (hdescribed.counts r hr) hfault⟩
  rcases hdescribed.check_cases s reg with hpassed | ⟨e, hfailed, hparts⟩
  · exact Or.inl ⟨_, (complete_of_check hpassed).artifact?_eq, by rw [file, hpassed]⟩
  · refine Or.inr ⟨e, by rw [file, hfailed], hfailed, fun m hm hmem => ?_, fun f hf hcount => ?_⟩
    · have hundescribed : Text.ofString m ∈ undescribed := List.mem_map_of_mem hm
      rw [e.texts_eq_parts] at hmem
      obtain ⟨f, hf, hmem⟩ := List.mem_flatMap.mp hmem
      rcases hparts f hf with hnoted | ⟨r, -, fault, -, rfl⟩
      · exact hnoted _ hmem (List.mem_cons_of_mem _ hundescribed)
      · exact c.texts_countFailure r fault _ hmem hundescribed
    · exact (hparts f hf).resolve_left fun hnoted => hnoted _ hcount List.mem_cons_self

/-- A dial with two and a half marks. -/
def dialDescription : Description :=
  let box : ClassDescription := { name := "Box", declarationOnly := true, alloc := "box()" }
  let marks : ReplicatorDescription :=
    { id := "marks", className := "Box", count := { number := some ⟨0x4004000000000000⟩ },
      parent := "face" }
  { classes := some [some box, some
      { name := "Dial", replicators := [some marks], root := .object "face" "Box" [] [] }] }

def dialRegistry : Registry := dialDescription.build.toOption.getD {}

def dial : Class := (dialRegistry.lookup "Dial").getD default

theorem described_dial :
    Description.buildOptional (some dialDescription) = .ok dialRegistry ∧
      dial ∈ dialRegistry.generated ∧
      (∃ r ∈ dial.replicators, r.count.Uncountable) ∧
      ∃ e, dial.check {} dialRegistry = .failed e ∧
        Text.ofString "object has no class" ∉ e.texts := by
  have hbuild : Description.buildOptional (some dialDescription) = .ok dialRegistry := by rfl
  have hmem : dial ∈ dialRegistry.generated := .head _
  obtain ⟨hends, hcounts⟩ :=
    described_class_emits_or_fails (some dialDescription) dialRegistry hbuild {} "/work" dial hmem
  refine ⟨hbuild, hmem, ⟨_, .head _, hcounts _ (.head _) (.number "2.5") (by rfl)⟩, ?_⟩
  have hfailed : ∃ e, dial.check {} dialRegistry = .failed e := ⟨_, rfl⟩
  rcases hends with ⟨a, -, hfile⟩ | ⟨e, -, hcheck, hsilent, -⟩
  · obtain ⟨e, he⟩ := hfailed
    rw [file, he] at hfile
    nomatch hfile
  · exact ⟨e, hcheck, hsilent _ (.tail _ (.head _))⟩
end Class

end ReactiveModel
