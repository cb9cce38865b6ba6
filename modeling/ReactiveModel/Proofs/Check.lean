import Mathlib.Data.List.Nodup
import Mathlib.Data.List.Count
import ReactiveModel.Artifact.Check
import ReactiveModel.Proofs.TreeWalk

/-! What the check of a class assures. Each list of faults is empty under a condition on the
declarations that does not mention faults. -/

namespace ReactiveModel

open List Naming
/-- A class that is only declared, for objects of other classes. -/
def Outline.box : Outline := { name := "Box", declarationOnly := true, alloc := "box()" }

namespace Class

variable {c : Class} {seen : List Text} {reg : Registry} {s : Settings} {p : Text × Value}
  {o : Node}

lemma check_eq_passed_iff :
    c.check s reg = .passed ↔
      isName c.name = true ∧ (∃ t, c.root = some t) ∧ c.faults reg = some [] ∧
        c.checkNames s = none := by
  unfold check
  cases hn : isName c.name with
  | false => simp
  | true =>
    cases hr : c.root with
    | none => simp
    | some t =>
      cases hf : c.faults reg with
      | none => simp
      | some fs =>
        cases fs with
        | nil => cases hc : c.checkNames s <;> simp
        | cons f fs => simp

/-! Names used twice. -/

lemma collisions_eq_map (c : Class) (seen ms : List Member) :
    ∃ rs : List (Text × Text),
      c.collisions seen ms = rs.map (fun r => .schema c.name r.1 r.2 none) ∧
        ∀ n, (rs.map Prod.fst).count n =
          (ms.map Member.name).count n - if n ∈ seen.map Member.name then 0 else 1 := by
  induction ms generalizing seen with
  | nil => exact ⟨[], rfl, fun n => by simp⟩
  | cons m ms ih =>
    cases hf : seen.find? (·.name == m.name) with
    | some e =>
      obtain ⟨rs, hrs, hcount⟩ := ih seen
      have hm : m.name ∈ seen.map Member.name := by
        have he : e.name = m.name := by simpa using find?_some hf
        exact mem_map.mpr ⟨e, mem_of_find?_eq_some hf, he⟩
      refine ⟨(m.name, m.role ++ " collides with " ++ e.role) :: rs, ?_, fun n => ?_⟩
      · simp [collisions, hf, hrs, schemaFault]
      · by_cases hn : m.name = n
        · subst hn
          have hc := hcount m.name
          simp only [hm, if_true] at hc ⊢
          simp [hc]
        · simpa [hn] using hcount n
    | none =>
      obtain ⟨rs, hrs, hcount⟩ := ih (seen ++ [m])
      have hm : m.name ∉ seen.map Member.name := by
        intro h
        obtain ⟨e, he, hen⟩ := mem_map.mp h
        exact absurd hen (by simpa using find?_eq_none.mp hf e he)
      refine ⟨rs, by simp [collisions, hf, hrs], fun n => ?_⟩
      by_cases hn : m.name = n
      · subst hn
        simp only [hcount, hm, if_false]
        simp
      · have hne : n ≠ m.name := fun h => hn h.symm
        simpa [hn, hne] using hcount n

/-- The check reports each occurrence of a name after its first. -/
lemma checkNames_eq_reports (s : Settings) (c : Class) :
    ∃ rs : List (Text × Text),
      c.checkNames s =
          (if rs = [] then none else some (.join (rs.map fun r => .schema c.name r.1 r.2 none))) ∧
        ∀ n, (rs.map Prod.fst).count n = ((c.members s).map Member.name).count n - 1 := by
  obtain ⟨rs, hrs, hcount⟩ := c.collisions_eq_map [] (c.members s)
  refine ⟨rs, ?_, by simpa using hcount⟩
  unfold checkNames
  rw [hrs]
  cases rs <;> simp

lemma checkNames_eq_none_iff : c.checkNames s = none ↔ ((c.members s).map Member.name).Nodup := by
  obtain ⟨rs, hrs, hcount⟩ := c.checkNames_eq_reports s
  have hnil : c.checkNames s = none ↔ rs = [] := by
    rw [hrs]
    split <;> simp [*]
  rw [hnil, nodup_iff_count_le_one]
  constructor
  · intro h n
    have hz := hcount n
    simp only [h, map_nil, count_nil] at hz
    omega
  · intro h
    have hnone : ∀ n, n ∉ rs.map Prod.fst := by
      intro n hn
      have hpos : 0 < (rs.map Prod.fst).count n := count_pos_iff.mpr hn
      have hle := h n
      have hc := hcount n
      omega
    exact map_eq_nil_iff.mp (eq_nil_iff_forall_not_mem.mpr hnone)

/-! Objects of the tree. -/

/-- What an object of an accepted class is like, without regard to other objects. -/
structure ObjectSound (o : Node) : Prop where
  base : Naming.isBase o.id = true
  id_ne : o.id ≠ ""
  typed : ∃ t, o.type = some t ∧ t.alloc.isBlank = false
  values : ∀ p ∈ o.properties.table, Naming.isBase p.1 = true ∧ p.2.fault? = none

lemma valueFaults_eq_nil_iff {id : Text} :
    c.valueFaults id p = [] ↔ isBase p.1 = true ∧ p.2.fault? = none := by
  unfold valueFaults
  cases hb : isBase p.1 <;> cases hf : p.2.fault? <;> simp

lemma objectFaults_eq_nil_iff : c.objectFaults seen o = [] ↔ ObjectSound o ∧ o.id ∉ seen := by
  by_cases hid : o.id = ""
  · constructor
    · intro h; simp [objectFaults, hid] at h
    · intro h; exact absurd hid h.1.id_ne
  · have hv : o.properties.table.flatMap (c.valueFaults o.id) = [] ↔
        ∀ p ∈ o.properties.table, isBase p.1 = true ∧ p.2.fault? = none := by
      simp only [flatMap_eq_nil_iff, valueFaults_eq_nil_iff]
    constructor
    · intro h
      simp only [objectFaults, beq_iff_eq, hid, if_false, append_eq_nil_iff, hv] at h
      obtain ⟨⟨hb, ht⟩, hp⟩ := h
      cases hbase : isBase o.id with
      | false => simp [hbase] at hb
      | true =>
        have hseen : o.id ∉ seen := by simpa [hbase] using hb
        refine ⟨⟨hbase, hid, ?_, hp⟩, hseen⟩
        cases hty : o.type with
        | none => simp [hty] at ht
        | some t =>
          refine ⟨t, rfl, ?_⟩
          cases hal : t.alloc.isBlank with
          | false => rfl
          | true => simp [hty, hal] at ht
    · rintro ⟨ho, hseen⟩
      obtain ⟨t, hty, hal⟩ := ho.typed
      simp only [objectFaults, beq_iff_eq, hid, if_false, append_eq_nil_iff, hv]
      exact ⟨⟨by simp [ho.base, hseen], by simp [hty, hal]⟩, ho.values⟩

section

variable {α : Type} {idOf : α → Text} {faults : List Text → α → List Failure} {xs : List α}

lemma faultsInTurn_eq_nil_iff {sound : α → Prop}
    (h : ∀ seen x, faults seen x = [] ↔ sound x ∧ idOf x ∉ seen) :
    faultsInTurn idOf faults seen xs = [] ↔
      (∀ x ∈ xs, sound x ∧ idOf x ∉ seen) ∧ (xs.map idOf).Nodup := by
  induction xs generalizing seen with
  | nil => simp [faultsInTurn]
  | cons x xs ih =>
    rw [forall_mem_cons]
    simp only [faultsInTurn, append_eq_nil_iff, h, ih, map_cons, nodup_cons, mem_map, mem_cons,
      not_or, not_exists, not_and]
    constructor
    · rintro ⟨hx, hxs, hnd⟩
      exact ⟨⟨hx, fun u hu => ⟨(hxs u hu).1, (hxs u hu).2.2⟩⟩, fun u hu => (hxs u hu).2.1, hnd⟩
    · rintro ⟨⟨hx, hxs⟩, hne, hnd⟩
      exact ⟨hx, fun u hu => ⟨(hxs u hu).1, hne u hu, (hxs u hu).2⟩, hnd⟩

lemma exists_of_mem_faultsInTurn {f : Failure} (h : f ∈ faultsInTurn idOf faults seen xs) :
    ∃ before, ∃ x ∈ xs, f ∈ faults before x := by
  induction xs generalizing seen with
  | nil => cases h
  | cons x xs ih =>
    rcases mem_append.mp h with h | h
    · exact ⟨seen, x, mem_cons_self, h⟩
    · obtain ⟨before, y, hy, h⟩ := ih h
      exact ⟨before, y, mem_cons_of_mem _ hy, h⟩

end

lemma treeFaults_eq_nil_iff {os : List Node} : c.treeFaults seen os = [] ↔
      (∀ o ∈ os, ObjectSound o ∧ o.id ∉ seen) ∧ (os.map Node.id).Nodup :=
  faultsInTurn_eq_nil_iff fun _ _ => objectFaults_eq_nil_iff

/-! Dependencies of bindings. -/

lemma mem_objects_of_byId {id : Text} (h : c.byId id = some o) : o ∈ c.objects ∧ o.id = id := by
  unfold byId at h
  split at h
  · simp at h
  · exact ⟨mem_reverse.mp (mem_of_find?_eq_some h), by simpa using find?_some h⟩

lemma exists_byId_of_dependencyFaults {id name : Text} {d : Dependency}
    (h : c.dependencyFaults id name d = []) : ∃ o, c.byId d.object = some o := by
  cases hd : c.byId d.object with
  | none => simp [dependencyFaults, hd] at h
  | some o => exact ⟨o, rfl⟩

lemma mapM_id_eq_some {α : Type} {xs : List (Option α)} {ys : List α}
    (h : xs.mapM id = some ys) : xs = ys.map some := by
  induction xs generalizing ys with
  | nil => simp at h; simp [h]
  | cons x xs ih =>
    simp only [List.mapM_cons, id_eq, Option.bind_eq_bind, Option.bind_eq_some_iff, Option.pure_def,
      Option.some.injEq] at h
    obtain ⟨y, rfl, zs, hzs, rfl⟩ := h
    simp [ih hzs]

lemma exists_binding_of_referenceFaults (h : c.referenceFaults = some []) (ho : o ∈ c.objects)
    (hp : p ∈ o.properties.table) (hb : p.2.isBinding) :
    ∃ b, p.2.binding = some b ∧ ∀ d ∈ b.dependencies, c.dependencyFaults o.id p.1 d = [] := by
  obtain ⟨fss, hall, hnil⟩ := Option.map_eq_some_iff.mp h
  have hmem : c.bindingFaults o.id p ∈ fss.map some := by
    rw [← mapM_id_eq_some hall]
    exact mem_flatMap.mpr ⟨o, ho, mem_map.mpr ⟨p, hp, rfl⟩⟩
  obtain ⟨fs, hfs, heq⟩ := mem_map.mp hmem
  have hfs' : fs = [] := flatten_eq_nil_iff.mp hnil fs hfs
  rw [hfs', bindingFaults, if_pos hb] at heq
  obtain ⟨b, hpb, hd⟩ := Option.map_eq_some_iff.mp heq.symm
  exact ⟨b, hpb, flatMap_eq_nil_iff.mp hd⟩

lemma exists_dependency_of_mem {fs : List Failure} {f : Failure} (h : c.referenceFaults = some fs)
    (hf : f ∈ fs) : ∃ id name d, f ∈ c.dependencyFaults id name d := by
  obtain ⟨fss, hall, rfl⟩ := Option.map_eq_some_iff.mp h
  obtain ⟨gs, hgs, hf⟩ := mem_flatten.mp hf
  have hmem := mem_map_of_mem (f := some) hgs
  rw [← mapM_id_eq_some hall] at hmem
  obtain ⟨o, -, hmem⟩ := mem_flatMap.mp hmem
  obtain ⟨p, -, hp⟩ := mem_map.mp hmem
  unfold bindingFaults at hp
  split at hp
  · obtain ⟨b, -, rfl⟩ := Option.map_eq_some_iff.mp hp
    obtain ⟨d, -, hf⟩ := mem_flatMap.mp hf
    exact ⟨_, _, d, hf⟩
  · cases hp
    nomatch hf

/-! Replicators. -/

/-- What a replicator of an accepted class is like, without regard to other replicators. -/
structure ReplicatorSound (c : Class) (reg : Registry) (r : Replicator) : Prop where
  base : Naming.isBase r.id = true
  target : ∃ t, reg.lookup r.className = some t ∧ (t.isGenerated = true ∨ t.alloc.isBlank = false)
  count : ∃ n, r.count.count = .ok n
  parent : ∃ o, c.byId r.parent = some o

lemma replicatorFaults_eq_nil_iff {r : Replicator} :
    c.replicatorFaults reg seen r = [] ↔ ReplicatorSound c reg r ∧ r.id ∉ seen := by
  simp only [replicatorFaults, append_eq_nil_iff]
  constructor
  · rintro ⟨⟨⟨hid, htarget⟩, hcount⟩, hparent⟩
    cases hb : isBase r.id with
    | false => simp [hb] at hid
    | true =>
      have hseen : r.id ∉ seen := by simpa [hb] using hid
      refine ⟨⟨hb, ?_, ?_, ?_⟩, hseen⟩
      · cases hl : reg.lookup r.className with
        | none => simp [hl] at htarget
        | some t =>
          refine ⟨t, rfl, ?_⟩
          cases hg : t.isGenerated with
          | true => exact .inl rfl
          | false =>
            cases hal : t.alloc.isBlank with
            | false => exact .inr rfl
            | true => simp [hl, hg, hal] at htarget
      · cases hc : r.count.count with
        | ok n => exact ⟨n, rfl⟩
        | error f => simp [hc] at hcount
      · cases hp : c.byId r.parent with
        | none => simp [hp] at hparent
        | some o => exact ⟨o, rfl⟩
  · rintro ⟨hr, hseen⟩
    obtain ⟨t, hl, hmade⟩ := hr.target
    obtain ⟨n, hc⟩ := hr.count
    obtain ⟨o, hp⟩ := hr.parent
    refine ⟨⟨⟨by simp [hr.base, hseen], ?_⟩, by simp [hc]⟩, by simp [hp]⟩
    rcases hmade with hg | hal
    · simp [hl, hg]
    · simp [hl, hal]

lemma replicatorsFaults_eq_nil_iff {rs : List Replicator} : c.replicatorsFaults reg seen rs = [] ↔
      (∀ r ∈ rs, ReplicatorSound c reg r ∧ r.id ∉ seen) ∧ (rs.map Replicator.id).Nodup :=
  faultsInTurn_eq_nil_iff fun _ _ => replicatorFaults_eq_nil_iff

lemma faults_eq_some_nil_iff : c.faults reg = some [] ↔
      c.treeFaults [] c.objects = [] ∧ c.referenceFaults = some [] ∧
        c.replicatorsFaults reg [] c.replicators = [] ∧
        (∀ p ∈ c.properties, c.propertyFaults p = []) ∧ (∀ s ∈ c.signals, c.signalFaults s = []) ∧
        (∀ f ∈ c.functions, c.functionFaults f = []) ∧
        ∀ r ∈ c.resources, c.resourceFaults r = [] := by
  unfold faults
  cases hr : c.referenceFaults with
  | none => simp
  | some references =>
    simp only [Option.map_some, Option.some.injEq, append_eq_nil_iff,
      flatMap_eq_nil_iff, and_assoc]

end Class
end ReactiveModel
