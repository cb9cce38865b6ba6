import ReactiveModel.Proofs.Fixpoint

/-! What the artifact of a class takes for granted. The artifact reads classes of objects, bindings
of values, classes and counts of replicators as if they were there; here they are read strictly, and
a class that passes its check has them all. -/

namespace ReactiveModel

open List Option

lemma mapM_eq_some_map {α β : Type} {f : α → Option β} {g : α → β} {xs : List α}
    (h : ∀ x ∈ xs, f x = some (g x)) : xs.mapM f = some (xs.map g) := by
  induction xs with
  | nil => rfl
  | cons x xs ih =>
    obtain ⟨hx, hxs⟩ := forall_mem_cons.mp h
    simp [hx, ih hxs]

/-! The artifact, where nothing stands in for what is missing. -/

namespace Node

def bound? (o : Node) (p : Text × Value) : Option BoundProperty :=
  p.2.binding.map fun b => ⟨o.id, p.1, b⟩

def bindings? (o : Node) : Option (List BoundProperty) :=
  (o.properties.table.filter (·.2.isBinding)).mapM o.bound?

def propertySteps? (o : Node) (built : List Text) (p : Text × Value) : Option (List ObjectStep) :=
  if !p.2.isBinding then some [.set o.slot (Naming.setter p.1) p.2.text]
  else (o.bound? p).map fun b => if b.isReady built then b.wire else []

def block? (o : Node) (parent : Option Node) (built : List Text) : Option (List ObjectStep) := do
  let type ← o.type
  let steps ← o.properties.table.mapM (o.propertySteps? built)
  some (.allocate o.slot type.alloc.trim :: steps.flatten ++
    parent.toList.map fun p => .attach p.slot o.slot)

end Node

def Construction.ofNodes? : List Text → List (Option Node × Node) → Option Construction
  | _, [] => some {}
  | built, (parent, o) :: rest => do
    let block ← o.block? parent (o.id :: built)
    let bindings ← o.bindings?
    let c ← ofNodes? (o.id :: built) rest
    some
      { blocks := block :: c.blocks
        deferred := (bindings.filter fun b => !b.isReady (o.id :: built)).flatMap
          BoundProperty.wire ++ c.deferred }

namespace Class

def bindings? (c : Class) : Option (List BoundProperty) :=
  (c.objects.mapM Node.bindings?).map flatten

def objectField? (runtime : String) (o : Node) : Option Field :=
  o.type.map fun t => ⟨o.slot, t.slotType runtime⟩

def collectionField? (runtime : String) (reg : Registry) (r : Replicator) : Option Field :=
  (reg.outline? r.className).map fun t =>
    ⟨Naming.replicatorField r.id, .slice (t.slotType runtime)⟩

def replication? (reg : Registry) (r : Replicator) : Option Replication := do
  let target ← reg.outline? r.className
  let count ← r.count.count.toOption
  some
    { id := r.id
      field := Naming.replicatorField r.id
      count
      maker := if target.isGenerated then .literal target.name else .verbatim target.alloc.trim
      initializor := r.initializor.trim
      parent := Naming.memberField r.parent }

def fieldGroups? (runtime : String) (reg : Registry) (c : Class) : Option (List (List Field)) := do
  let objects ← c.objects.mapM (objectField? runtime)
  let bindings ← c.bindings?
  let collections ← c.replicators.mapM (collectionField? runtime reg)
  some
    ([[⟨"initialized", .verbatim "bool"⟩],
      c.resources.map fun r => ⟨Naming.resourceField r.name, .pointer (.ofText runtime r.type)⟩,
      c.properties.map fun p => ⟨Naming.storageField p.name, .ofText runtime p.type⟩,
      objects,
      bindings.map fun b => ⟨b.handler, .named runtime "HandlerFunc"⟩,
      collections].filter (!·.isEmpty))

/-- The artifact of a class, or nothing if something that it refers to is missing. -/
def artifact? (s : Settings) (reg : Registry) (c : Class) : Option Artifact := do
  let runtime := s.runtimePath
  let tree ← c.root
  let fields ← c.fieldGroups? runtime reg
  let root ← objectField? runtime tree.value
  let construction ← Construction.ofNodes? [] (tree.withParents none)
  let bindings ← c.bindings?
  let replications ← c.replicators.mapM (replication? reg)
  some
    { className := c.name
      receiver := s.receiverOf c.name
      runtime
      functions := c.functions.map (·.signature.trim)
      signals := c.signalFields runtime
      fields
      root
      properties := c.properties.map (accessors runtime)
      signalAccessors := c.signals.map (signalField runtime)
      acquisitions := c.resources.map (acquisition runtime)
      construction
      evaluations := bindings.map (·.evaluation)
      replications
      eager := s.enabled .eagerBindings && !bindings.isEmpty }

end Class

/-! Where nothing is missing, both artifacts are the same. -/

/-- An object with its class, and with the bindings of its values. -/
structure Node.Complete (o : Node) : Prop where
  typed : ∃ t, o.type = some t
  bound : ∀ p ∈ o.properties.table, p.2.isBinding = true → ∃ b, p.2.binding = some b

namespace Node.Complete

variable {o : Node} {p : Text × Value}

lemma bound?_eq (h : o.Complete) (hp : p ∈ o.properties.table) (hb : p.2.isBinding) :
    o.bound? p = some (o.bound p.1 p.2) := by
  obtain ⟨b, hb⟩ := h.bound p hp hb
  simp [bound?, Node.bound, hb]

lemma bindings?_eq (h : o.Complete) : o.bindings? = some o.bindings := by
  refine mapM_eq_some_map fun p hp => ?_
  obtain ⟨hp, hb⟩ := mem_filter.mp hp
  exact h.bound?_eq hp hb

lemma propertySteps?_eq (h : o.Complete) (built : List Text) (hp : p ∈ o.properties.table) :
    o.propertySteps? built p = some (o.propertySteps built p) := by
  cases hb : p.2.isBinding with
  | false => simp [propertySteps?, propertySteps, hb]
  | true =>
    cases hr : (o.bound p.1 p.2).isReady built <;>
      simp [propertySteps?, propertySteps, hb, hr, h.bound?_eq hp hb]

lemma block?_eq (h : o.Complete) (parent : Option Node) (built : List Text) :
    o.block? parent built = some (o.block parent built) := by
  obtain ⟨t, ht⟩ := h.typed
  have hsteps := mapM_eq_some_map fun p hp => h.propertySteps?_eq built hp
  simp only [block?, ht, hsteps, bind_eq_bind, bind_some]
  rw [o.block_eq, Store.ownSteps, ht]
  rfl

end Node.Complete

lemma Construction.ofNodes?_eq {xs : List (Option Node × Node)}
    (h : ∀ o ∈ xs.map Prod.snd, o.Complete) (built : List Text) :
    ofNodes? built xs = some (ofNodes built xs) := by
  induction xs generalizing built with
  | nil => rfl
  | cons x xs ih =>
    obtain ⟨ho, hos⟩ := forall_mem_cons.mp h
    simp only [ofNodes?, ho.block?_eq, ho.bindings?_eq, ih hos, bind_eq_bind,
      bind_some]
    rfl

namespace Class

/-- A class with all that its artifact reads. -/
structure Complete (reg : Registry) (c : Class) : Prop where
  rooted : ∃ t, c.root = some t
  objects : ∀ o ∈ c.objects, o.Complete
  targets : ∀ r ∈ c.replicators, ∃ t, reg.lookup r.className = some t
  counts : ∀ r ∈ c.replicators, ∃ n, r.count.count = .ok n

namespace Complete

variable {s : Settings} {reg : Registry} {c : Class} {r : Replicator} (h : c.Complete reg)

include h

lemma bindings?_eq : c.bindings? = some c.bindings := by
  have hall := mapM_eq_some_map fun o ho => (h.objects o ho).bindings?_eq
  rw [Class.bindings?, hall, map_some, bindings, flatMap_def]

lemma objectField?_eq (runtime : String) {o : Node} (ho : o ∈ c.objects) :
    objectField? runtime o = some (objectField runtime o) := by
  obtain ⟨t, ht⟩ := (h.objects o ho).typed
  simp [objectField?, objectField, ht]

lemma outline?_eq (hr : r ∈ c.replicators) : reg.outline? r.className = some (target reg r) := by
  obtain ⟨t, ht⟩ := h.targets r hr
  simp [target, Registry.outline?, ht]

lemma replication?_eq (hr : r ∈ c.replicators) : replication? reg r = some (replication reg r) := by
  obtain ⟨n, hn⟩ := h.counts r hr
  simp only [replication?, h.outline?_eq hr, replication, hn, Except.toOption, bind_eq_bind,
    bind_some, getD_some]

lemma fieldGroups?_eq (runtime : String) :
    c.fieldGroups? runtime reg = some (c.fieldGroups runtime reg) := by
  have hobjects := mapM_eq_some_map fun o ho => h.objectField?_eq runtime ho
  have hcollections : c.replicators.mapM (collectionField? runtime reg) =
      some (c.replicators.map fun r =>
        ⟨Naming.replicatorField r.id, .slice ((target reg r).slotType runtime)⟩) :=
    mapM_eq_some_map fun r hr => by rw [collectionField?, h.outline?_eq hr, map_some]
  simp only [fieldGroups?, hobjects, h.bindings?_eq, hcollections, bind_eq_bind,
    bind_some]
  rfl

/-- Nothing stands in for what is missing when nothing is. -/
lemma artifact?_eq : c.artifact? s reg = some (c.artifact s reg) := by
  obtain ⟨t, ht⟩ := h.rooted
  have hvalue : t.value ∈ c.objects := by
    rw [objects_of_root ht]
    cases t
    simp [Tree.value]
  have hnodes : ∀ o ∈ (t.withParents none).map Prod.snd, o.Complete := by
    rw [t.map_snd_withParents none, ← objects_of_root ht]
    exact h.objects
  have hreplications := mapM_eq_some_map fun r hr => h.replication?_eq hr
  simp only [artifact?, ht, h.fieldGroups?_eq, h.objectField?_eq _ hvalue,
    Construction.ofNodes?_eq hnodes, h.bindings?_eq, hreplications, bind_eq_bind,
    bind_some, artifact, construction_of_root ht, map_some, getD_some, isEager]

end Complete

/-! What the check assures. -/

/-- The slot of an id is that of exactly one object, which has the id. -/
def HasSlot (c : Class) (id : Text) : Prop :=
  ∃ o, c.objects.filter (·.slot == Naming.memberField id) = [o] ∧ o.id = id

/-- All that the artifact of a class reads is there, and nothing else stands in for it. -/
structure Supplied (s : Settings) (reg : Registry) (c : Class) : Prop where
  rooted : ∃ t, c.root = some t
  typed : ∀ o ∈ c.objects, ∃ t, o.type = some t
  bound : ∀ o ∈ c.objects, ∀ p ∈ o.properties.table, p.2.isBinding = true →
    ∃ b, p.2.binding = some b ∧ ∀ d ∈ b.dependencies, c.HasSlot d.object
  targets : ∀ r ∈ c.replicators, ∃ k, reg.lookup r.className = some k
  counts : ∀ r ∈ c.replicators, ∃ n, r.count.count = .ok n ∧ r.count.kind = .number ∧
    r.count.num.toNat? = some n ∧ n ≤ 2147483647
  parents : ∀ r ∈ c.replicators, c.HasSlot r.parent
  emitted : c.artifact? s reg = some (c.artifact s reg)

end Class

lemma Value.count_eq_ok_iff {v : Value} {n : Nat} :
    v.count = .ok n ↔ v.kind = .number ∧ v.num.toNat? = some n ∧ n ≤ maxCount := by
  unfold count
  by_cases hk : v.kind = .number
  · cases hn : v.num.toNat? with
    | none => simp [hk]
    | some m =>
      by_cases hm : m ≤ maxCount
      · simp only [hk, hm, if_true, Except.ok.injEq, Option.some.injEq, true_and]
        exact ⟨fun h => ⟨h, h ▸ hm⟩, fun h => h.1⟩
      · simp only [hk, hm, if_true, if_false, Option.some.injEq, true_and, reduceCtorEq, false_iff,
          not_and]
        exact fun h hle => hm (h ▸ hle)
  · simp [hk]

namespace Class

variable {s : Settings} {reg : Registry} {c : Class}

lemma hasSlot_of_byId (hnames : c.checkNames s = none) {id : Text} {o : Node}
    (h : c.byId id = some o) : c.HasSlot id := by
  obtain ⟨ho, rfl⟩ := mem_objects_of_byId h
  have hnodup := List.Nodup.of_append_left (nodup_slots_handlers hnames)
  exact ⟨o, filter_key_eq_singleton Node.slot hnodup ho, rfl⟩

lemma complete_of_check (h : c.check s reg = .passed) : c.Complete reg := by
  obtain ⟨-, hroot, hfaults, -⟩ := check_eq_passed_iff.mp h
  obtain ⟨htree, href, hreplicators, -⟩ := faults_eq_some_nil_iff.mp hfaults
  have hobjects : ∀ o ∈ c.objects, ObjectSound o :=
    fun o ho => ((treeFaults_eq_nil_iff.mp htree).1 o ho).1
  have hsound : ∀ r ∈ c.replicators, ReplicatorSound c reg r :=
    fun r hr => ((replicatorsFaults_eq_nil_iff.mp hreplicators).1 r hr).1
  constructor
  case rooted => exact hroot
  case objects =>
    refine fun o ho => ⟨(hobjects o ho).typed.imp fun _ ht => ht.1, fun p hp hb => ?_⟩
    exact (exists_binding_of_referenceFaults href ho hp hb).imp fun _ hb => hb.1
  case targets => exact fun r hr => (hsound r hr).target.imp fun _ ht => ht.1
  case counts => exact fun r hr => (hsound r hr).count

/-- A class that passes its check is supplied with all that its artifact reads. -/
theorem supplied_of_check (s : Settings) (reg : Registry) (c : Class)
    (h : c.check s reg = .passed) : c.Supplied s reg := by
  have hcomplete := complete_of_check h
  obtain ⟨-, -, hfaults, hnames⟩ := check_eq_passed_iff.mp h
  obtain ⟨-, href, hreplicators, -⟩ := faults_eq_some_nil_iff.mp hfaults
  constructor
  case rooted => exact hcomplete.rooted
  case typed => exact fun o ho => (hcomplete.objects o ho).typed
  case bound =>
    intro o ho p hp hb
    obtain ⟨b, hpb, hfaultless⟩ := exists_binding_of_referenceFaults href ho hp hb
    refine ⟨b, hpb, fun d hd => ?_⟩
    obtain ⟨source, hsource⟩ := exists_byId_of_dependencyFaults (hfaultless d hd)
    exact hasSlot_of_byId hnames hsource
  case targets => exact hcomplete.targets
  case counts =>
    intro r hr
    obtain ⟨n, hn⟩ := hcomplete.counts r hr
    exact ⟨n, hn, Value.count_eq_ok_iff.mp hn⟩
  case parents =>
    intro r hr
    obtain ⟨o, ho⟩ := ((replicatorsFaults_eq_nil_iff.mp hreplicators).1 r hr).1.parent
    exact hasSlot_of_byId hnames ho
  case emitted => exact hcomplete.artifact?_eq

/-- A class with a binding and a replicator. -/
def meterOfTicks : Class :=
  { name := "Meter"
    replicators :=
      [{ id := "ticks", className := "Tick", count := .ofNumber (.ofInt 12), parent := "scale" }]
    root := some (.node { id := "frame", type := some .box }
      [.node
        { id := "scale", type := some .box, properties := .ofPairs [("width", .ofBinding
          { expression := "frame.Width()", dependencies := [⟨"frame", "width"⟩] })] } []]) }

def registryOfTicks : Registry where
  table := [("Tick", { name := "Tick" })]
  ordered := pairwise_singleton _ _
  named := by simp

theorem supplied_meterOfTicks :
    meterOfTicks.check {} registryOfTicks = .passed ∧ meterOfTicks.Supplied {} registryOfTicks := by
  have h : meterOfTicks.check {} registryOfTicks = .passed := by rfl
  exact ⟨h, supplied_of_check {} registryOfTicks meterOfTicks h⟩

end Class

end ReactiveModel
