import ReactiveModel.Proofs.DeclarationOrder

/-! What the file of a class depends on. Of another class it sees the name, where it comes from, how
an instance is made and which properties there are; and it sees only classes of its own objects and
replicators. So two registries that agree on this give the same file or the same error. -/

namespace ReactiveModel

open List

section

variable {α β γ : Type} {R : α → β → Prop} {xs : List α} {ys : List β}

lemma map_eq_of_forall₂ {f : α → γ} {g : β → γ} (h : List.Forall₂ R xs ys)
    (hfg : ∀ x y, R x y → f x = g y) : xs.map f = ys.map g := by
  induction h with
  | nil => rfl
  | cons hxy _ ih => rw [map_cons, map_cons, hfg _ _ hxy, ih]

lemma flatMap_eq_of_forall₂ {f : α → List γ} {g : β → List γ} (h : List.Forall₂ R xs ys)
    (hfg : ∀ x y, R x y → f x = g y) : xs.flatMap f = ys.flatMap g := by
  rw [flatMap_def, flatMap_def, map_eq_of_forall₂ h hfg]

/-- Two lists that correspond to one correspond to each other. -/
lemma forall₂_of_common {S : α → γ → Prop} {T : β → γ → Prop} {zs : List γ}
    (h : ∀ x ∈ xs, ∀ y z, R x y → S x z → T y z) (hy : List.Forall₂ R xs ys)
    (hz : List.Forall₂ S xs zs) : List.Forall₂ T ys zs := by
  induction hy generalizing zs with
  | nil =>
    cases hz
    exact .nil
  | cons hxy _ ih =>
    obtain ⟨hfirst, hrest⟩ := forall_mem_cons.mp h
    cases hz with
    | cons hxz hz => exact .cons (hfirst _ _ hxy hxz) (ih hrest hz)

lemma find?_of_forall₂ {p : α → Bool} {q : β → Bool} (h : List.Forall₂ R xs ys)
    (hpq : ∀ x y, R x y → p x = q y) : Option.Rel R (xs.find? p) (ys.find? q) := by
  induction h with
  | nil => exact .none
  | @cons x y _ _ hxy _ ih =>
    rw [find?_cons, find?_cons, hpq x y hxy]
    cases q y with
    | true => exact .some hxy
    | false => exact ih

lemma isNone_of_rel {x : Option α} {y : Option β} (h : Option.Rel R x y) : x.isNone = y.isNone := by
  cases h <;> rfl

end

/-! Trees of the same shape. -/

namespace Tree

variable {α β : Type} {R : α → β → Prop} {t : Tree α} {u : Tree β}

/-- Two trees of one shape, with related nodes. -/
inductive Rel (R : α → β → Prop) : Tree α → Tree β → Prop
  | node {a : α} {b : β} {ts : List (Tree α)} {us : List (Tree β)} (value : R a b)
      (children : List.Forall₂ (Rel R) ts us) : Rel R (.node a ts) (.node b us)

lemma Rel.value (h : Rel R t u) : R t.value u.value := by
  cases h with
  | node hvalue _ => exact hvalue

lemma Rel.withParents (t : Tree α) :
    ∀ {u : Tree β} {p : Option α} {q : Option β}, Rel R t u → Option.Rel R p q →
      List.Forall₂ (fun x y => Option.Rel R x.1 y.1 ∧ R x.2 y.2) (t.withParents p)
        (u.withParents q) := by
  induction t using inductOn with
  | h a ts ih =>
    intro u p q h hpq
    cases h with
    | @node _ b _ us hvalue hchildren =>
      rw [Tree.withParents, Tree.withParents, withParentsAll_eq, withParentsAll_eq]
      have hbelow := (forall₂_and_left ts us).mpr ⟨fun t ht => @ih t ht, hchildren⟩
      exact .cons ⟨hpq, hvalue⟩ (rel_flatMap hbelow fun t u h => h.1 h.2 (.some hvalue))

lemma Rel.nodes (h : Rel R t u) : List.Forall₂ R t.nodes u.nodes := by
  rw [← map_snd_withParents t none, ← map_snd_withParents u none, forall₂_map_left_iff,
    forall₂_map_right_iff]
  exact (h.withParents _ .none).imp fun _ _ => And.right

end Tree

/-! What is seen of another class. -/

/-- Two classes that are seen in the same way. They may differ in the types of their properties. -/
structure Outline.Agrees (a b : Outline) : Prop where
  name : a.name = b.name
  source : a.source = b.source
  declarationOnly : a.declarationOnly = b.declarationOnly
  alloc : a.alloc = b.alloc
  properties : ∀ n, n ∈ a.properties.map Property.name ↔ n ∈ b.properties.map Property.name

namespace Outline

variable {a b : Outline}

lemma Agrees.refl (a : Outline) : a.Agrees a := ⟨rfl, rfl, rfl, rfl, fun _ => .rfl⟩

lemma Agrees.isGenerated_eq (h : a.Agrees b) : a.isGenerated = b.isGenerated := by
  rw [isGenerated, isGenerated, h.declarationOnly]

lemma isSome_property? (a : Outline) (n : Text) :
    (a.property? n).isSome ↔ n ∈ a.properties.map Property.name := by
  simp [property?, find?_isSome]

lemma Agrees.isNone_property?_eq (h : a.Agrees b) (n : Text) :
    (a.property? n).isNone = (b.property? n).isNone := by
  have hn : (a.property? n).isSome = (b.property? n).isSome := by
    rw [Bool.eq_iff_iff, isSome_property?, isSome_property?, h.properties]
  cases ha : a.property? n <;> cases hb : b.property? n <;> simp_all

lemma Agrees.declaresProperties_eq (h : a.Agrees b) :
    a.declaresProperties = b.declaresProperties := by
  have hempty : a.properties.isEmpty = b.properties.isEmpty := by
    rw [Bool.eq_iff_iff, List.isEmpty_iff, List.isEmpty_iff,
      ← List.map_eq_nil_iff (f := Property.name),
      ← List.map_eq_nil_iff (f := Property.name),
      eq_nil_iff_forall_not_mem, eq_nil_iff_forall_not_mem]
    exact forall_congr' fun n => not_congr (h.properties n)
  rw [declaresProperties, declaresProperties, h.isGenerated_eq, hempty]

lemma Agrees.slotType_eq (h : a.Agrees b) (runtime : String) :
    a.slotType runtime = b.slotType runtime := by
  rw [slotType, slotType, h.isGenerated_eq, h.name, h.source]

end Outline

lemma agrees_getD {x y : Option Outline} (h : Option.Rel Outline.Agrees x y) :
    (x.getD {}).Agrees (y.getD {}) := by
  cases h with
  | none => exact .refl _
  | some h => exact h

/-- Two objects that differ at most in what is not seen of their classes. -/
structure Node.Agrees (o u : Node) : Prop where
  id : o.id = u.id
  type : Option.Rel Outline.Agrees o.type u.type
  properties : o.properties = u.properties

namespace Node

variable {o u : Node}

lemma Agrees.slot_eq (h : o.Agrees u) : o.slot = u.slot := by
  rw [slot, slot, h.id]

lemma Agrees.bindings_eq (h : o.Agrees u) : o.bindings = u.bindings := by
  have hbound : o.bound = u.bound := by
    funext name v
    rw [bound, bound, h.id]
  rw [bindings, bindings, h.properties, hbound]

lemma Agrees.propertySteps_eq (h : o.Agrees u) : o.propertySteps = u.propertySteps := by
  funext built p
  rw [propertySteps, propertySteps, bound, bound, h.slot_eq, h.id]

lemma Agrees.block_eq (h : o.Agrees u) {p q : Option Node} (hpq : Option.Rel Agrees p q)
    (built : List Text) : o.block p built = u.block q built := by
  have halloc := (agrees_getD h.type).alloc
  cases hpq with
  | none => rw [block, block, h.slot_eq, halloc, h.properties, h.propertySteps_eq]
  | some hp => simp only [block, h.slot_eq, halloc, h.properties, h.propertySteps_eq, hp.slot_eq]

end Node

/-- A class in two registries: the same, but for what it does not see of the classes of its
objects. -/
structure Class.Agrees (c d : Class) : Prop where
  outline : c.toOutline = d.toOutline
  signals : c.signals = d.signals
  functions : c.functions = d.functions
  resources : c.resources = d.resources
  replicators : c.replicators = d.replicators
  root : Option.Rel (Tree.Rel Node.Agrees) c.root d.root

/-- Two registries give classes that are seen in the same way for the replicators of a class. -/
def Registry.AgreeOn (rs : List Replicator) (reg reg' : Registry) : Prop :=
  ∀ r ∈ rs, Option.Rel Outline.Agrees (reg.outline? r.className) (reg'.outline? r.className)

namespace Class

variable {c d : Class} {reg reg' : Registry} {r : Replicator}

/-! The objects of a class. -/

section

variable (h : c.Agrees d)

include h

lemma Agrees.objects : List.Forall₂ Node.Agrees c.objects d.objects := by
  have hroot := h.root
  unfold Class.objects
  generalize c.root = x at hroot
  generalize d.root = y at hroot
  cases hroot with
  | none => exact .nil
  | some h => exact h.nodes

lemma Agrees.name_eq : c.name = d.name := congrArg Outline.name h.outline

lemma Agrees.properties_eq : c.properties = d.properties :=
  congrArg Outline.properties h.outline

lemma Agrees.schemaFault_eq : c.schemaFault = d.schemaFault := by
  funext member message
  rw [schemaFault, schemaFault, h.name_eq]

lemma Agrees.byId (id : Text) : Option.Rel Node.Agrees (c.byId id) (d.byId id) := by
  unfold Class.byId
  cases id == "" with
  | true => exact .none
  | false => exact find?_of_forall₂ (rel_reverse h.objects) fun o u hou => by rw [hou.id]

lemma Agrees.bindings_eq : c.bindings = d.bindings :=
  flatMap_eq_of_forall₂ h.objects fun _ _ hou => hou.bindings_eq

lemma Agrees.isEager_eq (s : Settings) : c.isEager s = d.isEager s := by
  rw [isEager, isEager, h.bindings_eq]

/-! Checks. -/

lemma Agrees.objectFaults_eq {o u : Node} (hou : o.Agrees u) (seen : List Text) :
    c.objectFaults seen o = d.objectFaults seen u := by
  have hvalue : c.valueFaults = d.valueFaults := by
    funext id p
    simp only [valueFaults, h.schemaFault_eq, h.name_eq]
  have htype := hou.type
  simp only [objectFaults, hou.id, hou.properties, h.schemaFault_eq, hvalue]
  generalize o.type = x at htype
  generalize u.type = y at htype
  cases htype with
  | none => rfl
  | some ht => simp only [ht.alloc, ht.name]

lemma Agrees.treeFaults_eq {os us : List Node} (hos : List.Forall₂ Node.Agrees os us)
    (seen : List Text) : c.treeFaults seen os = d.treeFaults seen us := by
  induction hos generalizing seen with
  | nil => rfl
  | cons hou _ ih =>
    exact congrArg₂ (· ++ ·) (h.objectFaults_eq hou seen) (hou.id ▸ ih _)

lemma Agrees.dependencyFaults_eq (id name : Text) (e : Dependency) :
    c.dependencyFaults id name e = d.dependencyFaults id name e := by
  have hsource := h.byId e.object
  simp only [dependencyFaults, h.schemaFault_eq, h.name_eq]
  generalize c.byId e.object = x at hsource
  generalize d.byId e.object = y at hsource
  cases hsource with
  | none => rfl
  | @some o u hou =>
    have htype := hou.type
    simp only
    generalize o.type = x at htype
    generalize u.type = y at htype
    cases htype with
    | none => rfl
    | some ht =>
      simp only [ht.declaresProperties_eq, ht.isNone_property?_eq, ht.name]

lemma Agrees.referenceFaults_eq : c.referenceFaults = d.referenceFaults := by
  have hbinding : c.bindingFaults = d.bindingFaults := by
    funext id p
    simp only [bindingFaults, funext (h.dependencyFaults_eq id p.1)]
  have hfaults := flatMap_eq_of_forall₂
    (f := fun o => o.properties.table.map (c.bindingFaults o.id))
    h.objects
    fun o u hou => by rw [hou.id, hou.properties, hbinding]
  simp only [referenceFaults, hfaults]

lemma Agrees.replicatorFaults_eq
    (hr : Option.Rel Outline.Agrees (reg.outline? r.className) (reg'.outline? r.className))
    (seen : List Text) : c.replicatorFaults reg seen r = d.replicatorFaults reg' seen r := by
  simp only [replicatorFaults, h.schemaFault_eq, h.name_eq, isNone_of_rel (h.byId r.parent)]
  simp only [Registry.outline?] at hr
  generalize reg.lookup r.className = x at hr
  generalize reg'.lookup r.className = y at hr
  cases x with
  | none =>
    cases y with
    | none => rfl
    | some u => cases hr
  | some t =>
    cases y with
    | none => cases hr
    | some u =>
      obtain ht : t.toOutline.Agrees u.toOutline := by cases hr; assumption
      simp only [ht.isGenerated_eq, ht.alloc, ht.name]

lemma Agrees.replicatorsFaults_eq {rs : List Replicator} (hrs : Registry.AgreeOn rs reg reg')
    (seen : List Text) : c.replicatorsFaults reg seen rs = d.replicatorsFaults reg' seen rs := by
  induction rs generalizing seen with
  | nil => rfl
  | cons r rs ih =>
    obtain ⟨hr, hrest⟩ := forall_mem_cons.mp hrs
    exact congrArg₂ (· ++ ·) (h.replicatorFaults_eq hr seen) (ih hrest _)

lemma Agrees.faults_eq (hreg : Registry.AgreeOn c.replicators reg reg') :
    c.faults reg = d.faults reg' := by
  have hproperty : c.propertyFaults = d.propertyFaults := by
    funext p
    simp only [propertyFaults, h.schemaFault_eq]
  have hsignal : c.signalFaults = d.signalFaults := by
    funext s
    simp only [signalFaults, h.schemaFault_eq, h.name_eq]
  have hfunction : c.functionFaults = d.functionFaults := by
    funext f
    simp only [functionFaults, h.schemaFault_eq]
  have hresource : c.resourceFaults = d.resourceFaults := by
    funext r
    simp only [resourceFaults, h.schemaFault_eq]
  rw [h.replicators] at hreg
  simp only [faults, h.referenceFaults_eq, h.treeFaults_eq h.objects, h.replicatorsFaults_eq hreg,
    h.replicators, h.properties_eq, h.signals, h.functions, h.resources, hproperty, hsignal,
    hfunction, hresource]

lemma Agrees.members_eq (s : Settings) : c.members s = d.members s := by
  have hobjects : c.objects.flatMap objectMembers = d.objects.flatMap objectMembers :=
    flatMap_eq_of_forall₂ h.objects fun o u hou => by
      rw [objectMembers, objectMembers, hou.slot_eq, hou.id, hou.bindings_eq]
  simp only [members, fixedMembers, hobjects, h.properties_eq, h.signals, h.functions,
    h.resources, h.replicators, h.isEager_eq]

lemma Agrees.checkNames_eq (s : Settings) : c.checkNames s = d.checkNames s := by
  have hcollisions : ∀ seen ms, c.collisions seen ms = d.collisions seen ms := by
    intro seen ms
    induction ms generalizing seen with
    | nil => rfl
    | cons m ms ih => simp only [collisions, h.schemaFault_eq, ih]
  simp only [checkNames, hcollisions, h.members_eq]

lemma Agrees.check_eq (hreg : Registry.AgreeOn c.replicators reg reg') (s : Settings) :
    c.check s reg = d.check s reg' := by
  simp only [check, h.name_eq, h.schemaFault_eq, isNone_of_rel h.root, h.faults_eq hreg,
    h.checkNames_eq]

end

/-! Artifacts. -/

lemma objectField_eq {o u : Node} (h : o.Agrees u) (runtime : String) :
    objectField runtime o = objectField runtime u := by
  rw [objectField, objectField, h.slot_eq, (agrees_getD h.type).slotType_eq]

lemma ofNodes_eq {os us : List (Option Node × Node)}
    (h : List.Forall₂ (fun x y => Option.Rel Node.Agrees x.1 y.1 ∧ Node.Agrees x.2 y.2) os us)
    (built : List Text) : Construction.ofNodes built os = Construction.ofNodes built us := by
  induction h generalizing built with
  | nil => rfl
  | cons hxy _ ih =>
    obtain ⟨hparent, hobject⟩ := hxy
    simp only [Construction.ofNodes, hobject.id, ih, hobject.block_eq hparent, Node.waiting,
      hobject.bindings_eq]

lemma Agrees.construction_eq (h : c.Agrees d) : c.construction = d.construction := by
  have hroot := h.root
  unfold construction
  generalize c.root = x at hroot
  generalize d.root = y at hroot
  cases hroot with
  | none => rfl
  | some ht => exact ofNodes_eq (ht.withParents _ .none) []

section

variable (h : Option.Rel Outline.Agrees (reg.outline? r.className) (reg'.outline? r.className))

include h

lemma target_agrees : (target reg r).Agrees (target reg' r) := agrees_getD h

lemma replication_eq : replication reg r = replication reg' r := by
  have ht := target_agrees h
  rw [replication, replication, ht.isGenerated_eq, ht.name, ht.alloc]

end

lemma Agrees.fieldGroups_eq (h : c.Agrees d) (hreg : Registry.AgreeOn c.replicators reg reg')
    (runtime : String) : c.fieldGroups runtime reg = d.fieldGroups runtime reg' := by
  have hobjects := map_eq_of_forall₂ h.objects fun o u hou => objectField_eq hou runtime
  have hslices : (d.replicators.map fun r => (⟨Naming.replicatorField r.id,
      .slice ((target reg r).slotType runtime)⟩ : Field)) = d.replicators.map fun r =>
        ⟨Naming.replicatorField r.id, .slice ((target reg' r).slotType runtime)⟩ :=
    map_congr_left fun r hr => by
      rw [(target_agrees (hreg r (h.replicators ▸ hr))).slotType_eq]
  simp only [fieldGroups, hobjects, h.properties_eq, h.resources, h.bindings_eq, h.replicators,
    hslices]

lemma Agrees.artifact_eq (h : c.Agrees d) (hreg : Registry.AgreeOn c.replicators reg reg')
    (s : Settings) : c.artifact s reg = d.artifact s reg' := by
  have hroot : (c.root.map Tree.value).map (objectField s.runtimePath) =
      (d.root.map Tree.value).map (objectField s.runtimePath) := by
    have hrel := h.root
    generalize c.root = x at hrel
    generalize d.root = y at hrel
    cases hrel with
    | none => rfl
    | some ht => exact congrArg some (objectField_eq ht.value _)
  have hreplications : d.replicators.map (replication reg) = d.replicators.map (replication reg') :=
    map_congr_left fun r hr => replication_eq (hreg r (h.replicators ▸ hr))
  simp only [artifact, signalFields, h.name_eq, h.functions, h.signals, hroot, h.properties_eq,
    h.resources, h.replicators, hreplications, h.fieldGroups_eq hreg, h.construction_eq,
    h.bindings_eq, h.isEager_eq]

lemma Agrees.file_eq (h : c.Agrees d) (hreg : Registry.AgreeOn c.replicators reg reg')
    (s : Settings) (workDir : String) : c.file s workDir reg = d.file s workDir reg' := by
  rw [file, file, h.check_eq hreg, h.artifact_eq hreg, h.name_eq]

end Class

/-! Classes that are described in the same way. -/

namespace ObjectDescription

def className? : ObjectDescription → Option Text
  | .absent => none
  | .object _ type _ _ => some type

/-- The classes that are named in a tree. -/
def classNames (d : ObjectDescription) : List Text := d.entries.filterMap className?

lemma classNames_object (id type : Text) (ds : Table Text (Option ValueDescription))
    (cs : List ObjectDescription) :
    (object id type ds cs).classNames = type :: cs.flatMap classNames := by
  have hbelow : (cs.flatMap entries).filterMap className? = cs.flatMap classNames :=
    filterMap_flatMap
  rw [classNames, entries, entriesAll_eq, ← hbelow]
  rfl

/-- Trees of one description are the same where the classes that it names are seen in the same
way. -/
lemma Describes.agrees {lookup lookup' : Text → Option Outline} (d : ObjectDescription) :
    ∀ {t t' : Object}, d.Describes lookup t → d.Describes lookup' t' →
      (∀ n ∈ d.classNames, Option.Rel Outline.Agrees (lookup n) (lookup' n)) →
      Tree.Rel Node.Agrees t t' := by
  induction d using inductOn with
  | absent => intro t t' h; cases h
  | object id type ds cs ih =>
    intro t t' h h' hseen
    rw [classNames_object] at hseen
    obtain ⟨htype, hbelow⟩ := forall_mem_cons.mp hseen
    cases h with
    | object hhead hchildren =>
      cases h' with
      | object hhead' hchildren' =>
        cases hhead with
        | object hknown hproperties =>
          cases hhead' with
          | object hknown' hproperties' =>
            rw [hknown, hknown'] at htype
            refine .node ⟨rfl, htype, hproperties.unique hproperties'⟩ ?_
            refine forall₂_of_common (fun c hc t t' ht ht' => ih c hc ht ht' fun n hn => ?_)
              hchildren hchildren'
            exact hbelow n (mem_flatMap.mpr ⟨c, hc, hn⟩)

end ObjectDescription

namespace ClassDescription

/-- The classes that a class names: those of its objects and of its replicators. -/
def references (d : ClassDescription) : List Text :=
  d.root.classNames ++ d.replicators.filterMap (·.map ReplicatorDescription.className)

variable {d : ClassDescription} {c c' : Class} {reg reg' : Registry}
  {lookup : Text → Option Outline}

lemma Describes.replicators_eq {lookup' : Text → Option Outline} (h : d.Describes lookup c)
    (h' : d.Describes lookup' c') : c.replicators = c'.replicators := by
  have hbuilt {lookup : Text → Option Outline} {c : Class} (h : d.Describes lookup c) :
      d.replicators.mapM (ReplicatorDescription.build d.name) = .ok c.replicators :=
    mapM_eq_ok_iff.mpr
      (h.replicators.imp fun _ _ hr => ReplicatorDescription.build_eq_ok_iff.mpr hr)
  exact Except.ok.inj ((hbuilt h).symm.trans (hbuilt h'))

lemma Describes.agrees (h : d.Describes reg.outline? c) (h' : d.Describes reg'.outline? c')
    (hseen : ∀ n ∈ d.references, Option.Rel Outline.Agrees (reg.outline? n) (reg'.outline? n)) :
    c.Agrees c' where
  outline := h.outline.trans h'.outline.symm
  signals := h.signals.trans h'.signals.symm
  functions := h.functions.trans h'.functions.symm
  resources := h.resources.trans h'.resources.symm
  replicators := h.replicators_eq h'
  root := by
    have hroot := h.root
    have hroot' := h'.root
    split at hroot
    case isTrue habsent =>
      rw [if_pos habsent] at hroot'
      rw [hroot, hroot']
      exact .none
    case isFalse habsent =>
      rw [if_neg habsent] at hroot'
      obtain ⟨t, ht, hdescribes⟩ := hroot
      obtain ⟨t', ht', hdescribes'⟩ := hroot'
      rw [ht, ht']
      exact .some (hdescribes.agrees _ hdescribes' fun n hn =>
        hseen n (mem_append_left _ hn))

lemma Describes.agreeOn (h : d.Describes lookup c)
    (hseen : ∀ n ∈ d.references, Option.Rel Outline.Agrees (reg.outline? n) (reg'.outline? n)) :
    Registry.AgreeOn c.replicators reg reg' := by
  intro r hr
  obtain ⟨e, he, hdescribes⟩ : ∃ e, some e ∈ d.replicators ∧ e.Describes r := by
    have hpaired := (forall₂_and_left _ _).mpr ⟨fun x hx => hx, h.replicators⟩
    obtain ⟨x, -, hx, e, rfl, hdescribes⟩ := exists_of_mem hpaired hr
    exact ⟨e, hx, hdescribes⟩
  rw [hdescribes.className]
  exact hseen _ (mem_append_right _ (mem_filterMap.mpr ⟨some e, he, rfl⟩))

end ClassDescription

/-- The file of a class, or the error instead of it, depends on no other classes than those of its
objects and replicators, and of these only on what is seen of them: a class that stands in two
registries, and a class of two descriptions. -/
theorem Class.file_depends_only_on_references (s : Settings) (workDir : String) :
    (∀ {c c' : Class} {reg reg' : Registry}, c.Agrees c' →
      Registry.AgreeOn c.replicators reg reg' → c.file s workDir reg = c'.file s workDir reg') ∧
    ∀ {d d' : Description} {reg reg' : Registry} {e : ClassDescription}, d.build = .ok reg →
      d'.build = .ok reg' → some e ∈ d.classes.getD [] → some e ∈ d'.classes.getD [] →
      (∀ n ∈ e.references, Option.Rel Outline.Agrees (reg.outline? n) (reg'.outline? n)) →
      ∃ c c', reg.lookup e.name = some c ∧ reg'.lookup e.name = some c' ∧
        c.file s workDir reg = c'.file s workDir reg' := by
  refine ⟨fun h hreg => h.file_eq hreg s workDir, fun hd hd' he he' hseen => ?_⟩
  obtain ⟨ds, hds, -, hdescribes⟩ := Description.describes_of_build hd
  obtain ⟨ds', hds', -, hdescribes'⟩ := Description.describes_of_build hd'
  obtain ⟨c, hc, hce⟩ := hdescribes.held _ (by simpa [hds] using he)
  obtain ⟨c', hc', hce'⟩ := hdescribes'.held _ (by simpa [hds'] using he')
  exact ⟨c, c', hc, hc', (hce.agrees hce' hseen).file_eq (hce.agreeOn hseen) s workDir⟩

namespace Class

/-- A rail with two stops, whose root is of the given class. -/
def railOf (box : Outline) : Class :=
  { name := "Rail"
    replicators :=
      [{ id := "stops", className := "Stop", count := .ofNumber (.ofInt 2), parent := "root" }]
    root := some (.node
      { id := "root", type := some box
        properties := .ofPairs [("width", .ofBinding ⟨"w()", [⟨"root", "height"⟩]⟩)] } []) }

/-- A box that is as wide and as high as a type says. -/
def boxOf (type : Text) : Outline :=
  { name := "Box", declarationOnly := true, alloc := "box()",
    properties := [⟨"width", type⟩, ⟨"height", type⟩] }

def registryOfStop : Registry where
  table := [("Stop", { name := "Stop" })]
  ordered := List.pairwise_singleton _ _
  named := by simp

/-- Another class of stops, beside a class that the rail does not name. -/
def registryOfLamp : Registry where
  table := [("Lamp", { name := "Lamp", declarationOnly := true }),
    ("Stop", { name := "Stop", signals := [⟨"arrived", ""⟩], resources := [⟨"bell", "Bell", "b"⟩],
               root := some (.node { id := "pole", type := some (boxOf "int") } []) })]
  ordered := by unfold Table.Ordered; decide
  named := by simp

theorem file_of_rail :
    (railOf (boxOf "int")).Agrees (railOf (boxOf "float64")) ∧
      Registry.AgreeOn (railOf (boxOf "int")).replicators registryOfStop registryOfLamp ∧
      (∃ f, (railOf (boxOf "int")).file {} "/work" registryOfStop = .file f) ∧
      (railOf (boxOf "int")).file {} "/work" registryOfStop =
        (railOf (boxOf "float64")).file {} "/work" registryOfLamp := by
  have hbox : (boxOf "int").Agrees (boxOf "float64") := ⟨rfl, rfl, rfl, rfl, fun n => .rfl⟩
  have hrail : (railOf (boxOf "int")).Agrees (railOf (boxOf "float64")) :=
    ⟨rfl, rfl, rfl, rfl, rfl, .some (.node ⟨rfl, .some hbox, rfl⟩ .nil)⟩
  have hreg :
      Registry.AgreeOn (railOf (boxOf "int")).replicators registryOfStop registryOfLamp := by
    intro r hr
    obtain rfl := List.mem_singleton.mp hr
    exact .some ⟨rfl, rfl, rfl, rfl, fun n => .rfl⟩
  have hpassed : (railOf (boxOf "int")).check {} registryOfStop = .passed := by rfl
  exact ⟨hrail, hreg, ⟨_, by rw [file, hpassed]⟩,
    (file_depends_only_on_references {} "/work").1 hrail hreg⟩

end Class

end ReactiveModel
