import ReactiveModel.Proofs.ObjectTree

/-! Where the bindings of a class are wired. The handler of a binding is assigned once, and its
connections follow at once; this stands in the block of its object when all it depends on is built
by then, and otherwise behind all blocks. -/

namespace ReactiveModel

open List ObjectStep BoundProperty

variable {s : Settings} {b : BoundProperty} {p : Text × Value} {i : Nat} {o : Node}

namespace ObjectStep

def isWiring : ObjectStep → Bool
  | .assign .. | .connect .. => true
  | _ => false

def concerns (handler : Text) : ObjectStep → Bool
  | .assign h _ | .connect _ _ h => h == handler
  | _ => false

lemma isWiring_of_concerns {handler : Text} {a : ObjectStep} (h : a.concerns handler) :
    a.isWiring = true := by
  cases a <;> first | rfl | simp [concerns] at h

end ObjectStep

namespace BoundProperty

/-- Every object that a binding depends on is at or before a place of the walk. -/
def LooksBack (os : List Node) (i : Nat) (b : BoundProperty) : Prop :=
  ∀ d ∈ b.binding.dependencies, d.object ∈ (os.take (i + 1)).map Node.id

instance (os : List Node) (i : Nat) (b : BoundProperty) : Decidable (b.LooksBack os i) :=
  inferInstanceAs (Decidable (∀ d ∈ _, _))

lemma isReady_iff {built : List Text} :
    b.isReady built = true ↔ ∀ d ∈ b.binding.dependencies, d.object ∈ built := by
  simp [isReady]

lemma filter_isWiring_wire (b : BoundProperty) : b.wire.filter isWiring = b.wire := by
  refine filter_eq_self.mpr fun a ha => ?_
  simp only [wire, mem_cons, mem_map] at ha
  rcases ha with rfl | ⟨d, -, rfl⟩ <;> rfl

lemma filter_concerns_wire (handler : Text) (b : BoundProperty) :
    b.wire.filter (concerns handler) = if b.handler == handler then b.wire else [] := by
  cases h : b.handler == handler <;>
    simp [wire, concerns, h, Function.comp_def, filter_map]

lemma filter_concerns_wires (handler : Text) (bs : List BoundProperty) :
    (bs.flatMap wire).filter (concerns handler) =
      (bs.filter (·.handler == handler)).flatMap wire := by
  induction bs with
  | nil => rfl
  | cons b bs ih =>
    rw [flatMap_cons, filter_append, filter_concerns_wire, ih]
    cases h : b.handler == handler <;> simp [h]

end BoundProperty

namespace Node

open BoundProperty

lemma filter_isWiring_properties (o : Node) (built : List Text) (ps : Table Text Value) :
    (ps.flatMap (o.propertySteps built)).filter isWiring =
      (((ps.filter (·.2.isBinding)).map fun p => o.bound p.1 p.2).filter
        (·.isReady built)).flatMap wire := by
  induction ps with
  | nil => rfl
  | cons p ps ih =>
    rw [flatMap_cons, filter_append, ih]
    cases hb : p.2.isBinding with
    | false => simp [propertySteps, hb, isWiring]
    | true =>
      cases hr : (o.bound p.1 p.2).isReady built with
      | false => simp [propertySteps, hb, hr]
      | true => simp [propertySteps, hb, hr, filter_isWiring_wire]

lemma block_eq (o : Node) (parent : Option Node) (built : List Text) :
    o.block parent built =
      Store.ownSteps o built ++ parent.toList.map fun p => .attach p.slot o.slot := by
  cases parent <;> simp [block, Store.ownSteps]

lemma filter_isWiring_block (o : Node) (parent : Option Node) (built : List Text) :
    (o.block parent built).filter isWiring =
      (o.bindings.filter (·.isReady built)).flatMap wire := by
  have hattach : (parent.toList.map fun p => attach p.slot o.slot).filter
      isWiring = [] := by
    cases parent <;> rfl
  rw [block_eq, filter_append, hattach, append_nil]
  exact filter_isWiring_properties o built o.properties.table

lemma bound_mem_bindings (hp : p ∈ o.properties.table)
    (hb : p.2.isBinding) : o.bound p.1 p.2 ∈ o.bindings :=
  mem_map.mpr ⟨p, mem_filter.mpr ⟨hp, hb⟩, rfl⟩

end Node

namespace Construction

open Store BoundProperty

/-- The ids of the objects that are built when the block of a place begins to set properties. -/
def builtAt (built : List Text) (xs : List (Option Node × Node)) (i : Nat) : List Text :=
  builtAfter built ((xs.take (i + 1)).map Prod.snd)

variable (built : List Text)

lemma builtAt_zipIdx_cons (x : Option Node × Node) (xs : List (Option Node × Node))
    (y : (Option Node × Node) × Nat) :
    builtAt built (x :: xs) (Prod.map id (· + 1) y).2 = builtAt (x.2.id :: built) xs y.2 := by
  simp [builtAt, builtAfter]

lemma blocks_ofNodes (xs : List (Option Node × Node)) :
    (ofNodes built xs).blocks =
      xs.zipIdx.map fun x => x.1.2.block x.1.1 (builtAt built xs x.2) := by
  induction xs generalizing built with
  | nil => rfl
  | cons x xs ih =>
    rw [zipIdx_cons', map_cons, map_map]
    simp only [Function.comp_def, builtAt_zipIdx_cons]
    exact congrArg _ (ih (x.2.id :: built))

lemma deferred_ofNodes (xs : List (Option Node × Node)) :
    (ofNodes built xs).deferred =
      xs.zipIdx.flatMap fun x => (x.1.2.waiting (builtAt built xs x.2)).flatMap wire := by
  induction xs generalizing built with
  | nil => rfl
  | cons x xs ih =>
    rw [zipIdx_cons', flatMap_cons, flatMap_map]
    simp only [builtAt_zipIdx_cons]
    exact congrArg _ (ih (x.2.id :: built))

end Construction

namespace Tree

lemma zipIdx_nodes {α : Type} (t : Tree α) (p : Option α) :
    t.nodes.zipIdx = (t.withParents p).zipIdx.map fun x => (x.1.2, x.2) := by
  rw [← map_snd_withParents t p, zipIdx_map]
  rfl

end Tree

namespace Class

open Store BoundProperty Construction

/-- The bindings of objects in the order of the walk, each with the place of its object. -/
def placed (os : List Node) : List (Nat × BoundProperty) :=
  os.zipIdx.flatMap fun x => x.1.bindings.map (x.2, ·)

lemma map_snd_placed (os : List Node) : (placed os).map Prod.snd = os.flatMap Node.bindings := by
  have hfst : os.flatMap Node.bindings = os.zipIdx.flatMap fun x => x.1.bindings := by
    rw [← flatMap_map Prod.fst Node.bindings, zipIdx_map_fst]
  simp [placed, map_flatMap, hfst, Function.comp_def]

lemma mem_placed {os : List Node} (hi : os[i]? = some o)
    (hb : b ∈ o.bindings) : (i, b) ∈ placed os :=
  mem_flatMap.mpr ⟨(o, i), mem_zipIdx_iff_getElem?.mpr hi, mem_map_of_mem hb⟩

lemma filter_placed (P : Nat → BoundProperty → Bool) (os : List Node) :
    ((placed os).filter fun x => P x.1 x.2).flatMap (·.2.wire) =
      os.zipIdx.flatMap fun x => (x.1.bindings.filter (P x.2)).flatMap wire := by
  simp [placed, filter_flatMap, flatMap_assoc, filter_map, flatMap_map,
    Function.comp_def]

variable {c : Class} {t : Object}

lemma isReady_builtAt (t : Object) (i : Nat) (b : BoundProperty) :
    b.isReady (builtAt [] (t.withParents none) i) = decide (b.LooksBack t.nodes i) := by
  have hids : builtAt [] (t.withParents none) i = ((t.nodes.take (i + 1)).map Node.id).reverse := by
    have hnodes := t.map_snd_withParents none
    rw [← hnodes, builtAt, builtAfter, map_take, append_nil]
  rw [Bool.eq_iff_iff, isReady_iff, hids]
  simp [LooksBack]

lemma construction_of_root (h : c.root = some t) :
    c.construction = ofNodes [] (t.withParents none) := by
  simp [construction, h]

lemma filter_isWiring_blocks (h : c.root = some t) :
    c.construction.blocks.flatten.filter isWiring =
      ((placed t.nodes).filter fun x => decide (x.2.LooksBack t.nodes x.1)).flatMap (·.2.wire) := by
  rw [filter_placed (fun i b => decide (b.LooksBack t.nodes i)), t.zipIdx_nodes none,
    construction_of_root h, blocks_ofNodes, ← flatMap_def, filter_flatMap,
    flatMap_map]
  simp only [Node.filter_isWiring_block, isReady_builtAt]

lemma deferred_construction (h : c.root = some t) :
    c.construction.deferred =
      ((placed t.nodes).filter fun x => !decide (x.2.LooksBack t.nodes x.1)).flatMap
        (·.2.wire) := by
  rw [filter_placed (fun i b => !decide (b.LooksBack t.nodes i)), t.zipIdx_nodes none,
    construction_of_root h, deferred_ofNodes, flatMap_map]
  simp only [Node.waiting, isReady_builtAt]

/-! Names of the members of bindings. -/

section

variable (h : c.checkNames s = none)

include h

lemma nodup_fields (reg : Registry) : ((c.artifact s reg).fields.flatten.map Field.name).Nodup := by
  refine (nodup_memberNames h reg).sublist ?_
  simp only [Artifact.memberNames, append_assoc]
  exact sublist_append_left _ _

lemma nodup_handlers : (c.bindings.map handler).Nodup := by
  refine (nodup_fields h {}).sublist ?_
  have hfields : (c.artifact s {}).fields = c.fieldGroups s.runtimePath {} := rfl
  rw [hfields, flatten_fieldGroups]
  exact (sublist_append_right _ _).trans (sublist_append_left _ _)

lemma nodup_placed_handlers (hroot : c.root = some t) :
    ((placed t.nodes).map fun x => x.2.handler).Nodup := by
  have hmap : (placed t.nodes).map (fun x => x.2.handler) =
      ((placed t.nodes).map Prod.snd).map handler := by simp
  rw [hmap, map_snd_placed, ← objects_of_root hroot]
  exact nodup_handlers h

end

end Class

/-! Bindings of a checked class. -/

namespace Class

open Store BoundProperty Construction

variable {c : Class} {t : Object}

lemma filter_concerns_eq (handler : Text) (steps : List ObjectStep) :
    steps.filter (concerns handler) =
      (steps.filter isWiring).filter (concerns handler) := by
  rw [filter_filter]
  refine filter_congr fun a _ => ?_
  cases h : a.concerns handler with
  | false => rfl
  | true => simp [isWiring_of_concerns h]

section

variable (hnames : c.checkNames s = none)

include hnames

section

variable (hroot : c.root = some t)

include hroot

lemma filter_concerns_steps (hb : (i, b) ∈ placed t.nodes) :
    c.construction.steps.filter (concerns b.handler) = b.wire := by
  let early := (placed t.nodes).filter fun x => decide (x.2.LooksBack t.nodes x.1)
  let late := (placed t.nodes).filter fun x => !decide (x.2.LooksBack t.nodes x.1)
  have hperm : (early ++ late).Perm (placed t.nodes) := filter_append_perm _ _
  have hnd : ((early ++ late).map fun x => x.2.handler).Nodup :=
    (hperm.map _).nodup_iff.mpr (nodup_placed_handlers hnames hroot)
  have hone := filter_key_eq_singleton (fun x : Nat × BoundProperty => x.2.handler) hnd
    (hperm.mem_iff.mpr hb)
  have hwires : ∀ xs : List (Nat × BoundProperty),
      (xs.flatMap (·.2.wire)).filter (concerns b.handler) =
        (xs.filter (·.2.handler == b.handler)).flatMap (·.2.wire) := by
    intro xs
    have hmap := filter_concerns_wires b.handler (xs.map Prod.snd)
    simpa [flatMap_map, filter_map, Function.comp_def] using hmap
  calc c.construction.steps.filter (concerns b.handler)
      = (early.flatMap (·.2.wire) ++ late.flatMap (·.2.wire)).filter
          (concerns b.handler) := by
        rw [Construction.steps, filter_append, filter_concerns_eq _ c.construction.blocks.flatten,
          filter_isWiring_blocks hroot, deferred_construction hroot, filter_append]
    _ = ((early ++ late).filter (·.2.handler == b.handler)).flatMap (·.2.wire) := by
        rw [← flatMap_append, hwires]
    _ = b.wire := by rw [hone]; simp

end

end

end Class

end ReactiveModel
