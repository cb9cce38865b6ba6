import ReactiveModel.Proofs.DerivedNames
import ReactiveModel.Proofs.Fixpoint

/-! Setters that generated code calls on objects. A literal is set while the objects are built and a
binding whenever it is evaluated; the setter is named by the property. Two properties of an object
share a setter exactly when their names differ in the case of the first letter. -/

namespace ReactiveModel

open List Naming ObjectStep

namespace ObjectStep

def target? : ObjectStep → Option (Text × Text)
  | .set slot setter _ => some (slot, setter)
  | _ => none

end ObjectStep

/-- The slot of an object and the method that a statement calls on it with a verbatim argument. -/
def Code.setterCall? (receiver : Text) : Code → Option (Text × Text)
  | .phrase [.phrase [.phrase [.word x, _, .word slot], _, .word method],
      .group _ _ _ _ [.word _]] => if x = receiver then some (slot, method) else none
  | _ => none

namespace Artifact

def targets (a : Artifact) : List (Text × Text) :=
  a.construction.steps.filterMap target? ++ a.evaluations.map fun e => (e.slot, e.setter)

/-- The same, read off the methods that build the objects and evaluate bindings. -/
def setterCalls (a : Artifact) : List (Text × Text) :=
  (Text.ofString "initObjects" :: a.evaluations.map Evaluation.method).flatMap fun m =>
    (a.bodies m).flatten.filterMap (Code.setterCall? a.receiver)

lemma setterCall?_stepCode (a : Artifact) (st : ObjectStep) :
    (a.stepCode st).setterCall? a.receiver = st.target? := by
  cases st <;> simp [stepCode, Code.call, Code.assign, Code.params, Code.dot, member,
    Code.setterCall?, target?]

lemma setterCalls_eq {a : Artifact} (h : a.memberNames.Nodup) : a.setterCalls = a.targets := by
  have hlines (body : List Code) : (body.filterMap Code.statement?).filterMap
      (Code.setterCall? a.receiver) = body.filterMap (Code.setterCall? a.receiver) := by
    rw [filterMap_filterMap]
    congr 1
    funext c
    cases c <;> rfl
  obtain ⟨body, hbodies, hbody⟩ := (emits h).objects
  have hobjects : (a.bodies "initObjects").flatten.filterMap (Code.setterCall? a.receiver) =
      a.construction.steps.filterMap target? := by
    rw [hbodies, flatten_singleton, ← hlines, hbody, objectsBody, map_map, filterMap_map]
    exact congrArg (filterMap · _) (funext a.setterCall?_stepCode)
  have hevaluation : ∀ e ∈ a.evaluations, (a.bodies e.method).flatten.filterMap
      (Code.setterCall? a.receiver) = [(e.slot, e.setter)] := by
    intro e he
    rw [(emits h).evaluations e he, flatten_singleton]
    exact filterMap_cons_some (a.setterCall?_stepCode (.set e.slot e.setter e.expression))
  rw [setterCalls, flatMap_cons, hobjects, flatMap_map, targets, map_eq_flatMap,
    flatMap_congr hevaluation]

end Artifact

namespace Naming

/-- Names that differ at most in their first letters, which are the same in upper case. -/
def CaseTwins (p q : Text) : Prop :=
  ∃ a b cs, p = Text.ofString (String.ofList (a :: cs)) ∧
    q = Text.ofString (String.ofList (b :: cs)) ∧ Text.toUpper a = Text.toUpper b

lemma setter_eq_iff {p q : Text} (hp : isBase p = true) (hq : isBase q = true) :
    setter p = setter q ↔ CaseTwins p q := by
  have hinj : setter p = setter q ↔ title p = title q :=
    ⟨fun h => congrArg Text.mk (append_cancel_left (congrArg Text.bytes h)), fun h => by
      rw [setter, setter, h]⟩
  obtain ⟨s, rfl, hs⟩ := isBase_iff.mp hp
  obtain ⟨a, cs, rfl, -⟩ := hs.exists_cons
  obtain ⟨t, rfl, ht⟩ := isBase_iff.mp hq
  obtain ⟨b, ds, rfl, -⟩ := ht.exists_cons
  rw [hinj, title, title, mapFirst_ofString, mapFirst_ofString]
  simp only [CaseTwins, Text.ofString_inj, String.ofList_inj, cons.injEq]
  constructor
  · rintro ⟨h, rfl⟩
    exact ⟨a, b, cs, ⟨rfl, rfl⟩, ⟨rfl, rfl⟩, h⟩
  · rintro ⟨a, b, cs, ⟨rfl, rfl⟩, ⟨rfl, rfl⟩, h⟩
    exact ⟨h, rfl⟩

end Naming

lemma BoundProperty.filterMap_target?_wire (b : BoundProperty) : b.wire.filterMap target? = [] := by
  simp [wire, target?]

namespace Node

def target (o : Node) (p : Text × Value) : Text × Text := (o.slot, setter p.1)

lemma filterMap_target?_block (o : Node) (parent : Option Node) (built : List Text) :
    (o.block parent built).filterMap target? =
      (o.properties.table.filter (!·.2.isBinding)).map o.target := by
  have hproperty (p : Text × Value) : (o.propertySteps built p).filterMap target? =
      if !p.2.isBinding then [o.target p] else [] := by
    unfold propertySteps
    split
    · rfl
    · split
      · exact BoundProperty.filterMap_target?_wire _
      · rfl
  have hattach : (parent.toList.map fun p => attach p.slot o.slot).filterMap
      target? = [] := by
    cases parent <;> rfl
  rw [block_eq, filterMap_append, hattach, append_nil]
  simp only [Store.ownSteps, filterMap_cons, target?, filterMap_flatMap, hproperty]
  induction o.properties.table with
  | nil => rfl
  | cons p ps ih =>
    rw [flatMap_cons, ih]
    cases hb : p.2.isBinding <;> simp [hb]

end Node

namespace Construction

lemma filterMap_target?_ofNodes (built : List Text) (xs : List (Option Node × Node)) :
    (ofNodes built xs).steps.filterMap target? =
      (xs.map Prod.snd).flatMap fun o =>
        (o.properties.table.filter (!·.2.isBinding)).map o.target := by
  have hdeferred : (ofNodes built xs).deferred.filterMap target? = [] := by
    simp [deferred_ofNodes, filterMap_flatMap, BoundProperty.filterMap_target?_wire]
  rw [steps, filterMap_append, hdeferred, append_nil, blocks_ofNodes, ← flatMap_def,
    filterMap_flatMap]
  simp only [Node.filterMap_target?_block]
  nth_rewrite 2 [← zipIdx_map_fst 0 xs]
  rw [flatMap_map, flatMap_map]

end Construction

namespace Class

variable {c : Class} {s : Settings} {reg : Registry}

lemma perm_targets (c : Class) (s : Settings) (reg : Registry) :
    (c.artifact s reg).targets.Perm
      (c.objects.flatMap fun o => o.properties.table.map o.target) := by
  have hsteps : (c.artifact s reg).construction.steps.filterMap target? =
      c.objects.flatMap fun o => (o.properties.table.filter (!·.2.isBinding)).map o.target := by
    have hnodes : ((c.root.map (Tree.withParents none)).getD []).map Prod.snd = c.objects := by
      cases hroot : c.root <;> simp [objects, hroot]
    rw [← hnodes]
    exact Construction.filterMap_target?_ofNodes [] _
  have hevaluations : (c.artifact s reg).evaluations.map (fun e => (e.slot, e.setter)) =
      c.objects.flatMap fun o => (o.properties.table.filter (·.2.isBinding)).map o.target := by
    simp only [artifact, bindings, map_flatMap, Node.bindings, map_map]
    rfl
  rw [Artifact.targets, hsteps, hevaluations]
  refine (flatMap_append_perm _ _ _).trans (Perm.flatMap_left _ fun o _ => ?_)
  rw [← map_append]
  exact (perm_append_comm.trans (filter_append_perm _ _)).map _

lemma nodup_map_target_iff {o : Node} (ho : ObjectSound o) :
    (o.properties.table.map o.target).Nodup ↔
      ∀ p ∈ o.propertyNames, ∀ q ∈ o.propertyNames, CaseTwins p q → p = q := by
  have hnames : o.propertyNames.Nodup := by
    refine pairwise_map.mpr (o.properties.ordered.imp fun {p q} hlt heq => ?_)
    exact Std.Irrefl.irrefl q.1 (heq ▸ hlt)
  have hbase {n : Text} (hn : n ∈ o.propertyNames) : isBase n = true := by
    obtain ⟨p, hp, rfl⟩ := mem_map.mp hn
    exact (ho.values p hp).1
  have hmap : o.properties.table.map o.target =
        o.propertyNames.map fun n => (o.slot, setter n) := by
    rw [Node.propertyNames, Table.keys, map_map]
    rfl
  rw [hmap, nodup_map_iff_inj_on hnames]
  refine forall₂_congr fun p hp => forall₂_congr fun q hq => ?_
  rw [Prod.mk.injEq, setter_eq_iff (hbase hp) (hbase hq), and_iff_right rfl]

/-- An accepted class calls no setter of an object twice exactly when no object has two properties
whose names differ in the case of the first letter. -/
theorem setters_distinct_iff (h : c.check s reg = .passed) :
    (c.artifact s reg).setterCalls = (c.artifact s reg).targets ∧
      ((c.artifact s reg).targets.Nodup ↔ ∀ o ∈ c.objects, ∀ p ∈ o.propertyNames,
        ∀ q ∈ o.propertyNames, CaseTwins p q → p = q) := by
  obtain ⟨-, -, hfaults, hnames⟩ := check_eq_passed_iff.mp h
  have hsound := (treeFaults_eq_nil_iff.mp (faults_eq_some_nil_iff.mp hfaults).1).1
  have hslots : c.objects.Pairwise fun o o' => o.slot ≠ o'.slot :=
    pairwise_map.mp (Nodup.of_append_left (nodup_slots_handlers hnames))
  have hdisjoint : c.objects.Pairwise (Function.onFun Disjoint fun o =>
      o.properties.table.map o.target) := by
    refine hslots.imp fun hne x hx hx' => ?_
    obtain ⟨p, -, rfl⟩ := mem_map.mp hx
    obtain ⟨q, -, heq⟩ := mem_map.mp hx'
    exact hne (congrArg Prod.fst heq).symm
  refine ⟨Artifact.setterCalls_eq (nodup_memberNames hnames reg), ?_⟩
  rw [(perm_targets c s reg).nodup_iff, nodup_flatMap, and_iff_left hdisjoint]
  exact forall₂_congr fun o ho => nodup_map_target_iff (hsound o ho).1

def rowOfBox (p q : Text) : Class :=
  let properties : Properties := .ofPairs [(p, .ofText "1"), (q, .ofBinding ⟨"f()", []⟩)]
  { name := "Row", root := some (.node { id := "box", type := some .box, properties } []) }

theorem setters_distinct_rowOfBox :
    (rowOfBox "height" "width").check {} {} = .passed ∧
      ∀ o ∈ (rowOfBox "height" "width").objects, ∀ p ∈ o.propertyNames, ∀ q ∈ o.propertyNames,
        CaseTwins p q → p = q := by
  have h : (rowOfBox "height" "width").check {} {} = .passed := by rfl
  exact ⟨h, (setters_distinct_iff h).2.mp (by decide +kernel)⟩

/-- The binding of a width overwrites the literal of another width. -/
theorem rowOfBox_widths_share_setter :
    (rowOfBox "Width" "width").check {} {} = .passed ∧
      ¬ ((rowOfBox "Width" "width").artifact {} {}).targets.Nodup := by
  refine ⟨by rfl, ?_⟩
  have htargets : ((rowOfBox "Width" "width").artifact {} {}).targets =
      List.replicate 2 (Text.ofString "box", Text.ofString "SetWidth") := by decide +kernel
  rw [htargets]
  simp

end Class
end ReactiveModel
