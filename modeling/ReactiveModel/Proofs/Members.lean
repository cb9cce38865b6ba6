import Mathlib.Data.List.Perm.Basic
import ReactiveModel.Artifact.Code
import ReactiveModel.Proofs.Check

/-! The members that generated code declares on its type: the fields of the type and the methods
that it receives, read off the code. They are the members whose names the check compares, with the
same multiplicities. -/

namespace ReactiveModel

open List Naming BoundProperty

lemma filter_key_eq_singleton {α β : Type} [DecidableEq β] (f : α → β) {xs : List α}
    (h : (xs.map f).Nodup) {x : α} (hx : x ∈ xs) : xs.filter (fun y => f y == f x) = [x] := by
  induction xs with
  | nil => nomatch hx
  | cons y ys ih =>
    obtain ⟨hy, hys⟩ := nodup_cons.mp h
    rcases mem_cons.mp hx with rfl | hx
    · have hnone : ys.filter (fun z => f z == f x) = [] := by
        refine filter_eq_nil_iff.mpr fun z hz he => hy ?_
        exact mem_map.mpr ⟨z, hz, by simpa using he⟩
      simp [hnone]
    · have hne : f y ≠ f x := fun he => hy (he ▸ mem_map_of_mem hx)
      simp [hne, ih hys hx]

namespace Code

/-- The name of a field in the body of a type; none for a blank line. -/
def fieldName? : Code → Option Text
  | .phrase (.word name :: _) => some name
  | _ => none

/-- The members that one declaration gives to a type. -/
def membersOf (owner : Text) : Code → List Text
  | .phrase [.word keyword, .word name, .group opening _ _ _ body] =>
    if keyword = "type" ∧ name = owner ∧ opening = "struct\x7b" then body.filterMap fieldName?
    else []
  | .phrase (.word keyword :: .group _ _ _ _ [.phrase [_, _, .word receiver]] :: .word name :: _) =>
    if keyword = "func" ∧ receiver = owner then [name] else []
  | _ => []

def parts : Code → List Code
  | .group _ _ _ _ cs => cs
  | _ => []

def declaredOn (owner : Text) : Code → List Text
  | .group _ _ _ _ cs => cs.flatMap (membersOf owner)
  | _ => []

/-- The methods that one declaration gives to a type, with their statements. -/
def methodsOf (owner : Text) : Code → List (Text × List Code)
  | .phrase (.word keyword :: .group _ _ _ _ [.phrase [_, _, .word receiver]] :: .word name ::
      rest) =>
    if keyword = "func" ∧ receiver = owner then
      rest.getLast?.toList.filterMap fun
        | .group _ _ _ _ body => some (name, body)
        | _ => none
    else []
  | _ => []

def methodsOn (owner : Text) : Code → List (Text × List Code)
  | .group _ _ _ _ cs => cs.flatMap (methodsOf owner)
  | _ => []

variable (owner : Text)

@[simp] lemma membersOf_gap : membersOf owner gap = [] := rfl

@[simp] lemma membersOf_comment (owner t : Text) : membersOf owner (comment t) = [] := rfl

@[simp] lemma methodsOf_gap : methodsOf owner gap = [] := rfl

lemma map_fst_methodsOf (c : Code) :
    ((methodsOf owner c).map Prod.fst).Sublist (membersOf owner c) := by
  unfold methodsOf
  split
  · rename_i rest
    simp only [membersOf]
    split
    · rcases rest.getLast? with _ | ⟨_ | _ | _ | _⟩
      all_goals simp
    · exact nil_sublist _
  · exact nil_sublist _

lemma map_fst_methodsOn (c : Code) :
    ((methodsOn owner c).map Prod.fst).Sublist (declaredOn owner c) := by
  cases c with
  | group _ _ _ _ cs =>
    simp only [methodsOn, declaredOn]
    induction cs with
    | nil => exact nil_sublist _
    | cons c cs ih =>
      rw [flatMap_cons, map_append]
      exact (map_fst_methodsOf owner c).append ih
  | _ => exact nil_sublist _

end Code

namespace Artifact

open Code

@[simp] lemma membersOf_method (a : Artifact) (name : Text) (header body : List Code) :
    membersOf a.className (a.method name header body) = [name] := by
  simp [method, params, membersOf]

@[simp] lemma methodsOf_method (a : Artifact) (name : Text) (header body : List Code) :
    methodsOf a.className (a.method name header body) = [(name, body)] := by
  simp [method, params, methodsOf, block]

lemma fieldNames_spaced (gs : List (List Field)) :
    (spaced (gs.map (·.map Field.code))).filterMap fieldName? = gs.flatten.map Field.name := by
  have hgap : fieldName? gap = none := rfl
  have hname : fieldName? ∘ Field.code = some ∘ Field.name := rfl
  rw [filterMap_spaced hgap, ← map_flatten, filterMap_map, hname, filterMap_eq_map]

/-- The members in the order in which they are declared. -/
def memberNames (a : Artifact) : List Text :=
  let fixed (name : String) : Text := name
  a.fields.flatten.map Field.name ++ ["Initialize", "Root"].map fixed ++
    a.properties.flatMap (fun p => [p.getter, p.setter, p.changed]) ++
    a.signalAccessors.map Field.name ++ ["initResources", "initObjects"].map fixed ++
    a.evaluations.map Evaluation.method ++
    (if a.replications.isEmpty then [] else [fixed "initReplicators"]) ++
    if a.eager then [fixed "evaluateBindings"] else []

lemma membersOf_functionsCode (a : Artifact) :
    a.functionsCode.flatMap (membersOf a.className) = [] := by
  have hne : ("interface\x7b" : Text) ≠ "struct\x7b" := by decide
  unfold functionsCode
  split
  · rfl
  · simp [membersOf, comment, interface, hne]

lemma membersOf_signalsCode (a : Artifact) :
    a.signalsCode.flatMap (membersOf a.className) = [] := by
  have hne : ("var" : Text) ≠ "type" := by decide
  unfold signalsCode
  split
  · rfl
  · simp [membersOf, signalsVariable, record, hne]

lemma membersOf_structCode (a : Artifact) :
    a.structCode.flatMap (membersOf a.className) = a.fields.flatten.map Field.name := by
  simp [structCode, membersOf, comment, record, fieldNames_spaced]

lemma declaredOn_code (a : Artifact) : a.code.declaredOn a.className = a.memberNames := by
  have hproperties : (a.properties.flatMap a.propertyCode).flatMap (membersOf a.className) =
      a.properties.flatMap fun p => [p.getter, p.setter, p.changed] := by
    simp [flatMap_assoc, propertyCode, signalCode]
  have hsignals : (a.signalAccessors.flatMap a.signalCode).flatMap (membersOf a.className) =
      a.signalAccessors.map Field.name := by
    simp [flatMap_assoc, signalCode, map_eq_flatMap]
  have hevaluations : (a.evaluations.flatMap a.evaluationCode).flatMap (membersOf a.className) =
      a.evaluations.map Evaluation.method := by
    simp [flatMap_assoc, evaluationCode, map_eq_flatMap]
  have hreplications : a.replicationsCode.flatMap (membersOf a.className) =
      if a.replications.isEmpty then [] else [("initReplicators" : Text)] := by
    unfold replicationsCode
    split <;> simp
  have hevaluate : a.evaluateCode.flatMap (membersOf a.className) =
      if a.eager then [("evaluateBindings" : Text)] else [] := by
    unfold evaluateCode
    split <;> simp
  simp only [code, declarations, declaredOn, flatMap_append, membersOf_functionsCode,
    membersOf_signalsCode, membersOf_structCode, hproperties, hsignals, hevaluations,
    hreplications, hevaluate, memberNames]
  simp [initializeCode, rootCode, resourcesCode, objectsCode]

/-- The statements of the methods with a name. -/
def bodies (a : Artifact) (name : Text) : List (List Code) :=
  ((a.code.methodsOn a.className).filter (·.1 == name)).map Prod.snd

variable {a : Artifact} {name : Text} {body : List Code}

lemma bodies_eq_singleton (hnames : a.memberNames.Nodup)
    (h : (name, body) ∈ a.code.methodsOn a.className) : a.bodies name = [body] := by
  have hnodup : ((a.code.methodsOn a.className).map Prod.fst).Nodup := by
    rw [← a.declaredOn_code] at hnames
    exact hnames.sublist (map_fst_methodsOn a.className a.code)
  rw [bodies, filter_key_eq_singleton Prod.fst hnodup h]
  rfl

lemma bodies_of_method (hnames : a.memberNames.Nodup) (header : List Code)
    (h : a.method name header body ∈ a.code.parts) : a.bodies name = [body] := by
  refine bodies_eq_singleton hnames (mem_flatMap.mpr ⟨_, h, ?_⟩)
  rw [methodsOf_method]
  exact mem_singleton_self _

end Artifact

namespace Class

lemma count_flatMap_cons {α : Type} (f : α → Text) (g : α → List Text) (xs : List α) (n : Text) :
    (xs.flatMap fun x => f x :: g x).count n = (xs.map f).count n + (xs.flatMap g).count n := by
  induction xs with
  | nil => rfl
  | cons x xs ih =>
    simp only [flatMap_cons, count_append, count_cons, map_cons, ih]
    omega

lemma flatten_fieldGroups (runtime : String) (reg : Registry) (c : Class) :
    (c.fieldGroups runtime reg).flatten.map Field.name =
      ("initialized" : Text) :: c.resources.map (resourceField ·.name) ++
        c.properties.map (storageField ·.name) ++ c.objects.map Node.slot ++
        c.bindings.map handler ++
        c.replicators.map (replicatorField ·.id) := by
  simp [fieldGroups, flatten_filter_not_isEmpty, objectField, Function.comp_def]

def functionNames (c : Class) : List Text := c.functions.map (Naming.functionName ·.signature)

lemma count_propertyMembers (ps : List Property) (n : Text) :
    ((ps.flatMap propertyMembers).map Member.name).count n =
      (ps.map (storageField ·.name)).count n +
        (ps.flatMap fun p => [getter p.name, setter p.name,
          changedSignal p.name]).count n := by
  rw [map_flatMap, ← count_flatMap_cons]
  rfl

lemma count_objectMembers (c : Class) (n : Text) :
    ((c.objects.flatMap objectMembers).map Member.name).count n =
      (c.objects.map Node.slot).count n + (c.bindings.map handler).count n +
        (c.bindings.map expression).count n := by
  have hbindings : c.objects.flatMap (fun o => o.bindings.flatMap fun b =>
      [b.handler, b.expression]) = c.bindings.flatMap fun b => [b.handler, b.expression] := by
    rw [bindings, flatMap_assoc]
  have hmembers : (c.objects.flatMap objectMembers).map Member.name =
      c.objects.flatMap fun o =>
        o.slot :: o.bindings.flatMap fun b => [b.handler, b.expression] := by
    simp [map_flatMap, objectMembers, bindingMembers]
  rw [hmembers, count_flatMap_cons, hbindings, count_flatMap_cons, ← map_eq_flatMap,
    Nat.add_assoc]

/-- The members of the check are those that the artifact declares, and the functions. -/
lemma perm_members (s : Settings) (reg : Registry) (c : Class) :
    ((c.artifact s reg).memberNames ++ c.functionNames).Perm ((c.members s).map Member.name) := by
  refine perm_iff_count.mpr fun n => ?_
  have hfields : (c.artifact s reg).fields = c.fieldGroups s.runtimePath reg := rfl
  have hproperties : (c.artifact s reg).properties.flatMap
      (fun p => [p.getter, p.setter, p.changed]) = c.properties.flatMap fun p =>
        [getter p.name, setter p.name, changedSignal p.name] := by
    simp [artifact, flatMap_map, accessors]
  have hsignals : (c.artifact s reg).signalAccessors.map Field.name =
      (c.signals.map signalMember).map Member.name := by
    simp [artifact, signalField, signalMember]
  have hevaluations : (c.artifact s reg).evaluations.map Evaluation.method =
      c.bindings.map expression := by
    simp [artifact, evaluation]
  have hreplications : (c.artifact s reg).replications.isEmpty = c.replicators.isEmpty := by
    simp [artifact]
  have heager : (c.artifact s reg).eager = c.isEager s := rfl
  have hfunctions : c.functionNames = (c.functions.map functionMember).map Member.name := by
    simp [functionNames, functionMember]
  have hresources : (c.resources.map resourceMember).map Member.name =
      c.resources.map (resourceField ·.name) := by
    simp [resourceMember]
  have hreplicators : (c.replicators.map replicatorMember).map Member.name =
      c.replicators.map (replicatorField ·.id) := by
    simp [replicatorMember]
  simp only [members, fixedMembers, Artifact.memberNames, hfields, flatten_fieldGroups, hproperties,
    hsignals, hevaluations, hreplications, heager, hfunctions, hresources, hreplicators,
    map_append, count_append, count_propertyMembers, count_objectMembers]
  cases c.replicators.isEmpty <;> cases c.isEager s <;>
    simp [count_cons] <;> omega

lemma nodup_memberNames {s : Settings} {c : Class} (h : c.checkNames s = none) (reg : Registry) :
    (c.artifact s reg).memberNames.Nodup := by
  have hall : ((c.members s).map Member.name).Nodup := checkNames_eq_none_iff.mp h
  exact ((perm_members s reg c).nodup_iff.mpr hall).sublist (sublist_append_left _ _)

/-- The check accepts the names exactly when the members that the code declares on the type and the
hand-written functions have different names, and otherwise reports each occurrence of a name after
its first. -/
theorem checkNames_decides_declared_names (s : Settings) (reg : Registry) (c : Class) :
    let names := (c.artifact s reg).code.declaredOn c.name ++ c.functionNames
    (c.checkNames s = none ↔ names.Nodup) ∧
      ∃ rs : List (Text × Text),
        c.checkNames s =
            (if rs = [] then none
              else some (.join (rs.map fun r => .schema c.name r.1 r.2 none))) ∧
          ∀ n, (rs.map Prod.fst).count n = names.count n - 1 := by
  intro names
  have hperm : names.Perm ((c.members s).map Member.name) := by
    have hdeclared : (c.artifact s reg).code.declaredOn c.name = (c.artifact s reg).memberNames :=
      (c.artifact s reg).declaredOn_code
    have hnames : names = (c.artifact s reg).memberNames ++ c.functionNames := by rw [← hdeclared]
    rw [hnames]
    exact perm_members s reg c
  obtain ⟨rs, hrs, hcount⟩ := c.checkNames_eq_reports s
  refine ⟨checkNames_eq_none_iff.trans hperm.nodup_iff.symm, rs, hrs, fun n => ?_⟩
  rw [hcount, hperm.count_eq]

end Class
end ReactiveModel
