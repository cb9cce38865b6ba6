import ReactiveModel.Proofs.Emission

/-! Signals that bindings are connected to. The accessor that a connection calls on an object is
declared in the artifact of its class, and gives the field that the setter of the property emits
when it has stored a value. -/

namespace ReactiveModel

open List Naming

namespace Code

def fieldsOf (holder : Text) : Code → List Text
  | .phrase [.word keyword, .word name, .group _ _ _ _ body] =>
    if keyword = "var" ∧ name = holder then body.filterMap fieldName? else []
  | _ => []

def fieldsIn (holder : Text) : Code → List Text
  | .group _ _ _ _ cs => cs.flatMap (fieldsOf holder)
  | _ => []

/-- The field of a variable whose address is all that a method returns. -/
def addressed? (holder : Text) : List Code → Option Text
  | [.group opening _ _ _ [.phrase [.word mark, .phrase [.word name, _, .word field]]]] =>
    if opening = "return " ∧ mark = "&" ∧ name = holder then some field else none
  | _ => none

inductive SetterEvent
  | stores (field : Text)
  | emits (field : Text)
deriving DecidableEq

/-- A field of the receiver gets the value, or a signal of a variable is emitted. -/
def event? (receiver signals : Text) : Code → Option SetterEvent
  | .phrase [.phrase [.word name, _, .word field], .word sign, .word value] =>
    if name = receiver ∧ sign = "=" ∧ value = "value" then some (.stores field) else none
  | .phrase [.phrase [.phrase [.word name, _, .word field], _, .word method], .group ..] =>
    if name = signals ∧ method = "Emit" then some (.emits field) else none
  | _ => none

@[simp] lemma fieldsOf_gap (holder : Text) : fieldsOf holder gap = [] := rfl

@[simp] lemma fieldsOf_comment (holder t : Text) : fieldsOf holder (comment t) = [] := rfl

end Code

namespace Artifact

open Code

@[simp] lemma fieldsOf_method (a : Artifact) (holder name : Text) (header body : List Code) :
    fieldsOf holder (a.method name header body) = [] := rfl

lemma fieldsIn_code (a : Artifact) :
    a.code.fieldsIn (signalsVar a.className) = a.signals.map Field.name := by
  have hne : ("type" : Text) ≠ "var" := by decide
  have hsignals : a.signalsCode.flatMap (fieldsOf (signalsVar a.className)) =
      a.signals.map Field.name := by
    have hname : (fun f : Field => fieldName? f.code) = some ∘ Field.name := rfl
    unfold signalsCode
    split
    · rename_i hnone
      rw [isEmpty_iff.mp hnone]
      rfl
    · simp [fieldsOf, signalsVariable, record, hname]
  have hfunctions : a.functionsCode.flatMap (fieldsOf (signalsVar a.className)) = [] := by
    unfold functionsCode
    split
    · rfl
    · simp [fieldsOf, comment, interface, hne]
  have hstruct : a.structCode.flatMap (fieldsOf (signalsVar a.className)) = [] := by
    simp [structCode, fieldsOf, comment, record, hne]
  have hreplications : a.replicationsCode.flatMap (fieldsOf (signalsVar a.className)) = [] := by
    unfold replicationsCode
    split <;> simp
  have hevaluate : a.evaluateCode.flatMap (fieldsOf (signalsVar a.className)) = [] := by
    unfold evaluateCode
    split <;> simp
  simp only [code, declarations, fieldsIn, flatMap_append, hfunctions, hsignals, hstruct,
    hreplications, hevaluate]
  simp [initializeCode, rootCode, resourcesCode, objectsCode, flatMap_assoc, propertyCode,
    signalCode, evaluationCode]

def setterGuard (a : Artifact) (p : Accessors) : Code :=
  let same : Code :=
    if p.comparable then .phrase [a.member p.storage, "==", "value"]
    else call (.qualified "reflect" "DeepEqual") [a.member p.storage, "value"]
  .phrase [head "if" [same], block [ret []]]

def setterBody (a : Artifact) (p : Accessors) : List Code :=
  [a.setterGuard p, assign (a.member p.storage) "value",
    call (dot (a.signalOf p.changed) "Emit") [a.receiver]]

lemma methodsOf_propertyCode (a : Artifact) (p : Accessors) :
    (a.propertyCode p).flatMap (methodsOf a.className) =
      [(p.getter, [ret [a.member p.storage]]), (p.setter, a.setterBody p),
        (p.changed, [ret [.phrase ["&", a.signalOf p.changed]]])] := by
  simp [propertyCode, signalCode, setterBody, setterGuard]

variable {a : Artifact} {p : Accessors}

lemma mem_methodsOn_of_property (hp : p ∈ a.properties) {m : Text × List Code}
    (hm : m ∈ (a.propertyCode p).flatMap (methodsOf a.className)) :
    m ∈ a.code.methodsOn a.className := by
  obtain ⟨x, hx, hm⟩ := mem_flatMap.mp hm
  have hmem : x ∈ a.properties.flatMap a.propertyCode := mem_flatMap.mpr ⟨p, hp, hx⟩
  refine mem_flatMap.mpr ⟨x, ?_, hm⟩
  simp only [mem_append]
  iterate 6 left
  exact .inr hmem

/-- What a method of the class does with its fields and with its signals. -/
def events (a : Artifact) (body : List Code) : List SetterEvent :=
  body.filterMap (event? a.receiver (Naming.signalsVar a.className))

/-- How an artifact announces changes of a property. -/
structure Announces (a : Artifact) (p : Accessors) : Prop where
  /-- One method gives the signal. -/
  accessor : ∃ body, a.bodies p.changed = [body] ∧
    addressed? (Naming.signalsVar a.className) body = some p.changed
  /-- It is one field of the variable that holds the signals. -/
  field : (a.code.fieldsIn (Naming.signalsVar a.className)).count p.changed = 1
  /-- One method sets the property: it stores the value, and then emits the signal. -/
  setter : ∃ body, a.bodies p.setter = [body] ∧
    a.events body = [.stores p.storage, .emits p.changed]
  /-- No other one emits it. -/
  only : ∀ q ∈ a.properties, ∀ body ∈ a.bodies q.setter, .emits p.changed ∈ a.events body → q = p

lemma nodup_changed (hnames : a.memberNames.Nodup) :
    (a.properties.map Accessors.changed ++ a.signalAccessors.map Field.name).Nodup := by
  have hsub : (a.properties.map Accessors.changed).Sublist
      (a.properties.flatMap fun p => [p.getter, p.setter, p.changed]) := by
    induction a.properties with
    | nil => exact nil_sublist _
    | cons p ps ih =>
      exact ((ih.cons_cons p.changed).cons p.setter).cons p.getter
  refine hnames.sublist ((hsub.append_right _).trans ?_)
  simp only [memberNames, append_assoc]
  refine Sublist.trans ?_ (sublist_append_right _ _)
  refine Sublist.trans ?_ (sublist_append_right _ _)
  exact (Sublist.refl _).append (sublist_append_left _ _)

section

variable {a : Artifact} (hnames : a.memberNames.Nodup) {p : Accessors} (hp : p ∈ a.properties)

include hnames hp

lemma bodies_changed : a.bodies p.changed = [[ret [.phrase ["&", a.signalOf p.changed]]]] := by
  refine bodies_eq_singleton hnames (mem_methodsOn_of_property hp ?_)
  simp [methodsOf_propertyCode]

lemma bodies_setter : a.bodies p.setter = [a.setterBody p] := by
  refine bodies_eq_singleton hnames (mem_methodsOn_of_property hp ?_)
  simp [methodsOf_propertyCode]

end

lemma events_setterBody (a : Artifact) (p : Accessors) :
    a.events (a.setterBody p) = [.stores p.storage, .emits p.changed] := by
  have hstores : event? a.receiver (signalsVar a.className)
      (assign (a.member p.storage) "value") = some (.stores p.storage) := if_pos ⟨rfl, rfl, rfl⟩
  have hemits : event? a.receiver (signalsVar a.className)
      (call (dot (a.signalOf p.changed) "Emit") [a.receiver]) = some (.emits p.changed) :=
    if_pos ⟨rfl, rfl⟩
  rw [events, setterBody, filterMap_cons_none rfl, filterMap_cons_some hstores,
    filterMap_cons_some hemits, filterMap_nil]

lemma announces (hnames : a.memberNames.Nodup) (hp : p ∈ a.properties)
    (hsignals : a.signals.map Field.name =
      a.properties.map Accessors.changed ++ a.signalAccessors.map Field.name) :
    a.Announces p := by
  have hnodup := nodup_changed hnames
  constructor
  case accessor =>
    refine ⟨_, bodies_changed hnames hp, ?_⟩
    simp [addressed?, ret, signalOf, signalsVariable, dot]
  case field =>
    rw [fieldsIn_code, hsignals]
    exact count_eq_one_of_mem hnodup (mem_append_left _ (mem_map_of_mem hp))
  case setter => exact ⟨_, bodies_setter hnames hp, a.events_setterBody p⟩
  case only =>
    intro q hq body hbody hemits
    rw [bodies_setter hnames hq, mem_singleton] at hbody
    rw [hbody, events_setterBody] at hemits
    have hchanged : q.changed = p.changed := by simpa [eq_comm] using hemits
    exact inj_on_of_nodup_map (Nodup.of_append_left hnodup) hq hp hchanged

end Artifact

namespace Class

variable {s : Settings} {reg : Registry} {c : Class}

lemma announces_property (hnames : c.checkNames s = none) (reg : Registry) {p : Property}
    (hp : p ∈ c.properties) : (c.artifact s reg).Announces (accessors s.runtimePath p) := by
  have hmem : accessors s.runtimePath p ∈ (c.artifact s reg).properties := mem_map_of_mem hp
  refine Artifact.announces (nodup_memberNames hnames reg) hmem ?_
  simp [artifact, signalFields, accessors, Function.comp_def]

lemma exists_source {id name : Text} {d : Dependency} (h : c.dependencyFaults id name d = []) :
    ∃ x, c.byId d.object = some x ∧ ∀ t, x.type = some t → t.declaresProperties = true →
      ∃ p ∈ t.properties, p.name = d.property := by
  obtain ⟨x, hx⟩ := exists_byId_of_dependencyFaults h
  refine ⟨x, hx, fun t ht hdeclares => ?_⟩
  unfold dependencyFaults at h
  simp only [hx, ht, hdeclares, Bool.true_and] at h
  split at h
  · nomatch h
  · cases hp : t.property? d.property with
    | none => simp [hp] at h
    | some p =>
      exact ⟨p, mem_of_find?_eq_some hp, by simpa using find?_some hp⟩

lemma nodup_ids (h : c.check s reg = .passed) : (c.objects.map Node.id).Nodup := by
  obtain ⟨-, -, hfaults, -⟩ := check_eq_passed_iff.mp h
  exact (treeFaults_eq_nil_iff.mp (faults_eq_some_nil_iff.mp hfaults).1).2

/-- A binding of a checked class is connected, on the object that it depends on, to a signal that
the class of the object declares: if that class is generated and passes its check, its artifact
announces the changes of the property with it, and if it is opaque but declares properties, this is
one of them. -/
theorem wired_signals_declared (s : Settings) (reg : Registry) (c : Class)
    (h : c.check s reg = .passed) (o : Node) (ho : o ∈ c.objects) (name : Text) (v : Value)
    (hv : (name, v) ∈ o.properties.table) (hbinding : v.isBinding = true) :
    ∃ b, v.binding = some b ∧ ∀ d ∈ b.dependencies, ∃ x t,
      c.objects.filter (·.id == d.object) = [x] ∧ x.type = some t ∧
        .connect x.slot (Naming.changedSignal d.property) (Naming.bindingHandler o.id name) ∈
          (c.artifact s reg).construction.steps ∧
        ⟨x.slot, t.slotType s.runtimePath⟩ ∈ (c.artifact s reg).fields.flatten ∧
        (∀ k : Class, k.toOutline = t → k.isGenerated = true → k.check s reg = .passed →
          ∃ p ∈ k.properties, p.name = d.property ∧
            (k.artifact s reg).Announces (accessors s.runtimePath p)) ∧
        (t.declarationOnly = true → t.properties ≠ [] →
          ∃ p ∈ t.properties, p.name = d.property) := by
  obtain ⟨-, ⟨root, hroot⟩, hfaults, hnames⟩ := check_eq_passed_iff.mp h
  obtain ⟨-, href, -⟩ := faults_eq_some_nil_iff.mp hfaults
  obtain ⟨b, hb, hfaultless⟩ := exists_binding_of_referenceFaults href ho hv hbinding
  have hb : v.binding = some b := hb
  refine ⟨b, hb, fun d hd => ?_⟩
  obtain ⟨x, hx, hdeclared⟩ := exists_source (hfaultless d hd)
  obtain ⟨hmem, hid⟩ := mem_objects_of_byId hx
  obtain ⟨t, ht⟩ := ((complete_of_check h).objects x hmem).typed
  refine ⟨x, t, hid ▸ filter_key_eq_singleton Node.id (nodup_ids h) hmem, ht, ?_, ?_, ?_, ?_⟩
  · obtain ⟨i, hi⟩ := List.getElem?_of_mem (objects_of_root hroot ▸ ho)
    have hplaced := mem_placed hi (o.bound_mem_bindings hv hbinding)
    have hgroup := filter_concerns_steps hnames hroot hplaced
    have hconnect : ObjectStep.connect x.slot (Naming.changedSignal d.property)
        (Naming.bindingHandler o.id name) ∈ (o.bound name v).wire := by
      refine List.mem_cons_of_mem _ (List.mem_map.mpr ⟨d, ?_, ?_⟩)
      · simpa [Node.bound, hb] using hd
      · rw [← hid]
        rfl
    rw [← hgroup] at hconnect
    exact (List.mem_filter.mp hconnect).1
  · have hfield : objectField s.runtimePath x ∈ (c.artifact s reg).fields.flatten := by
      have hfields : (c.artifact s reg).fields = c.fieldGroups s.runtimePath reg := rfl
      rw [hfields, fieldGroups, List.flatten_filter_not_isEmpty]
      simp only [List.flatten_cons, List.mem_append]
      exact .inr (.inr (.inr (.inl (List.mem_map_of_mem hmem))))
    simpa [objectField, ht] using hfield
  · rintro k rfl hgenerated hk
    obtain ⟨p, hp, hname⟩ := hdeclared _ ht (by simp [Outline.declaresProperties, hgenerated])
    have hknames := (check_eq_passed_iff.mp hk).2.2.2
    exact ⟨p, hp, hname, announces_property hknames reg hp⟩
  · intro hopaque hproperties
    exact hdeclared t ht (by simp [Outline.declaresProperties, hproperties])

def gauge : Class :=
  { name := "Gauge", alloc := "new(Gauge)", properties := [⟨"level", "float64"⟩]
    root := some (.node { id := "dial", type := some .box } []) }

def panelOfGauge : Class :=
  let label : Outline := { name := "Label", declarationOnly := true, alloc := "label()" }
  let text : Value :=
    .ofBinding { expression := "meter.Level()", dependencies := [⟨"meter", "level"⟩] }
  { name := "Panel"
    root := some (.node
      { id := "label", type := some label, properties := .ofPairs [("text", text)] }
      [.node { id := "meter", type := some gauge.toOutline } []]) }

theorem wired_signals_panelOfGauge :
    panelOfGauge.check {} {} = .passed ∧ gauge.check {} {} = .passed ∧
      .connect "meter" "OnLevelChanged" (Naming.bindingHandler "label" "text") ∈
        (panelOfGauge.artifact {} {}).construction.steps ∧
      ∃ p ∈ gauge.properties, p.name = "level" ∧
        (gauge.artifact {} {}).Announces (accessors (Settings.runtimePath {}) p) := by
  have hpanel : panelOfGauge.check {} {} = .passed := by rfl
  have hgauge : gauge.check {} {} = .passed := by rfl
  obtain ⟨b, hb, hall⟩ :=
    wired_signals_declared {} {} panelOfGauge hpanel _ (.head _) _ _ (.head _) rfl
  cases hb
  obtain ⟨x, t, hx, ht, hconnect, -, hgenerated, -⟩ := hall _ (.head _)
  cases hx
  cases ht
  exact ⟨hpanel, hgauge, hconnect, hgenerated gauge rfl rfl hgauge⟩

end Class

end ReactiveModel
