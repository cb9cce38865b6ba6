import ReactiveModel.Artifact.Basic

/-! The artifact of a class. It relies on what the check of the class assures. -/

namespace ReactiveModel

structure BoundProperty where
  object : Text
  property : Text
  binding : Binding
deriving DecidableEq, Inhabited

namespace BoundProperty

def handler (b : BoundProperty) : Text := Naming.bindingHandler b.object b.property

def expression (b : BoundProperty) : Text := Naming.bindingExpression b.object b.property

/-- Assigns the handler and connects it to the changes of every dependency. -/
def wire (b : BoundProperty) : List ObjectStep :=
  .assign b.handler b.expression :: b.binding.dependencies.map fun d =>
    .connect (Naming.memberField d.object) (Naming.changedSignal d.property) b.handler

def isReady (built : List Text) (b : BoundProperty) : Bool :=
  b.binding.dependencies.all fun d => built.contains d.object

def evaluation (b : BoundProperty) : Evaluation where
  method := b.expression
  slot := Naming.memberField b.object
  setter := Naming.setter b.property
  expression := b.binding.expression.trim

end BoundProperty

namespace Node

def bound (o : Node) (name : Text) (v : Value) : BoundProperty :=
  ⟨o.id, name, v.binding.getD {}⟩

def bindings (o : Node) : List BoundProperty :=
  (o.properties.table.filter (·.2.isBinding)).map fun (name, v) => o.bound name v

def slot (o : Node) : Text := Naming.memberField o.id

/-- The step or steps for one property, when the given objects are allocated. -/
def propertySteps (o : Node) (built : List Text) (p : Text × Value) : List ObjectStep :=
  if !p.2.isBinding then [.set o.slot (Naming.setter p.1) p.2.text]
  else if (o.bound p.1 p.2).isReady built then (o.bound p.1 p.2).wire
  else []

/-- Allocates an object, sets its properties and attaches it. -/
def block (o : Node) (parent : Option Node) (built : List Text) : List ObjectStep :=
  .allocate o.slot (o.type.getD {}).alloc.trim ::
    o.properties.table.flatMap (o.propertySteps built) ++
      match parent with
      | none => []
      | some p => [.attach p.slot o.slot]

def waiting (o : Node) (built : List Text) : List BoundProperty :=
  o.bindings.filter fun b => !b.isReady built

end Node

/-- Builds objects one after the other, where some are already allocated. -/
def Construction.ofNodes : List Text → List (Option Node × Node) → Construction
  | _, [] => {}
  | built, (parent, o) :: rest =>
    let built := o.id :: built
    let c := ofNodes built rest
    { blocks := o.block parent built :: c.blocks
      deferred := (o.waiting built).flatMap BoundProperty.wire ++ c.deferred }

def Outline.slotType (c : Outline) (runtime : String) : TypeCode :=
  .pointer <|
    if c.isGenerated then .verbatim c.name
    else if c.source != "" then .named c.source c.name
    else .named runtime c.name

namespace Class

def bindings (c : Class) : List BoundProperty := c.objects.flatMap Node.bindings

def isEager (s : Settings) (c : Class) : Bool :=
  s.enabled .eagerBindings && !c.bindings.isEmpty

def construction (c : Class) : Construction :=
  .ofNodes [] ((c.root.map (Tree.withParents none)).getD [])

/-- The type of a signal, which carries nothing if its signature is blank. -/
def signalType (runtime : String) (signature : Text) : TypeCode :=
  if signature.isBlank then .named runtime "Signal"
  else .instantiated runtime "TypedSignal" (.ofText runtime signature)

def signalField (runtime : String) (s : Signal) : Field :=
  ⟨Naming.signalAccessor s.name, signalType runtime s.signature⟩

/-- The fields of the signals variable: changes of properties, then declared signals. -/
def signalFields (runtime : String) (c : Class) : List Field :=
  (c.properties.map fun p => ⟨Naming.changedSignal p.name, .named runtime "Signal"⟩) ++
    c.signals.map (signalField runtime)

def objectField (runtime : String) (o : Node) : Field :=
  ⟨o.slot, (o.type.getD {}).slotType runtime⟩

def accessors (runtime : String) (p : Property) : Accessors where
  getter := Naming.getter p.name
  setter := Naming.setter p.name
  storage := Naming.storageField p.name
  changed := Naming.changedSignal p.name
  type := .ofText runtime p.type
  comparable := isComparable p.type

def acquisition (runtime : String) (r : Resource) : Acquisition where
  resource := r.name
  slot := Naming.resourceField r.name
  type := .ofText runtime r.type
  key := r.initializer

def target (reg : Registry) (r : Replicator) : Outline := (reg.outline? r.className).getD {}

def replication (reg : Registry) (r : Replicator) : Replication where
  id := r.id
  field := Naming.replicatorField r.id
  count := r.count.count.toOption.getD 0
  maker :=
    if (target reg r).isGenerated then .literal (target reg r).name
    else .verbatim (target reg r).alloc.trim
  initializor := r.initializor.trim
  parent := Naming.memberField r.parent

/-- The fields of the class: the guard, resources, storage of properties, slots of objects,
handlers of bindings and collections of replicators. -/
def fieldGroups (runtime : String) (reg : Registry) (c : Class) : List (List Field) :=
  [[⟨"initialized", .verbatim "bool"⟩],
   c.resources.map fun r => ⟨Naming.resourceField r.name, .pointer (.ofText runtime r.type)⟩,
   c.properties.map fun p => ⟨Naming.storageField p.name, .ofText runtime p.type⟩,
   c.objects.map (objectField runtime),
   c.bindings.map fun b => ⟨b.handler, .named runtime "HandlerFunc"⟩,
   c.replicators.map fun r =>
     ⟨Naming.replicatorField r.id, .slice ((target reg r).slotType runtime)⟩].filter
    (!·.isEmpty)

def artifact (s : Settings) (reg : Registry) (c : Class) : Artifact :=
  let runtime := s.runtimePath
  { className := c.name
    receiver := s.receiverOf c.name
    runtime
    functions := c.functions.map (·.signature.trim)
    signals := c.signalFields runtime
    fields := c.fieldGroups runtime reg
    root := ((c.root.map Tree.value).map (objectField runtime)).getD default
    properties := c.properties.map (accessors runtime)
    signalAccessors := c.signals.map (signalField runtime)
    acquisitions := c.resources.map (acquisition runtime)
    construction := c.construction
    evaluations := c.bindings.map (·.evaluation)
    replications := c.replicators.map (replication reg)
    eager := c.isEager s }

end Class

end ReactiveModel
