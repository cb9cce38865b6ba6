import ReactiveModel.Artifact.OfClass
import ReactiveModel.Source.ReadFile

/-! The check of a class before its artifact is made: what the artifact relies on, and that no two
members of the generated type have the same name. -/

namespace ReactiveModel

inductive CheckResult
  | passed
  | failed (f : Failure)
  /-- A binding value without a binding stops the check itself. -/
  | crashed

namespace Class

def schemaFault (c : Class) (member message : Text) : Failure := .schema c.name member message none

def valueFaults (c : Class) (id : Text) (p : Text × Value) : List Failure :=
  let member := id ++ "." ++ p.1
  (if Naming.isBase p.1 then []
    else [c.schemaFault member "property name is not a Go identifier"]) ++
    match p.2.fault? with
    | none => []
    | some f => [.schema c.name member "invalid property value" (some (.plain f.message))]

/-- Faults of an object after objects with the ids `seen`. -/
def objectFaults (c : Class) (seen : List Text) (o : Node) : List Failure :=
  if o.id == "" then [c.schemaFault "" "object without id"]
  else
    (if !Naming.isBase o.id then [c.schemaFault o.id "object id is not a Go identifier"]
      else if seen.contains o.id then [c.schemaFault o.id "duplicate object id"]
      else []) ++
    (match o.type with
      | none => [c.schemaFault o.id "object has no class"]
      | some t =>
        if t.alloc.isBlank then
          [c.schemaFault o.id ("class " ++ t.name ++ " has no alloc expression")]
        else []) ++
    o.properties.table.flatMap (c.valueFaults o.id)

/-- Faults of things one after the other, each after those with the ids before it. -/
def faultsInTurn {α : Type} (idOf : α → Text) (faults : List Text → α → List Failure) :
    List Text → List α → List Failure
  | _, [] => []
  | seen, x :: xs => faults seen x ++ faultsInTurn idOf faults (idOf x :: seen) xs

def treeFaults (c : Class) : List Text → List Node → List Failure :=
  faultsInTurn Node.id c.objectFaults

/-- The object that an id stands for: the last one of the tree. -/
def byId (c : Class) (id : Text) : Option Node :=
  if id == "" then none else c.objects.reverse.find? (·.id == id)

def dependencyFaults (c : Class) (id name : Text) (d : Dependency) : List Failure :=
  let binding := "binding " ++ id ++ "." ++ name
  match c.byId d.object with
  | none =>
    [.reference c.name "dependency object" d.object (binding ++ " depends on an unknown object")]
  | some source =>
    if !Naming.isBase d.property then
      [c.schemaFault (id ++ "." ++ name)
        ("dependency property " ++ d.property.quoted ++ " is not a Go identifier")]
    else
      match source.type with
      | none => []
      | some t =>
        if t.declaresProperties && (t.property? d.property).isNone then
          [.reference c.name "dependency property" (d.object ++ "." ++ d.property)
            (binding ++ " depends on a property class " ++ t.name ++ " does not declare")]
        else []

/-- Faults of the dependencies of a property value; none if the value lacks its binding. -/
def bindingFaults (c : Class) (id : Text) (p : Text × Value) : Option (List Failure) :=
  if p.2.isBinding then
    p.2.binding.map fun b => b.dependencies.flatMap (c.dependencyFaults id p.1)
  else some []

def referenceFaults (c : Class) : Option (List Failure) :=
  let faults (o : Node) : List (Option (List Failure)) :=
    o.properties.table.map (c.bindingFaults o.id)
  ((c.objects.flatMap faults).mapM id).map List.flatten

def replicatorFaults (c : Class) (reg : Registry) (seen : List Text) (r : Replicator) :
    List Failure :=
  let member := "replicator " ++ r.id
  (if !Naming.isBase r.id then [c.schemaFault member "replicator id is not a Go identifier"]
    else if seen.contains r.id then [c.schemaFault member "duplicate replicator id"]
    else []) ++
  (match reg.lookup r.className with
    | none =>
      [.reference c.name "replicator class" r.className
        ("replicator " ++ r.id ++ " instantiates an unknown class")]
    | some t =>
      if !t.isGenerated && t.alloc.isBlank then
        [c.schemaFault member ("class " ++ t.name ++ " has no alloc expression")]
      else []) ++
  (match r.count.count with
    | .ok _ => []
    | .error f => [.schema c.name member "invalid count" (some (.plain f.message))]) ++
  if (c.byId r.parent).isNone then
    [.reference c.name "replicator parent" r.parent
      ("replicator " ++ r.id ++ " attaches to an unknown object")]
  else []

def replicatorsFaults (c : Class) (reg : Registry) : List Text → List Replicator → List Failure :=
  faultsInTurn Replicator.id (c.replicatorFaults reg)

def propertyFaults (c : Class) (p : Property) : List Failure :=
  (if Naming.isBase p.name then []
    else [c.schemaFault p.name "property name is not a Go identifier"]) ++
    if p.type.isBlank then [c.schemaFault p.name "property has no type"] else []

def signalFaults (c : Class) (s : Signal) : List Failure :=
  (if Naming.isName (Naming.title s.name) then []
    else [c.schemaFault s.name "signal name is not a Go identifier"]) ++
  let signature := s.signature.trim
  if signature != "" && (signature.toString?.bind Source.Expr.read?).isNone then
    [.schema c.name s.name "signal signature must be a single Go type" (some (.plain "<cause>"))]
  else []

def functionFaults (c : Class) (f : Function) : List Failure :=
  if Naming.isName (Naming.functionName f.signature) then []
  else [c.schemaFault f.signature "function signature has no method name"]

def resourceFaults (c : Class) (r : Resource) : List Failure :=
  (if Naming.isBase r.name then []
    else [c.schemaFault r.name "resource name is not a Go identifier"]) ++
    if r.type.isBlank then [c.schemaFault r.name "resource has no type"] else []

/-- All faults of a class with a usable name and a root, but for names used twice. -/
def faults (c : Class) (reg : Registry) : Option (List Failure) :=
  c.referenceFaults.map fun references =>
    c.treeFaults [] c.objects ++ references ++ c.replicatorsFaults reg [] c.replicators ++
      c.properties.flatMap c.propertyFaults ++ c.signals.flatMap c.signalFaults ++
      c.functions.flatMap c.functionFaults ++ c.resources.flatMap c.resourceFaults

structure Member where
  name : Text
  role : Text
deriving DecidableEq, Inhabited

def fixedMembers (s : Settings) (c : Class) : List Member :=
  let method (name : String) : Member := ⟨name, "method " ++ name⟩
  ⟨"initialized", "the initialization guard"⟩ ::
    (["Initialize", "Root", "initResources", "initObjects"].map method ++
      (if c.replicators.isEmpty then [] else [method "initReplicators"]) ++
      if c.isEager s then [method "evaluateBindings"] else [])

def propertyMembers (p : Property) : List Member :=
  [⟨Naming.storageField p.name, "storage of property " ++ p.name⟩,
   ⟨Naming.getter p.name, "getter of property " ++ p.name⟩,
   ⟨Naming.setter p.name, "setter of property " ++ p.name⟩,
   ⟨Naming.changedSignal p.name, "change signal of property " ++ p.name⟩]

def signalMember (s : Signal) : Member := ⟨Naming.signalAccessor s.name, "signal " ++ s.name⟩

def functionMember (f : Function) : Member :=
  ⟨Naming.functionName f.signature, "function " ++ Naming.functionName f.signature⟩

def resourceMember (r : Resource) : Member :=
  ⟨Naming.resourceField r.name, "resource " ++ r.name⟩

def bindingMembers (b : BoundProperty) : List Member :=
  let binding := "binding " ++ b.object ++ "." ++ b.property
  [⟨b.handler, "handler of " ++ binding⟩, ⟨b.expression, "expression of " ++ binding⟩]

def objectMembers (o : Node) : List Member :=
  ⟨o.slot, "object " ++ o.id⟩ :: o.bindings.flatMap bindingMembers

def replicatorMember (r : Replicator) : Member :=
  ⟨Naming.replicatorField r.id, "replicator " ++ r.id⟩

def members (s : Settings) (c : Class) : List Member :=
  c.fixedMembers s ++ c.properties.flatMap propertyMembers ++ c.signals.map signalMember ++
    c.functions.map functionMember ++ c.resources.map resourceMember ++
    c.objects.flatMap objectMembers ++ c.replicators.map replicatorMember

/-- One fault for each member whose name an earlier one has. -/
def collisions (c : Class) : List Member → List Member → List Failure
  | _, [] => []
  | seen, m :: ms =>
    match seen.find? (·.name == m.name) with
    | some earlier =>
      c.schemaFault m.name (m.role ++ " collides with " ++ earlier.role) :: c.collisions seen ms
    | none => c.collisions (seen ++ [m]) ms

def checkNames (s : Settings) (c : Class) : Option Failure :=
  match c.collisions [] (c.members s) with
  | [] => none
  | fs => some (.join fs)

def check (s : Settings) (reg : Registry) (c : Class) : CheckResult :=
  if !Naming.isName c.name then
    .failed (c.schemaFault "" "class name is not a Go identifier")
  else if c.root.isNone then .failed (c.schemaFault "" "generated class has no root object")
  else
    match c.faults reg with
    | none => .crashed
    | some [] =>
      match c.checkNames s with
      | none => .passed
      | some f => .failed f
    | some fs => .failed (.join fs)

end Class

end ReactiveModel
