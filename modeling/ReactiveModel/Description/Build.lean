import ReactiveModel.Description.Basic
import ReactiveModel.Failure
import ReactiveModel.Model.Registry

/-! Building the registry that a description stands for. Objects name classes of any place in the
description, so classes are registered first and trees are resolved afterwards. -/

namespace ReactiveModel

namespace ValueDescription

def payloads (v : ValueDescription) : Nat :=
  v.string.isSome.toNat + v.number.isSome.toNat + v.binding.isSome.toNat

def only (v : ValueDescription) : Value :=
  match v.string, v.number, v.binding with
  | some s, _, _ => .ofText s
  | none, some x, _ => .ofNumber x
  | none, none, b => .ofBinding (b.getD {})

def build : Option ValueDescription → Except String Value
  | none => .error "missing value"
  | some v =>
    if v.payloads != 1 then
      .error ("value must hold exactly one of string, number or binding, got " ++
        toString v.payloads)
    else
      match v.only.fault? with
      | none => .ok v.only
      | some f => .error f.message

end ValueDescription

namespace ReplicatorDescription

def build (className : Text) : Option ReplicatorDescription → Except Failure Replicator
  | none => .error (.load className "" "null replicator entry" none)
  | some r =>
    match ValueDescription.build (some r.count) with
    | .error m => .error (.load className r.id "invalid replicator count" (some (.plain m)))
    | .ok count =>
      .ok { id := r.id, className := r.className, count, initializor := r.initializor,
            parent := r.parent }

end ReplicatorDescription

namespace ObjectDescription

def buildProperties (className id : Text) :
    List (Text × Option ValueDescription) → Except Failure Properties
  | [] => .ok {}
  | (name, v) :: ps =>
    match ValueDescription.build v with
    | .error m =>
      .error (.load className id ("invalid value of property " ++ name) (some (.plain m)))
    | .ok v => (buildProperties className id ps).map (·.insert name v)

mutual

def build (lookup : Text → Option Outline) (className : Text) :
    ObjectDescription → Except Failure Object
  | .absent => .error (.load className "" "null object entry" none)
  | .object id type properties children =>
    match lookup type with
    | none => .error (.load className id ("unknown class " ++ type.quoted) none)
    | some t => do
      let properties ← buildProperties className id properties
      let children ← buildAll lookup className children
      return .node { id, type := some t, properties } children

def buildAll (lookup : Text → Option Outline) (className : Text) :
    List ObjectDescription → Except Failure (List Object)
  | [] => .ok []
  | o :: os => do
    let t ← build lookup className o
    let ts ← buildAll lookup className os
    return t :: ts

end

end ObjectDescription

namespace ClassDescription

def buildHead (d : ClassDescription) : Except Failure Class := do
  let replicators ← d.replicators.mapM (ReplicatorDescription.build d.name)
  return { toOutline := d.toOutline, signals := d.signals, functions := d.functions,
           resources := d.resources, replicators }

def buildRoot (lookup : Text → Option Outline) (d : ClassDescription) :
    Except Failure (Option Object) :=
  if d.declarationOnly && !d.root.isAbsent then
    .error (.load d.name "" "declaration-only class cannot have a root object" none)
  else if !d.declarationOnly && d.root.isAbsent then
    .error (.load d.name "" "generated class has no root object" none)
  else if d.root.isAbsent then .ok none
  else (d.root.build lookup d.name).map some

end ClassDescription

namespace Description

def register (r : Registry) : Option ClassDescription → Except Failure Registry
  | none => .error (.load "" "" "null class entry" none)
  | some d => do
    let c ← d.buildHead
    match r.add (some c) with
    | .ok r => .ok r
    | .error e => .error (.load d.name "" "cannot register class" (some (.plain e.message)))

/-- The trees of classes with their names, where a registry knows the classes. -/
def roots (heads : Registry) (ds : List ClassDescription) :
    List (Text × Except Failure (Option Object)) :=
  ds.map fun d => (d.name, d.buildRoot heads.outline?)

def failures (es : List (Text × Except Failure (Option Object))) : List Failure :=
  es.filterMap fun e => match e.2 with
    | .error f => some f
    | .ok _ => none

def attach (reg : Registry) (e : Text × Except Failure (Option Object)) : Registry :=
  match e.2 with
  | .ok root => reg.setRoot e.1 root
  | .error _ => reg

def build (d : Description) : Except Failure Registry := do
  let entries := d.classes.getD []
  let heads ← entries.foldlM register {}
  let es := roots heads (entries.filterMap id)
  if (failures es).isEmpty then return es.foldl attach heads
  else .error (.join (failures es))

end Description

def noDescription : Failure := .load "" "" "nil description" none

def Description.buildOptional : Option Description → Except Failure Registry
  | none => .error noDescription
  | some d => d.build

end ReactiveModel
