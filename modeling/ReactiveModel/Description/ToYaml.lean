import ReactiveModel.Description.Basic
import ReactiveModel.Yaml.Datum

/-! Descriptions as YAML. Empty texts and lists are left out, but for the names that every entry
has. -/

namespace ReactiveModel

namespace Yaml.Datum

def null : Datum := .word "null"

def ofNumber (x : Binary64) : Datum :=
  .word (if x.isNaN then ".nan" else if x.isInfinite then (if x.negative then "-.inf" else ".inf")
    else x.literal)

def entry (k : String) (d : Datum) : List (Text × Datum) := [(k, d)]

/-- An entry, unless its value is left out. -/
def some? (k : String) (d : Option Datum) : List (Text × Datum) :=
  match d with
  | some d => entry k d
  | none => []

def named (k : String) (t : Text) : List (Text × Datum) := entry k (.text t)

def named? (k : String) (t : Text) : List (Text × Datum) := if t == "" then [] else named k t

def list? (k : String) (ds : List Datum) : List (Text × Datum) :=
  if ds.isEmpty then [] else entry k (.list ds)

end Yaml.Datum

open Yaml Yaml.Datum

namespace Dependency

def toYaml (d : Dependency) : Datum := .map (named "object" d.object ++ named "property" d.property)

end Dependency

namespace Binding

def toYaml (b : Binding) : Datum :=
  .map (named "expression" b.expression ++
    list? "dependencies" (b.dependencies.map Dependency.toYaml))

end Binding

namespace ValueDescription

def toYaml (v : ValueDescription) : Datum :=
  .map (some? "string" (v.string.map .text) ++ some? "number" (v.number.map ofNumber) ++
    some? "binding" (v.binding.map Binding.toYaml))

def toYaml? : Option ValueDescription → Datum
  | none => null
  | some v => v.toYaml

end ValueDescription

namespace ReplicatorDescription

def toYaml (r : ReplicatorDescription) : Datum :=
  .map (named "id" r.id ++ named "class" r.className ++ entry "count" r.count.toYaml ++
    named? "initializor" r.initializor ++ named "parent" r.parent)

end ReplicatorDescription

namespace ObjectDescription

def propertiesToYaml (ps : Table Text (Option ValueDescription)) : List (Text × Datum) :=
  if ps.isEmpty then []
  else entry "properties" (.map (sortKeys (ps.map fun (k, v) => (k, ValueDescription.toYaml? v))))

mutual

def toYaml : ObjectDescription → Datum
  | .absent => null
  | .object id type ps cs =>
    .map (named "id" id ++ named "class" type ++ propertiesToYaml ps ++
      list? "children" (toYamlAll cs))

def toYamlAll : List ObjectDescription → List Datum
  | [] => []
  | o :: os => o.toYaml :: toYamlAll os

end

end ObjectDescription

namespace ClassDescription

def propertyToYaml (p : Property) : Datum := .map (named "name" p.name ++ named "type" p.type)

def signalToYaml (s : Signal) : Datum :=
  .map (named "name" s.name ++ named? "signature" s.signature)

def functionToYaml (f : Function) : Datum := .map (named "signature" f.signature)

def resourceToYaml (r : Resource) : Datum :=
  .map (named "name" r.name ++ named "type" r.type ++ named "initializer" r.initializer)

def replicatorToYaml : Option ReplicatorDescription → Datum
  | none => null
  | some r => r.toYaml

def toYaml (c : ClassDescription) : Datum :=
  .map (named "name" c.name ++ named? "include" c.source ++
    (if c.declarationOnly then entry "declaration_only" (.word "true") else []) ++
    named? "alloc" c.alloc ++ list? "properties" (c.properties.map propertyToYaml) ++
    list? "signals" (c.signals.map signalToYaml) ++
    list? "functions" (c.functions.map functionToYaml) ++
    list? "resources" (c.resources.map resourceToYaml) ++
    list? "replicators" (c.replicators.map replicatorToYaml) ++
    if c.root.isAbsent then [] else entry "root" c.root.toYaml)

end ClassDescription

namespace Description

/-- The description as YAML. A class list that is missing is written as an empty one. -/
def toYaml (d : Description) : Datum :=
  .map (entry "classes" (.list ((d.classes.getD []).map fun c =>
    match c with
    | none => null
    | some c => c.toYaml)))

def yaml (d : Description) : String := d.toYaml.render

end Description

end ReactiveModel
