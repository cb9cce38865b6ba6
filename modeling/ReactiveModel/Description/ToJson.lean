import ReactiveModel.Description.Basic
import ReactiveModel.Description.JsonText

/-! Descriptions as JSON. Empty texts and lists are left out, but for the names that every entry
has. -/

namespace ReactiveModel

namespace Json

def member (k : String) (j : Json) : List (Text × Json) := [(k, j)]

/-- A member, unless its value is left out. -/
def some? (k : String) (j : Option Json) : List (Text × Json) :=
  match j with
  | some j => member k j
  | none => []

def text (k : String) (t : Text) : List (Text × Json) := member k (.string t)

def text? (k : String) (t : Text) : List (Text × Json) := if t == "" then [] else text k t

def list? (k : String) (js : List Json) : List (Text × Json) :=
  if js.isEmpty then [] else member k (.array js)

def ofNumber (x : Binary64) : Json := .number (x.text .json)

end Json

open Json

namespace Dependency

def toJson (d : Dependency) : Json := .object (text "object" d.object ++ text "property" d.property)

end Dependency

namespace Binding

def toJson (b : Binding) : Json :=
  .object (text "expression" b.expression ++
    list? "dependencies" (b.dependencies.map Dependency.toJson))

end Binding

namespace ValueDescription

def toJson (v : ValueDescription) : Json :=
  .object (some? "string" (v.string.map .string) ++ some? "number" (v.number.map ofNumber) ++
    some? "binding" (v.binding.map Binding.toJson))

def toJson? : Option ValueDescription → Json
  | none => .null
  | some v => v.toJson

def isFinite (v : ValueDescription) : Bool := v.number.all (·.isFinite)

end ValueDescription

namespace ReplicatorDescription

def toJson (r : ReplicatorDescription) : Json :=
  .object (text "id" r.id ++ text "class" r.className ++ member "count" r.count.toJson ++
    text? "initializor" r.initializor ++ text "parent" r.parent)

end ReplicatorDescription

namespace ObjectDescription

def propertiesToJson (ps : Table Text (Option ValueDescription)) : List (Text × Json) :=
  if ps.isEmpty then []
  else member "properties" (.object (ps.map fun (k, v) => (k, ValueDescription.toJson? v)))

mutual

def toJson : ObjectDescription → Json
  | .absent => .null
  | .object id type ps cs =>
    .object (text "id" id ++ text "class" type ++ propertiesToJson ps ++
      list? "children" (toJsonAll cs))

def toJsonAll : List ObjectDescription → List Json
  | [] => []
  | o :: os => o.toJson :: toJsonAll os

end

mutual

def isFinite : ObjectDescription → Bool
  | .absent => true
  | .object _ _ ps cs => ps.all (fun p => p.2.all (·.isFinite)) && isFiniteAll cs

def isFiniteAll : List ObjectDescription → Bool
  | [] => true
  | o :: os => o.isFinite && isFiniteAll os

end

end ObjectDescription

namespace ClassDescription

def propertyToJson (p : Property) : Json := .object (text "name" p.name ++ text "type" p.type)

def signalToJson (s : Signal) : Json :=
  .object (text "name" s.name ++ text? "signature" s.signature)

def functionToJson (f : Function) : Json := .object (text "signature" f.signature)

def resourceToJson (r : Resource) : Json :=
  .object (text "name" r.name ++ text "type" r.type ++ text "initializer" r.initializer)

def replicatorToJson : Option ReplicatorDescription → Json
  | none => .null
  | some r => r.toJson

def toJson (c : ClassDescription) : Json :=
  .object (text "name" c.name ++ text? "include" c.source ++
    (if c.declarationOnly then member "declaration_only" (.bool true) else []) ++
    text? "alloc" c.alloc ++ list? "properties" (c.properties.map propertyToJson) ++
    list? "signals" (c.signals.map signalToJson) ++
    list? "functions" (c.functions.map functionToJson) ++
    list? "resources" (c.resources.map resourceToJson) ++
    list? "replicators" (c.replicators.map replicatorToJson) ++
    if c.root.isAbsent then [] else member "root" c.root.toJson)

def isFinite (c : ClassDescription) : Bool :=
  c.replicators.all (fun r => r.all (·.count.isFinite)) && c.root.isFinite

end ClassDescription

namespace Description

def toJson (d : Description) : Json :=
  .object [("classes", match d.classes with
    | none => .null
    | some cs => .array (cs.map fun c => match c with
      | none => .null
      | some c => c.toJson))]

/-- Whether all numbers are finite; others cannot be written. -/
def isFinite (d : Description) : Bool :=
  (d.classes.getD []).all fun c => c.all (·.isFinite)

def json? (d : Description) : Option String :=
  if d.isFinite then some (d.toJson.pretty 0 ++ "\n") else none

end Description

end ReactiveModel
