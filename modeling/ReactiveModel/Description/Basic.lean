import ReactiveModel.Model.Class

/-! Descriptions of models: what a document says, before names are resolved. Entries may be
missing and values may hold any number of payloads. -/

namespace ReactiveModel

structure ValueDescription where
  string : Option Text := none
  number : Option Binary64 := none
  binding : Option Binding := none
deriving DecidableEq, Inhabited

structure ReplicatorDescription where
  id : Text := ""
  className : Text := ""
  count : ValueDescription := {}
  initializor : Text := ""
  parent : Text := ""
deriving DecidableEq, Inhabited

inductive ObjectDescription
  | absent
  | object (id className : Text) (properties : Table Text (Option ValueDescription))
      (children : List ObjectDescription)

namespace ObjectDescription

instance : Inhabited ObjectDescription := ⟨.absent⟩

def isAbsent : ObjectDescription → Bool
  | .absent => true
  | .object .. => false

end ObjectDescription

structure ClassDescription extends Outline where
  signals : List Signal := []
  functions : List Function := []
  resources : List Resource := []
  replicators : List (Option ReplicatorDescription) := []
  root : ObjectDescription := .absent
deriving Inhabited

/-- A document without a class list differs from one with an empty list. -/
structure Description where
  classes : Option (List (Option ClassDescription)) := none
deriving Inhabited

inductive Format | json | yaml | msgpack
deriving DecidableEq, Inhabited

namespace Format

def name : Format → String
  | .json => "json"
  | .yaml => "yaml"
  | .msgpack => "msgpack"

def ofName? : String → Option Format
  | "json" => some .json
  | "yaml" => some .yaml
  | "msgpack" => some .msgpack
  | _ => none

end Format

end ReactiveModel
