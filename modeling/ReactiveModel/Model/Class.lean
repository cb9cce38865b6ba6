import ReactiveModel.Model.Table
import ReactiveModel.Model.Tree
import ReactiveModel.Model.Value

/-! Classes of a model. A class is opaque (only declared, and implemented elsewhere) or generated
from a tree of objects. -/

namespace ReactiveModel

structure Property where
  name : Text := ""
  type : Text := ""
deriving DecidableEq, Inhabited

/-- A signal without signature carries nothing; otherwise the signature is the type it carries. -/
structure Signal where
  name : Text := ""
  signature : Text := ""
deriving DecidableEq, Inhabited

structure Function where
  signature : Text := ""
deriving DecidableEq, Inhabited

structure Resource where
  name : Text := ""
  type : Text := ""
  initializer : Text := ""
deriving DecidableEq, Inhabited

/-- Instances of a class, created with the owner and attached below one of its objects. -/
structure Replicator where
  id : Text := ""
  className : Text := ""
  count : Value := {}
  initializor : Text := ""
  parent : Text := ""
deriving DecidableEq, Inhabited

/-- What other classes see of a class. -/
structure Outline where
  name : Text := ""
  /-- Import path of an opaque class; empty for the runtime library. -/
  source : Text := ""
  declarationOnly : Bool := false
  alloc : Text := ""
  properties : List Property := []
deriving DecidableEq, Inhabited

namespace Outline

def isGenerated (c : Outline) : Bool := !c.declarationOnly

def property? (c : Outline) (name : Text) : Option Property :=
  c.properties.find? (·.name == name)

/-- Whether all properties are known. An opaque class that declares none may have any. -/
def declaresProperties (c : Outline) : Bool := c.isGenerated || !c.properties.isEmpty

end Outline

/-- Values of properties by name. Each name is there once, and the names increase. -/
structure Properties where
  table : Table Text Value := []
  ordered : table.Ordered := by exact Table.ordered_nil

namespace Properties

instance : Inhabited Properties := ⟨{}⟩

instance : Coe Properties (Table Text Value) := ⟨table⟩

def insert (ps : Properties) (name : Text) (v : Value) : Properties :=
  ⟨ps.table.insert name v, ps.ordered.insert name v⟩

def ofPairs (ps : List (Text × Value)) : Properties :=
  ⟨.ofPairs ps, Table.ordered_ofPairs ps⟩

end Properties

structure Node where
  id : Text := ""
  type : Option Outline := none
  properties : Properties := {}
deriving Inhabited

abbrev Object := Tree Node

namespace Node

def set (o : Node) (name : Text) (v : Value) : Node :=
  { o with properties := o.properties.insert name v }

def propertyNames (o : Node) : List Text := o.properties.table.keys

end Node

structure Class extends Outline where
  signals : List Signal := []
  functions : List Function := []
  resources : List Resource := []
  replicators : List Replicator := []
  root : Option Object := none
deriving Inhabited

namespace Class

def objects (c : Class) : List Node := (c.root.map Tree.nodes).getD []

def object? (c : Class) (id : Text) : Option Node := c.root.bind (Tree.find? (·.id == id))

end Class

end ReactiveModel
