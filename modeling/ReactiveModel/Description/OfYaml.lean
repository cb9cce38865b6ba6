import ReactiveModel.Description.Basic
import ReactiveModel.Text.Base64
import ReactiveModel.Text.Quoted
import ReactiveModel.Yaml.Node

/-! Descriptions from YAML. Reading goes on after a node that does not fit, and all complaints are
told together. Only a few things stop it at once: a scalar that is not what its tag says, a node
inside itself, a merge of something that is no mapping, and a count that is no number. -/

namespace ReactiveModel.Yaml.Decode

inductive Stop
  | invalid
  | count (line : Nat)
deriving DecidableEq, Inhabited

/-- Complaints so far, and how many nodes were visited, in all and through references. -/
structure Tally where
  complaints : List String := []
  visited : Nat := 0
  referred : Nat := 0
  /-- How many references lead to where the reading is. -/
  depth : Nat := 0
deriving Inhabited

abbrev Decoding := StateT Tally (Except Stop)

def complain (line : Nat) (message : String) : Decoding PUnit :=
  let text := "line " ++ toString line ++ ": " ++ message
  modify fun t => { t with complaints := t.complaints ++ [text] }

/-- Whether nearly all visits came through references. In a long reading a smaller share is too
much. -/
def Tally.isExcessive (t : Tally) : Bool :=
  100 < t.referred && 1000 < t.visited &&
    (if t.visited ≤ 400000 then 99 * t.visited < 100 * t.referred
     else if 4000000 ≤ t.visited then t.visited < 10 * t.referred
     else (99 * 3600000 - 89 * (t.visited - 400000)) * t.visited < 100 * 3600000 * t.referred)

def visit : Decoding PUnit := do
  modify fun t => { t with
    visited := t.visited + 1, referred := if 0 < t.depth then t.referred + 1 else t.referred }
  if (← get).isExcessive then throw .invalid

def follow {α : Type} (f : Node → Decoding α) (n : Node) : Decoding α := do
  visit
  match n with
  | .reference _ _ none => throw .invalid
  | .reference _ _ (some target) =>
    modify fun t => { t with depth := t.depth + 1 }
    visit
    let a ← f target
    modify fun t => { t with depth := t.depth - 1 }
    return a
  | n => f n

/-! Scalars. -/

/-- What a scalar stands for: its meaning, and its text. A tag that is not known says nothing. -/
def scalar (tag text : String) : Decoding (Meaning × Text) :=
  if tag == "!!str" then return (.text, text)
  else if tag == "!!binary" then
    match Text.ofBase64? (text.toList.filter fun c => c != '\n' && c != '\r') with
    | some bs => return (.text, ⟨bs⟩)
    | none => throw .invalid
  else if !(["!!bool", "!!int", "!!float", "!!null", "!!timestamp"].contains tag) then
    return (.text, text)
  else
    match tag == "!!float", Meaning.ofText (tag == "!!timestamp") text with
    | true, .int i =>
      if -(Nat.pow 2 63 : Int) ≤ i && i < Nat.pow 2 63 then return (.float (.ofInt i), text)
      else throw .invalid
    | _, m => if m.tag == tag then return (m, text) else throw .invalid

def shown (text : String) : String :=
  let bs := text.toUTF8.toList
  " \x60" ++ (if 10 < bs.length then Text.ofUtf8 (bs.take 7) ++ "..." else text) ++ "\x60"

def tagOf : Node → String
  | .scalar _ t _ | .sequence _ t _ | .mapping _ t _ => t
  | .reference .. => ""

def textOf : Node → String
  | .scalar _ _ s => s
  | _ => ""

def misfit {α : Type} (target : String) (n : Node) : Decoding (Option α) := do
  let tag := tagOf n
  let value := if tag == "!!seq" || tag == "!!map" then textOf n else shown (textOf n)
  complain n.line ("cannot unmarshal " ++ tag ++ value ++ " into " ++ target)
  return none

/-! Mappings. -/

/-- Keys of equal form count as equal. -/
def keyForm : Node → Nat × String
  | .scalar _ _ s => (0, s)
  | .sequence .. => (1, "")
  | .mapping .. => (2, "")
  | .reference _ n _ => (3, n)

/-- Complains about keys that occur again; each is told with every earlier one. -/
def unique : List (Node × Node) → Decoding Bool
  | [] => return true
  | (k, _) :: es => do
    let again := es.filter fun e => keyForm e.1 == keyForm k
    for e in again do
      complain e.1.line ("mapping key " ++ Text.quoted (keyForm k).2 ++
        " already defined at line " ++
        toString k.line)
    return (← unique es) && again.isEmpty

/-- Reads a node by its kind. Null fits everywhere and says nothing. -/
def byKind {α : Type} (target : String) (ofScalar : Meaning → Text → Option α)
    (ofItems : Option (List Node → Decoding α))
    (ofEntries : Option (List (Node × Node) → Decoding α)) (n : Node) : Decoding (Option α) :=
  match n with
  | .scalar _ tag text => do
    match ← scalar tag text with
    | (.null, _) => return none
    | (m, s) =>
      match ofScalar m s with
      | some a => return some a
      | none => misfit target n
  | .sequence _ _ items =>
    match ofItems with
    | some f => some <$> f items
    | none => misfit target n
  | .mapping _ _ entries => do
    if ← unique entries then
      match ofEntries with
      | some f => some <$> f entries
      | none => misfit target n
    else return none
  | .reference .. => throw .invalid

def noScalar {α : Type} (_ : Meaning) (_ : Text) : Option α := none

def text : Node → Decoding (Option Text) :=
  byKind "string" (fun _ s => some s) none none

def flag : Node → Decoding (Option Bool) :=
  byKind "bool" (fun m s =>
    match m with
    | .bool b => some b
    | .text => Meaning.spokenBool? s.shown
    | _ => none) none none

def ofNumber (m : Meaning) (_ : Text) : Option Binary64 :=
  match m with
  | .int i => some (.ofInt i)
  | .float x => some x
  | _ => none

def real : Node → Decoding (Option Binary64) := byKind "float64" ofNumber none none

def optional {α : Type} (target : String) (f : Node → Decoding (Option α)) (n : Node) :
    Decoding (Option (Option α)) := do
  if tagOf n == "!!null" then
    match n with
    | .scalar _ tag text =>
      let _ ← scalar tag text
      return some none
    | n => byKind ("*" ++ target) noScalar none none n
  else return (← f n).map some

def list {α : Type} (target : String) (item : Node → Decoding (Option α)) :
    Node → Decoding (Option (List α)) :=
  byKind target noScalar (some (·.filterMapM (follow item))) none

def isMerge : Node → Bool
  | .scalar _ tag text => text == "<<" && tag == "!!merge"
  | _ => false

def textKeys (entries : List (Node × Node)) : Decoding (List Text) :=
  entries.filterMapM fun e => follow (fun n =>
    match n with
    | .scalar _ tag text => do
      match ← scalar tag text with
      | (.text, s) => return some s
      | _ => return none
    | _ => return none) e.1

def mergeSources : Node → Decoding (List Node)
  | .sequence _ _ items => do
    for n in items do
      match n with
      | .mapping .. | .reference _ _ (some (.mapping ..)) => pure ⟨⟩
      | _ => throw .invalid
    return items
  | n@(.mapping ..) | n@(.reference _ _ (some (.mapping ..))) => return [n]
  | _ => throw .invalid

/-- How an entry of a mapping is put into something: by the name and the line of its key, where
some names came up in the mapping before. -/
abbrev Entry (α : Type) := List Text → Text → Nat → Node → α → Decoding α

/-- The entries of a mapping itself; those whose keys are taken already are left out. -/
def ownEntries {α : Type} (entry : Entry α) :
    List (Node × Node) → List Text → Option (List Text) → α →
      Decoding (α × Option (List Text))
  | [], _, taken, a => return (a, taken)
  | (k, v) :: es, before, taken, a => do
    if isMerge k then ownEntries entry es before taken a
    else
      match ← follow text k with
      | none => ownEntries entry es before taken a
      | some name =>
        if taken.any (·.contains name) then ownEntries entry es before taken a
        else
          let a ← entry before name k.line v a
          ownEntries entry es (name :: before) (taken.map (name :: ·)) a

/-- Goes on with the entries of a mapping that is merged, unless keys occur again. -/
def ofMapping {β : Type} (read : List (Node × Node) → Decoding β) (otherwise : β) :
    Node → Decoding β
  | .mapping _ _ es => do if ← unique es then read es else return otherwise
  | _ => throw .invalid

/-- The entries of a mapping and then those that it merges, where earlier ones win. -/
def allEntries {α : Type} (entry : Entry α) :
    Nat → List (Node × Node) → Option (List Text) → α → Decoding (α × Option (List Text))
  | 0, _, _, _ => throw .invalid
  | fuel + 1, es, taken, a => do
    let (a, taken) ← ownEntries entry es [] taken a
    match (es.filter (isMerge ·.1)).getLast? with
    | none => return (a, taken)
    | some (_, source) =>
      let first ← match taken with
        | some names => pure names
        | none => textKeys es
      let sources ← mergeSources source
      let (a, after) ← sources.foldlM (fun (a, taken) n =>
        follow (ofMapping (allEntries entry fuel · taken a) (a, taken)) n) (a, some first)
      return (a, if taken.isSome then after else none)

/-- Fields of a record: how each is read, none for a key that is no field. -/
abbrev Fields (α : Type) := String → Option (Node → α → Decoding α)

/-- A field from a reader; null and a node that does not fit leave it as it is. -/
def field {α β : Type} (read : Node → Decoding (Option β)) (set : β → α → α) :
    Option (Node → α → Decoding α) :=
  some fun n a => do
    match ← follow read n with
    | some b => return set b a
    | none => return a

/-- The entries of a record; `strict` complains about keys that are no fields. -/
def fieldEntry {α : Type} (strict : Bool) (target : String) (fields : Fields α) : Entry α :=
  fun before name line n a =>
    match fields name.shown with
    | some set => do
      if before.contains name then
        complain line ("field " ++ name.shown ++ " already set in type " ++ target)
        return a
      else set n a
    | none => do
      if strict then complain line ("field " ++ name.shown ++ " not found in type " ++ target)
      return a

/-- How reading is done: within so many levels of nesting, and with or without complaint about keys
that are no fields. -/
structure Mode where
  fuel : Nat
  strict : Bool := true

def record {α : Type} (m : Mode) (target : String) (new : α) (fields : Fields α) :
    Node → Decoding (Option α) :=
  byKind target noScalar none (some fun es =>
    return (← allEntries (fieldEntry m.strict target fields) m.fuel es none new).1)

/-! The parts of a description. -/

def dependency (m : Mode) : Node → Decoding (Option Dependency) :=
  record m "schema.Dependency" {} fun f =>
    match f with
    | "object" => field text fun s d => { d with object := s }
    | "property" => field text fun s d => { d with property := s }
    | _ => none

def binding (m : Mode) : Node → Decoding (Option Binding) :=
  record m "load.Binding" {} fun f =>
    match f with
    | "expression" => field text fun s b => { b with expression := s }
    | "dependencies" =>
      field (list "[]schema.Dependency" (dependency m)) fun ds b => { b with dependencies := ds }
    | _ => none

def valueDescription (m : Mode) : Node → Decoding (Option ValueDescription) :=
  record m "load.Value" {} fun f =>
    match f with
    | "string" => field (optional "string" text) fun s v => { v with string := s }
    | "number" => field (optional "float64" real) fun x v => { v with number := x }
    | "binding" => field (optional "load.Binding" (binding m)) fun b v => { v with binding := b }
    | _ => none

/-- A count is a number or a value. It is read on its own, without complaint about keys. -/
def count (m : Mode) (n : Node) : Decoding (Option ValueDescription) :=
  if tagOf n == "!!null" then byKind "load.Count" noScalar none none n
  else
    match n with
    | .scalar line .. =>
      match real n {} with
      | .ok (some x, _) => return some { number := some x }
      | _ => throw (.count line)
    | n => fun t =>
      match follow (valueDescription { m with strict := false }) n {} with
      | .error stop => .error stop
      | .ok (v, inner) =>
        .ok (v, { t with complaints := t.complaints ++ inner.complaints })

def replicator (m : Mode) : Node → Decoding (Option ReplicatorDescription) :=
  record m "load.Replicator" {} fun f =>
    match f with
    | "id" => field text fun s r => { r with id := s }
    | "class" => field text fun s r => { r with className := s }
    | "count" => field (count m) fun v r => { r with count := v }
    | "initializor" => field text fun s r => { r with initializor := s }
    | "parent" => field text fun s r => { r with parent := s }
    | _ => none

def property (m : Mode) : Node → Decoding (Option Property) :=
  record m "schema.Property" {} fun f =>
    match f with
    | "name" => field text fun s p => { p with name := s }
    | "type" => field text fun s p => { p with type := s }
    | _ => none

def signal (m : Mode) : Node → Decoding (Option Signal) :=
  record m "schema.Signal" {} fun f =>
    match f with
    | "name" => field text fun s p => { p with name := s }
    | "signature" => field text fun s p => { p with signature := s }
    | _ => none

def function (m : Mode) : Node → Decoding (Option Function) :=
  record m "schema.Function" {} fun f =>
    match f with
    | "signature" => field text fun s p => { p with signature := s }
    | _ => none

def resource (m : Mode) : Node → Decoding (Option Resource) :=
  record m "schema.Resource" {} fun f =>
    match f with
    | "name" => field text fun s r => { r with name := s }
    | "type" => field text fun s r => { r with type := s }
    | "initializer" => field text fun s r => { r with initializer := s }
    | _ => none

def properties (m : Mode) : Node → Decoding (Option (Table Text (Option ValueDescription))) :=
  byKind "map[string]*load.Value" noScalar none (some fun es => do
    let entry : Entry (Table Text (Option ValueDescription)) := fun _ name _ n t => do
      match ← follow (optional "load.Value" (valueDescription m)) n with
      | some v => return t.insert name v
      | none => return t
    return (← allEntries entry m.fuel es none []).1)

structure ObjectParts where
  id : Text := ""
  className : Text := ""
  properties : Table Text (Option ValueDescription) := []
  children : List ObjectDescription := []

def ObjectParts.description (p : ObjectParts) : ObjectDescription :=
  .object p.id p.className p.properties p.children

def object (m : Mode) : Nat → Node → Decoding (Option ObjectDescription)
  | 0, _ => throw .invalid
  | fuel + 1, n => do
    let parts ← optional "load.Object" (record m "load.Object" ({} : ObjectParts) fun f =>
      match f with
      | "id" => field text fun s o => { o with id := s }
      | "class" => field text fun s o => { o with className := s }
      | "properties" => field (properties m) fun t o => { o with properties := t }
      | "children" =>
        field (list "[]*load.Object" (object m fuel)) fun os o => { o with children := os }
      | _ => none) n
    return parts.map fun p => (p.map ObjectParts.description).getD .absent

def classDescription (m : Mode) : Node → Decoding (Option ClassDescription) :=
  record m "load.Class" {} fun f =>
    match f with
    | "name" => field text fun s c => { c with name := s }
    | "include" => field text fun s c => { c with source := s }
    | "declaration_only" => field flag fun b c => { c with declarationOnly := b }
    | "alloc" => field text fun s c => { c with alloc := s }
    | "properties" =>
      field (list "[]schema.Property" (property m)) fun ps c => { c with properties := ps }
    | "signals" => field (list "[]schema.Signal" (signal m)) fun ps c => { c with signals := ps }
    | "functions" =>
      field (list "[]schema.Function" (function m)) fun ps c => { c with functions := ps }
    | "resources" =>
      field (list "[]schema.Resource" (resource m)) fun ps c => { c with resources := ps }
    | "replicators" =>
      field (list "[]*load.Replicator" (optional "load.Replicator" (replicator m))) fun rs c =>
        { c with replicators := rs }
    | "root" => field (object m m.fuel) fun o c => { c with root := o }
    | _ => none

def description (m : Mode) : Node → Decoding (Option Description) :=
  record m "load.Description" {} fun f =>
    match f with
    | "classes" =>
      field (list "[]*load.Class" (optional "load.Class" (classDescription m))) fun cs d =>
        { d with classes := some cs }
    | _ => none

def document (fuel : Nat) (n : Node) : Except Stop (Description × List String) :=
  match follow (description { fuel }) n { visited := 1 } with
  | .error stop => .error stop
  | .ok (d, t) => .ok (d.getD {}, t.complaints)

end ReactiveModel.Yaml.Decode
