import ReactiveModel.Description.Draft
import ReactiveModel.Description.JsonText
import ReactiveModel.Number.Reading

/-! Descriptions from JSON. Members are matched without regard to case. A key that occurs again
goes on with what it said before. The first complaint is the one that is told, but reading goes
on. -/

namespace ReactiveModel.Json.Decode

inductive Complaint
  | type (expected : String)
  | unknownField (name : String)
deriving DecidableEq, Inhabited

/-- The first complaint is kept; the value of a count stops at its own. -/
abbrev Decoding := StateT (Option Complaint) (Except Complaint)

def complain (c : Complaint) : Decoding PUnit := modify fun s => s.or (some c)

/-- The value stays as it was, because what is there does not fit. -/
def misfit {α : Type} (expected : String) (old : α) : Decoding α := do
  complain (.type expected)
  return old

/-- One case of each letter, and of the two other characters that fold to letters of ASCII. -/
def foldCase (t : Text) : String :=
  t.shown.map fun c => if c == 'ſ' then 's' else if c == 'K' then 'k' else c.toLower

def fieldOf (fields : List String) (key : Text) : Option String :=
  fields.find? (· == foldCase key)

def text (j : Json) (old : Text) : Decoding Text :=
  match j with
  | .null => pure old
  | .string t => pure t
  | _ => misfit "string" old

def flag (j : Json) (old : Bool) : Decoding Bool :=
  match j with
  | .null => pure old
  | .bool b => pure b
  | _ => misfit "bool" old

def binary64? (t : String) : Option Binary64 :=
  match Binary64.readDecimal t.toList with
  | .number x => some x
  | _ => none

def real (j : Json) (old : Binary64) : Decoding Binary64 :=
  match j with
  | .null => pure old
  | .number t => ((binary64? t).map pure).getD (misfit "float64" old)
  | _ => misfit "float64" old

def optional {α : Type} (item : Json → α → Decoding α) (new : α) (j : Json) (old : Option α) :
    Decoding (Option α) :=
  match j with
  | .null => pure none
  | j => some <$> item j (old.getD new)

/-- The members of an object; `strict` complains about keys that are no fields. -/
def record {α : Type} (strict : Bool) (expected : String) (fields : List String)
    (set : String → Json → α → Decoding α) (j : Json) (old : α) : Decoding α :=
  match j with
  | .null => pure old
  | .object ms => ms.foldlM (fun old (k, v) =>
      match fieldOf fields k with
      | some f => set f v old
      | none => do
        if strict then complain (.unknownField k.shown)
        return old) old
  | _ => misfit expected old

def listItems {α : Type} (item : Json → α → Decoding α) (new : α) :
    List Json → List α → Decoding (List α)
  | [], _ => pure []
  | j :: js, old => do
    let a ← item j (old.headD new)
    let rest ← listItems item new js old.tail
    return a :: rest

/-- A list; an empty one has nothing behind its end. -/
def list {α : Type} (expected : String) (item : Json → α → Decoding α) (new : α) (j : Json)
    (old : Draft α) : Decoding (Draft α) :=
  match j with
  | .null | .array [] => pure {}
  | .array js => return old.renew (← listItems item new js old.places)
  | _ => misfit expected old

def dependency (strict : Bool) : Json → Dependency → Decoding Dependency :=
  record strict "schema.Dependency" ["object", "property"] fun f j d =>
    match f with
    | "object" => return { d with object := ← text j d.object }
    | _ => return { d with property := ← text j d.property }

def binding (strict : Bool) : Json → BindingDraft → Decoding BindingDraft :=
  record strict "load.Binding" ["expression", "dependencies"] fun f j b =>
    match f with
    | "expression" => return { b with expression := ← text j b.expression }
    | _ => do
      let dependencies ← list "[]schema.Dependency" (dependency strict) {} j b.dependencies
      return { b with dependencies }

def valueDescription (strict : Bool) : Json → ValueDraft → Decoding ValueDraft :=
  record strict "load.Value" ["string", "number", "binding"] fun f j v =>
    match f with
    | "string" => return { v with string := ← optional text "" j v.string }
    | "number" => return { v with number := ← optional real .zero j v.number }
    | _ => return { v with binding := ← optional (binding strict) {} j v.binding }

/-- A count is a number or a value. It is read on its own, without complaint about keys, and its
complaint counts before all others. -/
def count (j : Json) (old : ValueDraft) : Decoding ValueDraft :=
  match j with
  | .null => pure old
  | _ =>
    match j with
    | .number t =>
      match binary64? t with
      | some x => pure { number := some x }
      | none => throw (.type "load.Value")
    | _ => fun s =>
      match valueDescription false j old none with
      | .error c => .error c
      | .ok (_, some c) => .error c
      | .ok (v, none) => .ok (v, s)

def replicator : Json → ReplicatorDraft → Decoding ReplicatorDraft :=
  record true "load.Replicator" ["id", "class", "count", "initializor", "parent"] fun f j r =>
    match f with
    | "id" => return { r with id := ← text j r.id }
    | "class" => return { r with className := ← text j r.className }
    | "count" => return { r with count := ← count j r.count }
    | "initializor" => return { r with initializor := ← text j r.initializor }
    | _ => return { r with parent := ← text j r.parent }

def property : Json → Property → Decoding Property :=
  record true "schema.Property" ["name", "type"] fun f j p =>
    match f with
    | "name" => return { p with name := ← text j p.name }
    | _ => return { p with type := ← text j p.type }

def signal : Json → Signal → Decoding Signal :=
  record true "schema.Signal" ["name", "signature"] fun f j s =>
    match f with
    | "name" => return { s with name := ← text j s.name }
    | _ => return { s with signature := ← text j s.signature }

def function : Json → Function → Decoding Function :=
  record true "schema.Function" ["signature"] fun _ j f =>
    return { f with signature := ← text j f.signature }

def resource : Json → Resource → Decoding Resource :=
  record true "schema.Resource" ["name", "type", "initializer"] fun f j r =>
    match f with
    | "name" => return { r with name := ← text j r.name }
    | "type" => return { r with type := ← text j r.type }
    | _ => return { r with initializer := ← text j r.initializer }

/-- A map of property values; an entry is always read afresh. -/
def properties (j : Json) (old : Table Text (Option ValueDescription)) :
    Decoding (Table Text (Option ValueDescription)) :=
  match j with
  | .null => pure []
  | .object ms => ms.foldlM (fun t (k, v) => do
      let v ← optional (valueDescription true) {} v none
      return t.insert k (v.map ValueDraft.finish)) old
  | _ => misfit "map[string]*load.Value" old

mutual

def object : Json → ObjectDraft → Decoding ObjectDraft
  | .null, _ => pure .absent
  | .object ms, .absent => objectMembers ms "" "" [] {}
  | .object ms, .object id type ps cs beyond => objectMembers ms id type ps ⟨cs, beyond⟩
  | _, old => misfit "load.Object" old

def objectMembers : List (Text × Json) → Text → Text → Table Text (Option ValueDescription) →
    Draft ObjectDraft → Decoding ObjectDraft
  | [], id, type, ps, cs => pure (.object id type ps cs.items cs.beyond)
  | (k, j) :: ms, id, type, ps, cs =>
    match fieldOf ["id", "class", "properties", "children"] k with
    | some "id" => do
      let id ← text j id
      objectMembers ms id type ps cs
    | some "class" => do
      let type ← text j type
      objectMembers ms id type ps cs
    | some "properties" => do
      let ps ← properties j ps
      objectMembers ms id type ps cs
    | some _ => do
      let cs ← objectList j cs
      objectMembers ms id type ps cs
    | none => do
      complain (.unknownField k.shown)
      objectMembers ms id type ps cs

def objectList : Json → Draft ObjectDraft → Decoding (Draft ObjectDraft)
  | .null, _ | .array [], _ => pure {}
  | .array (j :: js), old => return old.renew (← objectItems (j :: js) old.places)
  | _, old => misfit "[]*load.Object" old

def objectItems : List Json → List ObjectDraft → Decoding (List ObjectDraft)
  | [], _ => pure []
  | j :: js, old => do
    let o ← object j (old.headD .absent)
    let os ← objectItems js old.tail
    return o :: os

end

def classDescription : Json → ClassDraft → Decoding ClassDraft :=
  record true "load.Class" ["name", "include", "declaration_only", "alloc", "properties", "signals",
    "functions", "resources", "replicators", "root"] fun f j c =>
    match f with
    | "name" => return { c with name := ← text j c.name }
    | "include" => return { c with source := ← text j c.source }
    | "declaration_only" => return { c with declarationOnly := ← flag j c.declarationOnly }
    | "alloc" => return { c with alloc := ← text j c.alloc }
    | "properties" =>
      return { c with properties := ← list "[]schema.Property" property {} j c.properties }
    | "signals" => return { c with signals := ← list "[]schema.Signal" signal {} j c.signals }
    | "functions" =>
      return { c with functions := ← list "[]schema.Function" function {} j c.functions }
    | "resources" =>
      return { c with resources := ← list "[]schema.Resource" resource {} j c.resources }
    | "replicators" => do
      let replicators ← list "[]*load.Replicator" (optional replicator {}) none j c.replicators
      return { c with replicators }
    | _ => return { c with root := ← object j c.root }

def description : Json → DescriptionDraft → Decoding DescriptionDraft :=
  record true "load.Description" ["classes"] fun _ j d =>
    match j with
    | .null => return { d with classes := none }
    | j => do
      let classes ← list "[]*load.Class" (optional classDescription {}) none j (d.classes.getD {})
      return { d with classes := some classes }

def document (j : Json) : Except Complaint Description :=
  match description j {} none with
  | .error c => .error c
  | .ok (_, some c) => .error c
  | .ok (d, none) => .ok d.finish

end ReactiveModel.Json.Decode
