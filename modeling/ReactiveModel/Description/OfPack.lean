import ReactiveModel.Description.Draft

/-! Descriptions from MessagePack. A record is a map from field names, where unknown names are
passed over, or an array of all its fields in order. Nil stands for nothing everywhere. -/

namespace ReactiveModel.Pack

inductive Stop
  /-- It ends where a value or a length should start. -/
  | ended
  /-- It ends inside a field of several bytes. -/
  | cut
  | invalid
  | count
deriving DecidableEq, Inhabited

abbrev Unpacking := StateT (List UInt8) (Except Stop)

def byte : Unpacking Nat := fun bs =>
  match bs with
  | [] => .error .ended
  | b :: bs => .ok (b.toNat, bs)

def peek : Unpacking Nat := fun bs =>
  match bs with
  | [] => .error .ended
  | b :: bs => .ok (b.toNat, b :: bs)

/-- Takes `n` bytes, which are read at once. -/
def bytes (n : Nat) : Unpacking (List UInt8) := fun bs =>
  let taken := bs.take n
  if taken.length == n then .ok (taken, bs.drop n)
  else .error (if bs.isEmpty then .ended else .cut)

/-- A number of `n` bytes, highest first. -/
def word (n : Nat) : Unpacking Nat := do
  return (← bytes n).foldl (fun a b => a * 256 + b.toNat) 0

/-- A length; nothing for nil. Short ones are part of the code, and for others the code tells how
many bytes they take. -/
def lengthBy (low high : Nat) (widths : List (Nat × Nat)) (code : Nat) :
    Unpacking (Option Nat) := do
  if code == 0xc0 then return none
  else if low ≤ code && code ≤ high then return some (code - low)
  else
    match widths.lookup code with
    | some n => return some (← word n)
    | none => throw .invalid

def mapLength : Nat → Unpacking (Option Nat) := lengthBy 0x80 0x8f [(0xde, 2), (0xdf, 4)]

def arrayLength : Nat → Unpacking (Option Nat) := lengthBy 0x90 0x9f [(0xdc, 2), (0xdd, 4)]

def stringLength : Nat → Unpacking (Option Nat) :=
  lengthBy 0xa0 0xbf [(0xd9, 1), (0xc4, 1), (0xda, 2), (0xc5, 2), (0xdb, 4), (0xc6, 4)]

def text : Unpacking Text := do
  match ← stringLength (← byte) with
  | none => return ""
  | some n => return ⟨← bytes n⟩

def flag : Unpacking Bool := do
  match ← byte with
  | 0xc0 | 0xc2 => return false
  | 0xc3 => return true
  | _ => throw .invalid

def signed (n : Nat) : Unpacking Int := do
  let w ← word n
  return if w < Nat.pow 2 (8 * n - 1) then (w : Int) else (w : Int) - Nat.pow 2 (8 * n)

/-- Whole numbers of any width; those without sign wrap at 64 bits. -/
def int (code : Nat) : Unpacking Int := do
  if code == 0xc0 then return 0
  else if code ≤ 0x7f then return code
  else if 0xe0 ≤ code then return (code : Int) - 256
  else
    match code with
    | 0xcc => return (← word 1 : Nat)
    | 0xcd => return (← word 2 : Nat)
    | 0xce => return (← word 4 : Nat)
    | 0xcf => signed 8
    | 0xd0 => signed 1
    | 0xd1 => signed 2
    | 0xd2 => signed 4
    | 0xd3 => signed 8
    | _ => throw .invalid

def real : Unpacking Binary64 := do
  let code ← byte
  if code == 0xca then return .ofBinary32 (← word 4)
  else if code == 0xcb then return ⟨UInt64.ofNat (← word 8)⟩
  else
    tryCatch (do return .ofInt (← int code)) fun _ => throw .invalid

def isExtension (code : Nat) : Bool :=
  (0xc7 ≤ code && code ≤ 0xc9) || (0xd4 ≤ code && code ≤ 0xd8)

def skipExtension (code : Nat) : Unpacking PUnit := do
  let n ← match code with
    | 0xc7 => byte
    | 0xc8 => word 2
    | 0xc9 => word 4
    | _ => pure (Nat.pow 2 (code - 0xd4))
  let _ ← byte
  let _ ← bytes n

/-- Passes over what tells the type and the length of an extension. -/
def skipExtensionHead (code : Nat) : Unpacking PUnit := do
  let _ ← byte
  match code with
  | 0xc7 => let _ ← byte
  | 0xc8 =>
    let _ ← byte
    let _ ← byte
  | 0xc9 =>
    let _ ← byte
    let _ ← byte
    let _ ← byte
    let _ ← byte
  | _ => return

mutual

def skip : Nat → Unpacking PUnit
  | 0 => throw .ended
  | fuel + 1 => do
    let code ← byte
    if code ≤ 0x7f || 0xe0 ≤ code || code == 0xc0 || code == 0xc2 || code == 0xc3 then return
    else if (0x80 ≤ code && code ≤ 0x8f) || code == 0xde || code == 0xdf then
      let n ← mapLength code
      skipMany fuel (2 * n.getD 0)
    else if (0x90 ≤ code && code ≤ 0x9f) || code == 0xdc || code == 0xdd then
      let n ← arrayLength code
      skipMany fuel (n.getD 0)
    else if isExtension code then skipExtension code
    else if code == 0xc1 then throw .invalid
    else
      match code with
      | 0xcc | 0xd0 => let _ ← bytes 1
      | 0xcd | 0xd1 => let _ ← bytes 2
      | 0xce | 0xd2 | 0xca => let _ ← bytes 4
      | 0xcf | 0xd3 | 0xcb => let _ ← bytes 8
      | _ =>
        match ← stringLength code with
        | none | some 0 => return
        | some n => let _ ← bytes n

/-- Passes over values; each takes at least one byte. -/
def skipMany : Nat → Nat → Unpacking PUnit
  | 0, n => if n == 0 then return else throw .ended
  | fuel + 1, n =>
    if n == 0 then return
    else do
      skip fuel
      skipMany fuel (n - 1)

end

/-- How much fuel passing over a value takes. -/
def skipValue : Unpacking PUnit := do skip (2 * (← get).length + 2)

def times {α : Type} (step : α → Unpacking α) : Nat → α → Unpacking α
  | 0, a => return a
  | n + 1, a => do times step n (← step a)

/-- A record as a map or as an array of all fields. That an array has no length is no sign of the
end of a document, but of a wrong kind. -/
def record {α : Type} (fields : List String) (new : α) (set : String → α → Unpacking α)
    (old : α) : Unpacking α := do
  let code ← byte
  if (0x90 ≤ code && code ≤ 0x9f) || code == 0xdc || code == 0xdd then
    match ← tryCatch (arrayLength code) fun _ => throw .invalid with
    | none | some 0 => return new
    | some n =>
      if n == fields.length then fields.foldlM (fun a f => set f a) old else throw .invalid
  else
    match ← mapLength code with
    | none => return new
    | some n => times (fun a => do
        let key ← text
        match fields.find? fun (f : String) => f == key with
        | some f => set f a
        | none =>
          skipValue
          return a) n old

def optional {α : Type} (item : α → Unpacking α) (new : α) (old : Option α) :
    Unpacking (Option α) := do
  match (← get).head? with
  | some 0xc0 =>
    let _ ← byte
    return none
  | _ => return some (← item (old.getD new))

def listItems {α : Type} (item : α → Unpacking α) (new : α) : Nat → List α → Unpacking (List α)
  | 0, _ => return []
  | n + 1, old => do
    let a ← item (old.headD new)
    let rest ← listItems item new n old.tail
    return a :: rest

/-- A list; nothing for nil. -/
def list {α : Type} (item : α → Unpacking α) (new : α) (old : Draft α) :
    Unpacking (Option (Draft α)) := do
  match ← arrayLength (← byte) with
  | none => return none
  | some n => return some (old.renew (← listItems item new n old.places))

def plainList {α : Type} (item : α → Unpacking α) (new : α) (old : Draft α) :
    Unpacking (Draft α) := do
  return (← list item new old).getD {}

def dependency : Dependency → Unpacking Dependency :=
  record ["object", "property"] {} fun f d => do
    match f with
    | "object" => return { d with object := ← text }
    | _ => return { d with property := ← text }

def binding : BindingDraft → Unpacking BindingDraft :=
  record ["expression", "dependencies"] {} fun f b => do
    match f with
    | "expression" => return { b with expression := ← text }
    | _ => return { b with dependencies := ← plainList dependency {} b.dependencies }

def valueDescription : ValueDraft → Unpacking ValueDraft :=
  record ["string", "number", "binding"] {} fun f v => do
    match f with
    | "string" => return { v with string := ← optional (fun _ => text) "" v.string }
    | "number" => return { v with number := ← optional (fun _ => real) .zero v.number }
    | _ => return { v with binding := ← optional binding {} v.binding }

/-- A count is a number or a value. -/
def count (old : ValueDraft) : Unpacking ValueDraft := do
  let code ← peek
  if code == 0xc0 then
    let _ ← byte
    return {}
  else if (0x80 ≤ code && code ≤ 0x8f) || code == 0xde || code == 0xdf then valueDescription old
  else
    let x ← tryCatch real fun _ => throw .count
    return { number := some x }

def replicator : ReplicatorDraft → Unpacking ReplicatorDraft :=
  record ["id", "class", "count", "initializor", "parent"] {} fun f r => do
    match f with
    | "id" => return { r with id := ← text }
    | "class" => return { r with className := ← text }
    | "count" => return { r with count := ← count r.count }
    | "initializor" => return { r with initializor := ← text }
    | _ => return { r with parent := ← text }

def property : Property → Unpacking Property :=
  record ["name", "type"] {} fun f p => do
    match f with
    | "name" => return { p with name := ← text }
    | _ => return { p with type := ← text }

def signal : Signal → Unpacking Signal :=
  record ["name", "signature"] {} fun f s => do
    match f with
    | "name" => return { s with name := ← text }
    | _ => return { s with signature := ← text }

def function : Function → Unpacking Function :=
  record ["signature"] {} fun _ f => do
    return { f with signature := ← text }

def resource : Resource → Unpacking Resource :=
  record ["name", "type", "initializer"] {} fun f r => do
    match f with
    | "name" => return { r with name := ← text }
    | "type" => return { r with type := ← text }
    | _ => return { r with initializer := ← text }

/-- A map of property values. The head of an extension in front of it is passed over. -/
def properties (old : Table Text (Option ValueDescription)) :
    Unpacking (Table Text (Option ValueDescription)) := do
  let code ← byte
  let code ← if isExtension code then do
      skipExtensionHead code
      byte
    else pure code
  match ← mapLength code with
  | none => return []
  | some n => times (fun t => do
      let key ← text
      let v ← optional valueDescription {} none
      return t.insert key (v.map ValueDraft.finish)) n old

structure ObjectFields where
  id : Text := ""
  className : Text := ""
  properties : Table Text (Option ValueDescription) := []
  children : Draft ObjectDraft := {}

def ObjectFields.of : ObjectDraft → ObjectFields
  | .absent => {}
  | .object id className properties children beyond =>
    { id, className, properties, children := ⟨children, beyond⟩ }

def ObjectFields.toObject (o : ObjectFields) : ObjectDraft :=
  .object o.id o.className o.properties o.children.items o.children.beyond

/-- An object; each level of nesting takes at least one byte. -/
def object : Nat → ObjectDraft → Unpacking ObjectDraft
  | 0, _ => throw .ended
  | fuel + 1, old => do
    match (← get).head? with
    | some 0xc0 =>
      let _ ← byte
      return .absent
    | _ =>
      let o ← record ["id", "class", "properties", "children"] {} (fun f (o : ObjectFields) => do
        match f with
        | "id" => return { o with id := ← text }
        | "class" => return { o with className := ← text }
        | "properties" => return { o with properties := ← properties o.properties }
        | _ => return { o with children := ← plainList (object fuel) .absent o.children })
        (ObjectFields.of old)
      return o.toObject

def classDescription : ClassDraft → Unpacking ClassDraft :=
  record ["name", "include", "declaration_only", "alloc", "properties", "signals", "functions",
    "resources", "replicators", "root"] {} fun f c => do
    match f with
    | "name" => return { c with name := ← text }
    | "include" => return { c with source := ← text }
    | "declaration_only" => return { c with declarationOnly := ← flag }
    | "alloc" => return { c with alloc := ← text }
    | "properties" => return { c with properties := ← plainList property {} c.properties }
    | "signals" => return { c with signals := ← plainList signal {} c.signals }
    | "functions" => return { c with functions := ← plainList function {} c.functions }
    | "resources" => return { c with resources := ← plainList resource {} c.resources }
    | "replicators" =>
      return { c with replicators := ← plainList (optional replicator {}) none c.replicators }
    | _ =>
      let depth := (← get).length + 1
      return { c with root := ← object depth c.root }

def description : DescriptionDraft → Unpacking DescriptionDraft :=
  record ["classes"] {} fun _ d => do
    return { d with classes := ← list (optional classDescription {}) none (d.classes.getD {}) }

/-- The description that a document stands for. What follows it does not count. -/
def document (bs : List UInt8) : Except Stop Description :=
  (description {} bs).map fun (d, _) => d.finish

end ReactiveModel.Pack
