import ReactiveModel.Description.Basic

/-! Descriptions as MessagePack. -/

namespace ReactiveModel.Pack

def bytesOf (w : Nat) : Nat → List UInt8
  | 0 => []
  | n + 1 => UInt8.ofNat (w / Nat.pow 256 n) :: bytesOf w n

def nil : List UInt8 := [0xc0]

def packText (t : Text) : List UInt8 :=
  let n := t.bytes.length
  (if n < 32 then [UInt8.ofNat (0xa0 + n)]
    else if n < 256 then 0xd9 :: bytesOf n 1
    else if n < 65536 then 0xda :: bytesOf n 2
    else 0xdb :: bytesOf n 4) ++ t.bytes

def packFlag (b : Bool) : List UInt8 := if b then [0xc3] else [0xc2]

def packReal (x : Binary64) : List UInt8 := 0xcb :: bytesOf x.bits.toNat 8

def packArray (items : List (List UInt8)) : List UInt8 :=
  let n := items.length
  (if n < 16 then [UInt8.ofNat (0x90 + n)]
    else if n < 65536 then 0xdc :: bytesOf n 2
    else 0xdd :: bytesOf n 4) ++ items.flatten

def packMap (entries : List (Text × List UInt8)) : List UInt8 :=
  let n := entries.length
  (if n < 16 then [UInt8.ofNat (0x80 + n)]
    else if n < 65536 then 0xde :: bytesOf n 2
    else 0xdf :: bytesOf n 4) ++ entries.flatMap fun (k, v) => packText k ++ v

def entry (k : String) (v : List UInt8) : List (Text × List UInt8) := [(k, v)]

def named (k : String) (t : Text) : List (Text × List UInt8) := entry k (packText t)

/-! Entries that are left out when they are empty. -/

def named? (k : String) (t : Text) : List (Text × List UInt8) :=
  if t == "" then [] else named k t

def list? {α : Type} (k : String) (item : α → List UInt8) (as : List α) :
    List (Text × List UInt8) :=
  if as.isEmpty then [] else entry k (packArray (as.map item))

def some? {α : Type} (k : String) (item : α → List UInt8) : Option α → List (Text × List UInt8)
  | none => []
  | some a => entry k (item a)

def orNil {α : Type} (item : α → List UInt8) : Option α → List UInt8
  | none => nil
  | some a => item a

def packDependency (d : Dependency) : List UInt8 :=
  packMap (named "object" d.object ++ named "property" d.property)

def packBinding (b : Binding) : List UInt8 :=
  packMap (named "expression" b.expression ++
    list? "dependencies" packDependency b.dependencies)

def packValue (v : ValueDescription) : List UInt8 :=
  packMap (some? "string" packText v.string ++ some? "number" packReal v.number ++
    some? "binding" packBinding v.binding)

def packReplicator (r : ReplicatorDescription) : List UInt8 :=
  packMap (named "id" r.id ++ named "class" r.className ++ entry "count" (packValue r.count) ++
    named? "initializor" r.initializor ++ named "parent" r.parent)

def packProperties (ps : Table Text (Option ValueDescription)) : List (Text × List UInt8) :=
  if ps.isEmpty then []
  else entry "properties" (packMap (ps.map fun (k, v) => (k, orNil packValue v)))

mutual

def packObject : ObjectDescription → List UInt8
  | .absent => nil
  | .object id type ps cs =>
    packMap (named "id" id ++ named "class" type ++ packProperties ps ++
      if cs.isEmpty then [] else entry "children" (packArray (packObjects cs)))

def packObjects : List ObjectDescription → List (List UInt8)
  | [] => []
  | o :: os => packObject o :: packObjects os

end

def packProperty (p : Property) : List UInt8 :=
  packMap (named "name" p.name ++ named "type" p.type)

def packSignal (s : Signal) : List UInt8 :=
  packMap (named "name" s.name ++ named? "signature" s.signature)

def packFunction (f : Function) : List UInt8 := packMap (named "signature" f.signature)

def packResource (r : Resource) : List UInt8 :=
  packMap (named "name" r.name ++ named "type" r.type ++ named "initializer" r.initializer)

def packClass (c : ClassDescription) : List UInt8 :=
  packMap (named "name" c.name ++ named? "include" c.source ++
    (if c.declarationOnly then entry "declaration_only" (packFlag true) else []) ++
    named? "alloc" c.alloc ++ list? "properties" packProperty c.properties ++
    list? "signals" packSignal c.signals ++ list? "functions" packFunction c.functions ++
    list? "resources" packResource c.resources ++
    list? "replicators" (orNil packReplicator) c.replicators ++
    if c.root.isAbsent then [] else entry "root" (packObject c.root))

end ReactiveModel.Pack

namespace ReactiveModel.Description

def pack (d : Description) : List UInt8 :=
  Pack.packMap (Pack.entry "classes" (Pack.orNil
    (fun cs => Pack.packArray (cs.map (Pack.orNil Pack.packClass))) d.classes))

end ReactiveModel.Description
