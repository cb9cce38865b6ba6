import ReactiveModel.Description.Build
import ReactiveModel.Description.OfJson
import ReactiveModel.Description.OfPack
import ReactiveModel.Description.OfYaml
import ReactiveModel.Description.ToJson
import ReactiveModel.Description.ToPack
import ReactiveModel.Description.ToYaml
import ReactiveModel.Text.Case
import ReactiveModel.Text.Path

/-! Documents: descriptions in one of the formats. -/

namespace ReactiveModel

def unknownFormat (name : String) : String :=
  "load: unknown description format " ++ Text.quoted name

def Format.ofPath (path : String) : Except Failure Format :=
  let e := Path.extension path
  match Text.lowerCase e with
  | ".json" => .ok .json
  | ".yaml" | ".yml" => .ok .yaml
  | ".msgpack" | ".mpk" => .ok .msgpack
  | _ => .error (.plain (unknownFormat e))

namespace Description

def ofJson (s : String) : Except DecodeCause Description :=
  match Json.read s with
  | .error .ended => .error (if s.toList.all Json.isBlank then .ended else .cut)
  | .error .misplaced => .error .syntactic
  | .ok j =>
    match Json.Decode.document j with
    | .ok d => .ok d
    | .error (.type t) => .error (.type t)
    | .error (.unknownField n) => .error (.unknownField n)

def ofPack (bs : List UInt8) : Except DecodeCause Description :=
  match Pack.document bs with
  | .ok d => .ok d
  | .error .ended => .error .ended
  | .error .cut => .error .cut
  | .error .invalid => .error .invalid
  | .error .count => .error (.count none)

def ofYaml (bs : List UInt8) : Except DecodeCause Description :=
  let c := Yaml.Cursor.ofBytes bs
  match Yaml.document c with
  | none => .error .invalid
  | some none => .error .ended
  | some (some n) =>
    match Yaml.Decode.document (2 * c.size + 4) n with
    | .error .invalid => .error .invalid
    | .error (.count line) => .error (.count (some line))
    | .ok (d, []) => .ok d
    | .ok (_, messages) => .error (.types messages)

def decode (f : Format) (bs : List UInt8) : Except DecodeCause Description :=
  match f with
  | .json => ofJson (Text.ofUtf8 bs)
  | .yaml => ofYaml bs
  | .msgpack => ofPack bs

def encode (d : Description) : Format → Option (List UInt8)
  | .json => d.json?.map fun s => s.toUTF8.toList
  | .yaml => some d.yaml.toUTF8.toList
  | .msgpack => some d.pack

end Description

end ReactiveModel
