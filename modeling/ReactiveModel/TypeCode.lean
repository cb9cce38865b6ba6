import ReactiveModel.Text.Basic
import ReactiveModel.Text.Path

/-! Types of properties, signals and resources. A model may use names that belong to no language;
any other text is a Go type. -/

namespace ReactiveModel

def neutralTypes : List (String × String) :=
  [("bool", "bool"), ("boolean", "bool"), ("char", "int8"), ("signed char", "int8"),
   ("unsigned char", "uint8"), ("short", "int16"), ("unsigned short", "uint16"), ("int", "int"),
   ("unsigned", "uint"), ("unsigned int", "uint"), ("long", "int64"), ("unsigned long", "uint64"),
   ("long long", "int64"), ("unsigned long long", "uint64"), ("float", "float32"),
   ("double", "float64"), ("number", "float64"), ("string", "string")]

def goTypeName (raw : Text) : Text :=
  let t := raw.trim
  match neutralTypes.find? fun e => e.1 == t with
  | some (_, name) => name
  | none => t

/-- Whether values of a declared type are compared with an operator. -/
def isComparable (raw : Text) : Bool :=
  !(["[]", "map[", "func(", "func ("].any (goTypeName raw).startsWith)

inductive TypeCode
  | pointer (t : TypeCode)
  | slice (t : TypeCode)
  | verbatim (text : Text)
  | named (path name : Text)
  | instantiated (path name : Text) (argument : TypeCode)
deriving DecidableEq, Inhabited

namespace TypeCode

def structural : String := "[]() \x7b\x7d"

def splitQualifier (t : Text) : Option (Text × Text) :=
  let name := t.bytes.reverse.takeWhile (· != '.'.toUInt8)
  let qualifier := (t.bytes.reverse.drop (name.length + 1)).reverse
  if name.isEmpty || qualifier.isEmpty then none else some (⟨qualifier⟩, ⟨name.reverse⟩)

/-- A type without pointer or slice in front. The bare name of the runtime library stands for its
path. -/
def ofCore (runtime : String) (t : Text) : TypeCode :=
  if t.hasAny structural then .verbatim t
  else
    match splitQualifier t with
    | none => .verbatim t
    | some (qualifier, name) =>
      if !qualifier.hasAny "/" && qualifier == Path.base runtime then .named runtime name
      else .named qualifier name

/-- Each step takes at least one byte off the text. -/
def ofTextWithin (runtime : String) : Nat → Text → TypeCode
  | 0, raw => .verbatim (goTypeName raw)
  | n + 1, raw =>
    let t := goTypeName raw
    if t.startsWith "*" then .pointer (ofTextWithin runtime n ⟨t.bytes.drop 1⟩)
    else if t.startsWith "[]" then .slice (ofTextWithin runtime n ⟨t.bytes.drop 2⟩)
    else ofCore runtime t

/-- A declared type as code, where qualified names use the import path before the last dot. -/
def ofText (runtime : String) (raw : Text) : TypeCode :=
  ofTextWithin runtime (raw.bytes.length + 1) raw

end TypeCode

end ReactiveModel
