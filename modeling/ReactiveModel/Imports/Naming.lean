import ReactiveModel.Imports.Standard
import ReactiveModel.Source.Token
import ReactiveModel.Text.Basic
import ReactiveModel.Text.Case

/-! How a file calls the packages it uses. A path gets its name on its first use and keeps it. -/

namespace ReactiveModel.Imports

structure Import where
  path : Text
  name : String
  renamed : Bool
deriving DecidableEq, Inhabited

/-- Names that a package may not have besides keywords. -/
def reserved : List String :=
  ["bool", "byte", "complex64", "complex128", "error", "float32", "float64", "int", "int8",
   "int16", "int32", "int64", "rune", "string", "uint", "uint8", "uint16", "uint32", "uint64",
   "uintptr", "true", "false", "iota", "nil", "append", "cap", "close", "clear", "min", "max",
   "complex", "copy", "delete", "imag", "len", "make", "new", "panic", "print", "println", "real",
   "recover", "err"]

def guess (path : Text) : String :=
  let cs := path.shown.toList.reverse
  let cs := match cs with
    | '/' :: rest => rest
    | _ => cs
  let last := String.ofList (cs.takeWhile (· != '/')).reverse
  let kept := (Text.lowerCase last).toList.filter fun c =>
    ('a' ≤ c && c ≤ 'z') || ('0' ≤ c && c ≤ '9')
  match kept.dropWhile fun c => '0' ≤ c && c ≤ '9' with
  | [] => "pkg"
  | cs => String.ofList cs

def isFree (taken : List Import) (name : String) : Bool :=
  !Source.isKeyword name && !reserved.contains name && !(taken.any (·.name == name))

/-- The first free one of `name`, `name1`, `name2`, … after `n` numbers were tried. -/
def firstFree (taken : List Import) (name : String) : Nat → Nat → String
  | 0, n => name ++ toString n
  | steps + 1, n =>
    let candidate := if n == 0 then name else name ++ toString n
    if isFree taken candidate then candidate else firstFree taken name steps (n + 1)

/-- Enters a path, unless it is there, with the name it gets. Names that are given for a path or by
the standard library need not be written. -/
def register (hints : List (String × String)) (taken : List Import) (path : Text) :
    List Import :=
  if taken.any (·.path == path) then taken
  else if path == "C" then taken ++ [⟨path, "C", false⟩]
  else
    let hint := hints.find? fun h => h.1 == path
    let known := (hint.map Prod.snd).or (path.toString?.bind standardName?)
    let name := known.getD (guess path)
    let free := firstFree taken name (taken.length + reserved.length + 1) 0
    taken ++ [⟨path, free, known.isNone || free != name⟩]

end ReactiveModel.Imports
