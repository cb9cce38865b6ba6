import ReactiveModel.Failure
import ReactiveModel.Naming

/-! Settings of a generation run and the options that change them. -/

namespace ReactiveModel

inductive Feature | entryPoint | imports | eagerBindings
deriving DecidableEq, Inhabited

namespace Feature

def all : List Feature := [.entryPoint, .imports, .eagerBindings]

def name : Feature → String
  | .entryPoint => "entrypoint"
  | .imports => "goimports"
  | .eagerBindings => "bindings/eager"

def ofName? (n : String) : Option Feature := all.find? (·.name == n)

end Feature

/-- Empty texts stand for defaults. -/
structure Settings where
  target : String := ""
  package : String := ""
  packageName : String := ""
  runtime : String := ""
  header : String := ""
  receiver : String := ""
  features : List String := []
  workers : Int := 0
  /-- A logger of its own is given. -/
  logger : Bool := false
deriving DecidableEq, Inhabited

namespace Settings

def defaultRuntime : String := "github.com/syssam/rengine"

def defaultHeader : String := "Code generated by rengen. DO NOT EDIT."

def orElse (s fallback : String) : String := if s == "" then fallback else s

def targetDir (s : Settings) : String := orElse s.target "."

def runtimePath (s : Settings) : String := orElse s.runtime defaultRuntime

def headerText (s : Settings) : String := orElse s.header defaultHeader

def receiverOf (s : Settings) (className : Text) : Text :=
  if s.receiver == "" then Naming.receiver className else s.receiver

def enabled (s : Settings) (f : Feature) : Bool := s.features.contains f.name

def unexpectedFeature (name : String) : String := "unexpected feature name " ++ Text.quoted name

def featureEnabled (s : Settings) (name : String) : Except String Bool :=
  match Feature.ofName? name with
  | some f => .ok (s.enabled f)
  | none => .error (unexpectedFeature name)

/-- The package name of generated files: as set, from the last element of the import path, from
the last element of the directory, or `generated`. -/
def goPackage (s : Settings) (workDir : String) : String :=
  if s.packageName != "" then s.packageName
  else
    let dir := s.targetDir
    let whole := if Path.isRooted dir then Path.clean dir else Path.join [workDir, dir]
    let ofPath := if s.package == "" then "" else Naming.packageName (Path.base s.package)
    orElse ofPath (orElse (Naming.packageName (Path.base whole)) "generated")

end Settings

inductive Setting
  | target (dir : String)
  | package (path : String)
  | packageName (name : String)
  | runtime (path : String)
  | header (text : String)
  | receiver (name : String)
  | features (names : List String)
  | workers (n : Int)
  | logger (given : Bool)
deriving DecidableEq, Inhabited

namespace Settings

def generatedLocals : List String := ["manager", "err", "count", "index", "instance", "value"]

/-- What is wrong with a feature, asked for by its name. -/
def featureFault? (s : Settings) (name : String) : Option Failure :=
  match s.featureEnabled name with
  | .ok _ => none
  | .error message => some (.config "Features" (some (.string name)) message)

/-- A change of settings that is not made if something is wrong with what is asked for. -/
def checked (s : Settings) (isWrong : Bool) (option : String) (value : Option Shown)
    (message : String) (changed : Settings) : Option Failure × Settings :=
  if isWrong then (some (.config option value message), s) else (none, changed)

def withReceiver (s : Settings) (n : String) : Option Failure × Settings :=
  if !Source.isName n || n == "_" then
    (some (.config "Receiver" (some (.string n)) "receiver must be a Go identifier"), s)
  else
    s.checked (generatedLocals.contains n) "Receiver" (some (.string n))
      "receiver shadows a local of the generated methods" { s with receiver := n }

/-- Features are looked at one by one before any of them is added. -/
def withFeatures (s : Settings) (ns : List String) : Option Failure × Settings :=
  match ns.findSome? s.featureFault? with
  | some f => (some f, s)
  | none => (none, { s with features := s.features ++ ns })

def applyOne (s : Settings) : Setting → Option Failure × Settings
  | .target d => (none, { s with target := orElse d "." })
  | .package p =>
    s.checked (p == "") "Package" none "package cannot be empty" { s with package := p }
  | .packageName n =>
    s.checked (!Source.isName n) "PackageName" (some (.string n))
      "package name must be a Go identifier" { s with packageName := n }
  | .runtime p =>
    s.checked (p == "") "Runtime" none "runtime package cannot be empty" { s with runtime := p }
  | .header t => (none, { s with header := t })
  | .receiver n => s.withReceiver n
  | .features ns => s.withFeatures ns
  | .workers n =>
    s.checked (n < 0) "Workers" (some (.int n)) "workers cannot be negative" { s with workers := n }
  | .logger given =>
    s.checked (!given) "Logger" none "logger cannot be nil" { s with logger := given }

def apply (s : Settings) : List Setting → Option Failure × Settings
  | [] => (none, s)
  | o :: os =>
    match s.applyOne o with
    | (some f, s) => (some f, s)
    | (none, s) => apply s os

/-- Makes all changes that are not rejected and joins the rejections. -/
def applyAll (s : Settings) (os : List Setting) : Option Failure × Settings :=
  let (fs, s) := os.foldl (fun (fs, s) o => let (f, s) := applyOne s o; (f :: fs, s)) ([], s)
  (Failure.join? fs.reverse, s)

def ofList (os : List Setting) : Except Failure Settings :=
  match apply {} os with
  | (some f, _) => .error f
  | (none, s) => .ok s

end Settings

end ReactiveModel
