import ReactiveModel.CommandLine.Integer

/-! The flags of the command, and what they set. -/

namespace ReactiveModel.CommandLine

inductive Flag
  | eagerBindings | imports | logFormat | logLevel | main | out | package | runtime | watch
  | workers
deriving DecidableEq, Inhabited

/-- Values that come with the environment; an empty one is like none. -/
structure Environment where
  out : String := ""
  package : String := ""
  runtime : String := ""

structure Options where
  out : String := "."
  package : String := ""
  runtime : String := ""
  main : Bool := false
  eagerBindings : Bool := false
  imports : Bool := true
  workers : Int := 0
  logLevel : String := "info"
  logFormat : String := "text"
  watch : Bool := false
deriving DecidableEq, Inhabited

def Options.ofEnvironment (e : Environment) : Options :=
  { out := if e.out == "" then "." else e.out, package := e.package, runtime := e.runtime }

namespace Flag

def all : List Flag :=
  [.eagerBindings, .imports, .logFormat, .logLevel, .main, .out, .package, .runtime, .watch,
   .workers]

def name : Flag → String
  | .eagerBindings => "eager-bindings"
  | .imports => "goimports"
  | .logFormat => "log-format"
  | .logLevel => "log-level"
  | .main => "main"
  | .out => "out"
  | .package => "pkg"
  | .runtime => "runtime"
  | .watch => "watch"
  | .workers => "workers"

def ofName? (n : String) : Option Flag := all.find? (·.name == n)

def usage : Flag → String
  | .eagerBindings => "Evaluate every binding once at the end of Initialize."
  | .imports => "Resolve imports of verbatim expressions with goimports."
  | .logFormat => "Log output format. Options: 'text' or 'json'."
  | .logLevel => "Set the logging level. Options: 'debug', 'info', 'warn', 'error'."
  | .main => "Emit cmd/<class>/main.go for every generated class. Requires -pkg."
  | .out => "Output directory of the generated package. Defaults to $RENGEN_OUT."
  | .package => "Import path of the generated package. Defaults to $RENGEN_PACKAGE."
  | .runtime => "Import path of the runtime library. Defaults to $RENGEN_RUNTIME."
  | .watch => "Regenerate whenever the model file changes, until interrupted."
  | .workers => "Number of classes generated in parallel. 0 uses GOMAXPROCS."

inductive Kind | switch | text | number
deriving DecidableEq

def kind : Flag → Kind
  | .eagerBindings | .imports | .main | .watch => .switch
  | .workers => .number
  | _ => .text

def setSwitch (f : Flag) (b : Bool) (o : Options) : Options :=
  match f with
  | .eagerBindings => { o with eagerBindings := b }
  | .imports => { o with imports := b }
  | .main => { o with main := b }
  | .watch => { o with watch := b }
  | _ => o

def setText (f : Flag) (s : String) (o : Options) : Options :=
  match f with
  | .logFormat => { o with logFormat := s }
  | .logLevel => { o with logLevel := s }
  | .out => { o with out := s }
  | .package => { o with package := s }
  | .runtime => { o with runtime := s }
  | _ => o

def switch? (s : String) : Option Bool :=
  if ["1", "t", "T", "true", "TRUE", "True"].contains s then some true
  else if ["0", "f", "F", "false", "FALSE", "False"].contains s then some false
  else none

def set (f : Flag) (value : String) (o : Options) : Except String Options :=
  match f.kind with
  | .switch =>
    match switch? value with
    | some b => .ok (f.setSwitch b o)
    | none => .error "parse error"
  | .text => .ok (f.setText value o)
  | .number =>
    match integer value with
    | .ok n => .ok { o with workers := n }
    | .error .malformed => .error "parse error"
    | .error .outOfRange => .error "value out of range"

def defaultText (f : Flag) (o : Options) : String :=
  let quoted (s : String) : String := if s == "" then "" else " (default " ++ Text.quoted s ++ ")"
  match f with
  | .imports => " (default true)"
  | .logFormat => quoted o.logFormat
  | .logLevel => quoted o.logLevel
  | .out => quoted o.out
  | .package => quoted o.package
  | .runtime => quoted o.runtime
  | .eagerBindings | .main | .watch | .workers => ""

def help (f : Flag) (o : Options) : String :=
  let value := match f.kind with
    | .switch => ""
    | .text => " string"
    | .number => " int"
  "  -" ++ f.name ++ value ++ "\n    \t" ++ f.usage ++ f.defaultText o ++ "\n"

end Flag

def usage (defaults : Options) : String :=
  "\nrengen - generates Go classes from a reactive object model.\n\n" ++
  "Usage:\n  rengen [options] MODEL\n\n" ++
  "Arguments:\n  MODEL\n    Path to a .json, .yaml or .msgpack model description.\n\n" ++
  "Options:\n" ++ String.join (Flag.all.map (·.help defaults))

end ReactiveModel.CommandLine
