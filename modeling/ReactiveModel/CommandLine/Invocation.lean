import ReactiveModel.CommandLine.Arguments
import ReactiveModel.Run.Generator

/-! Invocations of the command. -/

namespace ReactiveModel.CommandLine

structure Request where
  options : Options
  model : String
  form : Log.Form
  level : Log.Level

inductive Parsed
  | request (r : Request)
  | shown (output : String)
  | rejected (message output : String)

def form? (s : String) : Option Log.Form :=
  if s == "text" then some .text else if s == "json" then some .json else none

def level? (s : String) : Option Log.Level :=
  if s == "debug" then some .debug
  else if s == "info" then some .info
  else if s == "warn" then some .warn
  else if s == "error" then some .error
  else none

/-- The request of a model, unless the options do not fit together. -/
def request (o : Options) (model : String) : Except String Request :=
  match form? (Text.lowerCase o.logFormat), level? (Text.lowerCase o.logLevel) with
  | none, _ => .error "invalid log-format: must be 'text' or 'json'"
  | _, none => .error "invalid log-level: must be 'debug', 'info', 'warn', or 'error'"
  | some form, some level =>
    if o.workers < 0 then .error "invalid workers: must not be negative"
    else if o.main && o.package == "" then .error "-main requires -pkg or $RENGEN_PACKAGE"
    else .ok { options := o, model, form, level }

def parse (env : Environment) (args : List String) : Parsed :=
  let defaults := Options.ofEnvironment env
  match readFlags args defaults with
  | .error .help => .shown (usage defaults)
  | .error (.fault m) => .rejected m (m ++ "\n" ++ usage defaults)
  | .ok (_, []) => .shown (usage defaults)
  | .ok (o, [model]) =>
    match request o model with
    | .ok r => .request r
    | .error m => .rejected m ""
  | .ok (_, operands) =>
    .rejected ("expected a single model path, got " ++ " ".intercalate operands) ""

def Options.settings (o : Options) : List Setting :=
  let features := (if o.main then [Feature.entryPoint] else []) ++
    (if o.imports then [.imports] else []) ++ (if o.eagerBindings then [.eagerBindings] else [])
  [.target o.out, .workers o.workers, .logger true] ++
    (if o.package == "" then [] else [.package o.package]) ++
    (if o.runtime == "" then [] else [.runtime o.runtime]) ++
    if features.isEmpty then [] else [.features (features.map Feature.name)]

structure Exit where
  code : Nat := 0
  message : Option Text := none
deriving DecidableEq, Inhabited

def completeEntry (m : Run.Metrics) : Log.Entry :=
  { level := .debug, message := "generation complete"
    details := [("files", .number m.files), ("bytes", .number m.bytes)] }

def exitOf : Run.Ending → Option (Exit × List Log.Entry)
  | .crashed => none
  | .refused f => some ({ code := if f.has .config then 2 else 1, message := some f.message }, [])
  | .finished r =>
    match r.failure? with
    | none => some ({}, r.log ++ [completeEntry r.report.metrics])
    | some f =>
      if f.has .config then some ({ code := 2, message := some f.message }, r.log)
      else
        some ({ code := 1
                message := some
                  ("generation failed for " ++ Text.intercalate ", " r.report.failed) },
          r.log)

def Request.run (r : Request) (workDir : String) : Work (Option (Exit × List Log.Entry)) := do
  return exitOf (← Run.ofPath r.model r.options.settings workDir none)

def watchingEntry (model : String) : Log.Entry :=
  { level := .info, message := "watching model", details := [("path", .text model)] }

def regenerationEntry (model : String) (message : Text) : Log.Entry :=
  { level := .error, message := "regeneration failed"
    details := [("path", .text model), ("error", .text message)] }

/-- One run for a request whose model is watched: failures are logged. -/
def Request.regenerate (r : Request) (workDir : String) : Work (Option (List Log.Entry)) := do
  return (← r.run workDir).map fun (exit, log) =>
    log ++ exit.message.toList.map (regenerationEntry (Path.clean r.model))

/-- The first run for a model that is watched. Its directory must be there. -/
def Request.watch (r : Request) (workDir : String) : Work (Option (Exit × List Log.Entry)) :=
  let model := Path.clean r.model
  let start : Work (Option (Exit × List Log.Entry)) := do
    return (← r.regenerate workDir).map fun log => ({}, log ++ [watchingEntry model])
  .read (Path.parent model) fun found =>
    match found with
    | .ok _ => start
    | .error e =>
      if e.fault == .isDirectory then start
      else
        let message := "rengen: watch " ++ model ++ ": " ++ e.fault.text
        .done (some ({ code := 1, message := some message }, []))

/-- An invocation up to its end, or to where it waits for the model to change: its exit, and what it
writes. None if it crashes. -/
def invoke (env : Environment) (args : List String) (workDir : String) :
    Work (Option (Exit × String)) :=
  match parse env args with
  | .shown output => .done (some ({}, output))
  | .rejected m output => .done (some ({ code := 2, message := some m }, output))
  | .request r => do
    let ended ← if r.options.watch then r.watch workDir else r.run workDir
    return ended.map fun (exit, log) => (exit, Log.write r.form r.level log)

end ReactiveModel.CommandLine
