import ReactiveModel.CommandLine.Invocation

/-! The command on the files of the machine. It only does the actions that the work asks for and
prints what the invocation writes. -/

namespace ReactiveModel

namespace Work

def faultOf (e : IO.Error) : PathFault :=
  let told := (toString e).toLower
  let faults : List PathFault := [.missing, .isDirectory, .nameTooLong, .notEmpty, .occupied]
  (faults.find? fun f => 1 < (told.splitOn f.text).length).getD .notDirectory

def attempt (action path : String) (act : IO Unit) : IO (Option FileFailure) :=
  try
    act
    return none
  catch e => return some ⟨action, path, faultOf e⟩

/-- Reads a file. A directory can be opened, but not read. -/
def readFile (path : String) : IO (Except FileFailure (List UInt8)) :=
  try
    let content ← IO.FS.readBinFile path
    return .ok content.toList
  catch e =>
    let fault := faultOf e
    return .error ⟨if fault == .isDirectory then "read" else "open", path, fault⟩

/-- Tells what is in a directory, as far as whether anything is: an empty directory can be removed,
and is then made again, and another one cannot. -/
def listDirectory (path : String) : IO (Except FileFailure (List String)) := do
  match ← attempt "open" path (IO.FS.removeDir path) with
  | none =>
    IO.FS.createDir path
    return .ok []
  | some e => return if e.fault == .notEmpty then .ok ["."] else .error e

def removeEntry (path : String) : IO (Option FileFailure) := do
  match ← attempt "remove" path (IO.FS.removeFile path) with
  | none => return none
  | some _ => attempt "remove" path (IO.FS.removeDir path)

def performAction : FileAction → IO (Option FileFailure)
  | .makeDirectories p => attempt "mkdir" p (IO.FS.createDirAll p)
  | .create p => attempt "open" p (IO.FS.writeBinFile p .empty)
  | .write p content =>
    attempt "write" p (IO.FS.withFile p .readWrite (·.write ⟨content.toArray⟩))
  | .remove p => removeEntry p

def perform {α : Type} : Work α → IO α
  | .done a => return a
  | .read p next => do perform (next (← readFile p))
  | .list p next => do perform (next (← listDirectory p))
  | .act a next => do perform (next (← performAction a))

end Work

namespace CommandLine

def say (text : String) : IO Unit := do
  IO.print text
  (← IO.getStdout).flush

/-- Makes a model anew whenever the content of its file has changed. -/
partial def Request.follow (r : Request) (workDir : String)
    (seen : Except FileFailure (List UInt8)) : IO Unit := do
  IO.sleep 100
  match seen, ← Work.readFile r.model with
  | _, .error e => r.follow workDir (.error e)
  | seen, .ok content =>
    let same : Bool := match seen with
      | .ok before => before == content
      | .error _ => false
    unless same do
      let log ← (r.regenerate workDir).perform
      say (Log.write r.form r.level (log.getD []))
    r.follow workDir (.ok content)

def environment : IO Environment := do
  let value (name : String) : IO String := return (← IO.getEnv name).getD ""
  return { out := ← value "RENGEN_OUT", package := ← value "RENGEN_PACKAGE",
           runtime := ← value "RENGEN_RUNTIME" }

end CommandLine

end ReactiveModel

open ReactiveModel in
def main (args : List String) : IO UInt32 := do
  let env ← CommandLine.environment
  let workDir := toString (← IO.currentDir)
  let ended ← (CommandLine.invoke env args workDir).perform
  match ended with
  | none => return 2
  | some (exit, output) =>
    CommandLine.say output
    if let some m := exit.message then (← IO.getStderr).write ⟨(m ++ "\n").bytes.toArray⟩
    match CommandLine.parse env args with
    | .request r =>
      if r.options.watch && exit.code == 0 then
        r.follow workDir (← Work.readFile r.model)
    | _ => pure ()
    return UInt32.ofNat exit.code
