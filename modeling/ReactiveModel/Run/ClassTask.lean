import ReactiveModel.Artifact.OfCheck
import ReactiveModel.Files.Work
import ReactiveModel.Imports.Resolve
import ReactiveModel.Run.Report

/-! The task of one class: its artifact is made, checked and written, and then its program is
written or, if programs are not wanted, one of an earlier run is removed. -/

namespace ReactiveModel.Run

def openCause : Option Failure := some (.plain "<cause>")

def fileCause (e : FileFailure) : Option Failure := some (.plain e.message)

def save (className : Text) (path text : String) : Work (Except Failure Output) :=
  .makeDirectories (Path.parent path) fun e =>
    match e with
    | some e =>
      .done (.error (.generation className "open" path "failed to open file" (fileCause e)))
    | none =>
      .create path fun e =>
        match e with
        | some e =>
          .done (.error (.generation className "open" path "failed to open file" (fileCause e)))
        | none =>
          .write path text.toUTF8.toList fun e =>
            match e with
            | some e =>
              .done (.error (.generation className "write" path "write artifact" (fileCause e)))
            | none => .done (.ok ⟨path, text.utf8ByteSize⟩)

/-- Keeps a text whose imports could not be resolved beside the file it was meant for. -/
def saveUnresolved (className : Text) (path text : String) : Work (Except Failure Output) :=
  let aside := path ++ ".error"
  let failure : Failure :=
    .generation className "format" path ("unformatted output written to " ++ aside) openCause
  .makeDirectories (Path.parent aside) fun _ =>
    .create aside fun e =>
      match e with
      | some _ => .done (.error failure)
      | none => .write aside text.toUTF8.toList fun _ => .done (.error failure)

/-- Reads files of a directory one after the other; those that cannot be read do not count. -/
def readFiles (dir : String) : List String → Work (List (List UInt8))
  | [] => .done []
  | n :: ns => .read (Path.join [dir, n]) fun r => do
    let rest ← readFiles dir ns
    return (r.toOption.toList ++ rest)

def siblings (path : String) : Work (List Imports.Sibling) :=
  let dir := Path.parent path
  .list dir fun r => do
    let contents ← readFiles dir ((r.toOption.getD []).filter (Imports.isNoticed path))
    return contents.filterMap Imports.Sibling.ofBytes?

/-- Resolves the imports of a text for a file. The directory is looked at only if the text refers
to names that it does not import. -/
def resolveImports (path text : String) : Work (Option String) := do
  let others ← if Imports.isIncomplete text then siblings path else pure []
  return Imports.resolve others text

/-- How the imports of a text for a file are resolved; none if they cannot be. -/
abbrev Resolver := String → String → Work (Option String)

def writeFile (s : Settings) (className : Text) (f : SourceFile) (name : String)
    (resolver : Resolver := resolveImports) : Work (Except Failure Output) :=
  let path := Path.join [s.targetDir, name]
  match f.render with
  | none => .done (.error (.generation className "render" path "render artifact" openCause))
  | some text =>
    if s.enabled .imports then do
      match ← resolver path text with
      | some resolved => save className path resolved
      | none => saveUnresolved className path text
    else save className path text

/-- Removes a file that starts with the header of the settings, and its directory if nothing else
is in it. -/
def removeGenerated (s : Settings) (path : String) : Work (Option FileFailure) :=
  .read path fun r =>
    match r with
    | .error e => .done (if e.fault == .missing then none else some e)
    | .ok bs =>
      if ("// " ++ s.headerText).toUTF8.toList.isPrefixOf bs then
        .remove path fun e =>
          match e with
          | some e => .done (some e)
          | none =>
            let dir := Path.parent path
            .list dir fun r =>
              match r with
              | .error e => .done (some e)
              | .ok [] => .remove dir .done
              | .ok _ => .done none
      else .done none

def programTask (s : Settings) (workDir : String) (c : Class) (written : List Output)
    (resolver : Resolver := resolveImports) : Work Outcome :=
  let name := Naming.entryPointFile c.name
  if s.enabled .entryPoint then
    match c.entryPoint s (s.goPackage workDir) with
    | .error f => .done { written, failures := [f] }
    | .ok f => do
      match ← writeFile s c.name f name resolver with
      | .ok o => return { written := written ++ [o] }
      | .error f => return { written, failures := [f] }
  else do
    match ← removeGenerated s (Path.join [s.targetDir, name]) with
    | none => return { written }
    | some e =>
      return { written, failures :=
        [.generation c.name "cleanup" name "remove stale entry point" (fileCause e)] }

/-- The whole task of a class; none if its artifact cannot be made without a crash. -/
def classTask (s : Settings) (workDir : String) (reg : Registry) (c : Class)
    (resolver : Resolver := resolveImports) : Option (Work Outcome) :=
  match c.file s workDir reg with
  | .crashed => none
  | .failed f => some (.done { failures := [f] })
  | .file f => some do
    match ← writeFile s c.name f (Naming.classFile c.name) resolver with
    | .error f => return { failures := [f] }
    | .ok o => programTask s workDir c [o] resolver

end ReactiveModel.Run
