import ReactiveModel.Failure
import ReactiveModel.Run.Log

/-! What a run tells about itself. -/

namespace ReactiveModel.Run

structure Output where
  path : String
  size : Nat
deriving DecidableEq, Inhabited

structure Outcome where
  written : List Output := []
  failures : List Failure := []

structure Metrics where
  files : Nat := 0
  bytes : Nat := 0
deriving DecidableEq, Inhabited

namespace Metrics

def add (m : Metrics) (o : Outcome) : Metrics :=
  { files := m.files + o.written.length
    bytes := o.written.foldl (fun n w => n + w.size) m.bytes }

end Metrics

structure Report where
  written : List String := []
  failed : List Text := []
  failures : List Failure := []
  metrics : Metrics := {}

namespace Report

def ok (r : Report) : Bool := r.failures.isEmpty

def failure? (r : Report) : Option Failure := Failure.join? (r.failures.map some)

def ofOutcomes (metrics : Metrics) (os : List (Text × Outcome)) : Report :=
  { written := os.flatMap fun o => o.2.written.map Output.path
    failed := (os.filter fun o => !o.2.failures.isEmpty).map Prod.fst
    failures := os.flatMap fun o => o.2.failures
    metrics }

end Report

/-! Log entries of a run. -/

def nothingEntry : Log.Entry :=
  { level := .warn, message := "no class definitions present in input, nothing generated" }

def writtenEntry (o : Output) : Log.Entry :=
  { level := .info, message := "wrote", details := [("path", .text o.path)] }

/-- A file that cannot be opened is told by its path, all else by its class. -/
def failureEntry (f : Failure) : Log.Entry :=
  match f with
  | .generation c phase file _ cause =>
    if phase == "open" then
      { level := .error, message := "failed to open file"
        details := [("path", .text file), ("error", .text (Failure.causeText cause))] }
    else
      { level := .error, message := "generation failed"
        details := [("class", .text c), ("phase", .text phase), ("error", .text f.message)] }
  | f =>
    { level := .error, message := "generation failed", details := [("error", .text f.message)] }

def Outcome.entries (o : Outcome) : List Log.Entry :=
  o.written.map writtenEntry ++ o.failures.map failureEntry

end ReactiveModel.Run
