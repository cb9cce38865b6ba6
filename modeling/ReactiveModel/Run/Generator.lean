import ReactiveModel.Description.Document
import ReactiveModel.Run.ClassTask

/-! Runs: every class that is generated has its task, and the outcomes make the report. -/

namespace ReactiveModel

/-- A generator counts what it has written in all its runs. -/
structure Generator where
  registry : Registry := {}
  settings : Settings := {}
  metrics : Run.Metrics := {}

namespace Run

structure Result where
  report : Report
  log : List Log.Entry

def Result.failure? (r : Result) : Option Failure := r.report.failure?

def cancelled (c : Class) : Outcome :=
  { failures := [.generation c.name "schedule" "" "generation canceled"
      (some (.plain "context canceled"))] }

/-- The tasks of classes, of which only the first few are started when the run is cancelled. None if
one of them would crash. -/
def classTasks (s : Settings) (workDir : String) (reg : Registry) : Option Nat → List Class →
    (resolver : Resolver := resolveImports) → Option (List (Text × Work Outcome))
  | _, [], _ => some []
  | some 0, c :: cs, resolver => do
    let rest ← classTasks s workDir reg (some 0) cs resolver
    return (c.name, .done (cancelled c)) :: rest
  | limit, c :: cs, resolver => do
    let t ← classTask s workDir reg c resolver
    let rest ← classTasks s workDir reg (limit.map (· - 1)) cs resolver
    return (c.name, t) :: rest

def inTurn {α : Type} : List (Text × Work α) → Work (List (Text × α))
  | [] => .done []
  | (name, t) :: ts => do
    let a ← t
    let rest ← inTurn ts
    return (name, a) :: rest

end Run

namespace Generator

open Run

def conclude (g : Generator) (os : List (Text × Outcome)) : Result × Generator :=
  let metrics := os.foldl (fun m o => m.add o.2) g.metrics
  ({ report := .ofOutcomes metrics os, log := os.flatMap fun o => o.2.entries }, { g with metrics })

/-- One run in a work directory, with the number of classes that are started before it is
cancelled. None if it would crash. -/
def generate (g : Generator) (workDir : String) (limit : Option Nat)
    (resolver : Resolver := resolveImports) : Option (Work (Result × Generator)) :=
  match g.registry.generated with
  | [] => some (.done ({ report := {}, log := [nothingEntry] }, g))
  | cs => do
    let ts ← classTasks g.settings workDir g.registry limit cs resolver
    return do
      let os ← inTurn ts
      return g.conclude os

end Generator

namespace Run

inductive Ending
  | finished (r : Result)
  /-- Settings or a description were refused before anything was generated. -/
  | refused (f : Failure)
  | crashed

def ofSettings (reg : Registry) (s : Settings) (workDir : String) (limit : Option Nat)
    (resolver : Resolver := resolveImports) : Work Ending :=
  match Generator.generate { registry := reg, settings := s } workDir limit resolver with
  | none => .done .crashed
  | some t => do
    let (r, _) ← t
    return .finished r

def ofRegistry (reg : Registry) (settings : List Setting) (workDir : String) (limit : Option Nat) :
    Work Ending :=
  match Settings.ofList settings with
  | .error f => .done (.refused f)
  | .ok s => ofSettings reg s workDir limit

def load (path : String) : Work (Except Failure Registry) :=
  match Format.ofPath path with
  | .error f => .done (.error f)
  | .ok format =>
    .read path fun r =>
      match r with
      | .error e => .done (.error (.plain ("load: " ++ e.message)))
      | .ok bs =>
        match Description.decode format bs with
        | .error cause =>
          .done (.error (.decode { format := format.name, file := some path, cause }))
        | .ok d => .done d.build

def ofPath (path : String) (settings : List Setting) (workDir : String) (limit : Option Nat) :
    Work Ending :=
  match Settings.ofList settings with
  | .error f => .done (.refused f)
  | .ok s => do
    match ← load path with
    | .error f => return .refused f
    | .ok reg => ofSettings reg s workDir limit

end Run

end ReactiveModel
