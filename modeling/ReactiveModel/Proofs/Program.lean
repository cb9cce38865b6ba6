import ReactiveModel.Proofs.ObjectTree

/-! The methods that initialize an instance, as statements: how they are written, and what they do.
A call stands with the body of the method that it calls, so that the meaning of a statement is by
recursion on it. -/

namespace ReactiveModel

open List

inductive Statement
  /-- A comment or a blank line. -/
  | remark (c : Code)
  | declare (name type : Text)
  /-- Panics if the instance is initialized. -/
  | guard (message : Text)
  | call (method : Text) (body : List Statement)
  /-- Calls a method and returns the error that it returns. -/
  | attempt (method : Text) (body : List Statement)
  | object (step : ObjectStep)
  /-- Acquires a resource and returns an error if there is none. -/
  | acquire (r : Acquisition) (what : Text)
  | setCount (n : Nat)
  /-- Runs its body as often as the count says. -/
  | loop (body : List Statement)
  | make (maker : Maker)
  /-- Initializes the instance that was made last and returns an error if this fails. -/
  | start (what : Text)
  /-- Adds the instance to a collection. -/
  | collect (field : Text)
  | verbatim (text : Text)
  /-- Appends the root of the instance to the object in a slot. -/
  | appendRoot (parent : Text)
  | finish
  | succeed

namespace Statement

open Code Artifact

mutual

def code (a : Artifact) : Statement → Code
  | .remark c => c
  | .declare name type => .phrase ["var", name, type]
  | .guard message =>
    .phrase [head "if" [a.member "initialized"], block [callOf "panic" [Text.quoted message]]]
  | .call method _ => Code.call (a.member method) []
  | .attempt method _ => a.passOn method
  | .object step => a.stepCode step
  | .acquire r what =>
    unlessDone
      (assign (.group "" "," "" false [a.member r.slot, "err"])
        (.phrase [a.runtimeName "Acquire", typeArgument r.type.code,
          params ["manager", Text.quoted r.key]]))
      [failure what]
  | .setCount n => assign "count" (toString n)
  | .loop body =>
    .phrase [head "for" [.phrase ["index", ":=", "0"], .phrase ["index", "<", "count"],
      .phrase ["index", "++"]], block (codes a body)]
  | .make maker => .phrase ["instance", ":=", maker.code]
  | .start what =>
    unlessDone (.phrase ["err", ":=", Code.call (dot "instance" "Initialize") ["manager"]])
      [failure what]
  | .collect field => assign (a.member field) (callOf "append" [a.member field, "instance"])
  | .verbatim text => .word text
  | .appendRoot parent =>
    Code.call (dot (a.member parent) "Append") [Code.call (dot "instance" "Root") []]
  | .finish => assign (a.member "initialized") "true"
  | .succeed => ret ["nil"]

def codes (a : Artifact) : List Statement → List Code
  | [] => []
  | s :: ss => s.code a :: codes a ss

end

end Statement

/-! The bodies of the methods of an artifact. -/

namespace Artifact

open Code Statement

def resourcesBody (a : Artifact) : List Statement :=
  (if a.acquisitions.isEmpty then [] else [.declare "err" "error"]) ++
    a.acquisitions.map (fun r => .acquire r (a.className ++ ": acquire resource " ++ r.resource)) ++
    [.succeed]

def objectsBody (a : Artifact) : List Statement := a.construction.steps.map .object

def instanceBody (a : Artifact) (r : Replication) : List Statement :=
  [.make r.maker, .start (a.className ++ ": replicator " ++ r.id), .collect r.field] ++
    (if r.initializor == "" then [] else [.verbatim r.initializor]) ++ [.appendRoot r.parent]

def replicationBody (a : Artifact) (r : Replication) : List Statement :=
  [.remark gap, .remark (comment ("replicator " ++ r.id)), .setCount r.count,
    .loop (a.instanceBody r)]

def replicatorsBody (a : Artifact) : List Statement :=
  .declare "count" "int" :: a.replications.flatMap a.replicationBody ++ [.succeed]

def evaluationBody (e : Evaluation) : List Statement :=
  [.object (.set e.slot e.setter e.expression)]

def evaluateBody (a : Artifact) : List Statement :=
  a.evaluations.map fun e => .call e.method (evaluationBody e)

def initializeBody (a : Artifact) : List Statement :=
  [.guard (a.className ++ ": Initialize called twice"), .attempt "initResources" a.resourcesBody,
    .call "initObjects" a.objectsBody] ++
    (if a.replications.isEmpty then [] else [.attempt "initReplicators" a.replicatorsBody]) ++
    (if a.eager then [.call "evaluateBindings" a.evaluateBody] else []) ++ [.finish, .succeed]

/-- The code of an artifact has one method of each name, and these are its statements, up to
comments and blank lines between the objects. -/
structure Emits (a : Artifact) : Prop where
  entrance : a.bodies "Initialize" = [a.initializeBody.map (Statement.code a)]
  resources : a.bodies "initResources" = [a.resourcesBody.map (Statement.code a)]
  objects : ∃ body, a.bodies "initObjects" = [body] ∧
    body.filterMap statement? = a.objectsBody.map (Statement.code a)
  replicators : a.replications ≠ [] →
    a.bodies "initReplicators" = [a.replicatorsBody.map (Statement.code a)]
  evaluate : a.eager = true →
    a.bodies "evaluateBindings" = [a.evaluateBody.map (Statement.code a)]
  evaluations : ∀ e ∈ a.evaluations,
    a.bodies e.method = [(evaluationBody e).map (Statement.code a)]

variable (a : Artifact)

lemma codes_replicationBody (r : Replication) :
    (a.replicationBody r).map (Statement.code a) = a.replicationCode r := by
  have hbody : codes a (a.instanceBody r) =
      [.phrase ["instance", ":=", r.maker.code],
        unlessDone (.phrase ["err", ":=", Code.call (dot "instance" "Initialize") ["manager"]])
          [failure (a.className ++ ": replicator " ++ r.id)],
        assign (a.member r.field) (callOf "append" [a.member r.field, "instance"])] ++
      (if r.initializor == "" then [] else [.word r.initializor]) ++
      [Code.call (dot (a.member r.parent) "Append") [Code.call (dot "instance" "Root") []]] := by
    rw [instanceBody]
    cases r.initializor == "" <;> rfl
  simp only [replicationBody, map_cons, map_nil, Statement.code, hbody]
  rfl

lemma initializeBody_code :
    a.method "Initialize" a.managed
    (a.initializeBody.map (Statement.code a)) ∈ a.initializeCode := by
  cases hr : a.replications.isEmpty <;> cases he : a.eager <;>
    simp [initializeCode, initializeBody, hr, he, Statement.code]

lemma resourcesCode_eq :
    a.resourcesCode =
    [gap, a.method "initResources" a.managed (a.resourcesBody.map (Statement.code a))] := by
  have hacquire : a.acquisitions.map a.acquisitionCode = (a.acquisitions.map fun r =>
      Statement.acquire r (a.className ++ ": acquire resource " ++ r.resource)).map
        (Statement.code a) := by
    rw [map_map]
    rfl
  rw [resourcesCode, resourcesBody, map_append, hacquire]
  cases a.acquisitions.isEmpty <;> rfl

lemma replicatorsBody_code {a : Artifact} (h : a.replications ≠ []) : a.method "initReplicators"
    a.managed (a.replicatorsBody.map (Statement.code a)) ∈ a.replicationsCode := by
  have hall : (a.replications.flatMap a.replicationBody).map (Statement.code a) =
      a.replications.flatMap a.replicationCode := by
    rw [map_flatMap]
    exact flatMap_congr fun r _ => a.codes_replicationBody r
  rw [replicationsCode, if_neg (by simpa using h)]
  simp only [replicatorsBody, map_append, map_cons, hall]
  exact mem_cons_of_mem _ (mem_singleton_self _)

lemma emits {a : Artifact} (h : a.memberNames.Nodup) : a.Emits where
  entrance := bodies_of_method h a.managed
    (by simp [Artifact.code, declarations, parts, a.initializeBody_code])
  resources := bodies_of_method h a.managed
    (by simp [Artifact.code, declarations, parts, a.resourcesCode_eq])
  objects := by
    obtain ⟨body, hcode, hbody⟩ := a.statements_objectsCode
    refine ⟨body, bodies_initObjects h hcode, ?_⟩
    rw [hbody, objectsBody, map_map]
    rfl
  replicators hsome := bodies_of_method h a.managed
    (by simp [Artifact.code, declarations, parts, replicatorsBody_code hsome])
  evaluate heager := by
    refine bodies_of_method h [params []] ?_
    have hcalls : a.evaluateBody.map (Statement.code a) =
        a.evaluations.map fun e => Code.call (a.member e.method) [] := by
      rw [evaluateBody, map_map]
      rfl
    simp [Artifact.code, declarations, parts, evaluateCode, heager, hcalls]
  evaluations _ he := bodies_evaluation h he

end Artifact

/-! What statements do. -/

/-- What the initialization of an instance of another class adds, and the number of its root. -/
structure Growth (ε : Type) where
  cells : List Store.Cell
  root : Except ε Nat

/-- How acquisitions and initializations of other instances turn out, by their numbers. -/
structure Surroundings (ε : Type) where
  /-- The error of an acquisition that fails. -/
  acquire : Nat → Option ε
  start : Nat → Growth ε

structure Raised (ε : Type) where
  what : Text
  cause : ε

/-- What happens in a run, where instances of other classes are numbered as they are made. -/
inductive Event
  | acquire (slot key : Text)
  | object (step : ObjectStep)
  | start (made : Nat)
  | collect (field : Text) (made : Nat)
  | verbatim (text : Text) (made : Nat)
  | append (parent : Text) (made : Nat)
deriving DecidableEq

/-- An instance while it is initialized, with the variables of its methods. -/
structure Instance where
  initialized : Bool := false
  resources : Text → Option Nat := fun _ => none
  store : Store := {}
  collections : Text → List Nat := fun _ => []
  count : Nat := 0
  /-- The instance that was made last, and its root. -/
  current : Nat := 0
  root : Nat := 0
  /-- How many resources were asked for and how many instances were made. -/
  acquisitions : Nat := 0
  instances : Nat := 0
  events : List Event := []

/-- How a statement ends. It is stuck when it reads a slot or a handler that is not assigned. -/
inductive Exit (ε : Type)
  | next
  | returned (error : Option (Raised ε))
  | panicked
  | stuck

namespace Exit

variable {ε : Type}

def afterCall : Exit ε → Exit ε
  | .next | .returned _ => .next
  | .panicked => .panicked
  | .stuck => .stuck

def afterAttempt : Exit ε → Exit ε
  | .returned none => .next
  | .returned (some e) => .returned (some e)
  | .panicked => .panicked
  | .next | .stuck => .stuck

end Exit

namespace Statement

variable {ε : Type}

def andThen : Instance × Exit ε → (Instance → Instance × Exit ε) → Instance × Exit ε
  | (x, .next), f => f x
  | (x, .returned e), _ => (x, .returned e)
  | (x, .panicked), _ => (x, .panicked)
  | (x, .stuck), _ => (x, .stuck)

@[simp] lemma andThen_next (x : Instance) (f : Instance → Instance × Exit ε) :
    andThen (x, .next) f = f x := rfl

@[simp] lemma andThen_returned (x : Instance) (e : Option (Raised ε))
    (f : Instance → Instance × Exit ε) : andThen (x, .returned e) f = (x, .returned e) := rfl

lemma andThen_assoc (r : Instance × Exit ε) (f g : Instance → Instance × Exit ε) :
    andThen (andThen r f) g = andThen r fun x => andThen (f x) g := by
  obtain ⟨x, e⟩ := r
  cases e <;> rfl

def times (body : Instance → Instance × Exit ε) : Nat → Instance → Instance × Exit ε
  | 0, x => (x, .next)
  | n + 1, x => andThen (body x) (times body n)

mutual

def exec (w : Surroundings ε) : Statement → Instance → Instance × Exit ε
  | .remark _, x | .declare _ _, x => (x, .next)
  | .guard _, x => (x, if x.initialized then .panicked else .next)
  | .call _ body, x => (execAll w body x).map id Exit.afterCall
  | .attempt _ body, x => (execAll w body x).map id Exit.afterAttempt
  | .object step, x =>
    match x.store.step step with
    | some store => ({ x with store, events := x.events ++ [.object step] }, .next)
    | none => (x, .stuck)
  | .acquire r what, x =>
    let y : Instance := { x with
      acquisitions := x.acquisitions + 1
      events := x.events ++ [.acquire r.slot r.key] }
    match w.acquire x.acquisitions with
    | none =>
      ({ y with resources := Function.update x.resources r.slot (some x.acquisitions) }, .next)
    | some e =>
      ({ y with resources := Function.update x.resources r.slot none },
        .returned (some ⟨what, e⟩))
  | .setCount n, x => ({ x with count := n }, .next)
  | .loop body, x => times (execAll w body) x.count x
  | .make _, x => ({ x with current := x.instances, instances := x.instances + 1 }, .next)
  | .start what, x =>
    let growth := w.start x.current
    let y : Instance := { x with
      store := { x.store with cells := x.store.cells ++ growth.cells }
      events := x.events ++ [.start x.current] }
    match growth.root with
    | .ok root => ({ y with root }, .next)
    | .error e => (y, .returned (some ⟨what, e⟩))
  | .collect field, x =>
    ({ x with
      collections := Function.update x.collections field (x.collections field ++ [x.current])
      events := x.events ++ [.collect field x.current] }, .next)
  | .verbatim text, x => ({ x with events := x.events ++ [.verbatim text x.current] }, .next)
  | .appendRoot parent, x =>
    match x.store.node? parent with
    | some p =>
      ({ x with
        store := { x.store with cells := x.store.cells.modify p (Store.Cell.addChild x.root) }
        events := x.events ++ [.append parent x.current] }, .next)
    | none => (x, .stuck)
  | .finish, x => ({ x with initialized := true }, .next)
  | .succeed, x => (x, .returned none)

def execAll (w : Surroundings ε) : List Statement → Instance → Instance × Exit ε
  | [], x => (x, .next)
  | s :: ss, x => andThen (exec w s x) (execAll w ss)

end

variable (w : Surroundings ε)

@[simp] lemma execAll_nil (x : Instance) : execAll w [] x = (x, .next) := rfl

@[simp] lemma execAll_cons (s : Statement) (ss : List Statement) (x : Instance) :
    execAll w (s :: ss) x = andThen (exec w s x) (execAll w ss) := rfl

lemma execAll_append (ss rest : List Statement) (x : Instance) :
    execAll w (ss ++ rest) x = andThen (execAll w ss x) (execAll w rest) := by
  induction ss generalizing x with
  | nil => rfl
  | cons s ss ih =>
    rw [cons_append, execAll_cons, execAll_cons, andThen_assoc]
    exact congrArg _ (funext ih)

end Statement
end ReactiveModel
