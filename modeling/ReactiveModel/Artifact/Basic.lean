import ReactiveModel.Model.Registry
import ReactiveModel.Settings
import ReactiveModel.TypeCode

/-! Artifacts: what is declared for a generated class, as data. The construction of the object tree
is a list of steps, each naming the slots and handlers it uses, so that a run of it is a fold. -/

namespace ReactiveModel

structure Field where
  name : Text
  type : TypeCode
deriving DecidableEq, Inhabited

structure Accessors where
  getter : Text
  setter : Text
  storage : Text
  changed : Text
  type : TypeCode
  /-- Whether stored and new value are compared with an operator. -/
  comparable : Bool
deriving DecidableEq, Inhabited

structure Acquisition where
  resource : Text
  slot : Text
  type : TypeCode
  key : Text
deriving DecidableEq, Inhabited

inductive ObjectStep
  | allocate (slot alloc : Text)
  | set (slot setter text : Text)
  | assign (handler expression : Text)
  | connect (source signal handler : Text)
  | attach (parent child : Text)
deriving DecidableEq, Inhabited

/-- One block for each object in the order of a walk, and at the end the bindings on objects that
are allocated after their target. -/
structure Construction where
  blocks : List (List ObjectStep) := []
  deferred : List ObjectStep := []
deriving DecidableEq, Inhabited

def Construction.steps (c : Construction) : List ObjectStep := c.blocks.flatten ++ c.deferred

structure Evaluation where
  method : Text
  slot : Text
  setter : Text
  expression : Text
deriving DecidableEq, Inhabited

inductive Maker
  | literal (className : Text)
  | verbatim (text : Text)
deriving DecidableEq, Inhabited

structure Replication where
  id : Text
  field : Text
  count : Nat
  maker : Maker
  /-- Statement run on each instance; none if empty. -/
  initializor : Text
  parent : Text
deriving DecidableEq, Inhabited

structure Artifact where
  className : Text
  receiver : Text
  runtime : String
  functions : List Text
  signals : List Field
  fields : List (List Field)
  root : Field
  properties : List Accessors
  /-- Accessors of declared signals, with the types of the signals. -/
  signalAccessors : List Field
  acquisitions : List Acquisition
  construction : Construction
  evaluations : List Evaluation
  replications : List Replication
  /-- Whether all bindings are evaluated at the end of the initialization. -/
  eager : Bool
deriving Inhabited

end ReactiveModel
