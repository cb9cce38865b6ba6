import ReactiveModel.Proofs.DerivedNames
import ReactiveModel.Proofs.Program
import ReactiveModel.Proofs.Wiring

/-! The members of an instance that its initialization selects. In a checked class they are declared
on the type, and they can be selected unless they are blank. -/

namespace ReactiveModel

open List Naming

def ObjectStep.selected : ObjectStep → List Text
  | .allocate slot _ | .set slot _ _ => [slot]
  | .assign handler expression => [handler, expression]
  | .connect source _ handler => [source, handler]
  | .attach parent child => [parent, child]

namespace Statement

mutual

/-- The members that a statement selects, also in the methods that it calls. -/
def selected : Statement → List Text
  | .guard _ | .finish => ["initialized"]
  | .call method body | .attempt method body => method :: selectedAll body
  | .object step => step.selected
  | .acquire r _ => [r.slot]
  | .loop body => selectedAll body
  | .collect field => [field]
  | .appendRoot parent => [parent]
  | .remark _ | .declare _ _ | .setCount _ | .make _ | .start _ | .verbatim _ | .succeed => []

def selectedAll : List Statement → List Text
  | [] => []
  | s :: ss => s.selected ++ selectedAll ss

end

end Statement

namespace Class

open Statement BoundProperty

variable {c : Class} {s : Settings} {reg : Registry} {t : Object} {o : Node} {b : BoundProperty}

/-- What the check of a class assures of the objects that its members name. -/
structure Linked (c : Class) (reg : Registry) (t : Object) : Prop where
  root : c.root = some t
  references : c.referenceFaults = some []
  replicators : ∀ r ∈ c.replicators, ReplicatorSound c reg r

end Class
end ReactiveModel
