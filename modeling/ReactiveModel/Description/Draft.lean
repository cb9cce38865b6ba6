import ReactiveModel.Description.Basic

/-! Descriptions while they are read. A key that occurs again goes on with what it said before, and
so does every item of a list: with the item at its place in the older list. Items that a shorter
list leaves out are not forgotten, because a longer one after it takes them up again. -/

namespace ReactiveModel

/-- A list while it is read, with the items of older lists behind its end. -/
structure Draft (α : Type) where
  items : List α := []
  beyond : List α := []
deriving Inhabited

namespace Draft

variable {α : Type}

def places (d : Draft α) : List α := d.items ++ d.beyond

def renew (d : Draft α) (items : List α) : Draft α := ⟨items, d.places.drop items.length⟩

end Draft

structure BindingDraft where
  expression : Text := ""
  dependencies : Draft Dependency := {}
deriving Inhabited

def BindingDraft.finish (b : BindingDraft) : Binding := ⟨b.expression, b.dependencies.items⟩

structure ValueDraft where
  string : Option Text := none
  number : Option Binary64 := none
  binding : Option BindingDraft := none
deriving Inhabited

def ValueDraft.finish (v : ValueDraft) : ValueDescription :=
  ⟨v.string, v.number, v.binding.map BindingDraft.finish⟩

structure ReplicatorDraft where
  id : Text := ""
  className : Text := ""
  count : ValueDraft := {}
  initializor : Text := ""
  parent : Text := ""
deriving Inhabited

def ReplicatorDraft.finish (r : ReplicatorDraft) : ReplicatorDescription :=
  ⟨r.id, r.className, r.count.finish, r.initializor, r.parent⟩

inductive ObjectDraft
  | absent
  | object (id className : Text) (properties : Table Text (Option ValueDescription))
      (children beyond : List ObjectDraft)

namespace ObjectDraft

instance : Inhabited ObjectDraft := ⟨.absent⟩

mutual

def finish : ObjectDraft → ObjectDescription
  | .absent => .absent
  | .object id className properties children _ =>
    .object id className properties (finishAll children)

def finishAll : List ObjectDraft → List ObjectDescription
  | [] => []
  | o :: os => o.finish :: finishAll os

end

end ObjectDraft

structure ClassDraft where
  name : Text := ""
  source : Text := ""
  declarationOnly : Bool := false
  alloc : Text := ""
  properties : Draft Property := {}
  signals : Draft Signal := {}
  functions : Draft Function := {}
  resources : Draft Resource := {}
  replicators : Draft (Option ReplicatorDraft) := {}
  root : ObjectDraft := .absent
deriving Inhabited

def ClassDraft.finish (c : ClassDraft) : ClassDescription where
  name := c.name
  source := c.source
  declarationOnly := c.declarationOnly
  alloc := c.alloc
  properties := c.properties.items
  signals := c.signals.items
  functions := c.functions.items
  resources := c.resources.items
  replicators := c.replicators.items.map (·.map ReplicatorDraft.finish)
  root := c.root.finish

structure DescriptionDraft where
  classes : Option (Draft (Option ClassDraft)) := none
deriving Inhabited

def DescriptionDraft.finish (d : DescriptionDraft) : Description :=
  ⟨d.classes.map fun cs => cs.items.map (·.map ClassDraft.finish)⟩

end ReactiveModel
