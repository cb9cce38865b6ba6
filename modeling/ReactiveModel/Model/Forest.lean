import ReactiveModel.Model.Class

/-! Objects under construction. Each has a number; appending a child enters it into the list of
its new parent and points it there, and leaves older lists as they are. -/

namespace ReactiveModel

structure Forest.Entry where
  node : Node
  parent : Option Nat := none
  children : List Nat := []
deriving Inhabited

structure Forest where
  entries : Array Forest.Entry := #[]

namespace Forest

def new (f : Forest) (id : Text) : Nat × Forest :=
  (f.entries.size, ⟨f.entries.push { node := { id } }⟩)

def entry? (f : Forest) (i : Nat) : Option Entry := f.entries[i]?

def modify (f : Forest) (i : Nat) (g : Entry → Entry) : Forest := ⟨f.entries.modify i g⟩

def set (f : Forest) (i : Nat) (name : Text) (v : Value) : Forest :=
  f.modify i fun e => { e with node := e.node.set name v }

def appendOne (parent : Nat) (f : Forest) (child : Nat) : Forest :=
  (f.modify child fun e => { e with parent := some parent }).modify parent fun e =>
    { e with children := e.children ++ [child] }

def append (f : Forest) (parent : Nat) (children : List Nat) : Forest :=
  children.foldl (appendOne parent) f

def unfold (f : Forest) : Nat → Nat → Tree Nat
  | 0, i => .node i []
  | depth + 1, i =>
    .node i (((f.entry? i).map (·.children)).getD [] |>.map (f.unfold depth))

/-- What a walk from an object sees. A line of descent that never meets an object twice is no
longer than the number of objects. -/
def tree (f : Forest) (i : Nat) : Tree Nat := f.unfold f.entries.size i

def idOf (f : Forest) (i : Nat) : Text := ((f.entry? i).map (·.node.id)).getD ""

def objects (f : Forest) (i : Nat) : List Nat := (f.tree i).nodes

def find? (f : Forest) (i : Nat) (id : Text) : Option Nat :=
  (f.tree i).find? fun j => f.idOf j == id

/-- A walk that records the ids it visits, leaves out what is below some and stops at others. -/
def visit (f : Forest) (i : Nat) (skip stop : List Text) :
    Option (Tree.Reply Text) × List Text :=
  let (end?, seen) := (f.tree i).tour (fun j (seen : List Text) =>
    let id := f.idOf j
    let reply : Option (Tree.Reply Text) :=
      if stop.contains id then some (.plain id)
      else if skip.contains id then some (.wrap id .skipChildren)
      else none
    (reply, id :: seen)) []
  (end?, seen.reverse)

end Forest

end ReactiveModel
