import ReactiveModel.Files.Basic

/-! Work on files, action by action. What happens next may depend on what the
actions before gave. -/

namespace ReactiveModel

/-- An action that may change files. All it tells is whether it has failed. -/
inductive FileAction
  | makeDirectories (path : String)
  | create (path : String)
  | write (path : String) (content : List UInt8)
  | remove (path : String)

def Files.act (files : Files) (a : FileAction) (locked : List String := []) :
    Option FileFailure × Files :=
  match a with
  | .makeDirectories p => files.makeDirectories p locked
  | .create p => files.create p locked
  | .write p bs => files.write p bs
  | .remove p => files.remove p locked

inductive Work (α : Type)
  | done (a : α)
  | read (path : String) (next : Except FileFailure (List UInt8) → Work α)
  | list (path : String) (next : Except FileFailure (List String) → Work α)
  | act (a : FileAction) (next : Option FileFailure → Work α)

namespace Work

variable {α β : Type}

abbrev makeDirectories (path : String) : (Option FileFailure → Work α) → Work α :=
  act (.makeDirectories path)

abbrev create (path : String) : (Option FileFailure → Work α) → Work α := act (.create path)

abbrev write (path : String) (content : List UInt8) : (Option FileFailure → Work α) → Work α :=
  act (.write path content)

abbrev remove (path : String) : (Option FileFailure → Work α) → Work α := act (.remove path)

def bind : Work α → (α → Work β) → Work β
  | .done a, f => f a
  | .read p next, f => .read p fun r => (next r).bind f
  | .list p next, f => .list p fun r => (next r).bind f
  | .act a next, f => .act a fun r => (next r).bind f

instance : Monad Work where
  pure := .done
  bind := bind

/-- The first action of a task, done on files; none if the task is done. -/
def step? (files : Files) : Work α → (locked : List String := []) → Option (Work α × Files)
  | .done _, _ => none
  | .read p next, _ => some (next (files.read p), files)
  | .list p next, _ => some (next (files.list p), files)
  | .act a next, locked =>
    let (e, files) := files.act a locked
    some (next e, files)

def run : Work α → Files → (locked : List String := []) → α × Files
  | .done a, files, _ => (a, files)
  | .read p next, files, locked => run (next (files.read p)) files locked
  | .list p next, files, locked => run (next (files.list p)) files locked
  | .act a next, files, locked => run (next (files.act a locked).1) (files.act a locked).2 locked

@[simp] theorem run_done (a : α) (files : Files) (locked : List String) :
    (done a).run files locked = (a, files) := rfl

theorem run_bind (t : Work α) (f : α → Work β) (files : Files) (locked : List String := []) :
    (t.bind f).run files locked =
      (f (t.run files locked).1).run (t.run files locked).2 locked := by
  induction t generalizing files with
  | done a => rfl
  | read p next ih | list p next ih | act a next ih => exact ih _ _

end Work

end ReactiveModel
