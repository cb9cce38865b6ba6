import ReactiveModel.Model.Class
import ReactiveModel.Text.Quoted

/-! Registries: classes by name. -/

namespace ReactiveModel

theorem Registry.named_nil : ∀ e ∈ ([] : Table Text Class), e.2.name = e.1 := fun _ h => nomatch h

structure Registry where
  table : Table Text Class := []
  ordered : table.Ordered := by exact Table.ordered_nil
  /-- Classes stand under their names. -/
  named : ∀ e ∈ table, e.2.name = e.1 := by exact Registry.named_nil

namespace Registry

instance : Inhabited Registry := ⟨{}⟩

inductive Refusal
  | noClass
  | noName
  | duplicate (name : Text)
deriving DecidableEq

def Refusal.message : Refusal → Text
  | .noClass => "schema: nil class"
  | .noName => "schema: class without name"
  | .duplicate n => "schema: duplicate class " ++ Text.quoted n

def lookup (r : Registry) (name : Text) : Option Class := r.table.get? name

def outline? (r : Registry) (name : Text) : Option Outline := (r.lookup name).map (·.toOutline)

def size (r : Registry) : Nat := r.table.length

def classes (r : Registry) : List Class := r.table.values

def generated (r : Registry) : List Class := r.classes.filter (·.isGenerated)

/-- Names are neither blank nor used twice. -/
def add (r : Registry) : Option Class → Except Refusal Registry
  | none => .error .noClass
  | some c =>
    if Text.isBlank c.name then .error .noName
    else if (r.lookup c.name).isSome then .error (.duplicate c.name)
    else .ok
      { table := r.table.insert c.name c
        ordered := r.ordered.insert c.name c
        named := fun e h => (Table.mem_insert h).elim (fun he => he ▸ rfl) (r.named e) }

theorem exists_add_iff {r : Registry} {c : Class} :
    (∃ r', r.add (some c) = .ok r') ↔ c.name.isBlank = false ∧ r.lookup c.name = none := by
  simp only [add]
  cases hb : c.name.isBlank <;> cases hl : r.lookup c.name <;> simp

theorem lookup_of_add {r r' : Registry} {c : Class} (h : r.add (some c) = .ok r') (n : Text) :
    r'.lookup n = if n = c.name then some c else r.lookup n := by
  simp only [add] at h
  split at h
  · nomatch h
  · split at h
    · nomatch h
    · cases h
      exact Table.get?_insert r.table c.name n c

def ofList (cs : List (Option Class)) : Except Refusal Registry := cs.foldlM add {}

/-- An entry whose class has the given tree, if it has the given name. -/
def setRootOf (name : Text) (root : Option Object) (e : Text × Class) : Text × Class :=
  if e.1 = name then (e.1, { e.2 with root }) else e

@[simp] theorem setRootOf_fst (name : Text) (root : Option Object) (e : Text × Class) :
    (setRootOf name root e).1 = e.1 := by
  unfold setRootOf; split <;> rfl

@[simp] theorem setRootOf_outline (name : Text) (root : Option Object) (e : Text × Class) :
    (setRootOf name root e).2.toOutline = e.2.toOutline := by
  unfold setRootOf; split <;> rfl

def setRoot (r : Registry) (name : Text) (root : Option Object) : Registry where
  table := r.table.map (setRootOf name root)
  ordered := by simpa [Table.Ordered, List.pairwise_map] using r.ordered
  named := by
    intro e h
    obtain ⟨e, he, rfl⟩ := List.mem_map.mp h
    simpa using r.named e he

theorem lookup_setRoot (r : Registry) (name : Text) (root : Option Object) (n : Text) :
    (r.setRoot name root).lookup n =
      (r.lookup n).map fun c => if n = name then { c with root } else c := by
  simp only [lookup, setRoot]
  induction r.table with
  | nil => rfl
  | cons e t ih =>
    rw [List.map_cons, Table.get?_cons, Table.get?_cons, ih, setRootOf_fst]
    by_cases hn : n = e.1
    · by_cases he : e.1 = name <;> simp [setRootOf, hn, he]
    · simp [hn]

end Registry

end ReactiveModel
