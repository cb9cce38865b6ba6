import Mathlib.Logic.Function.Basic
import ReactiveModel.Artifact.OfClass

/-! Runs of construction steps over an abstract store. The members of the instance under
construction share one namespace, and a step that reads a member that is not assigned has no
result. -/

namespace ReactiveModel

def ObjectStep.allocated? : ObjectStep → Option Text
  | .allocate slot _ => some slot
  | _ => none

namespace Store

/-- A node that was allocated, with what was done to it in order. -/
structure Cell where
  /-- The slot it was allocated for. -/
  slot : Text
  alloc : Text
  /-- Setters that were called, with their arguments. -/
  settings : List (Text × Text) := []
  /-- Nodes that were appended, by number. -/
  children : List Nat := []
deriving DecidableEq

inductive Held
  | node (number : Nat)
  | handler (expression : Text)
deriving DecidableEq

/-- A handler that was connected to a signal of a node. -/
structure Connection where
  source : Nat
  signal : Text
  handler : Text
deriving DecidableEq

end Store

/-- Nodes are numbered in the order of their allocation. -/
structure Store where
  cells : List Store.Cell := []
  held : Text → Option Store.Held := fun _ => none
  connections : List Store.Connection := []

namespace Store

variable {st : Store} {slot e : Text} {i : Nat}

def node? (st : Store) (slot : Text) : Option Nat :=
  match st.held slot with
  | some (.node i) => some i
  | _ => none

def handler? (st : Store) (name : Text) : Option Text :=
  match st.held name with
  | some (.handler e) => some e
  | _ => none

def Cell.addSetting (setter text : Text) (c : Cell) : Cell :=
  { c with settings := c.settings ++ [(setter, text)] }

def Cell.addChild (i : Nat) (c : Cell) : Cell := { c with children := c.children ++ [i] }

/-- One step. It has no result if it reads a slot or a handler that is not assigned. -/
def step (st : Store) : ObjectStep → Option Store
  | .allocate slot alloc => some
    { st with
      cells := st.cells ++ [{ slot, alloc }]
      held := Function.update st.held slot (some (.node st.cells.length)) }
  | .set slot setter text => do
    let i ← st.node? slot
    return { st with cells := st.cells.modify i (Cell.addSetting setter text) }
  | .assign handler expression => some
    { st with held := Function.update st.held handler (some (.handler expression)) }
  | .connect source signal handler => do
    let i ← st.node? source
    let _ ← st.handler? handler
    return { st with connections := st.connections ++ [⟨i, signal, handler⟩] }
  | .attach parent child => do
    let p ← st.node? parent
    let i ← st.node? child
    return { st with cells := st.cells.modify p (Cell.addChild i) }

def run (st : Store) (steps : List ObjectStep) : Option Store := steps.foldlM step st

@[simp] lemma run_nil (st : Store) : st.run [] = some st := rfl

@[simp] lemma run_cons (st : Store) (a : ObjectStep) (steps : List ObjectStep) :
    st.run (a :: steps) = (st.step a).bind (·.run steps) := rfl

lemma run_append (st : Store) (xs ys : List ObjectStep) :
    st.run (xs ++ ys) = (st.run xs).bind (·.run ys) := by
  simp [run, List.foldlM_append]

lemma node?_eq_some_iff : st.node? slot = some i ↔ st.held slot = some (.node i) := by
  unfold node?
  split <;> simp_all

lemma handler?_eq_some_iff {name : Text} :
    st.handler? name = some e ↔ st.held name = some (.handler e) := by
  unfold handler?
  split <;> simp_all

/-! What a step does when it reads what is assigned. -/

lemma step_set (h : st.held slot = some (.node i)) (setter text : Text) :
    st.step (.set slot setter text) =
      some { st with cells := st.cells.modify i (Cell.addSetting setter text) } := by
  simp [step, node?_eq_some_iff.mpr h]

lemma step_connect {source handler : Text} (h : st.held source = some (.node i))
    (hh : st.held handler = some (.handler e)) (signal : Text) :
    st.step (.connect source signal handler) =
      some { st with connections := st.connections ++ [⟨i, signal, handler⟩] } := by
  simp [step, node?_eq_some_iff.mpr h, handler?_eq_some_iff.mpr hh]

lemma step_attach {parent child : Text} {p : Nat} (hp : st.held parent = some (.node p))
    (hi : st.held child = some (.node i)) :
    st.step (.attach parent child) =
      some { st with cells := st.cells.modify p (Cell.addChild i) } := by
  simp [step, node?_eq_some_iff.mpr hp, node?_eq_some_iff.mpr hi]

/-! Allocations of a run. -/

lemma map_slot_modify {f : Cell → Cell} (hf : ∀ c, (f c).slot = c.slot) (cells : List Cell)
    (i : Nat) : (cells.modify i f).map Cell.slot = cells.map Cell.slot := by
  induction cells generalizing i with
  | nil => simp
  | cons c cells ih => cases i <;> simp [hf, ih]

variable {st' : Store}

lemma slots_of_step {st : Store} {a : ObjectStep} (h : st.step a = some st') :
    st'.cells.map Cell.slot = st.cells.map Cell.slot ++ a.allocated?.toList := by
  cases a with
  | allocate slot alloc =>
    obtain rfl := Option.some.inj h
    simp [ObjectStep.allocated?]
  | set slot setter text =>
    obtain ⟨i, -, h⟩ := Option.bind_eq_some_iff.mp h
    obtain rfl := Option.some.inj h
    have hmap := map_slot_modify (f := Cell.addSetting setter text) (fun _ => rfl) st.cells i
    simp [ObjectStep.allocated?, hmap]
  | assign handler expression =>
    obtain rfl := Option.some.inj h
    simp [ObjectStep.allocated?]
  | connect source signal handler =>
    obtain ⟨i, -, h⟩ := Option.bind_eq_some_iff.mp h
    obtain ⟨e, -, h⟩ := Option.bind_eq_some_iff.mp h
    obtain rfl := Option.some.inj h
    simp [ObjectStep.allocated?]
  | attach parent child =>
    obtain ⟨p, -, h⟩ := Option.bind_eq_some_iff.mp h
    obtain ⟨i, -, h⟩ := Option.bind_eq_some_iff.mp h
    obtain rfl := Option.some.inj h
    have hmap := map_slot_modify (f := Cell.addChild i) (fun _ => rfl) st.cells p
    simp [ObjectStep.allocated?, hmap]

lemma slots_of_run {st : Store} {steps : List ObjectStep} (h : st.run steps = some st') :
    st'.cells.map Cell.slot =
      st.cells.map Cell.slot ++ steps.filterMap ObjectStep.allocated? := by
  induction steps generalizing st with
  | nil =>
    obtain rfl := Option.some.inj h
    simp
  | cons a steps ih =>
    obtain ⟨st₁, hs, hrun⟩ := Option.bind_eq_some_iff.mp h
    rw [ih hrun, slots_of_step hs]
    cases ha : a.allocated? <;> simp [ha]

end Store
end ReactiveModel
