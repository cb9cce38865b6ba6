import Mathlib.Data.List.Perm.Basic
import Mathlib.Data.List.Range
import ReactiveModel.Proofs.Check
import ReactiveModel.Proofs.Store

/-! The construction of the object tree, run over the abstract store. A store follows a plan that
says what each member may hold; blocks of objects are run in the order of the walk, and what they
leave behind is the declared tree with its nodes numbered in that order. -/

namespace ReactiveModel

open List Naming Construction

def Node.literals (ps : Table Text Value) : List (Text × Text) :=
  (ps.filter (!·.2.isBinding)).map fun p => (Naming.setter p.1, p.2.text)

namespace Store

variable {o : Node}

def cellOf (o : Node) (children : List Nat) : Cell where
  slot := o.slot
  alloc := (o.type.getD {}).alloc.trim
  settings := Node.literals o.properties.table
  children := children

/-- Numbers of the roots of trees whose nodes are numbered one after the other. -/
def rootNumbers (n : Nat) : List Object → List Nat
  | [] => []
  | t :: ts => n :: rootNumbers (n + t.nodes.length) ts

mutual

/-- The cells of a declared tree, with its nodes numbered in the order of the walk. -/
def treeCells (n : Nat) : Object → List Cell
  | .node o ts => cellOf o (rootNumbers (n + 1) ts) :: forestCells (n + 1) ts

def forestCells (n : Nat) : List Object → List Cell
  | [] => []
  | t :: ts => treeCells n t ++ forestCells (n + t.nodes.length) ts

end

lemma map_slot_forestCells (ts : List Object)
    (h : ∀ t ∈ ts, ∀ n, (treeCells n t).map Cell.slot = t.nodes.map Node.slot) (n : Nat) :
    (forestCells n ts).map Cell.slot = (ts.flatMap Tree.nodes).map Node.slot := by
  induction ts generalizing n with
  | nil => rfl
  | cons t ts ih =>
    have ht := h t mem_cons_self n
    have hts := ih (fun u hu => h u (mem_cons_of_mem _ hu)) (n + t.nodes.length)
    simp only [forestCells, map_append, flatMap_cons, ht, hts]

lemma map_slot_treeCells (t : Object) :
    ∀ n, (treeCells n t).map Cell.slot = t.nodes.map Node.slot := by
  induction t using Tree.inductOn with
  | h o ts ih =>
    intro n
    simp only [treeCells, Tree.nodes_node, map_cons, map_slot_forestCells ts ih]
    rfl

@[simp] lemma length_treeCells (t : Object) (n : Nat) :
    (treeCells n t).length = t.nodes.length := by
  simpa using congrArg List.length (map_slot_treeCells t n)

/-! The plan of a store. -/

/-- What the members that are made for an object are meant to hold. -/
def assignments (o : Node) (i : Nat) : List (Text × Held) :=
  (o.slot, .node i) :: o.bindings.map fun b => (b.handler, .handler b.expression)

/-- What the members made for objects are meant to hold, where the first object has number `n`. -/
def assignmentsFrom (n : Nat) : List Node → List (Text × Held)
  | [] => []
  | o :: os => assignments o n ++ assignmentsFrom (n + 1) os

lemma assignmentsFrom_append (n : Nat) (xs ys : List Node) :
    assignmentsFrom n (xs ++ ys) = assignmentsFrom n xs ++ assignmentsFrom (n + xs.length) ys := by
  induction xs generalizing n with
  | nil => rfl
  | cons x xs ih =>
    simp only [cons_append, assignmentsFrom, ih, append_assoc, length_cons]
    rw [Nat.add_right_comm, Nat.add_assoc n]

/-- A plan says one thing about each member. -/
def Functional (plan : List (Text × Held)) : Prop :=
  ∀ {x v w}, (x, v) ∈ plan → (x, w) ∈ plan → v = w

/-- Members hold what the plan says, and the slots of the objects built so far are assigned. -/
structure Follows (plan : List (Text × Held)) (built : List Text) (st : Store) : Prop where
  planned : ∀ {x v}, st.held x = some v → (x, v) ∈ plan
  assigned : ∀ id ∈ built, ∃ i, st.held (Naming.memberField id) = some (.node i)

variable {plan : List (Text × Held)} {built : List Text} {st : Store} {i n : Nat}
  {b : BoundProperty}

section

variable (h : Follows plan built st)

include h

lemma Follows.held_slot (hf : Functional plan) (ho : o.id ∈ built) (hi : (o.slot, .node i) ∈ plan) :
    st.held o.slot = some (.node i) := by
  obtain ⟨j, hj⟩ := h.assigned o.id ho
  have he : Held.node j = .node i := hf (h.planned hj) hi
  exact he ▸ hj

lemma Follows.assign (hf : Functional plan) {x : Text} {v : Held} (hx : (x, v) ∈ plan)
    (cells : List Cell) :
    Follows plan built
      { st with cells := cells, held := Function.update st.held x (some v) } where
  planned {y w} hy := by
    by_cases he : y = x
    · subst he
      have hw : v = w := by simpa using hy
      exact hw ▸ hx
    · exact h.planned (by simpa [he] using hy)
  assigned id hid := by
    obtain ⟨i, hi⟩ := h.assigned id hid
    by_cases he : memberField id = x
    · subst he
      exact ⟨i, by simpa using hf hx (h.planned hi)⟩
    · exact ⟨i, by simpa [he] using hi⟩

lemma Follows.of_held_eq {st' : Store} (he : st'.held = st.held) : Follows plan built st' where
  planned hx := h.planned (he ▸ hx)
  assigned id hid := he ▸ h.assigned id hid

/-! Bindings. -/

lemma run_connects {handler e : Text} (hh : st.held handler = some (.handler e))
    (ds : List Dependency) (hd : ∀ d ∈ ds, d.object ∈ built) :
    ∃ st', st.run (ds.map fun d =>
        .connect (memberField d.object) (changedSignal d.property) handler) =
      some st' ∧ st'.cells = st.cells ∧ st'.held = st.held := by
  induction ds generalizing st with
  | nil => exact ⟨st, rfl, rfl, rfl⟩
  | cons d ds ih =>
    obtain ⟨i, hi⟩ := h.assigned d.object (hd d mem_cons_self)
    have hs := step_connect hi hh (changedSignal d.property)
    let st₁ : Store := { st with
      connections := st.connections ++ [⟨i, changedSignal d.property, handler⟩] }
    have h₁ : Follows plan built st₁ := h.of_held_eq rfl
    obtain ⟨st', hrun, hcells, hheld⟩ := ih h₁ hh (fun u hu => hd u (mem_cons_of_mem _ hu))
    exact ⟨st', by simpa [hs] using hrun, hcells, hheld⟩

lemma run_wire (hf : Functional plan) (hb : (b.handler, .handler b.expression) ∈ plan)
    (hd : ∀ d ∈ b.binding.dependencies, d.object ∈ built) :
    ∃ st', st.run b.wire = some st' ∧ st'.cells = st.cells ∧ Follows plan built st' := by
  have h₁ := h.assign hf hb st.cells
  have hh : Function.update st.held b.handler (some (.handler b.expression)) b.handler =
      some (.handler b.expression) := by simp
  obtain ⟨st', hrun, hcells, hheld⟩ := run_connects h₁ hh b.binding.dependencies hd
  exact ⟨st', by simpa [BoundProperty.wire, step] using hrun, hcells, h₁.of_held_eq hheld⟩

lemma run_wires (hf : Functional plan) (bs : List BoundProperty)
    (hb : ∀ b ∈ bs, (b.handler, .handler b.expression) ∈ plan)
    (hd : ∀ b ∈ bs, ∀ d ∈ b.binding.dependencies, d.object ∈ built) :
    ∃ st', st.run (bs.flatMap BoundProperty.wire) = some st' ∧ st'.cells = st.cells ∧
      Follows plan built st' := by
  induction bs generalizing st with
  | nil => exact ⟨st, rfl, rfl, h⟩
  | cons b bs ih =>
    obtain ⟨st₁, hrun₁, hcells₁, h₁⟩ := run_wire h hf (hb b mem_cons_self)
      (hd b mem_cons_self)
    obtain ⟨st₂, hrun₂, hcells₂, h₂⟩ := ih h₁ (fun u hu => hb u (mem_cons_of_mem _ hu))
      (fun u hu => hd u (mem_cons_of_mem _ hu))
    exact ⟨st₂, by simp [run_append, hrun₁, hrun₂], hcells₂.trans hcells₁, h₂⟩

end

/-! Blocks of objects. -/

lemma modify_append_left {xs ys : List Cell} (h : i < xs.length) (f : Cell → Cell) :
    (xs ++ ys).modify i f = xs.modify i f ++ ys := by
  induction xs generalizing i with
  | nil => simp at h
  | cons x xs ih =>
    cases i with
    | zero => rfl
    | succ i => simpa using ih (by simpa using h)

lemma modify_append_length (xs ys : List Cell) (y : Cell) (f : Cell → Cell) :
    (xs ++ y :: ys).modify xs.length f = xs ++ f y :: ys := by
  induction xs with
  | nil => rfl
  | cons x xs ih => simpa using ih

def Cell.addSettings (settings : List (Text × Text)) (c : Cell) : Cell :=
  { c with settings := c.settings ++ settings }

lemma run_properties (h : Follows plan built st) (hf : Functional plan) (ho : o.id ∈ built)
    (hn : (o.slot, .node n) ∈ plan) (ps : Table Text Value)
    (hp : ∀ p ∈ ps, p.2.isBinding = true →
      ((o.bound p.1 p.2).handler, .handler (o.bound p.1 p.2).expression) ∈ plan) :
    ∃ st', st.run (ps.flatMap (o.propertySteps built)) = some st' ∧
      st'.cells = st.cells.modify n (Cell.addSettings (Node.literals ps)) ∧
      Follows plan built st' := by
  induction ps generalizing st with
  | nil =>
    have hid : Cell.addSettings (Node.literals []) = id := by
      funext c; simp [Node.literals, Cell.addSettings]
    exact ⟨st, rfl, by rw [hid, modify_id], h⟩
  | cons p ps ih =>
    have htail : ∀ q ∈ ps, q.2.isBinding = true →
        ((o.bound q.1 q.2).handler, .handler (o.bound q.1 q.2).expression) ∈ plan :=
      fun q hq => hp q (mem_cons_of_mem _ hq)
    cases hb : p.2.isBinding with
    | false =>
      let st₁ : Store := { st with
        cells := st.cells.modify n (Cell.addSetting (setter p.1) p.2.text) }
      have hs : st.step (.set o.slot (setter p.1) p.2.text) = some st₁ :=
        step_set (h.held_slot hf ho hn) _ _
      have h₁ : Follows plan built st₁ := h.of_held_eq rfl
      obtain ⟨st', hrun, hcells, h'⟩ := ih h₁ htail
      refine ⟨st', by simpa [Node.propertySteps, hb, hs] using hrun, ?_, h'⟩
      rw [hcells, modify_modify_eq]
      congr 1
      funext c
      simp [Cell.addSettings, Cell.addSetting, Node.literals, hb]
    | true =>
      have hl : Node.literals (p :: ps) = Node.literals ps := by simp [Node.literals, hb]
      rw [hl]
      cases hr : (o.bound p.1 p.2).isReady built with
      | false =>
        obtain ⟨st', hrun, hcells, h'⟩ := ih h htail
        exact ⟨st', by simpa [Node.propertySteps, hb, hr] using hrun, hcells, h'⟩
      | true =>
        have hd : ∀ d ∈ (o.bound p.1 p.2).binding.dependencies, d.object ∈ built := by
          simpa [BoundProperty.isReady] using hr
        obtain ⟨st₁, hrun₁, hcells₁, h₁⟩ := run_wire h hf (hp p mem_cons_self hb) hd
        obtain ⟨st', hrun, hcells, h'⟩ := ih h₁ htail
        refine ⟨st', ?_, by rw [hcells, hcells₁], h'⟩
        simp [Node.propertySteps, hb, hr, run_append, hrun₁, hrun]

/-- Enters a node into the children of its parent, if it has one. -/
def attached (parent : Option (Node × Nat)) (n : Nat) (cells : List Cell) : List Cell :=
  match parent with
  | none => cells
  | some (_, k) => cells.modify k (Cell.addChild n)

/-- A parent is built before, and the plan has its node. -/
def ParentBuilt (plan : List (Text × Held)) (built : List Text) (n : Nat)
    (parent : Option (Node × Nat)) : Prop :=
  ∀ q k, parent = some (q, k) → q.id ∈ built ∧ (q.slot, .node k) ∈ plan ∧ k < n

lemma assignments_handler_mem (ho : ∀ a ∈ assignments o n, a ∈ plan) (hb : b ∈ o.bindings) :
    (b.handler, .handler b.expression) ∈ plan :=
  ho _ (mem_cons_of_mem _ (mem_map.mpr ⟨b, hb, rfl⟩))

def ownSteps (o : Node) (built : List Text) : List ObjectStep :=
  .allocate o.slot (o.type.getD {}).alloc.trim ::
    o.properties.table.flatMap (o.propertySteps built)

lemma run_ownSteps (h : Follows plan built st) (hf : Functional plan)
    (ho : ∀ a ∈ assignments o st.cells.length, a ∈ plan) :
    ∃ st', st.run (ownSteps o (o.id :: built)) = some st' ∧
      st'.cells = st.cells ++ [cellOf o []] ∧ Follows plan (o.id :: built) st' := by
  let n := st.cells.length
  let fresh : Cell := { slot := o.slot, alloc := (o.type.getD {}).alloc.trim }
  let st₁ : Store := { st with
    cells := st.cells ++ [fresh]
    held := Function.update st.held o.slot (some (.node n)) }
  have hslot : (o.slot, .node n) ∈ plan := ho _ mem_cons_self
  have h₁ : Follows plan (o.id :: built) st₁ := by
    have hassign := h.assign hf hslot (st.cells ++ [fresh])
    refine ⟨hassign.planned, fun id hid => ?_⟩
    rcases mem_cons.mp hid with rfl | hid
    · exact ⟨n, by simp [st₁, Node.slot]⟩
    · exact hassign.assigned id hid
  have hbound : ∀ p ∈ o.properties.table, p.2.isBinding = true →
      ((o.bound p.1 p.2).handler, .handler (o.bound p.1 p.2).expression) ∈ plan := by
    intro p hp hb
    refine assignments_handler_mem ho (mem_map.mpr ⟨p, ?_, rfl⟩)
    exact mem_filter.mpr ⟨hp, hb⟩
  obtain ⟨st', hrun, hcells, h'⟩ :=
    run_properties h₁ hf mem_cons_self hslot o.properties.table hbound
  refine ⟨st', ?_, ?_, h'⟩
  · exact hrun
  · rw [hcells]
    exact modify_append_length st.cells [] fresh _

/-- The block of an object adds one node, with all literals set, and attaches it. -/
lemma run_block (h : Follows plan built st) (hf : Functional plan)
    (ho : ∀ a ∈ assignments o st.cells.length, a ∈ plan) {parent : Option (Node × Nat)}
    (hparent : ParentBuilt plan built st.cells.length parent) :
    ∃ st', st.run (o.block (parent.map Prod.fst) (o.id :: built)) = some st' ∧
      st'.cells = attached parent st.cells.length st.cells ++ [cellOf o []] ∧
      Follows plan (o.id :: built) st' := by
  obtain ⟨st₁, hrun₁, hcells₁, h₁⟩ := run_ownSteps h hf ho
  cases parent with
  | none =>
    have hblock : o.block none (o.id :: built) = ownSteps o (o.id :: built) := by
      simp [Node.block, ownSteps]
    refine ⟨st₁, ?_, hcells₁, h₁⟩
    rw [Option.map_none, hblock, hrun₁]
  | some q =>
    obtain ⟨q, k⟩ := q
    obtain ⟨hq, hk, hlt⟩ := hparent q k rfl
    let st₂ : Store := { st₁ with
      cells := st₁.cells.modify k (Cell.addChild st.cells.length) }
    have hs₂ : st₁.step (.attach q.slot o.slot) = some st₂ :=
      step_attach (h₁.held_slot hf (mem_cons_of_mem _ hq) hk)
        (h₁.held_slot hf mem_cons_self (ho _ mem_cons_self))
    have hblock : o.block (some q) (o.id :: built) =
        ownSteps o (o.id :: built) ++ [.attach q.slot o.slot] := by
      simp [Node.block, ownSteps]
    refine ⟨st₂, ?_, ?_, h₁.of_held_eq rfl⟩
    · rw [Option.map_some, hblock]
      simp only [Option.bind_some, run_append, hrun₁, run_cons, hs₂, run_nil]
    · simp only [st₂, hcells₁, attached]
      exact modify_append_left hlt _

/-! Trees of objects. -/

/-- The ids of the objects that are built after a list of objects. -/
def builtAfter (built : List Text) (os : List Node) : List Text := (os.map Node.id).reverse ++ built

lemma ofNodes_append (built : List Text) (xs ys : List (Option Node × Node)) :
    (ofNodes built (xs ++ ys)).blocks =
      (ofNodes built xs).blocks ++
        (ofNodes (builtAfter built (xs.map Prod.snd)) ys).blocks := by
  induction xs generalizing built with
  | nil => rfl
  | cons x xs ih => simp [ofNodes, ih, builtAfter]

def treeSteps (built : List Text) (parent : Option Node) (t : Object) : List ObjectStep :=
  (ofNodes built (t.withParents parent)).blocks.flatten

def forestSteps (built : List Text) (q : Node) : List Object → List ObjectStep
  | [] => []
  | t :: ts => treeSteps built (some q) t ++ forestSteps (builtAfter built t.nodes) q ts

lemma forestSteps_eq (built : List Text) (q : Node) (ts : List Object) :
    forestSteps built q ts =
      (ofNodes built (Tree.withParentsAll q ts)).blocks.flatten := by
  induction ts generalizing built with
  | nil => rfl
  | cons t ts ih =>
    simp [forestSteps, ih, Tree.withParentsAll, ofNodes_append, treeSteps]

lemma treeSteps_node (built : List Text) (parent : Option Node) (o : Node) (ts : List Object) :
    treeSteps built parent (.node o ts) =
      o.block parent (o.id :: built) ++ forestSteps (o.id :: built) o ts := by
  rw [forestSteps_eq]
  simp [treeSteps, Tree.withParents, ofNodes]

lemma builtAfter_append (built : List Text) (xs ys : List Node) :
    builtAfter built (xs ++ ys) = builtAfter (builtAfter built xs) ys := by
  simp [builtAfter]

lemma mem_builtAfter_of_mem {id : Text} (h : id ∈ built) (os : List Node) :
    id ∈ builtAfter built os :=
  mem_append_right _ h

@[simp] lemma length_attached (parent : Option (Node × Nat)) (n : Nat) (cells : List Cell) :
    (attached parent n cells).length = cells.length := by
  unfold attached; split <;> simp

def Cell.addChildren (ns : List Nat) (c : Cell) : Cell := { c with children := c.children ++ ns }

/-- The blocks of a tree add its cells behind those of the store and attach its root. -/
def TreeRuns (plan : List (Text × Held)) (t : Object) : Prop :=
  ∀ {built : List Text} {st : Store} {parent : Option (Node × Nat)}, Follows plan built st →
    (∀ a ∈ assignmentsFrom st.cells.length t.nodes, a ∈ plan) →
    ParentBuilt plan built st.cells.length parent →
    ∃ st', st.run (treeSteps built (parent.map Prod.fst) t) = some st' ∧
      st'.cells = attached parent st.cells.length st.cells ++ treeCells st.cells.length t ∧
      Follows plan (builtAfter built t.nodes) st'

lemma run_forest (ts : List Object) (ht : ∀ t ∈ ts, TreeRuns plan t) (h : Follows plan built st)
    (ha : ∀ a ∈ assignmentsFrom st.cells.length (ts.flatMap Tree.nodes), a ∈ plan) {q : Node}
    {k : Nat} (hq : q.id ∈ built) (hk : (q.slot, .node k) ∈ plan) (hlt : k < st.cells.length) :
    ∃ st', st.run (forestSteps built q ts) = some st' ∧
      st'.cells = st.cells.modify k (Cell.addChildren (rootNumbers st.cells.length ts)) ++
        forestCells st.cells.length ts ∧
      Follows plan (builtAfter built (ts.flatMap Tree.nodes)) st' := by
  induction ts generalizing built st with
  | nil =>
    have hid : Cell.addChildren (rootNumbers st.cells.length []) = id := by
      funext c; simp [rootNumbers, Cell.addChildren]
    exact ⟨st, rfl, by simp [hid, forestCells], h⟩
  | cons t ts ih =>
    simp only [flatMap_cons, assignmentsFrom_append, mem_append] at ha
    have hparent : ParentBuilt plan built st.cells.length (some (q, k)) := by
      rintro _ _ ⟨rfl, rfl⟩
      exact ⟨hq, hk, hlt⟩
    obtain ⟨st₁, hrun₁, hcells₁, h₁⟩ :=
      ht t mem_cons_self h (fun a hm => ha a (.inl hm)) hparent
    have hlen : st₁.cells.length = st.cells.length + t.nodes.length := by simp [hcells₁]
    have ha₁ : ∀ a ∈ assignmentsFrom st₁.cells.length (ts.flatMap Tree.nodes), a ∈ plan :=
      fun a hm => ha a (.inr (hlen ▸ hm))
    obtain ⟨st₂, hrun₂, hcells₂, h₂⟩ := ih (fun u hu => ht u (mem_cons_of_mem _ hu)) h₁ ha₁
      (mem_builtAfter_of_mem hq _) (by omega)
    have hrun₁' : st.run (treeSteps built (some q) t) = some st₁ := hrun₁
    refine ⟨st₂, ?_, ?_, ?_⟩
    · rw [forestSteps, run_append, hrun₁']
      exact hrun₂
    · -- The children that `t` and the later trees add to the parent come in this order.
      have hsplit : st₁.cells.modify k (Cell.addChildren (rootNumbers st₁.cells.length ts)) =
          st.cells.modify k (Cell.addChildren (rootNumbers st.cells.length (t :: ts))) ++
            treeCells st.cells.length t := by
        rw [hcells₁, attached, modify_append_left (by simpa using hlt),
          modify_modify_eq]
        congr 2
        funext c
        simp [Cell.addChildren, Cell.addChild, rootNumbers]
      rw [hcells₂, hsplit, hlen, forestCells, append_assoc]
    · rwa [flatMap_cons, builtAfter_append]

lemma treeRuns (hf : Functional plan) (t : Object) : TreeRuns plan t := by
  induction t using Tree.inductOn with
  | h o ts ih =>
    intro built st parent h ha hparent
    simp only [Tree.nodes_node, assignmentsFrom, mem_append] at ha
    obtain ⟨st₁, hrun₁, hcells₁, h₁⟩ := run_block h hf (fun a hm => ha a (.inl hm)) hparent
    have hlen : st₁.cells.length = st.cells.length + 1 := by simp [hcells₁]
    have ha₁ : ∀ a ∈ assignmentsFrom st₁.cells.length (ts.flatMap Tree.nodes), a ∈ plan :=
      fun a hm => ha a (.inr (hlen ▸ hm))
    have hslot : (o.slot, .node st.cells.length) ∈ plan := ha _ (.inl mem_cons_self)
    obtain ⟨st₂, hrun₂, hcells₂, h₂⟩ :=
      run_forest ts ih h₁ ha₁ mem_cons_self hslot (by omega)
    refine ⟨st₂, ?_, ?_, ?_⟩
    · rw [treeSteps_node, run_append, hrun₁]
      exact hrun₂
    · have hmodify := modify_append_length (attached parent st.cells.length st.cells) []
        (cellOf o []) (Cell.addChildren (rootNumbers (st.cells.length + 1) ts))
      rw [length_attached] at hmodify
      rw [hcells₂, hlen, hcells₁, hmodify, append_assoc]
      rfl
    · simpa [builtAfter] using h₂

lemma run_deferred {all : List Text} (h : Follows plan all st) (hf : Functional plan)
    (xs : List (Option Node × Node))
    (hb : ∀ x ∈ xs, ∀ b ∈ x.2.bindings, (b.handler, .handler b.expression) ∈ plan)
    (hd : ∀ x ∈ xs, ∀ b ∈ x.2.bindings, ∀ d ∈ b.binding.dependencies, d.object ∈ all)
    (built : List Text) :
    ∃ st', st.run (ofNodes built xs).deferred = some st' ∧ st'.cells = st.cells ∧
      Follows plan all st' := by
  induction xs generalizing st built with
  | nil => exact ⟨st, rfl, rfl, h⟩
  | cons x xs ih =>
    have hw : ∀ b ∈ x.2.waiting (x.2.id :: built), b ∈ x.2.bindings :=
      fun b hm => (mem_filter.mp hm).1
    obtain ⟨st₁, hrun₁, hcells₁, h₁⟩ := run_wires h hf (x.2.waiting (x.2.id :: built))
      (fun b hm => hb x mem_cons_self b (hw b hm))
      (fun b hm => hd x mem_cons_self b (hw b hm))
    obtain ⟨st₂, hrun₂, hcells₂, h₂⟩ := ih h₁ (fun y hy => hb y (mem_cons_of_mem _ hy))
      (fun y hy => hd y (mem_cons_of_mem _ hy)) (x.2.id :: built)
    refine ⟨st₂, ?_, hcells₂.trans hcells₁, h₂⟩
    simp [ofNodes, run_append, hrun₁, hrun₂]

end Store
end ReactiveModel
