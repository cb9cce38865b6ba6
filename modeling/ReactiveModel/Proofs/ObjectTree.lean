import ReactiveModel.Proofs.Construction
import ReactiveModel.Proofs.Members

/-! The construction steps of a checked class run without reading an unassigned member, and the
nodes they leave are the declared tree. -/

namespace ReactiveModel

open List
namespace Store

/-- The node of a number, with what was appended below it, is a declared tree: it is the node of
the object with the literals of that object, and its children are the declared ones in order. -/
inductive Represents (cells : List Cell) : Nat → Object → Prop
  | node {i : Nat} {o : Node} {ts : List Object} {children : List Nat}
      (read : cells[i]? = some (cellOf o children))
      (below : List.Forall₂ (Represents cells) children ts) : Represents cells i (.node o ts)

variable {cells : List Cell}

lemma represents_forest (ts : List Object)
    (h : ∀ t ∈ ts, ∀ pre post, cells = pre ++ treeCells pre.length t ++ post →
      Represents cells pre.length t)
    (pre post : List Cell) (hc : cells = pre ++ forestCells pre.length ts ++ post) :
    Forall₂ (Represents cells) (rootNumbers pre.length ts) ts := by
  induction ts generalizing pre with
  | nil => exact .nil
  | cons t ts ih =>
    simp only [forestCells] at hc
    have ht := h t mem_cons_self pre
      (forestCells (pre.length + t.nodes.length) ts ++ post) (by simpa using hc)
    have hts := ih (fun u hu => h u (mem_cons_of_mem _ hu))
      (pre ++ treeCells pre.length t) (by simpa using hc)
    exact .cons ht (by simpa using hts)

lemma represents_tree (t : Object) :
    ∀ pre post, cells = pre ++ treeCells pre.length t ++ post →
      Represents cells pre.length t := by
  induction t using Tree.inductOn with
  | h o ts ih =>
    intro pre post hc
    simp only [treeCells] at hc
    have hread : cells[pre.length]? = some (cellOf o (rootNumbers (pre.length + 1) ts)) := by
      simp [hc]
    have hts := represents_forest ts ih (pre ++ [cellOf o (rootNumbers (pre.length + 1) ts)]) post
      (by simpa using hc)
    exact .node hread (by simpa using hts)

/-- What a run of construction steps from nothing leaves when it builds a declared tree. -/
structure Builds (steps : List ObjectStep) (t : Object) (st : Store) : Prop where
  /-- No step reads a slot or a handler that is not assigned. -/
  runs : Store.run {} steps = some st
  /-- Each object has one allocation, and its slot is its own. -/
  allocated : steps.filterMap ObjectStep.allocated? = t.nodes.map Node.slot
  distinct : (t.nodes.map Node.slot).Nodup
  held : ∀ i o, t.nodes[i]? = some o → st.held o.slot = some (.node i)
  tree : Represents st.cells 0 t
  /-- The root is appended to nothing, and every other node once. -/
  appended : (0 :: st.cells.flatMap Cell.children).Perm (List.range st.cells.length)
  /-- The order of the literals is that of their names. -/
  ordered : ∀ o ∈ t.nodes, o.propertyNames.Pairwise (· < ·)

/-- Every node of trees below a node is appended once: the roots to that node, the others inside. -/
lemma children_forest (ts : List Object)
    (h : ∀ t ∈ ts, ∀ n, (n :: (treeCells n t).flatMap Cell.children).Perm
      (List.range' n t.nodes.length)) (n : Nat) :
    (rootNumbers n ts ++ (forestCells n ts).flatMap Cell.children).Perm
      (List.range' n (ts.flatMap Tree.nodes).length) := by
  induction ts generalizing n with
  | nil => simp [rootNumbers, forestCells]
  | cons t ts ih =>
    have ht := h t mem_cons_self n
    have hts := ih (fun u hu => h u (mem_cons_of_mem _ hu)) (n + t.nodes.length)
    simp only [rootNumbers, forestCells, flatMap_append, flatMap_cons,
      length_append, ← range'_append_1]
    refine Perm.trans ?_ (ht.append hts)
    rw [cons_append, cons_append, perm_cons, ← append_assoc,
      ← append_assoc]
    exact (perm_append_comm).append_right _

lemma children_tree (t : Object) :
    ∀ n, (n :: (treeCells n t).flatMap Cell.children).Perm (List.range' n t.nodes.length) := by
  induction t using Tree.inductOn with
  | h o ts ih =>
    intro n
    have hts := children_forest ts ih (n + 1)
    simpa [treeCells, cellOf, range'_succ] using hts

end Store

/-- The statement on a line of a body, which may also be a comment or blank. -/
def Code.statement? : Code → Option Code
  | .word _ => none
  | c => some c

namespace Artifact

lemma statement?_stepCode (a : Artifact) (st : ObjectStep) :
    (a.stepCode st).statement? = some (a.stepCode st) := by
  cases st <;> rfl

lemma statements_steps (a : Artifact) (steps : List ObjectStep) :
    (steps.map a.stepCode).filterMap Code.statement? = steps.map a.stepCode := by
  simp [filterMap_map, statement?_stepCode]

lemma statements_objectsCode (a : Artifact) :
    ∃ body, a.objectsCode = [Code.gap, a.method "initObjects" [Code.params []] body] ∧
      body.filterMap Code.statement? = a.construction.steps.map a.stepCode := by
  have hgap : Code.gap.statement? = none := rfl
  refine ⟨_, rfl, ?_⟩
  rw [filterMap_append, filterMap_spaced hgap, ← map_flatten, statements_steps,
    Construction.steps, map_append]
  congr 1
  split
  · rename_i he
    simpa using he
  · exact statements_steps a a.construction.deferred

variable {a : Artifact}

lemma bodies_initObjects (hnames : a.memberNames.Nodup) {body : List Code}
    (h : a.objectsCode = [Code.gap, a.method "initObjects" [Code.params []] body]) :
    a.bodies "initObjects" = [body] :=
  bodies_of_method hnames [Code.params []] (by simp [code, Code.declarations, Code.parts, h])

lemma bodies_evaluation (hnames : a.memberNames.Nodup) {e : Evaluation} (he : e ∈ a.evaluations) :
    a.bodies e.method = [[Code.call (Code.dot (a.member e.slot) e.setter) [e.expression]]] := by
  refine bodies_of_method hnames [Code.params []] ?_
  have hmem : a.method e.method [Code.params []]
      [Code.call (Code.dot (a.member e.slot) e.setter) [e.expression]] ∈
        a.evaluations.flatMap a.evaluationCode :=
    mem_flatMap.mpr ⟨e, he, by simp [evaluationCode]⟩
  simp [code, Code.declarations, Code.parts, mem_flatMap.mp hmem]

end Artifact

namespace Class

open Store

variable {c : Class} {t : Object} {s : Settings} {o : Node} {b : BoundProperty} {n : Nat}
  {os : List Node} {reg : Registry}

lemma objects_of_root (h : c.root = some t) : c.objects = t.nodes := by
  simp [objects, h]

lemma assignments_sublist (n : Nat) (os : List Node) :
    ((assignmentsFrom n os).map Prod.fst).Sublist
      ((os.flatMap objectMembers).map Member.name) := by
  induction os generalizing n with
  | nil => exact Sublist.refl _
  | cons o os ih =>
    have ho : (((assignments o n).map Prod.fst)).Sublist ((objectMembers o).map Member.name) := by
      refine Sublist.cons_cons _ ?_
      induction o.bindings with
      | nil => exact Sublist.refl _
      | cons b bs ihb =>
        exact (ihb.cons _).cons_cons _
    simp only [assignmentsFrom, flatMap_cons, map_append]
    exact ho.append (ih (n + 1))

lemma nodup_assignments (h : c.checkNames s = none) (n : Nat) :
    ((assignmentsFrom n c.objects).map Prod.fst).Nodup := by
  have hall : ((c.members s).map Member.name).Nodup := checkNames_eq_none_iff.mp h
  have hsub : ((c.objects.flatMap objectMembers).map Member.name).Sublist
      ((c.members s).map Member.name) :=
    ((sublist_append_right _ _).trans (sublist_append_left _ _)).map _
  exact (hall.sublist hsub).sublist (assignments_sublist n c.objects)

lemma functional_of_nodup {plan : List (Text × Held)} (h : (plan.map Prod.fst).Nodup) :
    Functional plan := by
  intro x v w hv hw
  exact (Prod.mk.inj (inj_on_of_nodup_map h hv hw rfl)).2

lemma slots_sublist (n : Nat) (os : List Node) :
    (os.map Node.slot).Sublist ((assignmentsFrom n os).map Prod.fst) := by
  induction os generalizing n with
  | nil => exact Sublist.refl _
  | cons o os ih =>
    simp only [map_cons, assignmentsFrom, assignments, cons_append, map_append]
    exact ((ih (n + 1)).trans (sublist_append_right _ _)).cons_cons _

lemma dependency_mem_ids (h : c.referenceFaults = some []) (ho : o ∈ c.objects)
    (hb : b ∈ o.bindings) {d : Dependency} (hd : d ∈ b.binding.dependencies) :
    d.object ∈ c.objects.map Node.id := by
  obtain ⟨p, hp, rfl⟩ := mem_map.mp hb
  obtain ⟨hmem, hbind⟩ := mem_filter.mp hp
  obtain ⟨binding, hpb, hall⟩ := exists_binding_of_referenceFaults h ho hmem hbind
  have hd' : d ∈ binding.dependencies := by simpa [Node.bound, hpb] using hd
  obtain ⟨u, hu⟩ := exists_byId_of_dependencyFaults (hall d hd')
  obtain ⟨hmem, hid⟩ := mem_objects_of_byId hu
  exact mem_map.mpr ⟨u, hmem, hid⟩

lemma handler_mem_assignments (ho : o ∈ os) (hb : b ∈ o.bindings) :
    (b.handler, .handler b.expression) ∈ assignmentsFrom n os := by
  induction os generalizing n with
  | nil => simp at ho
  | cons u os ih =>
    simp only [assignmentsFrom, mem_append]
    rcases mem_cons.mp ho with rfl | ho
    · exact .inl (assignments_handler_mem (fun _ h => h) hb)
    · exact .inr (ih ho)

lemma slot_mem_assignments {i : Nat} (h : os[i]? = some o) :
    (o.slot, .node (n + i)) ∈ assignmentsFrom n os := by
  induction os generalizing n i with
  | nil => simp at h
  | cons u os ih =>
    simp only [assignmentsFrom, mem_append]
    cases i with
    | zero =>
      obtain rfl : u = o := by simpa using h
      exact .inl mem_cons_self
    | succ i =>
      have hi := ih (n := n + 1) (by simpa using h)
      exact .inr (by rwa [Nat.add_right_comm] at hi)

lemma run_construction (hfaults : c.faults reg = some []) (hnames : c.checkNames s = none)
    (hroot : c.root = some t) :
    ∃ st, Store.run {} c.construction.steps = some st ∧ st.cells = treeCells 0 t ∧
      Follows (assignmentsFrom 0 t.nodes) (t.nodes.map Node.id).reverse st := by
  have hobjects := objects_of_root hroot
  have hf : Functional (assignmentsFrom 0 t.nodes) :=
    functional_of_nodup (hobjects ▸ nodup_assignments hnames 0)
  obtain ⟨-, href, -⟩ := faults_eq_some_nil_iff.mp hfaults
  have hempty : Follows (assignmentsFrom 0 t.nodes) [] ({} : Store) :=
    ⟨fun h => by simp at h, fun id h => by simp at h⟩
  have hnone : ParentBuilt (assignmentsFrom 0 t.nodes) [] 0 none := fun q k h => by simp at h
  obtain ⟨st₁, hrun₁, hcells₁, h₁⟩ := treeRuns hf t hempty (fun a h => h) hnone
  have hmem : ∀ x ∈ t.withParents none, x.2 ∈ t.nodes := by
    intro x hx
    have := mem_map_of_mem (f := Prod.snd) hx
    rwa [Tree.map_snd_withParents] at this
  obtain ⟨st₂, hrun₂, hcells₂, h₂⟩ := run_deferred h₁ hf (t.withParents none)
    (fun x hx b hb => handler_mem_assignments (hmem x hx) hb)
    (fun x hx b hb d hd => by
      have hid := dependency_mem_ids href (hobjects ▸ hmem x hx) hb hd
      simpa [builtAfter, hobjects] using hid) []
  refine ⟨st₂, ?_, ?_, ?_⟩
  · have hsteps : c.construction.steps = treeSteps [] none t ++
        (Construction.ofNodes [] (t.withParents none)).deferred := by
      simp [construction, hroot, Construction.steps, treeSteps]
    have hrun₁' : Store.run {} (treeSteps [] none t) = some st₁ := hrun₁
    rw [hsteps, run_append, hrun₁']
    exact hrun₂
  · rw [hcells₂, hcells₁]
    rfl
  · simpa [builtAfter] using h₂

/-- In a checked class the run of the construction builds the declared tree. -/
lemma builds_construction (hfaults : c.faults reg = some []) (hnames : c.checkNames s = none)
    (hroot : c.root = some t) : ∃ st, Builds c.construction.steps t st := by
  obtain ⟨st, hrun, hcells, hst⟩ := run_construction hfaults hnames hroot
  have hnd : ((assignmentsFrom 0 t.nodes).map Prod.fst).Nodup :=
    objects_of_root hroot ▸ nodup_assignments hnames 0
  refine ⟨st, ⟨hrun, ?_, ?_, ?_, ?_, ?_, ?_⟩⟩
  · have hslots := slots_of_run hrun
    rw [hcells, map_slot_treeCells] at hslots
    simpa using hslots.symm
  · exact hnd.sublist (slots_sublist 0 t.nodes)
  · intro i o hi
    have hid : o.id ∈ (t.nodes.map Node.id).reverse :=
      mem_reverse.mpr (mem_map.mpr ⟨o, mem_of_getElem? hi, rfl⟩)
    have hslot := slot_mem_assignments (n := 0) hi
    rw [Nat.zero_add] at hslot
    exact hst.held_slot (functional_of_nodup hnd) hid hslot
  · exact represents_tree t [] [] (by simp [hcells])
  · have hperm := children_tree t 0
    rwa [hcells, length_treeCells, range_eq_range']
  · intro o _
    exact pairwise_map.mpr o.properties.ordered

end Class
end ReactiveModel
