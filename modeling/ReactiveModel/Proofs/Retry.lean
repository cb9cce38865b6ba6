import ReactiveModel.Proofs.Continuation

/-! Calls of the initialization one after the other, as long as they fail. Each call builds a new
tree and makes its instances anew. It adds to the collections and never empties them, so they keep
the instances that failed calls stored. -/

namespace ReactiveModel

open List Naming

variable {ε : Type}

deriving instance DecidableEq for Raised, Exit

namespace Artifact

open Statement Instance

/-- Calls the initialization. The variables of its methods are new in each call. -/
def attempt (a : Artifact) (w : Surroundings ε) (x : Instance) : Instance × Exit ε :=
  execAll w a.initializeBody { x with count := 0, current := x.instances, root := 0 }

def afterCalls (a : Artifact) (w : Surroundings ε) : Nat → Instance
  | 0 => {}
  | n + 1 => (a.attempt w (a.afterCalls w n)).1

lemma attempt_alike (a : Artifact) (w : Surroundings ε) {x : Instance} (h : x.initialized = false) :
    Alike x (execAll (w.after x.acquisitions x.instances) a.initializeBody { store := x.store })
      (a.attempt w x) :=
  execAll_alike a.initializeBody
    { initialized := h, store := rfl, collections := by simp, count := rfl, current := rfl,
      root := rfl, acquisitions := rfl, instances := rfl }

end Artifact

/-! What one call leaves. -/

namespace Instance

open Statement

/-- The tree is built behind the nodes that `x` has, and of some instances the first `k` are behind
what is in the collections and below their parents in the new tree. -/
structure Renewed (w : Surroundings ε) (jobs : List Replication) (base : Store) (k : Nat)
    (x y : Instance) : Prop where
  held : ∀ name h, base.held name = some h →
    y.store.held name = some (h.shift x.store.cells.length)
  collections : ∀ field,
    y.collections field = x.collections field ++ (collected jobs k field).map (x.instances + ·)
  children : ∀ i cell, base.cells[i]? = some cell →
    ∃ cell' : Store.Cell, y.store.cells[x.store.cells.length + i]? = some cell' ∧
      cell'.slot = cell.slot ∧
      cell'.children = cell.children.map (x.store.cells.length + ·) ++
        grafted (w.after x.acquisitions x.instances) jobs base k i
  /-- Nothing goes below the nodes that were there. -/
  kept : ∀ (i : Nat) (cell : Store.Cell), x.store.cells[i]? = some cell →
    ∃ cell' : Store.Cell, y.store.cells[i]? = some cell' ∧ cell'.slot = cell.slot ∧
      cell'.children = cell.children

variable {w : Surroundings ε} {jobs : List Replication} {base st : Store} {k i : Nat}
  {x u y : Instance}

lemma grafted_extend (h : Rooted base jobs) (i : Nat) :
    grafted w jobs (st.extend base) k (st.cells.length + i) = grafted w jobs base k i := by
  refine congrArg (List.filterMap _) (filter_congr fun j hj => ?_)
  obtain ⟨p, hp⟩ := h j.1 (mem_of_mem_take (fst_mem_of_mem_zipIdx hj))
  simp [Store.node?_extend hp, hp]

lemma grafted_extend_of_lt (h : Rooted base jobs) (hi : i < st.cells.length) :
    grafted w jobs (st.extend base) k i = [] := by
  have hnone : ∀ j ∈ (jobs.take k).zipIdx,
      ((st.extend base).node? j.1.parent == some i) = false := by
    intro j hj
    obtain ⟨p, hp⟩ := h j.1 (mem_of_mem_take (fst_mem_of_mem_zipIdx hj))
    have hne : st.cells.length + p ≠ i := by omega
    simp [Store.node?_extend hp, hne]
  rw [grafted, filter_eq_nil_iff.mpr (by simpa using hnone)]
  rfl

lemma Populated.renewed (h : u.Populated (w.after x.acquisitions x.instances) jobs
    (x.store.extend base) k) (hrooted : Rooted base jobs) (hc : Continues x u y) :
    Renewed w jobs base k x y where
  held name v hv := by
    rw [hc.store, h.held, Store.held_extend hv]
  collections field := by
    rw [hc.collections, h.collections]
  children i cell hi := by
    obtain ⟨cell', hget, hslot, hchildren⟩ := h.children _ _ (Store.getElem?_extend_add hi)
    rw [grafted_extend hrooted] at hchildren
    exact ⟨cell', by rw [hc.store, hget], hslot, hchildren⟩
  kept i cell hi := by
    have hlt : i < x.store.cells.length := (List.getElem?_eq_some_iff.mp hi).1
    obtain ⟨cell', hget, hslot, hchildren⟩ := h.children _ _ (Store.getElem?_extend hi base)
    rw [grafted_extend_of_lt hrooted hlt, append_nil] at hchildren
    exact ⟨cell', by rw [hc.store, hget], hslot, hchildren⟩

lemma mem_collected {field : Text} :
    i ∈ collected jobs k field ↔ i < k ∧ ∃ r, jobs[i]? = some r ∧ r.field = field := by
  simp only [collected, mem_map, mem_filter, mem_zipIdx_iff_getElem?, beq_iff_eq]
  constructor
  · rintro ⟨⟨r, _⟩, ⟨hget, hfield⟩, rfl⟩
    rw [getElem?_take, Option.ite_none_right_eq_some] at hget
    exact ⟨hget.1, r, hget.2, hfield⟩
  · rintro ⟨hlt, r, hget, hfield⟩
    exact ⟨(r, i), ⟨by simp [hlt, hget], hfield⟩, rfl⟩

lemma mem_grafted {r : Replication} {p root : Nat} (hi : i < k) (hr : jobs[i]? = some r)
    (hp : base.node? r.parent = some p) (hroot : (w.start i).root = .ok root) :
    root ∈ grafted w jobs base k p := by
  refine mem_filterMap.mpr ⟨(r, i), mem_filter.mpr ⟨?_, by simp [hp]⟩, ?_⟩
  · exact mem_zipIdx_iff_getElem?.mpr (by simp [hi, hr])
  · simp [hroot, Except.toOption]

end Instance

/-! Calls for a checked class. -/

namespace Class

open Statement Instance

variable {stored : Nat → Nat}

/-- What a call leaves of an instance that is not initialized, with how many instances it stores. -/
inductive Attempt (c : Class) (reg : Registry) (base : Store) (w : Surroundings ε) (x : Instance) :
    Nat → Instance × Exit ε → Prop
  /-- The first resource that fails ends the call before anything is built. -/
  | resource {k : Nat} {r : Resource} {e : ε} {y : Instance} (declared : c.resources[k]? = some r)
      (before : ∀ j < k, w.acquire (x.acquisitions + j) = none)
      (fails : w.acquire (x.acquisitions + k) = some e)
      (store : y.store = x.store) (collections : y.collections = x.collections)
      (initialized : y.initialized = false) :
      Attempt c reg base w x 0
        (y, .returned (some ⟨c.name ++ ": acquire resource " ++ r.name, e⟩))
  /-- The first instance that fails ends the call, with the earlier ones stored. -/
  | replicator {k : Nat} {r : Replicator} {e : ε} {y : Instance}
      (acquired : ∀ j < c.resources.length, w.acquire (x.acquisitions + j) = none)
      (declared : c.planned[k]? = some r)
      (before : ∀ j < k, ∃ root, (w.start (x.instances + j)).root = .ok root)
      (fails : (w.start (x.instances + k)).root = .error e)
      (renewed : Renewed w (c.planned.map (replication reg)) base k x y)
      (initialized : y.initialized = false) :
      Attempt c reg base w x k (y, .returned (some ⟨c.name ++ ": replicator " ++ r.id, e⟩))
  | success {y : Instance}
      (acquired : ∀ j < c.resources.length, w.acquire (x.acquisitions + j) = none)
      (started : ∀ j < c.planned.length, ∃ root, (w.start (x.instances + j)).root = .ok root)
      (renewed : Renewed w (c.planned.map (replication reg)) base c.planned.length x y)
      (initialized : y.initialized = true) :
      Attempt c reg base w x c.planned.length (y, .returned none)

variable {c : Class} {t : Object} {s : Settings} {reg : Registry} {base : Store}
  {w : Surroundings ε} {x y : Instance} {r : Replicator} {n : Nat}

lemma mem_replicators_of_planned (h : r ∈ c.planned) : r ∈ c.replicators := by
  obtain ⟨q, hq, hr⟩ := mem_flatMap.mp h
  cases hc : q.count.count with
  | ok n =>
    rw [hc] at hr
    exact eq_of_mem_replicate hr ▸ hq
  | error e =>
    rw [hc] at hr
    exact absurd hr not_mem_nil

lemma forall_lt_or_first (P : Nat → Prop) (n : Nat) :
    (∀ j < n, P j) ∨ ∃ k < n, (∀ j < k, P j) ∧ ¬ P k := by
  induction n with
  | zero => exact .inl fun j hj => absurd hj (Nat.not_lt_zero j)
  | succ n ih =>
    rcases ih with hall | ⟨k, hk, hfirst⟩
    · by_cases hn : P n
      · exact .inl (Nat.forall_lt_succ_right.mpr ⟨hall, hn⟩)
      · exact .inr ⟨n, Nat.lt_succ_self n, hall, hn⟩
    · exact .inr ⟨k, Nat.lt_succ_of_lt hk, hfirst⟩

lemma attempt_resource (hx : x.initialized = false) {k : Nat} {r : Resource} {e : ε}
    (hr : c.resources[k]? = some r) (hbefore : ∀ j < k, w.acquire (x.acquisitions + j) = none)
    (he : w.acquire (x.acquisitions + k) = some e) :
    c.Attempt reg base w x 0 ((c.artifact s reg).attempt w x) := by
  have hr' : (c.artifact s reg).acquisitions[k]? = some (acquisition s.runtimePath r) := by
    simp [artifact, hr]
  obtain ⟨u, hu, hacquired⟩ := Artifact.run_resource_failed x.store
    (w := w.after x.acquisitions x.instances) hr' hbefore he
  obtain ⟨y, hy, hc⟩ := (hu ▸ (c.artifact s reg).attempt_alike w hx).exists_eq
  have hcollections : y.collections = x.collections := by
    funext field
    rw [hc.collections, hacquired.collections]
    exact append_nil _
  rw [hy]
  exact .resource hr hbefore he (hc.store.trans hacquired.store) hcollections
    (hc.initialized.trans hacquired.initialized)

namespace Grounded

variable (g : c.Grounded s reg t base)
include g

section

variable (hresources : ∀ j < c.resources.length, w.acquire (x.acquisitions + j) = none)
include hresources

lemma call_prepared :
    ∃ u, execAll (w.after x.acquisitions x.instances) (c.artifact s reg).initializeBody
        { store := x.store } =
        execAll (w.after x.acquisitions x.instances) (c.artifact s reg).populateBody u ∧
      Progress (w.after x.acquisitions x.instances) (jobsOf (c.artifact s reg).replications)
        (x.store.extend base) (c.artifact s reg).preparation 0 u := by
  have hlength : (c.artifact s reg).acquisitions.length = c.resources.length := by simp [artifact]
  exact Artifact.run_prepared (Store.run_extend g.builds.runs x.store) (hlength ▸ hresources) _

lemma attempt_replicator (hx : x.initialized = false) {k : Nat} {r : Replicator} {e : ε}
    (hr : c.planned[k]? = some r)
    (hbefore : ∀ j < k, ∃ root, (w.start (x.instances + j)).root = .ok root)
    (he : (w.start (x.instances + k)).root = .error e) :
    c.Attempt reg base w x k ((c.artifact s reg).attempt w x) := by
  have hjobs : jobsOf (c.artifact s reg).replications = c.planned.map (replication reg) :=
    jobsOf_replicators reg c
  have hr' : (jobsOf (c.artifact s reg).replications)[k]? = some (replication reg r) := by
    simp [hjobs, hr]
  obtain ⟨v, hv, hprogress⟩ := g.call_prepared hresources
  obtain ⟨u, hu, hbroken⟩ := Artifact.run_instance_failed (g.rooted.extend x.store) hprogress hr'
    hbefore he
  obtain ⟨y, hy, hc⟩ := (hv.trans hu ▸ (c.artifact s reg).attempt_alike w hx).exists_eq
  have hrenewed := hbroken.toPopulated.renewed g.rooted hc
  rw [hjobs] at hrenewed
  rw [hy]
  exact .replicator hresources hr hbefore he hrenewed (hc.initialized.trans hbroken.initialized)

lemma attempt_success (hx : x.initialized = false)
    (hinstances : ∀ j < c.planned.length, ∃ root, (w.start (x.instances + j)).root = .ok root) :
    c.Attempt reg base w x c.planned.length ((c.artifact s reg).attempt w x) := by
  have hjobs : jobsOf (c.artifact s reg).replications = c.planned.map (replication reg) :=
    jobsOf_replicators reg c
  have hcount : (jobsOf (c.artifact s reg).replications).length = c.planned.length := by
    simp [hjobs]
  have hslots : ∀ e ∈ (c.artifact s reg).evaluations,
      ∃ i, (x.store.extend base).held e.slot = some (.node i) := by
    intro e he
    obtain ⟨b, hb, rfl⟩ := mem_map.mp he
    obtain ⟨i, hi⟩ := evaluation_slot_of_builds g.builds g.root hb
    exact ⟨_, Store.held_extend hi⟩
  obtain ⟨v, hv, hprogress⟩ := g.call_prepared hresources
  obtain ⟨u, hu, hinitialized, hpopulated, -⟩ := Artifact.run_succeeded (g.rooted.extend x.store)
    hslots hprogress (hcount ▸ hinstances)
  obtain ⟨y, hy, hc⟩ := (hv.trans hu ▸ (c.artifact s reg).attempt_alike w hx).exists_eq
  have hrenewed := hpopulated.renewed g.rooted hc
  rw [hcount, hjobs] at hrenewed
  rw [hy]
  exact .success hresources hinstances hrenewed (hc.initialized.trans hinitialized)

end

/-- A call ends at its first failure, or it succeeds. -/
lemma exists_attempt (hx : x.initialized = false) :
    ∃ k, c.Attempt reg base w x k ((c.artifact s reg).attempt w x) := by
  rcases forall_lt_or_first (fun j => w.acquire (x.acquisitions + j) = none) c.resources.length with
    hresources | ⟨k, hk, hbefore, hfails⟩
  · rcases forall_lt_or_first (fun j => ∃ root, (w.start (x.instances + j)).root = .ok root)
      c.planned.length with hinstances | ⟨k, hk, hbefore, hfails⟩
    · exact ⟨_, g.attempt_success hresources hx hinstances⟩
    · cases he : (w.start (x.instances + k)).root with
      | ok root => exact absurd ⟨root, he⟩ hfails
      | error e =>
        exact ⟨k, g.attempt_replicator hresources hx (List.getElem?_eq_getElem hk) hbefore he⟩
  · obtain ⟨e, he⟩ := Option.ne_none_iff_exists'.mp hfails
    exact ⟨0, attempt_resource hx (List.getElem?_eq_getElem hk) hbefore he⟩

end Grounded

namespace Attempt

variable {k : Nat} {p : Instance × Exit ε} {e : Raised ε} (h : c.Attempt reg base w x k p)

include h

lemma collections (field : Text) :
    p.1.collections field = x.collections field ++
      (collected (c.planned.map (replication reg)) k field).map (x.instances + ·) := by
  cases h with
  | resource _ _ _ _ hcollections _ => simp [hcollections, collected]
  | replicator _ _ _ _ hrenewed _ | success _ _ hrenewed _ => exact hrenewed.collections field

lemma renewed_of_succeeded (he : p.2 = .returned none) :
    (∀ j < c.planned.length, ∃ root, (w.start (x.instances + j)).root = .ok root) ∧
      Renewed w (c.planned.map (replication reg)) base c.planned.length x p.1 := by
  cases h with
  | resource | replicator => cases he
  | success _ hstarted hrenewed _ => exact ⟨hstarted, hrenewed⟩

lemma initialized_of_failed (he : p.2 = .returned (some e)) : p.1.initialized = false := by
  cases h with
  | resource _ _ _ _ _ hinitialized | replicator _ _ _ _ _ hinitialized => exact hinitialized
  | success => cases he

lemma exists_stored (he : p.2 = .returned (some e)) (hk : k ≠ 0) :
    ∃ r ∈ c.replicators, collected (c.planned.map (replication reg)) k
      (replicatorField r.id) ≠ [] := by
  cases h with
  | resource => exact absurd rfl hk
  | success => cases he
  | replicator _ hdeclared _ _ _ _ =>
    have hlt : 0 < c.planned.length :=
      Nat.lt_of_le_of_lt (Nat.zero_le k) (List.getElem?_eq_some_iff.mp hdeclared).1
    have hfirst : c.planned[0]? = some c.planned[0] := List.getElem?_eq_getElem hlt
    refine ⟨c.planned[0], mem_replicators_of_planned (getElem_mem hlt),
      ne_nil_of_mem (a := 0) (mem_collected.mpr ⟨Nat.pos_of_ne_zero hk, ?_⟩)⟩
    exact ⟨replication reg c.planned[0], by simp [hfirst], rfl⟩

end Attempt

/-! The instances of a replicator. -/

def collectionOf (x : Instance) (r : Replicator) : List Nat :=
  x.collections (Naming.replicatorField r.id)

/-- The collections are as declared: each has as many instances as its replicator says, and these
are below the parent in the tree that the slots hold. -/
structure Populates (c : Class) (w : Surroundings ε) (x : Instance) : Prop where
  counted : ∀ r ∈ c.replicators, r.count.count = .ok (collectionOf x r).length
  attached : ∀ r ∈ c.replicators, ∀ k ∈ collectionOf x r, ∃ p cell root,
    x.store.node? (Naming.memberField r.parent) = some p ∧ x.store.cells[p]? = some cell ∧
      (w.start k).root = .ok root ∧ root ∈ cell.children

/-- How many instances of a replicator the first `n` calls store, from how many instances each call
stores. -/
def storedOf (c : Class) (reg : Registry) (stored : Nat → Nat) (r : Replicator) : Nat → Nat
  | 0 => 0
  | n + 1 => c.storedOf reg stored r n + (collected (c.planned.map (replication reg)) (stored n)
      (Naming.replicatorField r.id)).length

lemma storedOf_eq_zero_iff :
    c.storedOf reg stored r n = 0 ↔ ∀ j < n, collected (c.planned.map (replication reg)) (stored j)
      (replicatorField r.id) = [] := by
  induction n with
  | zero => simp [storedOf]
  | succ n ih => rw [storedOf, Nat.add_eq_zero_iff, ih, length_eq_zero_iff,
      Nat.forall_lt_succ_right]

namespace Grounded

variable (g : c.Grounded s reg t base)
include g

lemma exists_cell {o : Node} (ho : o ∈ c.objects) :
    ∃ p cell, base.node? o.slot = some p ∧ base.cells[p]? = some cell := by
  rw [objects_of_root g.root] at ho
  obtain ⟨i, hi⟩ := mem_iff_getElem?.mp ho
  have hslots := Store.slots_of_run g.builds.runs
  rw [g.builds.allocated] at hslots
  have hlength : base.cells.length = t.nodes.length := by
    simpa using congrArg List.length hslots
  have hlt : i < base.cells.length := hlength ▸ (List.getElem?_eq_some_iff.mp hi).1
  exact ⟨i, base.cells[i], Store.node?_eq_some_iff.mpr (g.builds.held i o hi),
    List.getElem?_eq_getElem hlt⟩

section

variable {r : Replicator} (hr : r ∈ c.replicators)
  (h : Renewed w (c.planned.map (replication reg)) base c.planned.length x y)
include hr h

lemma length_collectionOf :
    ∃ m, r.count.count = .ok m ∧ (collectionOf y r).length = (collectionOf x r).length + m := by
  obtain ⟨m, hm, hcollected⟩ := length_collected_replicator g.names hr (g.sound r hr)
  refine ⟨m, hm, ?_⟩
  rw [collectionOf, h.collections, length_append, length_map]
  exact congrArg _ hcollected

lemma attached_of_renewed
    (hstarted : ∀ j < c.planned.length, ∃ root, (w.start (x.instances + j)).root = .ok root)
    {i : Nat}
    (hi : i ∈ collected (c.planned.map (replication reg)) c.planned.length (replicatorField r.id)) :
    ∃ p cell root, y.store.node? (memberField r.parent) = some p ∧
      y.store.cells[p]? = some cell ∧ (w.start (x.instances + i)).root = .ok root ∧
      root ∈ cell.children := by
  obtain ⟨hlt, job, hjob, hfield⟩ := mem_collected.mp hi
  have hmem : job ∈ c.replicators.map (replication reg) := by
    obtain ⟨q, hq, rfl⟩ := mem_map.mp (mem_of_getElem? hjob)
    exact mem_map_of_mem (mem_replicators_of_planned hq)
  -- The fields of the replicators are different, so the instance is one of this replicator.
  obtain rfl : job = replication reg r := inj_on_of_nodup_map
    (nodup_replicatorFields g.names reg) hmem (mem_map_of_mem hr) hfield
  obtain ⟨o, ho⟩ := (g.sound r hr).parent
  obtain ⟨hobject, hid⟩ := mem_objects_of_byId ho
  obtain ⟨p, cell, hp, hcell⟩ := g.exists_cell hobject
  have hslot : o.slot = memberField r.parent := by rw [Node.slot, hid]
  rw [hslot] at hp
  obtain ⟨root, hroot⟩ := hstarted i hlt
  obtain ⟨cell', hget, -, hchildren⟩ := h.children p cell hcell
  refine ⟨_, cell', root, ?_, hget, hroot, ?_⟩
  · exact Store.node?_eq_some_iff.mpr (h.held _ _ (Store.node?_eq_some_iff.mp hp))
  · rw [hchildren]
    exact mem_append_right _ (mem_grafted hlt hjob hp hroot)

end

lemma populates_of_renewed (hempty : ∀ r ∈ c.replicators, collectionOf x r = [])
    (hstarted : ∀ j < c.planned.length, ∃ root, (w.start (x.instances + j)).root = .ok root)
    (h : Renewed w (c.planned.map (replication reg)) base c.planned.length x y) :
    c.Populates w y where
  counted r hr := by
    obtain ⟨m, hm, hlength⟩ := g.length_collectionOf hr h
    rw [hempty r hr, length_nil, Nat.zero_add] at hlength
    rw [hm, hlength]
  attached r hr k hk := by
    have hcollection : collectionOf y r = (collected (c.planned.map (replication reg))
        c.planned.length (replicatorField r.id)).map (x.instances + ·) := by
      have hx := hempty r hr
      rw [collectionOf] at hx ⊢
      rw [h.collections, hx, nil_append]
    rw [hcollection] at hk
    obtain ⟨i, hi, rfl⟩ := mem_map.mp hk
    exact g.attached_of_renewed hr h hstarted hi

/-! Calls one after the other. -/

lemma initialized_afterCalls {n : Nat}
    (h : ∀ j < n, ∃ e, ((c.artifact s reg).attempt w ((c.artifact s reg).afterCalls w j)).2 =
      .returned (some e)) : ((c.artifact s reg).afterCalls w n).initialized = false := by
  induction n with
  | zero => rfl
  | succ n ih =>
    have hbefore := ih fun j hj => h j (Nat.lt_succ_of_lt hj)
    obtain ⟨k, hk⟩ := g.exists_attempt hbefore
    obtain ⟨e, he⟩ := h n (Nat.lt_succ_self n)
    exact hk.initialized_of_failed he

end Grounded

/-- Calls that were tried one after the other, with how many instances each of them stored. -/
def Attempts (c : Class) (s : Settings) (reg : Registry) (base : Store) (w : Surroundings ε)
    (stored : Nat → Nat) (n : Nat) : Prop :=
  ∀ j < n, c.Attempt reg base w ((c.artifact s reg).afterCalls w j) (stored j)
    ((c.artifact s reg).attempt w ((c.artifact s reg).afterCalls w j))

lemma Attempts.length_collectionOf (h : c.Attempts s reg base w stored n) (r : Replicator) :
    (collectionOf ((c.artifact s reg).afterCalls w n) r).length = c.storedOf reg stored r n := by
  induction n with
  | zero => rfl
  | succ n ih =>
    have hn := (h n (Nat.lt_succ_self n)).collections (replicatorField r.id)
    rw [storedOf, ← ih fun j hj => h j (Nat.lt_succ_of_lt hj), collectionOf, Artifact.afterCalls,
      hn, length_append, length_map, collectionOf]

lemma Attempts.storedOf_eq_zero (h : c.Attempts s reg base w stored n)
    (hfailed : ∀ j < n, ∃ e, ((c.artifact s reg).attempt w ((c.artifact s reg).afterCalls w j)).2 =
      .returned (some e)) :
    (∀ r ∈ c.replicators, c.storedOf reg stored r n = 0) ↔ ∀ j < n, stored j = 0 := by
  constructor
  · intro hzero j hj
    by_contra hne
    obtain ⟨e, he⟩ := hfailed j hj
    obtain ⟨r, hr, hstored⟩ := (h j hj).exists_stored he hne
    exact hstored (storedOf_eq_zero_iff.mp (hzero r hr) j hj)
  · intro hzero r _
    refine storedOf_eq_zero_iff.mpr fun j hj => ?_
    simp [hzero j hj, collected]

/-- When calls for a checked class are repeated as long as they fail, each of them acquires, builds
and replicates from the start, and stores its instances behind those of the calls before it. So the
collections are as declared after the call that succeeds if and only if no other one stored an
instance. -/
theorem retries_keep_stored_instances (s : Settings) (reg : Registry) (c : Class)
    (h : c.check s reg = .passed) {ε : Type} (w : Surroundings ε) (n : Nat)
    (hfailed : ∀ j < n, ∃ e, ((c.artifact s reg).attempt w ((c.artifact s reg).afterCalls w j)).2 =
      .returned (some e)) :
    (c.artifact s reg).Emits ∧ ∃ t base stored, c.Grounded s reg t base ∧
      c.Attempts s reg base w stored (n + 1) ∧
      (((c.artifact s reg).attempt w ((c.artifact s reg).afterCalls w n)).2 = .returned none →
        (∀ r ∈ c.replicators, ∃ m, r.count.count = .ok m ∧
          (collectionOf ((c.artifact s reg).afterCalls w (n + 1)) r).length =
            c.storedOf reg stored r n + m) ∧
        (c.Populates w ((c.artifact s reg).afterCalls w (n + 1)) ↔ ∀ j < n, stored j = 0)) := by
  obtain ⟨t, base, g⟩ := exists_grounded h
  have hattempt : ∀ j, ∃ k, j < n + 1 → c.Attempt reg base w ((c.artifact s reg).afterCalls w j) k
      ((c.artifact s reg).attempt w ((c.artifact s reg).afterCalls w j)) := by
    intro j
    by_cases hj : j < n + 1
    · obtain ⟨k, hk⟩ := g.exists_attempt (w := w)
        (g.initialized_afterCalls fun i (hi : i < j) => hfailed i (by omega))
      exact ⟨k, fun _ => hk⟩
    · exact ⟨0, fun hlt => absurd hlt hj⟩
  choose stored hstored using hattempt
  have hbefore : c.Attempts s reg base w stored n := fun j hj => hstored j (Nat.lt_succ_of_lt hj)
  refine ⟨Artifact.emits (nodup_memberNames g.names reg), t, base, stored,
    g, hstored, fun hlast => ?_⟩
  obtain ⟨hstarted, hrenewed⟩ := (hstored n (Nat.lt_succ_self n)).renewed_of_succeeded hlast
  have hcounts : ∀ r ∈ c.replicators, ∃ m, r.count.count = .ok m ∧
      (collectionOf ((c.artifact s reg).afterCalls w (n + 1)) r).length =
        c.storedOf reg stored r n + m := by
    intro r hr
    rw [← hbefore.length_collectionOf r]
    exact g.length_collectionOf hr hrenewed
  refine ⟨hcounts, fun hpopulates => ?_, fun hzero => ?_⟩
  · refine (hbefore.storedOf_eq_zero hfailed).mp fun r hr => ?_
    obtain ⟨m, hm, hlength⟩ := hcounts r hr
    have hcounted := Except.ok.inj (hm.symm.trans (hpopulates.counted r hr))
    omega
  · refine g.populates_of_renewed (fun r hr => List.length_eq_zero_iff.mp ?_) hstarted hrenewed
    rw [hbefore.length_collectionOf]
    exact (hbefore.storedOf_eq_zero hfailed).mpr hzero r hr

def stumbling : Surroundings Unit where
  acquire _ := none
  start k :=
    { cells := [{ slot := "objCell", alloc := "cell()" }]
      root := if k = 1 then .error () else .ok (k + 1) }

lemma first_call_of_cells :
    ∀ j < 1, ∃ e, ((gridOfCells.artifact {} registryOfCells).attempt stumbling
      ((gridOfCells.artifact {} registryOfCells).afterCalls stumbling j)).2 =
        .returned (some e) := by
  intro j hj
  obtain rfl : j = 0 := Nat.lt_one_iff.mp hj
  have hfirst : ((gridOfCells.artifact {} registryOfCells).attempt stumbling
      ((gridOfCells.artifact {} registryOfCells).afterCalls stumbling 0)).2 =
        .returned (some ⟨"Grid: replicator cells", ()⟩) := by
    decide +kernel
  exact ⟨_, hfirst⟩

lemma second_call_of_cells :
    ((gridOfCells.artifact {} registryOfCells).attempt stumbling
      ((gridOfCells.artifact {} registryOfCells).afterCalls stumbling 1)).2 = .returned none := by
  decide +kernel

lemma collection_of_cells :
    ∃ r ∈ gridOfCells.replicators, r.count.count = .ok 2 ∧
      collectionOf ((gridOfCells.artifact {} registryOfCells).afterCalls stumbling 2) r =
        [0, 2, 3] := by
  decide +kernel

theorem retries_keep_first_cell :
    gridOfCells.check {} registryOfCells = .passed ∧
      ∃ t base stored, gridOfCells.Grounded {} registryOfCells t base ∧
        gridOfCells.Attempts {} registryOfCells base stumbling stored 2 ∧
        ∃ r ∈ gridOfCells.replicators, gridOfCells.storedOf registryOfCells stored r 1 = 1 := by
  have h : gridOfCells.check {} registryOfCells = .passed := by rfl
  obtain ⟨-, t, base, stored, g, hattempts, hsucceeded⟩ := retries_keep_stored_instances {}
    registryOfCells gridOfCells h stumbling 1 first_call_of_cells
  obtain ⟨r, hr, htwo, hcells⟩ := collection_of_cells
  obtain ⟨m, hm, hlength⟩ := (hsucceeded second_call_of_cells).1 r hr
  rw [hcells, List.length_cons, List.length_cons, List.length_singleton] at hlength
  have hcount := Except.ok.inj (htwo.symm.trans hm)
  exact ⟨h, t, base, stored, g, hattempts, r, hr, by omega⟩

/-- A replicator of two instances has three of them when the second one fails at first. -/
theorem three_cells_after_retry :
    gridOfCells.check {} registryOfCells = .passed ∧
      (∀ j < 1, ∃ e, ((gridOfCells.artifact {} registryOfCells).attempt stumbling
        ((gridOfCells.artifact {} registryOfCells).afterCalls stumbling j)).2 =
          .returned (some e)) ∧
      ((gridOfCells.artifact {} registryOfCells).attempt stumbling
        ((gridOfCells.artifact {} registryOfCells).afterCalls stumbling 1)).2 = .returned none ∧
      ¬ gridOfCells.Populates stumbling
        ((gridOfCells.artifact {} registryOfCells).afterCalls stumbling 2) := by
  refine ⟨by rfl, first_call_of_cells, second_call_of_cells, fun hpopulates => ?_⟩
  obtain ⟨r, hr, htwo, hcells⟩ := collection_of_cells
  have hcounted := hpopulates.counted r hr
  rw [htwo, hcells] at hcounted
  exact absurd hcounted (by decide)

end Class

end ReactiveModel
