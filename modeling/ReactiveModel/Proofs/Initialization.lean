import ReactiveModel.Proofs.Parents
import ReactiveModel.Proofs.Selection

/-! The initialization of an instance, whatever acquisitions and initializations of other instances
come to. Resources are acquired first, then the tree is built, then the replicators make their
instances one after the other, and the first failure ends it with all that came before in place. -/

namespace ReactiveModel

open List Artifact

variable {ε : Type} {e : ε} {rs : List Replication} {k : Nat} {r : Replication}

namespace Event

def ofAcquisition (r : Acquisition) : Event := .acquire r.slot r.key

def ofInstance (r : Replication) (k : Nat) : List Event :=
  [.start k, .collect r.field k] ++
    (if r.initializor == "" then [] else [.verbatim r.initializor k]) ++ [.append r.parent k]

def ofEvaluation (e : Evaluation) : Event := .object (.set e.slot e.setter e.expression)

end Event

def jobsOf (rs : List Replication) : List Replication :=
  rs.flatMap fun r => List.replicate r.count r

def Event.ofJobs (jobs : List Replication) (k : Nat) : List Event :=
  (jobs.take k).zipIdx.flatMap fun j => Event.ofInstance j.1 j.2

namespace Instance

/-- The instances of a collection among the first `k`, by number. -/
def collected (jobs : List Replication) (k : Nat) (field : Text) : List Nat :=
  ((jobs.take k).zipIdx.filter (·.1.field == field)).map Prod.snd

/-- The roots of those of the first `k` instances that go below a node. -/
def grafted (w : Surroundings ε) (jobs : List Replication) (base : Store) (k i : Nat) : List Nat :=
  ((jobs.take k).zipIdx.filter (fun j => base.node? j.1.parent == some i)).filterMap fun j =>
    (w.start j.2).root.toOption

/-- The first `k` instances are in their collections and below their parents, behind the children
that were there before, and nothing else is. -/
structure Populated (w : Surroundings ε) (jobs : List Replication) (base : Store) (k : Nat)
    (x : Instance) : Prop where
  held : x.store.held = base.held
  collections : ∀ field, x.collections field = collected jobs k field
  children : ∀ i cell, base.cells[i]? = some cell → ∃ cell', x.store.cells[i]? = some cell' ∧
    cell'.slot = cell.slot ∧ cell'.children = cell.children ++ grafted w jobs base k i

end Instance

lemma take_succ_zipIdx {α : Type} {xs : List α} {x : α} (h : xs[k]? = some x) :
    (xs.take (k + 1)).zipIdx = (xs.take k).zipIdx ++ [(x, k)] := by
  have hlt : k < xs.length := (List.getElem?_eq_some_iff.mp h).1
  rw [List.take_add_one, h, List.zipIdx_append, List.length_take_of_le (Nat.le_of_lt hlt)]
  simp

lemma Event.ofJobs_succ {jobs : List Replication} (h : jobs[k]? = some r) :
    Event.ofJobs jobs (k + 1) = Event.ofJobs jobs k ++ Event.ofInstance r k := by
  rw [Event.ofJobs, take_succ_zipIdx h, Event.ofJobs]
  simp

namespace Instance

variable {w : Surroundings ε} {jobs : List Replication} {base : Store} {k root : Nat} {x : Instance}
  {r : Replication}

lemma collected_succ (h : jobs[k]? = some r) (field : Text) :
    collected jobs (k + 1) field =
      collected jobs k field ++ if r.field == field then [k] else [] := by
  rw [collected, take_succ_zipIdx h, collected]
  cases hf : r.field == field <;> simp [hf]

lemma grafted_succ (h : jobs[k]? = some r) (hroot : (w.start k).root = .ok root) (i : Nat) :
    grafted w jobs base (k + 1) i =
      grafted w jobs base k i ++ if base.node? r.parent == some i then [root] else [] := by
  rw [grafted, take_succ_zipIdx h, grafted]
  cases hf : base.node? r.parent == some i <;> simp [hf, hroot, Except.toOption]

variable (h : Populated w jobs base k x)

include h

lemma Populated.congr {y : Instance} (hs : y.store = x.store) (hc : y.collections = x.collections) :
    Populated w jobs base k y where
  held := hs ▸ h.held
  collections := hc ▸ h.collections
  children := hs ▸ h.children

lemma Populated.grow (cells : List Store.Cell) :
    Populated w jobs base k
      { x with store := { x.store with cells := x.store.cells ++ cells } } where
  held := h.held
  collections := h.collections
  children i cell hi := by
    obtain ⟨cell', hget, hrest⟩ := h.children i cell hi
    have hlt : i < x.store.cells.length := (List.getElem?_eq_some_iff.mp hget).1
    exact ⟨cell', by rw [← hget]; exact List.getElem?_append_left hlt, hrest⟩

lemma Populated.set (n : Nat) (setter text : Text) :
    Populated w jobs base k { x with
      store := { x.store with
        cells := x.store.cells.modify n (Store.Cell.addSetting setter text) } } where
  held := h.held
  collections := h.collections
  children i cell hi := by
    obtain ⟨cell', hget, hslot, hchildren⟩ := h.children i cell hi
    by_cases hn : n = i
    · refine ⟨cell'.addSetting setter text, ?_, hslot, hchildren⟩
      simp [hget, hn]
    · exact ⟨cell', by simp [hget, hn], hslot, hchildren⟩

lemma Populated.next (hr : jobs[k]? = some r) {p : Nat} (hp : base.node? r.parent = some p)
    (hroot : (w.start k).root = .ok root) :
    Populated w jobs base (k + 1) { x with
      collections := Function.update x.collections r.field (x.collections r.field ++ [k])
      store := { x.store with cells := x.store.cells.modify p (Store.Cell.addChild root) } } where
  held := h.held
  collections field := by
    rw [collected_succ hr]
    by_cases hf : r.field = field
    · subst hf
      simp [h.collections]
    · have hne : field ≠ r.field := fun he => hf he.symm
      simp [hne, hf, h.collections]
  children i cell hi := by
    obtain ⟨cell', hget, hslot, hchildren⟩ := h.children i cell hi
    rw [grafted_succ hr hroot, hp]
    by_cases hpi : p = i
    · refine ⟨cell'.addChild root, ?_, hslot, ?_⟩
      · simp [hget, hpi]
      · simp [Store.Cell.addChild, hchildren, hpi]
    · exact ⟨cell', by simp [hget, hpi], hslot, by simp [hchildren, hpi]⟩

end Instance

namespace Statement

variable {w : Surroundings ε}

/-! Resources. -/

/-- What acquisitions change: they are recorded, and the objects are left alone. -/
structure Acquired (rs : List Acquisition) (x y : Instance) : Prop where
  events : y.events = x.events ++ rs.map Event.ofAcquisition
  acquisitions : y.acquisitions = x.acquisitions + rs.length
  store : y.store = x.store
  collections : y.collections = x.collections
  initialized : y.initialized = x.initialized
  instances : y.instances = x.instances

lemma Acquired.append {qs rs : List Acquisition} {x y z : Instance} (h : Acquired qs x y)
    (hs : Acquired rs y z) : Acquired (qs ++ rs) x z where
  events := by simp [hs.events, h.events]
  acquisitions := by simp [hs.acquisitions, h.acquisitions]; omega
  store := hs.store.trans h.store
  collections := hs.collections.trans h.collections
  initialized := hs.initialized.trans h.initialized
  instances := hs.instances.trans h.instances

lemma exec_acquire (w : Surroundings ε) (x : Instance) (r : Acquisition) (what : Text) :
    ∃ y, exec w (.acquire r what) x = (y, (w.acquire x.acquisitions).elim .next
      fun e => .returned (some ⟨what, e⟩)) ∧ Acquired [r] x y := by
  cases h : w.acquire x.acquisitions <;> simp only [exec, h]
  all_goals exact ⟨_, rfl, by constructor <;> simp [Event.ofAcquisition]⟩

lemma execAll_acquisitions (what : Acquisition → Text) (rs : List Acquisition) {x : Instance}
    (h : ∀ j < rs.length, w.acquire (x.acquisitions + j) = none) :
    ∃ y, execAll w (rs.map fun r => .acquire r (what r)) x = (y, .next) ∧ Acquired rs x y := by
  induction rs generalizing x with
  | nil => exact ⟨x, rfl, by constructor <;> simp⟩
  | cons r rs ih =>
    obtain ⟨y, hy, hacquired⟩ := exec_acquire w x r (what r)
    rw [show w.acquire x.acquisitions = none from h 0 (by simp)] at hy
    have hrest : ∀ j < rs.length, w.acquire (y.acquisitions + j) = none := by
      intro j hj
      have hj' := h (j + 1) (by simpa using hj)
      rwa [hacquired.acquisitions, length_singleton, Nat.add_assoc, Nat.add_comm 1]
    obtain ⟨z, hz, hacquireds⟩ := ih hrest
    exact ⟨z, by simp [hy, hz], hacquired.append hacquireds⟩

lemma execAll_acquisitions_failed (what : Acquisition → Text) {rs : List Acquisition}
    {x : Instance} {k : Nat} {r : Acquisition} (hr : rs[k]? = some r)
    (h : ∀ j < k, w.acquire (x.acquisitions + j) = none)
    (he : w.acquire (x.acquisitions + k) = some e) :
    ∃ y, execAll w (rs.map fun r => .acquire r (what r)) x =
      (y, .returned (some ⟨what r, e⟩)) ∧ Acquired (rs.take (k + 1)) x y := by
  obtain ⟨hlt, hget⟩ := List.getElem?_eq_some_iff.mp hr
  have hlength : (rs.take k).length = k := length_take_of_le (Nat.le_of_lt hlt)
  have hsplit : rs = rs.take k ++ r :: rs.drop (k + 1) := by
    rw [← hget, ← drop_eq_getElem_cons hlt, take_append_drop]
  obtain ⟨y, hy, hbefore⟩ := execAll_acquisitions what (rs.take k) (hlength.symm ▸ h)
  obtain ⟨z, hz, hacquired⟩ := exec_acquire w y r (what r)
  rw [hbefore.acquisitions, hlength, he, Option.elim_some] at hz
  refine ⟨z, ?_, by rw [take_add_one, hr]; exact hbefore.append hacquired⟩
  rw [hsplit, map_append, execAll_append, hy, andThen_next, map_cons, execAll_cons, hz,
    andThen_returned]

/-! Objects. -/

lemma execAll_objects (steps : List ObjectStep) {x : Instance} {store : Store}
    (h : x.store.run steps = some store) :
    execAll w (steps.map .object) x =
      ({ x with store, events := x.events ++ steps.map .object }, .next) := by
  induction steps generalizing x with
  | nil =>
    obtain rfl := Option.some.inj h
    simp
  | cons a steps ih =>
    obtain ⟨store₁, hstep, hrun⟩ := Option.bind_eq_some_iff.mp h
    let y : Instance := { x with store := store₁, events := x.events ++ [.object a] }
    have hy : exec w (.object a) x = (y, .next) := by simp [exec, hstep, y]
    have hrest := ih (x := y) hrun
    rw [map_cons, execAll_cons, hy, andThen_next, hrest]
    simp [y]

/-! Instances of other classes. -/

/-- The first `k` instances are made, after some events. -/
structure Progress (w : Surroundings ε) (jobs : List Replication) (base : Store)
    (before : List Event) (k : Nat) (x : Instance) : Prop extends
    Instance.Populated w jobs base k x where
  instances : x.instances = k
  events : x.events = before ++ Event.ofJobs jobs k
  initialized : x.initialized = false

/-- An instance fails after the first `k` ones. -/
structure Broken (w : Surroundings ε) (jobs : List Replication) (base : Store)
    (before : List Event) (k : Nat) (x : Instance) : Prop extends
    Instance.Populated w jobs base k x where
  events : x.events = before ++ Event.ofJobs jobs k ++ [.start k]
  initialized : x.initialized = false

variable {a : Artifact} {jobs : List Replication} {base : Store} {before : List Event} {k n m : Nat}
  {x : Instance} {r : Replication}

section

variable (h : Progress w jobs base before k x)

include h

lemma Progress.setCount (n : Nat) : Progress w jobs base before k { x with count := n } :=
  ⟨h.toPopulated.congr rfl rfl, h.instances, h.events, h.initialized⟩

lemma execAll_instanceBody (hr : jobs[k]? = some r) {p root : Nat}
    (hp : base.node? r.parent = some p) (hroot : (w.start k).root = .ok root) :
    ∃ y, execAll w (a.instanceBody r) x = (y, .next) ∧
      Progress w jobs base before (k + 1) y := by
  let grown : Instance := { x with
    current := k
    instances := k + 1
    root
    store := { x.store with cells := x.store.cells ++ (w.start k).cells }
    events := x.events ++ Event.ofInstance r k }
  have hgrown : grown.Populated w jobs base k :=
    (h.toPopulated.grow (w.start k).cells).congr rfl rfl
  have hnode : x.store.node? r.parent = some p := by
    rw [← hp]
    simp only [Store.node?, h.held]
  refine ⟨_, ?_, ⟨hgrown.next hr hp hroot, rfl, ?_, h.initialized⟩⟩
  · have hnode' : ({ x.store with cells := x.store.cells ++ (w.start k).cells } : Store).node?
        r.parent = some p := hnode
    cases hi : r.initializor == "" <;>
      simp [instanceBody, exec, h.instances, hroot, hnode', hi, grown, Event.ofInstance]
  · change x.events ++ Event.ofInstance r k = _
    rw [h.events, Event.ofJobs_succ hr, append_assoc]

lemma execAll_instanceBody_failed (he : (w.start k).root = .error e) :
    ∃ y, execAll w (a.instanceBody r) x =
        (y, .returned (some ⟨a.className ++ ": replicator " ++ r.id, e⟩)) ∧
      Broken w jobs base before k y := by
  let y : Instance := { x with
    current := k
    instances := k + 1
    store := { x.store with cells := x.store.cells ++ (w.start k).cells }
    events := x.events ++ [.start k] }
  have hpopulated : y.Populated w jobs base k :=
    (h.toPopulated.grow (w.start k).cells).congr rfl rfl
  refine ⟨y, ?_, ⟨hpopulated, ?_, h.initialized⟩⟩
  · simp [instanceBody, exec, h.instances, he, y]
  · simp [y, h.events]

end

def Rooted (base : Store) (jobs : List Replication) : Prop :=
  ∀ r ∈ jobs, ∃ p, base.node? r.parent = some p

lemma times_instanceBody (hrooted : Rooted base jobs) (h : Progress w jobs base before k x)
    (hr : ∀ i < n, jobs[k + i]? = some r)
    (hok : ∀ i < n, ∃ root, (w.start (k + i)).root = .ok root) :
    ∃ y, times (execAll w (a.instanceBody r)) n x = (y, .next) ∧
      Progress w jobs base before (k + n) y := by
  induction n generalizing k x with
  | zero => exact ⟨x, rfl, h⟩
  | succ n ih =>
    have hr₀ : jobs[k]? = some r := hr 0 (by omega)
    obtain ⟨p, hp⟩ := hrooted r (mem_of_getElem? hr₀)
    obtain ⟨root, hroot⟩ := hok 0 (by omega)
    obtain ⟨y, hy, hprogress⟩ := execAll_instanceBody (a := a) h hr₀ hp hroot
    have hshift : ∀ i, k + 1 + i = k + (i + 1) := fun i => by omega
    obtain ⟨z, hz, hprogress'⟩ := ih hprogress
      (fun i hi => by rw [hshift]; exact hr (i + 1) (by omega))
      (fun i hi => by rw [hshift]; exact hok (i + 1) (by omega))
    exact ⟨z, by simp [times, hy, hz], by rw [← hshift]; exact hprogress'⟩

lemma times_add (body : Instance → Instance × Exit ε) (m n : Nat) (x : Instance) :
    times body (m + n) x = andThen (times body m x) (times body n) := by
  induction m generalizing x with
  | zero => rw [Nat.zero_add, times, andThen_next]
  | succ m ih =>
    rw [Nat.succ_add, times, times, andThen_assoc]
    exact congrArg _ (funext ih)

lemma times_instanceBody_failed (hrooted : Rooted base jobs) (h : Progress w jobs base before k x)
    (hm : m < n) (hr : ∀ i < n, jobs[k + i]? = some r)
    (hok : ∀ i < m, ∃ root, (w.start (k + i)).root = .ok root)
    (he : (w.start (k + m)).root = .error e) :
    ∃ y, times (execAll w (a.instanceBody r)) n x =
        (y, .returned (some ⟨a.className ++ ": replicator " ++ r.id, e⟩)) ∧
      Broken w jobs base before (k + m) y := by
  obtain ⟨l, rfl⟩ : ∃ l, n = m + (l + 1) := ⟨n - m - 1, by omega⟩
  obtain ⟨y, hy, hprogress⟩ := times_instanceBody hrooted h
    (fun i hi => hr i (by omega)) hok
  obtain ⟨z, hz, hbroken⟩ := execAll_instanceBody_failed hprogress he
  refine ⟨z, ?_, hbroken⟩
  rw [times_add, hy, andThen_next, times, hz, andThen_returned]

/-- The instances from number `k` on are those of some replicators. -/
def Remaining (jobs : List Replication) (k : Nat) (rs : List Replication) : Prop :=
  jobs.drop k = jobsOf rs

lemma Remaining.head (h : Remaining jobs k (r :: rs)) : ∀ i < r.count, jobs[k + i]? = some r := by
  intro i hi
  rw [← getElem?_drop, h, jobsOf, flatMap_cons, List.getElem?_append_left (by simpa using hi)]
  simp [hi]

lemma Remaining.tail (h : Remaining jobs k (r :: rs)) : Remaining jobs (k + r.count) rs := by
  rw [Remaining, ← drop_drop, h]
  simp [jobsOf]

lemma exec_replicationBody (rest : List Statement) :
    execAll w (a.replicationBody r ++ rest) x =
      andThen (times (execAll w (a.instanceBody r)) r.count { x with count := r.count })
        (execAll w rest) := by
  simp [replicationBody, exec]

lemma length_jobsOf_cons (r : Replication) (rs : List Replication) :
    (jobsOf (r :: rs)).length = r.count + (jobsOf rs).length := by
  simp [jobsOf]

lemma execAll_replications (hrooted : Rooted base jobs) (rs : List Replication)
    (h : Progress w jobs base before k x) (hrs : Remaining jobs k rs)
    (hok : ∀ i < (jobsOf rs).length, ∃ root, (w.start (k + i)).root = .ok root) :
    ∃ y, execAll w (rs.flatMap a.replicationBody) x = (y, .next) ∧
      Progress w jobs base before (k + (jobsOf rs).length) y := by
  induction rs generalizing k x with
  | nil => exact ⟨x, rfl, h⟩
  | cons r rs ih =>
    rw [length_jobsOf_cons] at hok ⊢
    obtain ⟨y, hy, hprogress⟩ := times_instanceBody hrooted (h.setCount r.count) hrs.head
      (fun i hi => hok i (by omega))
    obtain ⟨z, hz, hprogress'⟩ := ih hprogress hrs.tail
      (fun i hi => by rw [Nat.add_assoc]; exact hok (r.count + i) (by omega))
    refine ⟨z, ?_, by rw [← Nat.add_assoc]; exact hprogress'⟩
    rw [flatMap_cons, exec_replicationBody, hy, andThen_next, hz]

lemma execAll_replications_failed (hrooted : Rooted base jobs) (rs : List Replication)
    (h : Progress w jobs base before k x) (hrs : Remaining jobs k rs) (hm : jobs[k + m]? = some r)
    (hok : ∀ i < m, ∃ root, (w.start (k + i)).root = .ok root)
    (he : (w.start (k + m)).root = .error e) :
    ∃ y, execAll w (rs.flatMap a.replicationBody) x =
        (y, .returned (some ⟨a.className ++ ": replicator " ++ r.id, e⟩)) ∧
      Broken w jobs base before (k + m) y := by
  induction rs generalizing k x m with
  | nil =>
    rw [← getElem?_drop, hrs] at hm
    simp [jobsOf] at hm
  | cons q rs ih =>
    by_cases hlt : m < q.count
    · obtain rfl : q = r := Option.some.inj ((hrs.head m hlt).symm.trans hm)
      obtain ⟨y, hy, hbroken⟩ := times_instanceBody_failed hrooted (h.setCount q.count) hlt
        hrs.head hok he
      refine ⟨y, ?_, hbroken⟩
      rw [flatMap_cons, exec_replicationBody, hy, andThen_returned]
    · obtain ⟨n, rfl⟩ : ∃ n, m = q.count + n := ⟨m - q.count, by omega⟩
      obtain ⟨y, hy, hprogress⟩ := times_instanceBody hrooted (h.setCount q.count) hrs.head
        (fun i hi => hok i (by omega))
      rw [← Nat.add_assoc] at hm he ⊢
      obtain ⟨z, hz, hbroken⟩ := ih hprogress hrs.tail hm
        (fun i hi => by rw [Nat.add_assoc]; exact hok (q.count + i) (by omega)) he
      refine ⟨z, ?_, hbroken⟩
      rw [flatMap_cons, exec_replicationBody, hy, andThen_next, hz]

/-! Evaluation of the bindings. -/

lemma execAll_evaluations (es : List Evaluation) (h : x.Populated w jobs base k)
    (hslots : ∀ e ∈ es, ∃ i, base.held e.slot = some (.node i)) :
    ∃ y, execAll w (es.map fun e => .call e.method (evaluationBody e)) x = (y, .next) ∧
      y.Populated w jobs base k ∧ y.events = x.events ++ es.map Event.ofEvaluation ∧
      y.initialized = x.initialized := by
  induction es generalizing x with
  | nil => exact ⟨x, rfl, h, by simp, rfl⟩
  | cons e es ih =>
    obtain ⟨i, hi⟩ := hslots e mem_cons_self
    have hstep := Store.step_set (h.held ▸ hi) e.setter e.expression
    let y : Instance := { x with
      store := { x.store with
        cells := x.store.cells.modify i (Store.Cell.addSetting e.setter e.expression) }
      events := x.events ++ [Event.ofEvaluation e] }
    have hy : exec w (.call e.method (evaluationBody e)) x = (y, .next) := by
      simp [exec, evaluationBody, hstep, y, Event.ofEvaluation, Exit.afterCall]
    have hpopulated : y.Populated w jobs base k := (h.set i e.setter e.expression).congr rfl rfl
    obtain ⟨z, hz, hpopulated', hevents, hinitialized⟩ :=
      ih hpopulated (fun u hu => hslots u (mem_cons_of_mem _ hu))
    refine ⟨z, ?_, hpopulated', ?_, hinitialized⟩
    · rw [map_cons, execAll_cons, hy, andThen_next, hz]
    · simp [hevents, y]

end Statement

namespace Artifact

open Statement Instance

variable {a : Artifact} {w : Surroundings ε} {base store : Store} {k : Nat}

lemma execAll_resourcesBody (h : ∀ j < a.acquisitions.length, w.acquire j = none) :
    ∃ y, execAll w a.resourcesBody { store } = (y, .returned none) ∧
      Acquired a.acquisitions { store } y := by
  obtain ⟨y, hy, hacquired⟩ := execAll_acquisitions (x := { store })
    (fun r => a.className ++ ": acquire resource " ++ r.resource) a.acquisitions
    (fun j hj => by simpa using h j hj)
  refine ⟨y, ?_, hacquired⟩
  cases he : a.acquisitions.isEmpty <;>
    simp [resourcesBody, he, exec, execAll_append, hy]

def preparation (a : Artifact) : List Event :=
  a.acquisitions.map Event.ofAcquisition ++ a.construction.steps.map Event.object

def populateBody (a : Artifact) : List Statement :=
  (if a.replications.isEmpty then [] else [.attempt "initReplicators" a.replicatorsBody]) ++
    (if a.eager then [.call "evaluateBindings" a.evaluateBody] else []) ++ [.finish, .succeed]

lemma initializeBody_eq (a : Artifact) :
    a.initializeBody =
      [.guard (a.className ++ ": Initialize called twice"),
        .attempt "initResources" a.resourcesBody, .call "initObjects" a.objectsBody] ++
        a.populateBody := by
  simp [initializeBody, populateBody]

variable (store) in
/-- A resource that cannot be acquired ends the initialization before any object is built. -/
lemma run_resource_failed {r : Acquisition} (hr : a.acquisitions[k]? = some r)
    (h : ∀ j < k, w.acquire j = none) (he : w.acquire k = some e) :
    ∃ y, execAll w a.initializeBody { store } =
        (y, .returned (some ⟨a.className ++ ": acquire resource " ++ r.resource, e⟩)) ∧
      Acquired (a.acquisitions.take (k + 1)) { store } y := by
  obtain ⟨y, hy, hacquired⟩ := execAll_acquisitions_failed (x := { store })
    (fun r => a.className ++ ": acquire resource " ++ r.resource) hr
    (fun j hj => by simpa using h j hj) (by simpa using he)
  refine ⟨y, ?_, hacquired⟩
  cases hempty : a.acquisitions.isEmpty <;>
    simp [initializeBody_eq, resourcesBody, hempty, exec, execAll_append, hy, Exit.afterAttempt]

lemma run_prepared (hbase : store.run a.construction.steps = some base)
    (h : ∀ j < a.acquisitions.length, w.acquire j = none) (jobs : List Replication) :
    ∃ y, execAll w a.initializeBody { store } = execAll w a.populateBody y ∧
      Progress w jobs base a.preparation 0 y := by
  obtain ⟨x, hx, hacquired⟩ := execAll_resourcesBody h
  have hrun : x.store.run a.construction.steps = some base := by rw [hacquired.store]; exact hbase
  let y : Instance := { x with
    store := base
    events := x.events ++ a.construction.steps.map Event.object }
  have hobjects : execAll w (a.construction.steps.map .object) x = (y, .next) :=
    execAll_objects a.construction.steps hrun
  refine ⟨y, ?_, ⟨?_, ?_, ?_, ?_⟩⟩
  · simp [initializeBody_eq, exec, hx, objectsBody, hobjects, Exit.afterAttempt, Exit.afterCall]
  · refine ⟨rfl, fun field => ?_, fun i cell hi => ⟨cell, hi, rfl, ?_⟩⟩
    · simp [y, hacquired.collections, collected]
    · simp [grafted]
  · exact hacquired.instances
  · simp [y, hacquired.events, preparation, Event.ofJobs]
  · exact hacquired.initialized

variable {x : Instance}

/-- An instance that cannot be initialized ends the initialization. -/
lemma run_instance_failed (hrooted : Rooted base (jobsOf a.replications))
    (h : Progress w (jobsOf a.replications) base a.preparation 0 x) {r : Replication}
    (hr : (jobsOf a.replications)[k]? = some r) (hok : ∀ i < k, ∃ root, (w.start i).root = .ok root)
    (he : (w.start k).root = .error e) :
    ∃ y, execAll w a.populateBody x =
        (y, .returned (some ⟨a.className ++ ": replicator " ++ r.id, e⟩)) ∧
      Broken w (jobsOf a.replications) base a.preparation k y := by
  obtain ⟨y, hy, hbroken⟩ := execAll_replications_failed (a := a) hrooted a.replications h
    rfl (by simpa using hr) (fun i hi => by simpa using hok i hi) (by simpa using he)
  refine ⟨y, ?_, by simpa using hbroken⟩
  have hne : a.replications.isEmpty = false := by
    cases hrs : a.replications with
    | nil => simp [hrs, jobsOf] at hr
    | cons q rs => rfl
  simp [populateBody, hne, exec, replicatorsBody, execAll_append, hy, Exit.afterAttempt]

lemma run_succeeded (hrooted : Rooted base (jobsOf a.replications))
    (hslots : ∀ e ∈ a.evaluations, ∃ i, base.held e.slot = some (.node i))
    (h : Progress w (jobsOf a.replications) base a.preparation 0 x)
    (hok : ∀ i < (jobsOf a.replications).length, ∃ root, (w.start i).root = .ok root) :
    ∃ y, execAll w a.populateBody x = (y, .returned none) ∧ y.initialized = true ∧
      y.Populated w (jobsOf a.replications) base (jobsOf a.replications).length ∧
      y.events = a.preparation ++
        Event.ofJobs (jobsOf a.replications) (jobsOf a.replications).length ++
        if a.eager then a.evaluations.map Event.ofEvaluation else [] := by
  let jobs := jobsOf a.replications
  obtain ⟨y, hy, hprogress⟩ : ∃ y, execAll w (if a.replications.isEmpty then [] else
      [.attempt "initReplicators" a.replicatorsBody]) x = (y, .next) ∧
      Progress w jobs base a.preparation jobs.length y := by
    obtain ⟨y, hy, hprogress⟩ := execAll_replications (a := a) hrooted a.replications h rfl
      (fun i hi => by simpa using hok i hi)
    cases hrs : a.replications.isEmpty with
    | true => exact ⟨x, rfl, by simpa [isEmpty_iff.mp hrs, jobs, jobsOf] using h⟩
    | false =>
      refine ⟨y, ?_, by simpa using hprogress⟩
      simp [exec, replicatorsBody, execAll_append, hy, Exit.afterAttempt]
  obtain ⟨z, hz, hpopulated, hevents⟩ : ∃ z, execAll w (if a.eager then
      [.call "evaluateBindings" a.evaluateBody] else []) y = (z, .next) ∧
      z.Populated w jobs base jobs.length ∧ z.events = y.events ++
        if a.eager then a.evaluations.map Event.ofEvaluation else [] := by
    obtain ⟨z, hz, hpopulated, hevents, -⟩ :=
      execAll_evaluations a.evaluations hprogress.toPopulated hslots
    cases a.eager with
    | false => exact ⟨y, rfl, hprogress.toPopulated, by simp⟩
    | true => exact ⟨z, by simp [exec, evaluateBody, hz, Exit.afterCall], hpopulated, hevents⟩
  refine ⟨{ z with initialized := true }, ?_, rfl, hpopulated.congr rfl rfl, ?_⟩
  · rw [populateBody, execAll_append, execAll_append, hy, andThen_next, hz]
    simp [exec]
  · simp [hevents, hprogress.events, jobs]

end Artifact

/-! The initialization of a checked class. -/

lemma filter_jobsOf (field : Text) (rs : List Replication) :
    (jobsOf rs).filter (·.field == field) = jobsOf (rs.filter (·.field == field)) := by
  induction rs with
  | nil => rfl
  | cons r rs ih =>
    simp only [jobsOf] at ih ⊢
    rw [flatMap_cons, filter_append, ih]
    cases h : r.field == field <;> simp [h]

lemma length_collected (h : (rs.map Replication.field).Nodup) (hr : r ∈ rs) :
    (Instance.collected (jobsOf rs) (jobsOf rs).length r.field).length = r.count := by
  have hfst : ((jobsOf rs).zipIdx.filter (·.1.field == r.field)).map Prod.fst =
      (jobsOf rs).filter (·.field == r.field) := by
    rw [← zipIdx_map_fst 0 (jobsOf rs), filter_map, zipIdx_map_fst]
    rfl
  have hlength := congrArg List.length hfst
  rw [filter_jobsOf, filter_key_eq_singleton Replication.field h hr] at hlength
  rw [Instance.collected, take_length]
  simpa [jobsOf] using hlength

namespace Class

open Statement Instance

variable {steps : List ObjectStep} {r : Replicator}

/-- The replicators of the instances that a class makes, in the order of these. -/
def planned (c : Class) : List Replicator :=
  c.replicators.flatMap fun r =>
    match r.count.count with
    | .ok n => List.replicate n r
    | .error _ => []

variable {c : Class} {t : Object} {s : Settings} {base : Store} {reg : Registry}

lemma jobsOf_replicators (reg : Registry) (c : Class) :
    jobsOf (c.replicators.map (replication reg)) = c.planned.map (replication reg) := by
  simp only [jobsOf, planned, flatMap_map, map_flatMap]
  refine flatMap_congr fun r _ => ?_
  cases hc : r.count.count <;> simp [replication, hc, Except.toOption]

lemma nodup_replicatorFields (h : c.checkNames s = none) (reg : Registry) :
    ((c.replicators.map (replication reg)).map Replication.field).Nodup := by
  refine (nodup_fields h reg).sublist ?_
  have hfields : (c.artifact s reg).fields = c.fieldGroups s.runtimePath reg := rfl
  rw [hfields, flatten_fieldGroups, map_map]
  exact sublist_append_right _ _

lemma held_of_builds (h : Store.Builds steps t base) (hroot : c.root = some t) {o : Node}
    (ho : o ∈ c.objects) : ∃ i, base.held o.slot = some (.node i) := by
  rw [objects_of_root hroot] at ho
  obtain ⟨i, hi⟩ := mem_iff_getElem?.mp ho
  exact ⟨i, h.held i o hi⟩

/-- What the check of a class assures: its construction builds a tree, and its replicators are
sound. -/
structure Grounded (c : Class) (s : Settings) (reg : Registry) (t : Object) (base : Store) :
    Prop where
  root : c.root = some t
  builds : Store.Builds (c.artifact s reg).construction.steps t base
  names : c.checkNames s = none
  sound : ∀ r ∈ c.replicators, ReplicatorSound c reg r

lemma exists_grounded {c : Class} (h : c.check s reg = .passed) :
    ∃ t base, c.Grounded s reg t base := by
  obtain ⟨-, ⟨t, hroot⟩, hfaults, hnames⟩ := check_eq_passed_iff.mp h
  obtain ⟨-, -, hreplicators, -⟩ := faults_eq_some_nil_iff.mp hfaults
  obtain ⟨base, hbase⟩ := builds_construction hfaults hnames hroot
  exact ⟨t, base, hroot, hbase, hnames,
    fun r hr => ((replicatorsFaults_eq_nil_iff.mp hreplicators).1 r hr).1⟩

lemma Grounded.rooted (g : c.Grounded s reg t base) :
    Rooted base (jobsOf (c.artifact s reg).replications) := by
  intro job hjob
  obtain ⟨q, hq, hcopy⟩ := mem_flatMap.mp hjob
  obtain ⟨r, hr, rfl⟩ := mem_map.mp hq
  obtain rfl := eq_of_mem_replicate hcopy
  obtain ⟨o, hid⟩ := (g.sound r hr).parent
  obtain ⟨ho, hparent⟩ := mem_objects_of_byId hid
  obtain ⟨i, hi⟩ := held_of_builds g.builds g.root ho
  refine ⟨i, Store.node?_eq_some_iff.mpr ?_⟩
  rw [← hi, Node.slot, hparent]
  rfl

lemma evaluation_slot_of_builds (h : Store.Builds steps t base) (hroot : c.root = some t)
    {b : BoundProperty} (hb : b ∈ c.bindings) :
    ∃ i, base.held b.evaluation.slot = some (.node i) := by
  obtain ⟨o, ho, hb⟩ := mem_flatMap.mp hb
  obtain ⟨p, -, rfl⟩ := mem_map.mp hb
  exact held_of_builds h hroot ho

lemma length_collected_replicator (hnames : c.checkNames s = none) (hr : r ∈ c.replicators)
    (hsound : ReplicatorSound c reg r) :
    ∃ n, r.count.count = .ok n ∧ (collected (c.planned.map (replication reg)) c.planned.length
      (Naming.replicatorField r.id)).length = n := by
  obtain ⟨n, hn⟩ := hsound.count
  have hcount : (replication reg r).count = n := by simp [replication, hn, Except.toOption]
  have hcollected := length_collected (nodup_replicatorFields hnames reg)
    (mem_map_of_mem hr)
  rw [jobsOf_replicators, length_map, hcount] at hcollected
  exact ⟨n, hn, hcollected⟩

/-- A class with a resource and two replicators below one object. -/
def gridOfCells : Class :=
  { name := "Grid"
    resources := [{ name := "font", type := "Font", initializer := "mono" }]
    replicators :=
      [{ id := "cells", className := "Cell", count := .ofNumber (.ofInt 2), parent := "root" },
       { id := "spares", className := "Cell", count := .ofNumber .zero, parent := "root" }]
    root := some (.node { id := "root", type := some .box } []) }

def registryOfCells : Registry where
  table := [("Cell", { name := "Cell" })]
  ordered := List.pairwise_singleton _ _
  named := by simp

end Class

end ReactiveModel
