import ReactiveModel.Proofs.Initialization

/-! Runs of the initialization that go on from an instance that was used before. They do what they
do for a new instance, beside the nodes that are there, behind what is in the collections and with
numbers that go on. -/

namespace ReactiveModel

open List

variable {ε : Type}

/-! Construction beside nodes that are there already. -/

namespace Store

def Cell.shift (n : Nat) (c : Cell) : Cell := { c with children := c.children.map (n + ·) }

def Held.shift (n : Nat) : Held → Held
  | .node i => .node (n + i)
  | .handler e => .handler e

def Connection.shift (n : Nat) (c : Connection) : Connection := { c with source := n + c.source }

/-- A store with what a run from nothing leaves, behind its own nodes. -/
def extend (st b : Store) : Store where
  cells := st.cells ++ b.cells.map (Cell.shift st.cells.length)
  held name := ((b.held name).map (Held.shift st.cells.length)).or (st.held name)
  connections := st.connections ++ b.connections.map (Connection.shift st.cells.length)

variable {st b b' : Store} {i : Nat} {cell : Cell} {steps : List ObjectStep}

@[simp] lemma extend_empty (st : Store) : st.extend {} = st := by
  simp [extend]

lemma held_extend {name : Text} {h : Held} (hb : b.held name = some h) :
    (st.extend b).held name = some (h.shift st.cells.length) := by
  simp [extend, hb]

lemma node?_extend {slot : Text} (h : b.node? slot = some i) :
    (st.extend b).node? slot = some (st.cells.length + i) :=
  node?_eq_some_iff.mpr (held_extend (node?_eq_some_iff.mp h))

lemma getElem?_extend (h : st.cells[i]? = some cell) (b : Store) :
    (st.extend b).cells[i]? = some cell := by
  rw [← h]
  exact List.getElem?_append_left (List.getElem?_eq_some_iff.mp h).1

lemma getElem?_extend_add (h : b.cells[i]? = some cell) :
    (st.extend b).cells[st.cells.length + i]? = some (cell.shift st.cells.length) := by
  simp only [extend]
  rw [getElem?_append_right (Nat.le_add_right ..)]
  simp [h]

lemma modify_append_map {f g g' : Cell → Cell} (h : ∀ c, g (f c) = f (g' c))
    (before cells : List Cell) (i : Nat) :
    (before ++ cells.map f).modify (before.length + i) g =
      before ++ (cells.modify i g').map f := by
  induction before with
  | nil =>
    refine ext_getElem? fun j => ?_
    by_cases hj : i = j
    · cases hc : cells[j]? <;> simp [hj, hc, h]
    · simp [hj]
  | cons c before ih =>
    rw [length_cons, Nat.add_right_comm]
    simp [ih]

lemma extend_update (st b : Store) (name : Text) (h : Held) :
    Function.update (st.extend b).held name (some (h.shift st.cells.length)) =
      (st.extend { b with held := Function.update b.held name (some h) }).held := by
  funext x
  by_cases hx : x = name
  · subst hx
    simp [extend]
  · simp [extend, hx]

/-- A step does beside other nodes what it does alone. -/
lemma extend_step {a : ObjectStep} (h : b.step a = some b') :
    (st.extend b).step a = some (st.extend b') := by
  cases a with
  | allocate slot alloc =>
    obtain rfl := Option.some.inj h
    have hheld := extend_update st b slot (.node b.cells.length)
    simp [step, extend, Cell.shift] at hheld ⊢
    exact hheld
  | set slot setter text =>
    obtain ⟨i, hi, h⟩ := Option.bind_eq_some_iff.mp h
    obtain rfl := Option.some.inj h
    rw [step_set (held_extend (node?_eq_some_iff.mp hi))]
    have hset (c : Cell) : (c.shift st.cells.length).addSetting setter text =
        (c.addSetting setter text).shift st.cells.length := rfl
    have hcells := modify_append_map hset st.cells b.cells i
    simp [extend, hcells]
  | assign handler expression =>
    obtain rfl := Option.some.inj h
    have hheld := extend_update st b handler (.handler expression)
    simp [step, extend] at hheld ⊢
    exact hheld
  | connect source signal handler =>
    obtain ⟨i, hi, h⟩ := Option.bind_eq_some_iff.mp h
    obtain ⟨e, he, h⟩ := Option.bind_eq_some_iff.mp h
    obtain rfl := Option.some.inj h
    rw [step_connect (held_extend (node?_eq_some_iff.mp hi))
      (held_extend (handler?_eq_some_iff.mp he))]
    simp [extend, Connection.shift]
  | attach parent child =>
    obtain ⟨p, hp, h⟩ := Option.bind_eq_some_iff.mp h
    obtain ⟨i, hi, h⟩ := Option.bind_eq_some_iff.mp h
    obtain rfl := Option.some.inj h
    rw [step_attach (held_extend (node?_eq_some_iff.mp hp)) (held_extend (node?_eq_some_iff.mp hi))]
    have hchild (c : Cell) : (c.shift st.cells.length).addChild (st.cells.length + i) =
        (c.addChild i).shift st.cells.length := by
      simp [Cell.addChild, Cell.shift]
    have hcells := modify_append_map hchild st.cells b.cells p
    simp [extend, hcells]

lemma extend_run (h : b.run steps = some b') : (st.extend b).run steps = some (st.extend b') := by
  induction steps generalizing b with
  | nil =>
    obtain rfl := Option.some.inj h
    rfl
  | cons a steps ih =>
    obtain ⟨b₁, hstep, hrun⟩ := Option.bind_eq_some_iff.mp h
    rw [run_cons, extend_step hstep]
    exact ih hrun

/-- What is built from nothing is built beside any nodes. -/
lemma run_extend (h : Store.run {} steps = some b) (st : Store) :
    st.run steps = some (st.extend b) := by
  have hrun : (st.extend {}).run steps = some (st.extend b) := extend_run h
  rwa [extend_empty] at hrun

end Store

/-! Runs that go on from an instance that was used before. -/

/-- The surroundings that are left after some acquisitions and instances. -/
def Surroundings.after (w : Surroundings ε) (acquisitions instances : Nat) : Surroundings ε where
  acquire j := w.acquire (acquisitions + j)
  start k := w.start (instances + k)

namespace Statement

/-- A run that went on from `x` is at `y`, where it would be at `u` if nothing was collected and
nothing numbered before. -/
structure Continues (x u y : Instance) : Prop where
  initialized : y.initialized = u.initialized
  store : y.store = u.store
  collections : ∀ field,
    y.collections field = x.collections field ++ (u.collections field).map (x.instances + ·)
  count : y.count = u.count
  current : y.current = x.instances + u.current
  root : y.root = u.root
  acquisitions : y.acquisitions = x.acquisitions + u.acquisitions
  instances : y.instances = x.instances + u.instances

/-- Two runs end in the same way, one of them in what continues `x`. -/
structure Alike (x : Instance) (p q : Instance × Exit ε) : Prop where
  continues : Continues x p.1 q.1
  exit : q.2 = p.2

variable {w : Surroundings ε} {x u y : Instance} {q p : Instance × Exit ε}
  {f g : Instance → Instance × Exit ε}

lemma Alike.exists_eq {e : Exit ε} (h : Alike x (u, e) q) : ∃ y, q = (y, e) ∧ Continues x u y :=
  ⟨q.1, Prod.ext rfl h.exit, h.continues⟩

lemma Alike.andThen (h : Alike x p q) (hfg : ∀ u y, Continues x u y → Alike x (f u) (g y)) :
    Alike x (andThen p f) (andThen q g) := by
  obtain ⟨v, e⟩ := p
  obtain ⟨z, e'⟩ := q
  obtain ⟨hc, rfl : e' = e⟩ := h
  cases e' with
  | next => exact hfg v z hc
  | returned _ => exact ⟨hc, rfl⟩
  | panicked => exact ⟨hc, rfl⟩
  | stuck => exact ⟨hc, rfl⟩

lemma Alike.times (h : ∀ u y, Continues x u y → Alike x (f u) (g y)) (n : Nat)
    (hc : Continues x u y) : Alike x (times f n u) (times g n y) := by
  induction n generalizing u y with
  | zero => exact ⟨hc, rfl⟩
  | succ n ih => exact (h u y hc).andThen fun _ _ hc => ih hc

lemma Alike.map (h : Alike x p q) (f : Exit ε → Exit ε) : Alike x (p.map id f) (q.map id f) :=
  ⟨h.continues, congrArg f h.exit⟩

lemma Continues.collect (h : Continues x u y) (field : Text) (es es' : List Event) :
    Continues x
      { u with
        collections := Function.update u.collections field (u.collections field ++ [u.current])
        events := es }
      { y with
        collections := Function.update y.collections field (y.collections field ++ [y.current])
        events := es' } := by
  refine { h with collections := fun name => ?_ }
  by_cases hn : name = field
  · subst hn
    simp [h.collections, h.current]
  · simp [hn, h.collections]

mutual

/-- A statement does the same in a run that goes on, in what is left of the surroundings. -/
lemma exec_alike : ∀ (s : Statement) {u y : Instance}, Continues x u y →
    Alike x (exec (w.after x.acquisitions x.instances) s u) (exec w s y)
  | .remark _, _, _, h => ⟨h, rfl⟩
  | .declare _ _, _, _, h => ⟨h, rfl⟩
  | .guard _, _, _, h => ⟨h, by simp [exec, h.initialized]⟩
  | .call _ body, _, _, h => (execAll_alike body h).map _
  | .attempt _ body, _, _, h => (execAll_alike body h).map _
  | .object step, u, y, h => by
    simp only [exec, h.store]
    cases u.store.step step with
    | none => exact ⟨h, rfl⟩
    | some store => exact ⟨{ h with store := rfl }, rfl⟩
  | .acquire r what, u, y, h => by
    have hnext : y.acquisitions + 1 = x.acquisitions + (u.acquisitions + 1) := by
      rw [h.acquisitions, Nat.add_assoc]
    simp only [exec, Surroundings.after, ← h.acquisitions]
    cases w.acquire y.acquisitions with
    | none => exact ⟨{ h with acquisitions := hnext }, rfl⟩
    | some e => exact ⟨{ h with acquisitions := hnext }, rfl⟩
  | .setCount n, _, _, h => ⟨{ h with count := rfl }, rfl⟩
  | .loop body, u, y, h => by
    rw [exec, exec, h.count]
    exact Alike.times (fun _ _ hc => execAll_alike body hc) _ h
  | .make _, _, _, h =>
    ⟨{ h with
      current := h.instances
      instances := (congrArg (· + 1) h.instances).trans (Nat.add_assoc ..) }, rfl⟩
  | .start what, u, y, h => by
    simp only [exec, Surroundings.after, ← h.current, h.store]
    cases (w.start y.current).root with
    | ok root => exact ⟨{ h with store := rfl, root := rfl }, rfl⟩
    | error e => exact ⟨{ h with store := rfl }, rfl⟩
  | .collect field, _, _, h => ⟨h.collect field _ _, rfl⟩
  | .verbatim _, _, _, h => ⟨{ h with }, rfl⟩
  | .appendRoot parent, u, y, h => by
    rw [exec, exec, h.store, h.root]
    cases u.store.node? parent with
    | none => exact ⟨h, rfl⟩
    | some p => exact ⟨{ h with store := rfl, root := rfl }, rfl⟩
  | .finish, _, _, h => ⟨{ h with initialized := rfl }, rfl⟩
  | .succeed, _, _, h => ⟨h, rfl⟩

lemma execAll_alike : ∀ (ss : List Statement) {u y : Instance}, Continues x u y →
    Alike x (execAll (w.after x.acquisitions x.instances) ss u) (execAll w ss y)
  | [], _, _, h => ⟨h, rfl⟩
  | s :: ss, _, _, h => (exec_alike s h).andThen fun _ _ hc => execAll_alike ss hc

end

lemma Rooted.extend {base : Store} {jobs : List Replication} (h : Rooted base jobs)
    (st : Store) : Rooted (st.extend base) jobs :=
  fun r hr => (h r hr).imp' _ fun _ hp => Store.node?_extend hp

end Statement

end ReactiveModel
