import ReactiveModel.Proofs.Program
import ReactiveModel.Proofs.Wiring

/-! Properties with values. A setter does nothing when the property has the value already; otherwise
it stores the value and runs the handlers that are connected to the change, in the order of their
connection. A handler sets a bound property in turn, so one call can run through a whole graph of
bindings before it returns. -/

namespace ReactiveModel

open List Option

variable {i : Nat}

/-- What expressions can read: the property of the object in a slot, by the slot and the getter. -/
abbrev View (V : Type) := Text → Text → Option V

/-- An instance whose nodes have properties. -/
structure Scene (V : Type) where
  store : Store := {}
  /-- Values by the number of the node and the getter. -/
  values : Nat → Text → V

namespace Scene

def getterOf (setter : Text) : Text := ⟨setter.bytes.drop 3⟩

/-- The signal that a setter emits, by the getter. -/
def changeOf (getter : Text) : Text := "On" ++ getter ++ "Changed"

variable {V : Type}

def view (x : Scene V) : View V := fun slot getter =>
  (x.store.node? slot).map fun i => x.values i getter

def write (x : Scene V) (i : Nat) (getter : Text) (v : V) : Scene V :=
  { x with values := Function.update x.values i (Function.update (x.values i) getter v) }

/-- The handlers that are connected to the change of a property, in the order of connection. -/
def listeners (x : Scene V) (i : Nat) (getter : Text) : List Store.Connection :=
  x.store.connections.filter fun k => k.source == i && k.signal == changeOf getter

variable [DecidableEq V]

/-- Calls the setter of the object in a slot with the value of an expression. Calls may be nested to
a given depth; there is no result when this is not enough, or when something unassigned is read. -/
def set (eval : Text → View V → Option V) (a : Artifact) :
    Nat → Scene V → Text → Text → Text → Option (Scene V)
  | 0, _, _, _, _ => none
  | depth + 1, x, slot, setter, text => do
    let i ← x.store.node? slot
    let v ← eval text x.view
    if x.values i (getterOf setter) = v then some x
    else
      (x.listeners i (getterOf setter)).foldlM
        (fun y k => do
          let method ← y.store.handler? k.handler
          let e ← a.evaluations.find? (·.method == method)
          set eval a depth y e.slot e.setter e.expression)
        (x.write i (getterOf setter) v)

def step (eval : Text → View V → Option V) (a : Artifact) (depth : Nat) (x : Scene V)
    (s : ObjectStep) : Option (Scene V) := do
  let store ← x.store.step s
  match s with
  | .set slot setter text => set eval a depth { x with store } slot setter text
  | _ => some { x with store }

def run (eval : Text → View V → Option V) (a : Artifact) (depth : Nat) (x : Scene V)
    (steps : List ObjectStep) : Option (Scene V) :=
  steps.foldlM (step eval a depth) x

@[simp] lemma run_cons (eval : Text → View V → Option V) (a : Artifact) (depth : Nat)
    (x : Scene V) (s : ObjectStep) (steps : List ObjectStep) :
    x.run eval a depth (s :: steps) = (x.step eval a depth s).bind (·.run eval a depth steps) := rfl

lemma run_append (eval : Text → View V → Option V) (a : Artifact) (depth : Nat) (x : Scene V)
    (xs ys : List ObjectStep) :
    x.run eval a depth (xs ++ ys) = (x.run eval a depth xs).bind (·.run eval a depth ys) := by
  simp [run, foldlM_append]

end Scene

/-! Bindings over a store. -/

namespace BoundProperty

def slots (b : BoundProperty) : List Text :=
  b.evaluation.slot :: b.binding.dependencies.map fun d => Naming.memberField d.object

/-- A dependency of a binding is the property of a slot with a getter. -/
def DependsOn (b : BoundProperty) (slot getter : Text) : Prop :=
  ∃ d ∈ b.binding.dependencies,
    Naming.memberField d.object = slot ∧ Naming.getter d.property = getter

def Ready (st : Store) (b : BoundProperty) : Prop :=
  ∀ slot ∈ b.slots, ∃ i, st.held slot = some (.node i)

def Wired (st : Store) (b : BoundProperty) : Prop :=
  ∀ d ∈ b.binding.dependencies, ∃ i, st.held (Naming.memberField d.object) = some (.node i) ∧
    ⟨i, Naming.changedSignal d.property, b.handler⟩ ∈ st.connections

end BoundProperty

namespace Store

/-- A node is in one slot, and a connected handler evaluates a binding of the class on a change of
one of its dependencies, with all that the evaluation reads in place. -/
structure Listens (c : Class) (st : Store) : Prop where
  injective : ∀ {slot slot' i}, st.held slot = some (.node i) → st.held slot' = some (.node i) →
    slot = slot'
  listens : ∀ k ∈ st.connections, ∃ b ∈ c.bindings, k.handler = b.handler ∧
    st.held b.handler = some (.handler b.expression) ∧ b.Ready st ∧
    ∃ d ∈ b.binding.dependencies, st.held (Naming.memberField d.object) = some (.node k.source) ∧
      k.signal = Naming.changedSignal d.property

end Store

namespace Scene

variable {V : Type} {slot : Text}

variable {x : Scene V}

lemma view_eq (h : x.store.held slot = some (.node i)) (getter : Text) :
    x.view slot getter = some (x.values i getter) := by
  simp [view, Store.node?_eq_some_iff.mpr h]

/-- A bound property has the value of its expression. -/
def Current (eval : Text → View V → Option V) (x : Scene V) (b : BoundProperty) : Prop :=
  ∃ v, x.view b.evaluation.slot (Naming.getter b.property) = some v ∧
    eval b.evaluation.expression x.view = some v

end Scene

/-- Expressions of bindings are functions of the values of their dependencies, and literals have a
value whatever the state is. -/
structure Class.Determined {V : Type} (c : Class) (eval : Text → View V → Option V) : Prop where
  bindings : ∀ b ∈ c.bindings, ∀ view : View V,
    (∀ d ∈ b.binding.dependencies,
      (view (Naming.memberField d.object) (Naming.getter d.property)).isSome) →
    ∃ v, ∀ view' : View V,
      (∀ d ∈ b.binding.dependencies,
        view' (Naming.memberField d.object) (Naming.getter d.property) =
          view (Naming.memberField d.object) (Naming.getter d.property)) →
      eval b.evaluation.expression view' = some v
  literals : ∀ o ∈ c.objects, ∀ p ∈ o.properties.table, p.2.isBinding = false →
    ∀ view, (eval p.2.text view).isSome

/-- The bindings of a class as a graph without cycles: the rank of a binding is above the ranks of
those that depend on it. -/
structure Class.Ranked (c : Class) (a : Artifact) (rank : BoundProperty → Nat) : Prop where
  found : ∀ b ∈ c.bindings, a.evaluations.find? (·.method == b.expression) = some b.evaluation
  handlers : ∀ b ∈ c.bindings, ∀ b' ∈ c.bindings, b.handler = b'.handler → b = b'
  targets : ∀ b ∈ c.bindings, ∀ b' ∈ c.bindings, b.evaluation.slot = b'.evaluation.slot →
    Naming.getter b.property = Naming.getter b'.property → b = b'
  descends : ∀ b ∈ c.bindings, ∀ b' ∈ c.bindings,
    b'.DependsOn b.evaluation.slot (Naming.getter b.property) → rank b' < rank b

namespace Scene

variable {b : BoundProperty}

/-! One call of a setter. -/

variable {V : Type} {eval : Text → View V → Option V} {c : Class} {a : Artifact}
  {rank : BoundProperty → Nat} {x y z : Scene V} {n depth depth' : Nat}
  {slot getter setter text : Text} {v : V}

/-- What calls leave alone when they set bound properties of a rank below `n`: the store, all other
properties, and wired bindings that have the value of their expression. -/
structure Within (eval : Text → View V → Option V) (c : Class) (rank : BoundProperty → Nat)
    (n : Nat)
    (x y : Scene V) : Prop where
  store : y.store = x.store
  frame : ∀ slot getter, (∀ b ∈ c.bindings, b.evaluation.slot = slot →
    Naming.getter b.property = getter → n ≤ rank b) → y.view slot getter = x.view slot getter
  keeps : ∀ b ∈ c.bindings, b.Ready x.store → b.Wired x.store → x.Current eval b → y.Current eval b

lemma Within.refl (n : Nat) (x : Scene V) : Within eval c rank n x x :=
  ⟨rfl, fun _ _ _ => rfl, fun _ _ _ _ h => h⟩

lemma Within.trans (h : Within eval c rank n x y) (h' : Within eval c rank n y z) :
    Within eval c rank n x z where
  store := h'.store.trans h.store
  frame slot getter hn := (h'.frame slot getter hn).trans (h.frame slot getter hn)
  keeps b hb hr hw hx := h'.keeps b hb (h.store ▸ hr) (h.store ▸ hw) (h.keeps b hb hr hw hx)

lemma Within.mono {m : Nat} (h : Within eval c rank m x y) (hmn : m ≤ n) :
    Within eval c rank n x y where
  store := h.store
  frame slot getter hn := h.frame slot getter fun b hb hs hg => hmn.trans (hn b hb hs hg)
  keeps := h.keeps

lemma exists_value (hc : c.Determined eval) (hb : b ∈ c.bindings) (hr : b.Ready x.store) :
    ∃ v, eval b.evaluation.expression x.view = some v ∧ ∀ y : Scene V,
      (∀ slot getter, b.DependsOn slot getter → y.view slot getter = x.view slot getter) →
      eval b.evaluation.expression y.view = some v := by
  have hsome : ∀ d ∈ b.binding.dependencies,
      (x.view (Naming.memberField d.object) (Naming.getter d.property)).isSome := by
    intro d hd
    obtain ⟨i, hi⟩ := hr _ (mem_cons_of_mem _ (mem_map.mpr ⟨d, hd, rfl⟩))
    simp [view_eq hi]
  obtain ⟨v, hv⟩ := hc.bindings b hb x.view hsome
  exact ⟨v, hv x.view fun _ _ => rfl, fun y hy => hv y.view fun d hd => hy _ _ ⟨d, hd, rfl, rfl⟩⟩

lemma Current.congr (hc : c.Determined eval) (hb : b ∈ c.bindings)
    (hr : b.Ready x.store) (h : x.Current eval b)
    (htarget : y.view b.evaluation.slot (Naming.getter b.property) =
      x.view b.evaluation.slot (Naming.getter b.property))
    (hdeps : ∀ slot getter, b.DependsOn slot getter → y.view slot getter = x.view slot getter) :
    y.Current eval b := by
  obtain ⟨v, hview, heval⟩ := h
  obtain ⟨w, hw, hsame⟩ := exists_value hc hb hr
  obtain rfl : v = w := by simpa [heval] using hw
  exact ⟨v, htarget.trans hview, hsame y hdeps⟩

variable [DecidableEq V]

/-- Evaluations of bindings that are ready come to an end when calls may be nested deeper than the
rank says, and leave their own binding current. -/
def Settles (eval : Text → View V → Option V) (c : Class) (a : Artifact)
    (rank : BoundProperty → Nat) (depth : Nat) : Prop :=
  ∀ (x : Scene V), x.store.Listens c → ∀ b ∈ c.bindings, b.Ready x.store → rank b < depth →
    ∃ y, x.set eval a depth b.evaluation.slot b.evaluation.setter b.evaluation.expression = some y ∧
      Within eval c rank (rank b + 1) x y ∧ y.Current eval b

lemma exists_foldlM (hrank : c.Ranked a rank) (hset : Settles eval c a rank depth) (hn : n ≤ depth)
    (ks : List Store.Connection) (x : Scene V) (hx : x.store.Listens c)
    (hks : ∀ k ∈ ks, k ∈ x.store.connections)
    (hlow : ∀ k ∈ ks, ∀ b ∈ c.bindings, k.handler = b.handler → rank b < n) :
    ∃ y, ks.foldlM (fun y k => do
        let method ← y.store.handler? k.handler
        let e ← a.evaluations.find? (·.method == method)
        set eval a depth y e.slot e.setter e.expression) x = some y ∧
      Within eval c rank n x y ∧
      ∀ k ∈ ks, ∀ b ∈ c.bindings, b.Ready x.store → b.Wired x.store → k.handler = b.handler →
        y.Current eval b := by
  induction ks generalizing x with
  | nil => exact ⟨x, rfl, .refl n x, fun k hk => nomatch hk⟩
  | cons k ks ih =>
    obtain ⟨b, hb, hkb, hheld, hready, -⟩ := hx.listens k (hks k mem_cons_self)
    have hlt := hlow k mem_cons_self b hb hkb
    obtain ⟨x₁, hset₁, hwithin₁, hcurrent₁⟩ := hset x hx b hb hready (hlt.trans_le hn)
    have hstore := hwithin₁.store
    obtain ⟨y, hfold, hwithin, hcurrent⟩ := ih x₁ (hstore ▸ hx)
      (fun k' hk' => hstore ▸ hks k' (mem_cons_of_mem _ hk'))
      (fun k' hk' => hlow k' (mem_cons_of_mem _ hk'))
    refine ⟨y, ?_, (hwithin₁.mono hlt).trans hwithin, ?_⟩
    · have hhandler : x.store.handler? k.handler = some b.expression :=
        Store.handler?_eq_some_iff.mpr (hkb ▸ hheld)
      simpa [hhandler, hrank.found b hb, hset₁] using hfold
    · intro k' hk' b' hb' hr hw hkb'
      rcases mem_cons.mp hk' with rfl | hk'
      · obtain rfl := hrank.handlers b' hb' b hb (hkb'.symm.trans hkb)
        exact hwithin.keeps b' hb' (hstore ▸ hr) (hstore ▸ hw) hcurrent₁
      · exact hcurrent k' hk' b' hb' (hstore ▸ hr) (hstore ▸ hw) hkb'

end Scene
end ReactiveModel
