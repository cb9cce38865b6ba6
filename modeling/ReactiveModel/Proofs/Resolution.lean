import Mathlib.Data.List.Forall2
import ReactiveModel.Description.Build
import ReactiveModel.Proofs.TreeWalk

/-! What parts of a description stand for. A value is described by its only payload, and an object
by an object of the class it names, with described properties and children. Building succeeds
exactly on what stands for something, and gives what it stands for. -/

namespace ReactiveModel

open List

variable {ε α β : Type} {f : α → Except ε β} {w : Value} {x : Except ε α} {b : β} {xs : List α}

lemma Except.bind_eq_ok_iff : x >>= f = .ok b ↔ ∃ a, x = .ok a ∧ f a = .ok b := by
  cases x <;> simp [bind, Except.bind]

lemma Except.map_eq_ok_iff {f : α → β} : x.map f = .ok b ↔ ∃ a, x = .ok a ∧ f a = b := by
  cases x <;> simp [Except.map]

lemma mapM_eq_ok_iff {ys : List β} :
    xs.mapM f = .ok ys ↔ Forall₂ (fun x y => f x = .ok y) xs ys := by
  induction xs generalizing ys with
  | nil => simp [pure, Except.pure, eq_comm]
  | cons x xs ih =>
    simp only [mapM_cons, Except.bind_eq_ok_iff, ih, forall₂_cons_left_iff]
    simp only [pure, Except.pure, Except.ok.injEq]
    constructor
    · rintro ⟨y, hy, ys, hys, rfl⟩
      exact ⟨y, ys, hy, hys, rfl⟩
    · rintro ⟨y, ys, hy, hys, rfl⟩
      exact ⟨y, hy, ys, hys, rfl⟩

lemma exists_mapM_eq_ok_iff : (∃ ys, xs.mapM f = .ok ys) ↔ ∀ x ∈ xs, ∃ y, f x = .ok y := by
  induction xs with
  | nil => simp [pure, Except.pure]
  | cons x xs ih =>
    rw [forall_mem_cons, ← ih]
    simp only [mapM_cons, Except.bind_eq_ok_iff]
    constructor
    · rintro ⟨-, y, hy, ys, hys, -⟩
      exact ⟨⟨y, hy⟩, ys, hys⟩
    · rintro ⟨⟨y, hy⟩, ys, hys⟩
      exact ⟨y :: ys, y, hy, ys, hys, rfl⟩

namespace ValueDescription

variable {v : ValueDescription}

/-- A value and its description, which holds one payload: a text, a finite number or a binding
with an expression. -/
inductive Describes : ValueDescription → Value → Prop
  | string (s : Text) : Describes { string := some s } (.ofText s)
  | number {x : Binary64} (h : x.isFinite = true) : Describes { number := some x } (.ofNumber x)
  | binding {b : Binding} (h : b.expression ≠ "") : Describes { binding := some b } (.ofBinding b)

lemma fault?_ofText (s : Text) : (Value.ofText s).fault? = none := by
  have hz : Binary64.zero.isZero = true := by decide
  simp [Value.fault?, Value.ofText, hz]

lemma fault?_ofNumber {x : Binary64} : (Value.ofNumber x).fault? = none ↔ x.isFinite = true := by
  cases h : x.isFinite <;> simp [Value.fault?, Value.ofNumber, h]

lemma fault?_ofBinding {b : Binding} : (Value.ofBinding b).fault? = none ↔ b.expression ≠ "" := by
  have hz : Binary64.zero.isZero = true := by decide
  by_cases h : b.expression = "" <;> simp [Value.fault?, Value.ofBinding, h, hz]

lemma Describes.fault?_eq_none (h : v.Describes w) : w.fault? = none := by
  cases h with
  | string s => exact fault?_ofText s
  | number h => exact fault?_ofNumber.mpr h
  | binding h => exact fault?_ofBinding.mpr h

lemma build_some_eq_ok_iff :
    build (some v) = .ok w ↔ v.payloads = 1 ∧ v.only.fault? = none ∧ v.only = w := by
  unfold build
  by_cases hp : v.payloads = 1
  · cases hf : v.only.fault? <;> simp [hp, hf]
  · simp [hp]

lemma build_eq_ok_iff : build (some v) = .ok w ↔ v.Describes w := by
  rw [build_some_eq_ok_iff]
  constructor
  · -- Of the eight ways to hold payloads, three hold one.
    rintro ⟨hp, hf, rfl⟩
    obtain ⟨_ | s, _ | x, _ | b⟩ := v
    case none.none.some => exact .binding (fault?_ofBinding.mp hf)
    case none.some.none => exact .number (fault?_ofNumber.mp hf)
    case some.none.none => exact .string s
    all_goals simp [payloads] at hp
  · intro h
    have hf := h.fault?_eq_none
    cases h <;> exact ⟨rfl, hf, rfl⟩

end ValueDescription

namespace ReplicatorDescription

structure Describes (d : ReplicatorDescription) (r : Replicator) : Prop where
  id : r.id = d.id
  className : r.className = d.className
  count : d.count.Describes r.count
  initializor : r.initializor = d.initializor
  parent : r.parent = d.parent

lemma build_eq_ok_iff {owner : Text} {d : Option ReplicatorDescription} {r : Replicator} :
    build owner d = .ok r ↔ ∃ e, d = some e ∧ e.Describes r := by
  cases d with
  | none => simp [build]
  | some e =>
    unfold build
    cases hc : ValueDescription.build (some e.count) with
    | error m =>
      simp only [hc, reduceCtorEq, Option.some.injEq, exists_eq_left', false_iff]
      intro h
      simp [ValueDescription.build_eq_ok_iff.mpr h.count] at hc
    | ok n =>
      have hn := ValueDescription.build_eq_ok_iff.mp hc
      simp only [hc, Except.ok.injEq, Option.some.injEq, exists_eq_left']
      constructor
      · rintro rfl
        exact ⟨rfl, rfl, hn, rfl, rfl⟩
      · rintro ⟨hid, hclass, hcount, hinit, hparent⟩
        have hok := ValueDescription.build_eq_ok_iff.mpr hcount
        cases r
        simp_all

end ReplicatorDescription

namespace ObjectDescription

variable {lookup : Text → Option Outline} {ds : Table Text (Option ValueDescription)}
  {owner id : Text} {t : Object} {d : ObjectDescription} {o : Node} {e : Text × Value}

/-- A described property and its value. -/
def PropertyDescribes (v : Option ValueDescription) (w : Value) : Prop :=
  ∃ u, v = some u ∧ u.Describes w

/-- The values of an object by name, where all that is described stands for a value. -/
structure PropertiesDescribe (ds : Table Text (Option ValueDescription)) (ps : Properties) :
    Prop where
  valid : ∀ d ∈ ds, ∃ w, PropertyDescribes d.2 w
  values : ∀ name, Option.Rel PropertyDescribes (ds.get? name) (ps.table.get? name)

/-- An object without its children. Its class is the one that the described name stands for. -/
inductive HeadDescribes (lookup : Text → Option Outline) : ObjectDescription → Node → Prop
  | object {id type : Text} {t : Outline} {ds : Table Text (Option ValueDescription)}
      {ps : Properties} {cs : List ObjectDescription}
      (known : lookup type = some t) (properties : PropertiesDescribe ds ps) :
      HeadDescribes lookup (.object id type ds cs) { id, type := some t, properties := ps }

/-- A tree, whose children are described in their order. -/
inductive Describes (lookup : Text → Option Outline) : ObjectDescription → Object → Prop
  | object {id type : Text} {ds : Table Text (Option ValueDescription)}
      {cs : List ObjectDescription} {o : Node} {ts : List Object}
      (head : HeadDescribes lookup (.object id type ds cs) o)
      (children : List.Forall₂ (Describes lookup) cs ts) :
      Describes lookup (.object id type ds cs) (.node o ts)

lemma build_property_iff {v : Option ValueDescription} :
    ValueDescription.build v = .ok w ↔ PropertyDescribes v w := by
  cases v with
  | none => simp [ValueDescription.build, PropertyDescribes]
  | some u => simp [ValueDescription.build_eq_ok_iff, PropertyDescribes]

lemma describe_of_buildProperties {ps : Properties} (h : buildProperties owner id ds = .ok ps) :
    PropertiesDescribe ds ps := by
  induction ds generalizing ps with
  | nil =>
    cases h
    exact ⟨forall_mem_nil _, fun _ => .none⟩
  | cons d ds ih =>
    obtain ⟨name, v⟩ := d
    cases hv : ValueDescription.build v with
    | error m => simp [buildProperties, hv] at h
    | ok w =>
      have hw := build_property_iff.mp hv
      simp only [buildProperties, hv, Except.map_eq_ok_iff] at h
      obtain ⟨qs, hqs, rfl⟩ := h
      obtain ⟨hvalid, hvalues⟩ := ih hqs
      refine ⟨forall_mem_cons.mpr ⟨⟨w, hw⟩, hvalid⟩, fun n => ?_⟩
      rw [Table.get?_cons, Properties.insert, Table.get?_insert]
      split
      · exact .some hw
      · exact hvalues n

lemma exists_buildProperties (owner id : Text)
    (h : ∀ d ∈ ds, ∃ w, PropertyDescribes d.2 w) : ∃ ps, buildProperties owner id ds = .ok ps := by
  induction ds with
  | nil => exact ⟨_, rfl⟩
  | cons d ds ih =>
    obtain ⟨⟨w, hw⟩, hds⟩ := forall_mem_cons.mp h
    obtain ⟨ps, hps⟩ := ih hds
    simp [buildProperties, build_property_iff.mpr hw, hps, Except.map]

/-- A property of all entries, proved of an object from the same property of its children. -/
lemma inductOn {P : ObjectDescription → Prop} (absent : P .absent)
    (object : ∀ id type ds cs, (∀ c ∈ cs, P c) → P (.object id type ds cs))
    (d : ObjectDescription) : P d := by
  cases d with
  | absent => exact absent
  | object id type ds cs => exact object id type ds cs fun c _ => inductOn absent object c

lemma buildAll_eq_mapM (lookup : Text → Option Outline) (owner : Text)
    (cs : List ObjectDescription) : buildAll lookup owner cs = cs.mapM (build lookup owner) := by
  induction cs with
  | nil => rfl
  | cons c cs ih => rw [buildAll, ih, mapM_cons]

lemma build_object_eq_ok_iff {type : Text} {cs : List ObjectDescription} :
    build lookup owner (.object id type ds cs) = .ok t ↔
      ∃ o ps ts, lookup type = some o ∧ buildProperties owner id ds = .ok ps ∧
        cs.mapM (build lookup owner) = .ok ts ∧
        t = .node { id, type := some o, properties := ps } ts := by
  rw [build]
  cases lookup type with
  | none => simp
  | some o =>
    simp only [Except.bind_eq_ok_iff, buildAll_eq_mapM, Option.some.injEq, exists_and_left,
      exists_eq_left']
    simp only [pure, Except.pure, Except.ok.injEq, eq_comm]

lemma describes_of_build (d : ObjectDescription) :
    ∀ t, build lookup owner d = .ok t → d.Describes lookup t := by
  induction d using inductOn with
  | absent => intro t h; simp [build] at h
  | object id type ds cs ih =>
    intro t h
    obtain ⟨o, ps, ts, ho, hps, hts, rfl⟩ := build_object_eq_ok_iff.mp h
    refine .object (.object ho (describe_of_buildProperties hps)) ?_
    have hbuilt := (forall₂_and_left cs ts).mpr ⟨ih, mapM_eq_ok_iff.mp hts⟩
    exact hbuilt.imp fun c t h => h.1 t h.2

mutual

/-- An entry and all entries below it. -/
def entries : ObjectDescription → List ObjectDescription
  | .absent => [.absent]
  | .object id type ds cs => .object id type ds cs :: entriesAll cs

def entriesAll : List ObjectDescription → List ObjectDescription
  | [] => []
  | c :: cs => entries c ++ entriesAll cs

end

/-- Whether an entry is there, names a known class and has only values that stand for one. -/
def Sound (known : Text → Prop) : ObjectDescription → Prop
  | .absent => False
  | .object _ type ds _ => known type ∧ ∀ d ∈ ds, ∃ w, PropertyDescribes d.2 w

lemma entriesAll_eq (cs : List ObjectDescription) : entriesAll cs = cs.flatMap entries := by
  induction cs with
  | nil => rfl
  | cons c cs ih => rw [entriesAll, ih, flatMap_cons]

/-- Building a tree succeeds exactly when every entry is sound. -/
lemma exists_build_iff (owner : Text) (d : ObjectDescription) :
    (∃ t, build lookup owner d = .ok t) ↔
      ∀ e ∈ d.entries, e.Sound fun name => (lookup name).isSome := by
  induction d using inductOn with
  | absent => simp [build, entries, Sound]
  | object id type ds cs ih =>
    rw [entries, entriesAll_eq, forall_mem_cons]
    constructor
    · rintro ⟨t, h⟩
      obtain ⟨o, ps, ts, ho, hps, hts, -⟩ := build_object_eq_ok_iff.mp h
      refine ⟨⟨by simp [ho], (describe_of_buildProperties hps).valid⟩, fun e he => ?_⟩
      obtain ⟨c, hc, hec⟩ := mem_flatMap.mp he
      exact (ih c hc).mp (exists_mapM_eq_ok_iff.mp ⟨ts, hts⟩ c hc) e hec
    · rintro ⟨⟨hknown, hvalid⟩, hbelow⟩
      obtain ⟨o, ho⟩ := Option.isSome_iff_exists.mp hknown
      obtain ⟨ps, hps⟩ := exists_buildProperties owner id hvalid
      obtain ⟨ts, hts⟩ := exists_mapM_eq_ok_iff.mpr fun c hc =>
        (ih c hc).mpr fun e he => hbelow e (mem_flatMap.mpr ⟨c, hc, he⟩)
      exact ⟨_, build_object_eq_ok_iff.mpr ⟨o, ps, ts, ho, hps, hts, rfl⟩⟩

mutual

/-- The objects of a description in the order of a walk, each with the one around it. -/
def withParents (parent : Option ObjectDescription) :
    ObjectDescription → List (Option ObjectDescription × ObjectDescription)
  | .absent => []
  | .object id type ds cs =>
    (parent, .object id type ds cs) :: withParentsAll (.object id type ds cs) cs

def withParentsAll (parent : ObjectDescription) :
    List ObjectDescription → List (Option ObjectDescription × ObjectDescription)
  | [] => []
  | c :: cs => withParents (some parent) c ++ withParentsAll parent cs

end

lemma withParentsAll_eq (d : ObjectDescription) (cs : List ObjectDescription) :
    withParentsAll d cs = cs.flatMap (withParents (some d)) := by
  induction cs with
  | nil => rfl
  | cons c cs ih => rw [withParentsAll, ih, flatMap_cons]

/-- An object and the one above it. -/
def PlaceDescribes (lookup : Text → Option Outline)
    (d : Option ObjectDescription × ObjectDescription) (o : Option Node × Node) : Prop :=
  Option.Rel (HeadDescribes lookup) d.1 o.1 ∧ HeadDescribes lookup d.2 o.2

/-- In a walk over a described tree each object stands below the described one. -/
lemma Describes.withParents (d : ObjectDescription) :
    ∀ {t : Object} {p : Option ObjectDescription} {q : Option Node}, d.Describes lookup t →
      Option.Rel (HeadDescribes lookup) p q →
      Forall₂ (PlaceDescribes lookup) (d.withParents p) (t.withParents q) := by
  induction d using inductOn with
  | absent => intro t p q h; nomatch h
  | object id type ds cs ih =>
    intro t p q h hpq
    cases h with
    | @object _ _ _ _ o ts hhead hchildren =>
      rw [ObjectDescription.withParents, Tree.withParents, withParentsAll_eq,
        Tree.withParentsAll_eq]
      have hbelow := (forall₂_and_left cs ts).mpr ⟨fun c hc => @ih c hc, hchildren⟩
      exact .cons ⟨hpq, hhead⟩
        (rel_flatMap hbelow fun c t h => h.1 h.2 (.some hhead))

lemma HeadDescribes.fault?_eq_none (h : HeadDescribes lookup d o) (he : e ∈ o.properties.table) :
    e.2.fault? = none := by
  cases h with
  | @object _ _ _ ds ps _ _ hps =>
    have hrel := hps.values e.1
    rw [ps.ordered.get?_eq_some he] at hrel
    cases hds : ds.get? e.1 with
    | none => rw [hds] at hrel; nomatch hrel
    | some v =>
      rw [hds] at hrel
      obtain ⟨u, -, hu⟩ : PropertyDescribes v e.2 := by cases hrel; assumption
      exact hu.fault?_eq_none

lemma Describes.fault?_eq_none (h : d.Describes lookup t) (ho : o ∈ t.nodes)
    (he : e ∈ o.properties.table) : e.2.fault? = none := by
  have hplaces := Describes.withParents d h .none
  rw [← Tree.map_snd_withParents t none] at ho
  obtain ⟨q, hq, rfl⟩ := mem_map.mp ho
  obtain ⟨p, -, -, hp⟩ := exists_of_mem hplaces hq
  exact hp.fault?_eq_none he

end ObjectDescription
end ReactiveModel
