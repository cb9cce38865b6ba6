import Mathlib.Data.Option.Basic
import Mathlib.Data.Option.Defs
import ReactiveModel.Proofs.PackReading

/-! MessagePack documents of descriptions. A description whose lengths can be said is read back from
what is packed for it, in whatever order the entries of its property maps are written. -/

namespace ReactiveModel

open List ClassDescription

open Pack

/-! Descriptions whose lengths can be said. -/

/-- A list of things that fit, which has a length that fits. -/
structure Pack.FitsAll {α : Type} (fits : α → Prop) (as : List α) : Prop where
  length : as.length < lengthLimit
  items : ∀ a ∈ as, fits a

def Dependency.Fits (d : Dependency) : Prop := d.object.Fits ∧ d.property.Fits

def Binding.Fits (b : Binding) : Prop :=
  b.expression.Fits ∧ FitsAll Dependency.Fits b.dependencies

def ValueDescription.Fits (v : ValueDescription) : Prop :=
  (∀ t, v.string = some t → t.Fits) ∧ ∀ b, v.binding = some b → b.Fits

def ReplicatorDescription.Fits (r : ReplicatorDescription) : Prop :=
  r.id.Fits ∧ r.className.Fits ∧ r.count.Fits ∧ r.initializor.Fits ∧ r.parent.Fits

namespace ObjectDescription

mutual

def Fits : ObjectDescription → Prop
  | .absent => True
  | .object id type ps cs =>
    id.Fits ∧ type.Fits ∧
      FitsAll (fun p => p.1.Fits ∧ ∀ v, p.2 = some v → v.Fits) ps ∧
      cs.length < lengthLimit ∧ FitAll cs

def FitAll : List ObjectDescription → Prop
  | [] => True
  | o :: os => o.Fits ∧ FitAll os

end

end ObjectDescription

structure ClassDescription.Fits (c : ClassDescription) : Prop where
  name : c.name.Fits
  source : c.source.Fits
  alloc : c.alloc.Fits
  properties : FitsAll (fun p => p.name.Fits ∧ p.type.Fits) c.properties
  signals : FitsAll (fun s => s.name.Fits ∧ s.signature.Fits) c.signals
  functions : FitsAll (fun f => f.signature.Fits) c.functions
  resources : FitsAll (fun r => r.name.Fits ∧ r.type.Fits ∧ r.initializer.Fits) c.resources
  replicators : FitsAll (fun r => ∀ x, r = some x → x.Fits) c.replicators
  root : c.root.Fits

/-- All texts, lists and maps of a description have lengths that can be said. -/
def Description.Fits (d : Description) : Prop :=
  ∀ cs, d.classes = some cs → FitsAll (fun c => ∀ x, c = some x → x.Fits) cs

/-! The same description with property maps in another order. -/

/-- An object whose property entries, and those of the objects below it, stand in another order. -/
inductive ObjectDescription.Rearranged : ObjectDescription → ObjectDescription → Prop
  | absent : Rearranged .absent .absent
  | object {id type : Text} {ps qs : Table Text (Option ValueDescription)}
      {cs ds : List ObjectDescription} (hps : ps.Perm qs) (hcs : List.Forall₂ Rearranged cs ds) :
      Rearranged (.object id type ps cs) (.object id type qs ds)

lemma ObjectDescription.Rearranged.eq_absent {c d : ObjectDescription} (h : c.Rearranged d)
    (hd : d.isAbsent) : c = .absent := by
  cases h with
  | absent => rfl
  | object => exact Bool.noConfusion hd

def ClassDescription.Rearranged (c d : ClassDescription) : Prop :=
  ∃ root, c.root.Rearranged root ∧ d = { c with root }

def Description.Rearranged (c d : Description) : Prop :=
  Option.Rel (List.Forall₂ (Option.Rel ClassDescription.Rearranged)) c.classes d.classes

namespace Pack

variable {α β : Type} {v : ValueDescription} {item : α → Unpacking α} {new : α}
  {pack : β → List UInt8} {g : β → α}

lemma FitsAll.reads_plainList {fits : β → Prop} {bs : List β} (h : FitsAll fits bs)
    (hitem : ∀ b, fits b → Reads (item new) (pack b) (g b)) :
    Reads (plainList item new {}) (packArray (bs.map pack)) ⟨bs.map g, []⟩ :=
  Pack.reads_plainList (lt_of_eq_of_lt (length_map pack) h.length)
    (forall₂_reads fun b hb => hitem b (h.items b hb))

/-! The parts of a description. -/

lemma reads_dependency {d : Dependency} (h : d.Fits) :
    Reads (dependency {}) (packDependency d) d := by
  refine Enters.record (n := 1 + 1) (.append (b := { object := d.object }) ?_ ?_) (by decide) _
  · exact enters_named (by decide) ((reads_text h.1).map _)
  · exact enters_named (by decide) ((reads_text h.2).map _)

lemma reads_binding {b : Binding} (h : b.Fits) : Reads (binding {}) (packBinding b) b.draft := by
  have hdependencies := h.2.reads_plainList fun d hd => reads_dependency hd
  rw [map_id'] at hdependencies
  refine Enters.record (n := 1 + 1) (.append (b := { expression := b.expression }) ?_ ?_)
    (by decide) _
  · exact enters_named (by decide) ((reads_text h.1).map _)
  · refine enters_list? (by decide) (hdependencies.map _) fun hempty => ?_
    rw [Binding.draft, hempty]

lemma reads_valueDescription (h : v.Fits) : Reads (valueDescription {}) (packValue v) v.draft := by
  refine Enters.record (n := 1 + 1 + 1)
    (.append (b := { string := v.string, number := v.number })
      (.append (b := { string := v.string }) ?_ ?_) ?_) (by decide) _
  · refine enters_some? (by decide) (fun t ht => ?_) fun ht => by rw [ht]
    rw [ht]
    exact (reads_optional_some (starts_packText t) (reads_text (h.1 t ht))).map _
  · refine enters_some? (by decide) (fun x hx => ?_) fun hx => by rw [hx]
    rw [hx]
    exact (reads_optional_some ⟨_, _, rfl, rfl⟩ (reads_real x)).map _
  · refine enters_some? (by decide) (fun b hb => ?_) fun hb => ?_
    · simp only [ValueDescription.draft, hb]
      exact (reads_optional_some (starts_packMap _) (reads_binding (h.2 b hb))).map _
    · simp [ValueDescription.draft, hb]

/-- A count that is written as a map is read as one, however many entries the map has. -/
lemma count_packMap (es : List (Text × List UInt8)) (old : ValueDraft) (rest : List UInt8) :
    count old (packMap es ++ rest) = valueDescription old (packMap es ++ rest) := by
  obtain ⟨code, more, hpack, hcode, -⟩ := exists_packMap es
  rw [hpack]
  show (if code.toNat == 0xc0 then _ else if isMapCode code.toNat then _ else _ : Unpacking _) _ = _
  rw [isNil_of_isMapCode hcode, hcode]
  rfl

lemma reads_count (h : v.Fits) : Reads (count {}) (packValue v) v.draft :=
  fun rest => (count_packMap _ {} rest).trans (reads_valueDescription h rest)

lemma reads_replicator {r : ReplicatorDescription} (h : r.Fits) :
    Reads (replicator {}) (packReplicator r) r.draft := by
  obtain ⟨hid, hclass, hcount, hinitializor, hparent⟩ := h
  refine Enters.record (n := 1 + 1 + 1 + 1 + 1)
    (.append (b := { r.draft with parent := "" })
      (.append (b := { r.draft with initializor := "", parent := "" })
        (.append (b := { id := r.id, className := r.className })
          (.append (b := { id := r.id }) ?_ ?_) ?_) ?_) ?_) (by decide) _
  · exact enters_named (by decide) ((reads_text hid).map _)
  · exact enters_named (by decide) ((reads_text hclass).map _)
  · exact enters_entry (by decide) ((reads_count hcount).map _)
  · refine enters_named? (by decide) ((reads_text hinitializor).map _) fun ht => ?_
    simp [ReplicatorDescription.draft, ht]
  · exact enters_named (by decide) ((reads_text hparent).map _)

lemma reads_property {p : Property} (h : p.name.Fits ∧ p.type.Fits) :
    Reads (property {}) (packProperty p) p := by
  refine Enters.record (n := 1 + 1) (.append (b := { name := p.name }) ?_ ?_) (by decide) _
  · exact enters_named (by decide) ((reads_text h.1).map _)
  · exact enters_named (by decide) ((reads_text h.2).map _)

lemma reads_signal {s : Signal} (h : s.name.Fits ∧ s.signature.Fits) :
    Reads (signal {}) (packSignal s) s := by
  refine Enters.record (n := 1 + 1) (.append (b := { name := s.name }) ?_ ?_) (by decide) _
  · exact enters_named (by decide) ((reads_text h.1).map _)
  · refine enters_named? (by decide) ((reads_text h.2).map _) fun ht => ?_
    rw [← ht]

lemma reads_function {f : Function} (h : f.signature.Fits) :
    Reads (function {}) (packFunction f) f :=
  Enters.record (enters_named (by decide) ((reads_text h).map _)) (by decide) _

lemma reads_resource {r : Resource} (h : r.name.Fits ∧ r.type.Fits ∧ r.initializer.Fits) :
    Reads (resource {}) (packResource r) r := by
  refine Enters.record (n := 1 + 1 + 1) (.append (b := { name := r.name, type := r.type })
    (.append (b := { name := r.name }) ?_ ?_) ?_) (by decide) _
  · exact enters_named (by decide) ((reads_text h.1).map _)
  · exact enters_named (by decide) ((reads_text h.2.1).map _)
  · exact enters_named (by decide) ((reads_text h.2.2).map _)

lemma reads_optional {b : Option β}
    (h : ∀ x, b = some x → Starts (pack x) ∧ Reads (item new) (pack x) (g x)) :
    Reads (optional item new none) (orNil pack b) (b.map g) := by
  cases b with
  | none => exact reads_optional_none item new
  | some x => exact reads_optional_some (h x rfl).1 (h x rfl).2

end Pack

/-! Entries in any order. -/

namespace Table

variable {κ α : Type} [LT κ] [DecidableLT κ] [DecidableEq κ] {t ps : Table κ α}

lemma insert_perm {k : κ} (h : ∀ e ∈ t, e.1 ≠ k) (v : α) : (t.insert k v).Perm ((k, v) :: t) := by
  induction t with
  | nil => exact .refl _
  | cons e t ih =>
    obtain ⟨he, ht⟩ := forall_mem_cons.1 h
    simp only [insert]
    split
    · exact .refl _
    · rw [if_neg he.symm]
      exact ((ih ht).cons e).trans (.swap (k, v) e t)

lemma foldl_insert_perm (h : (t ++ ps).Pairwise fun a b => a.1 ≠ b.1) :
    (ps.foldl (fun t p => t.insert p.1 p.2) t).Perm (t ++ ps) := by
  induction ps generalizing t with
  | nil => rw [append_nil]; exact .refl _
  | cons p ps ih =>
    have hmove : (t.insert p.1 p.2 ++ ps).Perm (t ++ p :: ps) := by
      have hfresh : ∀ e ∈ t, e.1 ≠ p.1 := fun e he =>
        (pairwise_append.1 h).2.2 e he p mem_cons_self
      exact ((insert_perm hfresh p.2).append_right ps).trans perm_middle.symm
    have hdistinct := (hmove.pairwise_iff fun hab => hab.symm).2 h
    exact (ih hdistinct).trans hmove

variable [Std.Irrefl (· < · : κ → κ → Prop)] [Trans (· < · : κ → κ → Prop) (· < ·) (· < ·)]
  [Std.Trichotomous (· < · : κ → κ → Prop)]

/-- The entries of a table make the table, in whatever order they come. -/
lemma ofPairs_of_perm (ht : t.Ordered) (h : t.Perm ps) : ofPairs ps = t := by
  have hirrefl (k : κ) : ¬k < k := Std.Irrefl.irrefl k
  have hdistinct : t.Pairwise fun a b => a.1 ≠ b.1 := by
    refine Pairwise.imp ?_ ht
    intro a b hab heq
    exact hirrefl b.1 (heq ▸ hab)
  have hps : ps.Pairwise fun a b => a.1 ≠ b.1 := (h.pairwise_iff fun hab => hab.symm).1 hdistinct
  refine Perm.eq_of_pairwise (fun a b _ _ hab hba => ?_) (ordered_ofPairs ps) ht
    ((foldl_insert_perm hps).trans h.symm)
  exact absurd (Trans.trans hab hba) (hirrefl _)

end Table

namespace Pack

/-! Objects. -/

variable {qs : Table Text (Option ValueDescription)}

lemma reads_propertyEntries {t : Table Text (Option ValueDescription)}
    (h : ∀ p ∈ qs, p.1.Fits ∧ ∀ v, p.2 = some v → v.Fits) :
    Reads (times (fun t => do
        let key ← text
        let v ← optional valueDescription {} none
        return t.insert key (v.map ValueDraft.finish)) qs.length t)
      (entryBytes (qs.map fun (k, v) => (k, orNil packValue v)))
      (qs.foldl (fun t p => t.insert p.1 p.2) t) := by
  induction qs generalizing t with
  | nil => exact reads_pure t
  | cons p qs ih =>
    obtain ⟨⟨hkey, hvalue⟩, hqs⟩ := forall_mem_cons.1 h
    have hread : Reads (optional valueDescription {} none) (orNil packValue p.2)
        (p.2.map ValueDescription.draft) :=
      reads_optional fun v hv => ⟨starts_packMap _, reads_valueDescription (hvalue v hv)⟩
    have hfinish : (p.2.map ValueDescription.draft).map ValueDraft.finish = p.2 := by
      cases p.2 with
      | none => rfl
      | some v => exact congrArg some v.finish_draft
    have hstep := (reads_text hkey).bind (k := fun key => do
      let v ← optional valueDescription {} none
      return t.insert key (v.map ValueDraft.finish)) (hread.map _)
    rw [hfinish] at hstep
    have htimes := hstep.bind (ih hqs)
    exact htimes

/-- The entries of a property map are read in any order. -/
lemma reads_properties {ps : Table Text (Option ValueDescription)} (hordered : ps.Ordered)
    (hperm : ps.Perm qs) (h : FitsAll (fun p => p.1.Fits ∧ ∀ v, p.2 = some v → v.Fits) ps) :
    Reads (properties []) (packMap (qs.map fun (k, v) => (k, orNil packValue v))) ps := by
  have hentries : Reads _ _ (Table.ofPairs qs) :=
    reads_propertyEntries fun p hp => h.items p (hperm.mem_iff.2 hp)
  rw [Table.ofPairs_of_perm hordered hperm] at hentries
  obtain ⟨code, more, hpack, hcode, hlength⟩ :=
    exists_packMap (qs.map fun (k, v) => (k, orNil packValue v))
  rw [length_map, ← hperm.length_eq] at hlength
  rw [← hperm.length_eq] at hentries
  rw [hpack]
  refine (reads_byte code).bind ?_
  simp only [isExtension_of_isMapCode hcode]
  exact (reads_pure code.toNat).bind ((hlength h.length).bind hentries)

lemma packObjects_eq (os : List ObjectDescription) : packObjects os = os.map packObject := by
  induction os with
  | nil => rfl
  | cons o os ih => rw [packObjects, ih, map_cons]

/-- What is packed for the children of an object is shorter than what is packed for it. -/
lemma length_packObjects_lt (id type : Text) (qs : Table Text (Option ValueDescription))
    (ds : List ObjectDescription) :
    (packObjects ds).flatten.length < (packObject (.object id type qs ds)).length := by
  obtain ⟨code, more, hpack, -⟩ := exists_packMap (named "id" id ++ named "class" type ++
    packProperties qs ++ if ds.isEmpty then [] else entry "children" (packArray (packObjects ds)))
  rw [packObject, hpack, entryBytes, flatMap_append]
  cases ds with
  | nil => simp [packObjects]
  | cons d ds =>
    simp only [isEmpty_cons, Bool.false_eq_true, if_false, entry, flatMap_singleton,
      packArray, length_cons, length_append]
    omega

mutual

/-- An object is read back from its bytes, with fuel that is at least their number. -/
lemma reads_object : ∀ (c d : ObjectDescription), c.Rearranged d → c.Ordered → c.Fits →
    ∀ fuel, (packObject d).length ≤ fuel → Reads (object fuel .absent) (packObject d) c.draft
  | .absent, _, .absent, _, _, fuel + 1, _ => fun _ => rfl
  | .object id type ps cs, .object _ _ qs ds, .object hps hcs, hordered, hfits, fuel, hfuel => by
    obtain ⟨hid, htype, hprops, hlength, hall⟩ := hfits
    have hlt := length_packObjects_lt id type qs ds
    obtain _ | fuel := fuel
    · omega
    have hchildren := reads_objects cs ds hcs hordered.2 hall fuel (by omega)
    have hcount : (packObjects ds).length < lengthLimit := by
      rw [packObjects_eq, length_map, ← hcs.length_eq]
      exact hlength
    refine reads_atNil (starts_packMap _) (Reads.map (a :=
      { id, className := type, properties := ps, children := ⟨ObjectDescription.drafts cs, []⟩ }) ?_
        ObjectFields.toObject)
    refine Enters.record (n := 1 + 1 + 1 + 1)
      (.append (b := { id, className := type, properties := ps })
        (.append (b := { id, className := type })
          (.append (b := { id }) ?_ ?_) ?_) ?_) (by decide) _
    · exact enters_named (by decide) ((reads_text hid).map _)
    · exact enters_named (by decide) ((reads_text htype).map _)
    · unfold packProperties
      split
      case isTrue hempty =>
        rw [isEmpty_iff.1 hempty] at hps
        rw [hps.eq_nil]
        exact enters_nil 1 _
      case isFalse =>
        exact enters_entry (by decide)
          ((reads_properties hordered.1 hps hprops).map _)
    · split
      case isTrue hempty =>
        rw [isEmpty_iff.1 hempty] at hcs
        cases hcs
        exact enters_nil 1 _
      case isFalse =>
        exact enters_entry (by decide) ((reads_plainList hcount hchildren).map _)

lemma reads_objects : ∀ (cs ds : List ObjectDescription),
    Forall₂ ObjectDescription.Rearranged cs ds →
    ObjectDescription.EverywhereAll (fun _ _ ps => ps.Ordered) cs → ObjectDescription.FitAll cs →
    ∀ fuel, (packObjects ds).flatten.length ≤ fuel →
    Forall₂ (Reads (object fuel .absent)) (packObjects ds) (ObjectDescription.drafts cs)
  | [], _, .nil, _, _, _, _ => .nil
  | c :: cs, _ :: ds, .cons h hs, hordered, hfits, fuel, hfuel => by
    rw [packObjects, flatten_cons, length_append] at hfuel
    exact .cons (reads_object c _ h hordered.1 hfits.1 fuel (by omega))
      (reads_objects cs ds hs hordered.2 hfits.2 fuel (by omega))

end

/-! Classes and documents. -/

lemma reads_root {c d : ObjectDescription} (h : c.Rearranged d) (hordered : c.Ordered)
    (hfits : c.Fits) (class' : ClassDraft) :
    Reads (do
      let depth := (← get).length + 1
      return { class' with root := ← object depth .absent }) (packObject d)
      { class' with root := c.draft } := by
  intro rest
  have hfuel : (packObject d).length ≤ (packObject d ++ rest).length + 1 := by
    rw [length_append]
    omega
  exact ((reads_object c d h hordered hfits _ hfuel).map _) rest

lemma reads_classDescription {c d : ClassDescription} (h : c.Rearranged d)
    (hordered : c.root.Ordered) (hfits : c.Fits) :
    Reads (classDescription {}) (packClass d) c.draft := by
  obtain ⟨root, hroot, rfl⟩ := h
  have hproperties := hfits.properties.reads_plainList fun p hp => reads_property hp
  have hsignals := hfits.signals.reads_plainList fun s hs => reads_signal hs
  have hfunctions := hfits.functions.reads_plainList fun f hf => reads_function hf
  have hresources := hfits.resources.reads_plainList fun r hr => reads_resource hr
  have hreplicators := hfits.replicators.reads_plainList fun r hr =>
    reads_optional fun x hx => ⟨starts_packMap _, reads_replicator (hr x hx)⟩
  rw [map_id'] at hproperties hsignals hfunctions hresources
  unfold packClass
  simp only [append_assoc]
  refine Enters.record (n := 1 + (1 + (1 + (1 + (1 + (1 + (1 + (1 + (1 + 1))))))))) ?_ (by decide) _
  -- the fields one after the other, as they are written
  refine .append (b := { name := c.name }) ?_ ?_
  · exact enters_named (by decide) ((reads_text hfits.name).map _)
  refine .append (b := { name := c.name, source := c.source }) ?_ ?_
  · exact enters_named? (by decide) ((reads_text hfits.source).map _) fun h => by rw [h]
  refine .append
    (b := { name := c.name, source := c.source, declarationOnly := c.declarationOnly }) ?_ ?_
  · split
    case isTrue h =>
      rw [h]
      exact enters_entry (by decide) fun _ => rfl
    case isFalse h =>
      rw [eq_false_of_ne_true h]
      exact enters_nil 1 _
  refine .append
    (b := { c.draft with
      properties := {}, signals := {}, functions := {}, resources := {}, replicators := {},
      root := .absent }) ?_ ?_
  · exact enters_named? (by decide) ((reads_text hfits.alloc).map _)
      fun h => by rw [draft, h]
  refine .append
    (b := { c.draft with
      signals := {}, functions := {}, resources := {}, replicators := {}, root := .absent }) ?_ ?_
  · exact enters_list? (by decide) (hproperties.map _)
      fun h => by rw [draft, h]
  refine .append
    (b := { c.draft with
      functions := {}, resources := {}, replicators := {}, root := .absent }) ?_ ?_
  · exact enters_list? (by decide) (hsignals.map _)
      fun h => by rw [draft, h]
  refine .append (b := { c.draft with resources := {}, replicators := {}, root := .absent }) ?_ ?_
  · exact enters_list? (by decide) (hfunctions.map _)
      fun h => by rw [draft, h]
  refine .append (b := { c.draft with replicators := {}, root := .absent }) ?_ ?_
  · exact enters_list? (by decide) (hresources.map _)
      fun h => by rw [draft, h]
  refine .append (b := { c.draft with root := .absent }) ?_ ?_
  · exact enters_list? (by decide) (hreplicators.map _)
      fun h => by rw [draft, h]; rfl
  split
  case isTrue h =>
    rw [draft, hroot.eq_absent h]
    exact enters_nil 1 _
  case isFalse =>
    exact enters_entry (by decide) (reads_root hroot hordered hfits.root _)

lemma reads_classes {cs ds : List (Option ClassDescription)}
    (h : Forall₂ (Option.Rel ClassDescription.Rearranged) cs ds)
    (hordered : ∀ c, some c ∈ cs → c.root.Ordered) (hfits : ∀ c, some c ∈ cs → c.Fits) :
    Forall₂ (Reads (optional classDescription {} none)) (ds.map (orNil packClass))
      (cs.map (·.map draft)) := by
  induction h with
  | nil => exact .nil
  | cons hc _ ih =>
    refine .cons ?_ (ih (fun c hc => hordered c (.tail _ hc)) fun c hc => hfits c (.tail _ hc))
    cases hc with
    | none => exact reads_optional_none classDescription {}
    | some hc =>
      exact reads_optional_some (starts_packMap _)
        (reads_classDescription hc (hordered _ mem_cons_self) (hfits _ mem_cons_self))

lemma reads_description {c d : Description} (h : c.Rearranged d) (hordered : c.Ordered)
    (hfits : c.Fits) : Reads (description {}) d.pack c.draft := by
  refine Enters.record (enters_entry (by decide) ?_) (by decide) _
  obtain ⟨cs⟩ := c
  obtain ⟨ds⟩ := d
  cases h with
  | none => exact fun _ => rfl
  | @some cs ds hclasses =>
    have hfit := hfits cs rfl
    have hcount : (ds.map (orNil packClass)).length < lengthLimit := by
      rw [length_map, ← hclasses.length_eq]
      exact hfit.length
    have hread := reads_classes hclasses hordered fun c hc => hfit.items _ hc c rfl
    exact (reads_list hcount hread).map _

end Pack

namespace Description

/-- A description whose lengths have a place in the format is read back from what is packed for it,
also where the entries of its property maps are written in another order. No longer length can be
read at all. What is written as a map is read as a value where a count is expected, however many
entries it has. -/
theorem pack_round_trip {d e : Description} (h : d.Rearranged e) (hordered : d.Ordered)
    (hfits : d.Fits) :
    (∃ bs, e.encode .msgpack = some bs ∧ decode .msgpack bs = .ok d) ∧
    (∀ code, Pack.Limited (Pack.mapLength code) ∧ Pack.Limited (Pack.arrayLength code) ∧
      Pack.Limited (Pack.stringLength code)) ∧
    ∀ es old rest, Pack.count old (Pack.packMap es ++ rest) =
      Pack.valueDescription old (Pack.packMap es ++ rest) := by
  refine ⟨⟨e.pack, rfl, ?_⟩, fun code => ⟨Pack.limited_mapLength code,
    Pack.limited_arrayLength code, Pack.limited_stringLength code⟩, Pack.count_packMap⟩
  have hread := reads_description h hordered hfits []
  rw [List.append_nil] at hread
  simp only [decode, ofPack, Pack.document, hread, Except.map, d.finish_draft]

/-- A class whose root has the given properties. Some of its entries are missing, and its counts
have no payload or an empty text. -/
def dial (ps : Table Text (Option ValueDescription)) : Description where
  classes := some [none, some {
    name := "Dial"
    properties := [⟨"angle", "float"⟩]
    replicators := [none, some {}, some { id := "marks", count := { string := some "" } }]
    root := .object "root" "" ps [.absent, .object "" "Mark" [] []] }]

/-- No value, one of three payloads with a number that is none, and one of no payload under a key
that is not UTF-8. -/
def dialProperties : Table Text (Option ValueDescription) :=
  [("", none), ("a", some ⟨some "", some ⟨0x7FF8000000000001⟩, some ⟨"b < 1", [⟨"this", "b"⟩]⟩⟩),
    (⟨[0xff]⟩, some {})]

theorem pack_round_trip_dial : (dial dialProperties).Rearranged (dial dialProperties.reverse) ∧
    (dial dialProperties).Ordered ∧ (dial dialProperties).Fits ∧
    (∃ bs, (dial dialProperties.reverse).encode .msgpack = some bs ∧
      decode .msgpack bs = .ok (dial dialProperties)) := by
  have hrearranged : (dial dialProperties).Rearranged (dial dialProperties.reverse) := by
    refine .some (.cons .none (.cons (.some ⟨_, .object (List.reverse_perm _).symm ?_, rfl⟩) .nil))
    exact .cons .absent (.cons (.object (.refl _) .nil) .nil)
  have hordered : (dial dialProperties).Ordered := by
    intro c hc
    simp only [dial, Option.getD_some, List.mem_cons, reduceCtorEq, Option.some.injEq, false_or,
      List.not_mem_nil, or_false] at hc
    subst hc
    exact ⟨by unfold Table.Ordered; decide, trivial, ⟨by unfold Table.Ordered; decide, trivial⟩,
      trivial⟩
  have hvalue : Binding.Fits ⟨"b < 1", [⟨"this", "b"⟩]⟩ :=
    ⟨by decide, by decide, List.forall_mem_singleton.2 ⟨by decide, by decide⟩⟩
  have hproperties : FitsAll (fun p => p.1.Fits ∧ ∀ v, p.2 = some v → v.Fits) dialProperties := by
    refine ⟨by decide, List.forall_mem_cons.2 ⟨⟨by decide, nofun⟩, List.forall_mem_cons.2
      ⟨⟨by decide, ?_⟩, List.forall_mem_singleton.2 ⟨by decide, ?_⟩⟩⟩⟩
    · rintro _ ⟨⟩
      exact ⟨by decide, by rintro _ ⟨⟩; exact hvalue⟩
    · rintro _ ⟨⟩
      exact ⟨nofun, nofun⟩
  have hfits : (dial dialProperties).Fits := by
    rintro _ ⟨⟩
    refine ⟨by decide, List.forall_mem_cons.2 ⟨nofun, List.forall_mem_singleton.2 ?_⟩⟩
    rintro _ ⟨⟩
    constructor
    case root =>
      exact ⟨by decide, by decide, hproperties, by decide, trivial,
        ⟨by decide, by decide, ⟨by decide, nofun⟩, by decide, trivial⟩, trivial⟩
    case replicators =>
      refine ⟨by decide, List.forall_mem_cons.2 ⟨nofun, List.forall_mem_cons.2
        ⟨?_, List.forall_mem_singleton.2 ?_⟩⟩⟩
      · rintro _ ⟨⟩
        exact ⟨by decide, by decide, ⟨nofun, nofun⟩, by decide, by decide⟩
      · rintro _ ⟨⟩
        exact ⟨by decide, by decide, ⟨by decide, nofun⟩, by decide, by decide⟩
    case properties => exact ⟨by decide, List.forall_mem_singleton.2 ⟨by decide, by decide⟩⟩
    all_goals first | decide | exact ⟨by decide, nofun⟩
  exact ⟨hrearranged, hordered, hfits, (pack_round_trip hrearranged hordered hfits).1⟩

/-- A description of one class, which has only a name. -/
def ofName (name : Text) : Description where
  classes := some [some { name }]

/-- Of a length that is one too long for the format nothing is written, so that no name is read. -/
lemma decode_ofName {name : Text} (h : name.bytes.length = Pack.lengthLimit) :
    decode .msgpack (ofName name).pack = .ok (ofName "") := by
  have hread : Reads (description {}) (packMap (entry "classes"
      (packArray [packMap (entry "name" [0xdb, 0, 0, 0, 0])]))) (ofName "").draft := by
    have hlength : Reads (stringLength 0xdb) [0, 0, 0, 0] (some 0) :=
      (reads_word (w := 0) (n := 4) (by decide)).map some
    have hname : Reads text [0xdb, 0, 0, 0, 0] "" :=
      (reads_byte 0xdb).bind (hlength.bind ((@reads_bytes [] 0 rfl).map Text.mk))
    have hclass : Reads (classDescription {}) (packMap (entry "name" [0xdb, 0, 0, 0, 0])) {} :=
      (enters_entry (by decide) (hname.map _)).record (by decide) _
    have hclasses : Reads (list (optional classDescription {}) none {})
        (packArray [packMap (entry "name" [0xdb, 0, 0, 0, 0])]) (some ⟨[some {}], []⟩) :=
      reads_list (by decide) (.cons (reads_optional_some (starts_packMap _) hclass) .nil)
    exact (enters_entry (by decide) (hclasses.map _)).record (by decide) _
  have hpack : (ofName name).pack = packMap (entry "classes"
      (packArray [packMap (entry "name" [0xdb, 0, 0, 0, 0])])) ++ name.bytes := by
    have hname : packText name = [0xdb, 0, 0, 0, 0] ++ name.bytes := by
      rw [packText, h]
      rfl
    have hmap : (ofName name).pack =
      packMap (entry "classes" (packArray [packMap (entry "name" (packText name))])) := rfl
    rw [hmap, hname]
    simp [packMap, packArray, entry]
  rw [hpack, decode, ofPack, document, hread]
  rfl

/-- A name that is one too long is packed, but another one is read back. -/
theorem pack_loses_long_name : ∃ name : Text, name.bytes.length = Pack.lengthLimit ∧
    (ofName name).Ordered ∧ ∃ bs, (ofName name).encode .msgpack = some bs ∧
      decode .msgpack bs = .ok (ofName "") ∧ ofName name ≠ ofName "" := by
  have hlength : (⟨List.replicate Pack.lengthLimit 97⟩ : Text).bytes.length = Pack.lengthLimit :=
    List.length_replicate
  generalize (⟨List.replicate Pack.lengthLimit 97⟩ : Text) = name at hlength
  refine ⟨name, hlength, ?_, _, rfl, decode_ofName hlength, fun h => ?_⟩
  · intro c hc
    obtain rfl := Option.some.inj (List.mem_singleton.mp hc)
    trivial
  · simp only [ofName, mk.injEq, Option.some.injEq, List.cons.injEq, ClassDescription.mk.injEq,
      Outline.mk.injEq] at h
    rw [h.1.1.1] at hlength
    exact absurd hlength (by decide)

end Description

end ReactiveModel
