import ReactiveModel.Description.Document
import ReactiveModel.Proofs.Drafts
import ReactiveModel.Proofs.NumberText

/-! Descriptions from the JSON that is written for them. Every part is read back without a
complaint, as a draft that has nothing behind the end of its lists. -/

namespace ReactiveModel

open List ClassDescription

namespace Json.Decode

variable {k : String} {α β : Type} {v : ValueDescription} {item : Json → α → Decoding α} {new : α}
  {f : β → Json} {g : β → α} {bs : List β}

/-! Members of an object. -/

/-- A field that its own name means. -/
structure IsField (fields : List String) (k : String) : Prop where
  mem : k ∈ fields
  folded : k.toList.all (fun c =>
    (if c == '\u017f' then 's' else if c == '\u212a' then 'k' else c.toLower) == c) = true

instance (fields : List String) (k : String) : Decidable (IsField fields k) :=
  decidable_of_iff (_ ∧ _) ⟨fun h => ⟨h.1, h.2⟩, fun h => ⟨h.1, h.2⟩⟩

lemma IsField.fieldOf_eq {fields : List String} (h : IsField fields k) :
    fieldOf fields (Text.ofString k) = some k := by
  have hfold : foldCase (Text.ofString k) = k := by
    unfold foldCase
    rw [Text.shown_ofString]
    apply String.toList_inj.1
    rw [String.toList_map]
    exact (map_congr_left fun c hc =>
      beq_iff_eq.1 (all_eq_true.1 h.folded c hc)).trans (map_id _)
  unfold fieldOf
  rw [hfold]
  obtain ⟨f, hf⟩ := Option.isSome_iff_exists.1
    (find?_isSome (p := (· == k)).2 ⟨k, h.mem, beq_self_eq_true k⟩)
  have heq : f = k := by simpa using find?_some hf
  rw [hf, heq]

section

variable {α : Type} (strict : Bool) (fields : List String) (set : String → Json → α → Decoding α)
  {old new : α}

/-- What one member of an object does. -/
def enter (old : α) (m : Text × Json) : Decoding α :=
  match fieldOf fields m.1 with
  | some f => set f m.2 old
  | none => do
    if strict then complain (.unknownField m.1.shown)
    return old

/-- The members turn one value into another, without a complaint. -/
def Enters (ms : List (Text × Json)) (old new : α) : Prop :=
  ms.foldlM (enter strict fields set) old = pure new

variable {strict fields set} {ms : List (Text × Json)}

lemma Enters.record_eq (h : Enters strict fields set ms old new) (expected : String) :
    record strict expected fields set (.object ms) old = pure new := h

lemma Enters.append {ms' : List (Text × Json)} {a b c : α} (h : Enters strict fields set ms a b)
    (h' : Enters strict fields set ms' b c) : Enters strict fields set (ms ++ ms') a c := by
  unfold Enters at *
  rw [foldlM_append, h, pure_bind, h']

lemma enters_nil (a : α) : Enters strict fields set [] a a := rfl

variable (hk : IsField fields k)

include hk

lemma enters_member {j : Json} (h : set k j old = pure new) :
    Enters strict fields set (member k j) old new := by
  simp only [Enters, member, enter, foldlM_cons, foldlM_nil, hk.fieldOf_eq, h, bind_pure]

lemma enters_text? {t : Text} (h : set k (.string t) old = pure new) (hempty : t = "" → old = new) :
    Enters strict fields set (text? k t) old new := by
  unfold text?
  split
  case isTrue ht => exact hempty (beq_iff_eq.1 ht) ▸ enters_nil old
  case isFalse => exact enters_member hk h

lemma enters_list? {js : List Json} (h : set k (.array js) old = pure new)
    (hempty : js = [] → old = new) : Enters strict fields set (list? k js) old new := by
  unfold list?
  split
  case isTrue hjs => exact hempty (isEmpty_iff.1 hjs) ▸ enters_nil old
  case isFalse => exact enters_member hk h

lemma enters_some? {β : Type} {f : β → Json} {b : Option β}
    (h : ∀ x, b = some x → set k (f x) old = pure new) (hnone : b = none → old = new) :
    Enters strict fields set (some? k (b.map f)) old new := by
  cases b with
  | none => exact hnone rfl ▸ enters_nil old
  | some x => exact enters_member hk (h x rfl)

end

/-! Lists. -/

lemma listItems_map (h : ∀ b ∈ bs, item (f b) new = pure (g b)) :
    listItems item new (bs.map f) [] = pure (bs.map g) := by
  induction bs with
  | nil => rfl
  | cons b bs ih =>
    obtain ⟨hb, hbs⟩ := forall_mem_cons.1 h
    simp only [map_cons, listItems, headD_nil, tail_nil, hb, ih hbs, pure_bind]

lemma list_map (expected : String) (h : ∀ b ∈ bs, item (f b) new = pure (g b)) :
    list expected item new (.array (bs.map f)) {} = pure ⟨bs.map g, []⟩ := by
  cases bs with
  | nil => rfl
  | cons b bs =>
    have hitems := listItems_map h
    rw [map_cons] at hitems ⊢
    simp only [list, Draft.renew, Draft.places, append_nil, hitems, pure_bind, drop_nil]

lemma optional_object {a : α} {ms : List (Text × Json)} (h : item (.object ms) new = pure a) :
    optional item new (.object ms) none = pure (some a) := by
  show some <$> item (.object ms) new = _
  rw [h, map_pure]

/-! The parts of a description. -/

variable (strict : Bool)

lemma dependency_toJson (d : Dependency) : dependency strict d.toJson {} = pure d := by
  refine Enters.record_eq (Enters.append (b := { object := d.object }) ?_ ?_) _
  · exact enters_member (by decide) rfl
  · exact enters_member (by decide) rfl

lemma binding_toJson (b : Binding) : binding strict b.toJson {} = pure b.draft := by
  have hdependencies := list_map "[]schema.Dependency"
    fun d (_ : d ∈ b.dependencies) => dependency_toJson strict d
  refine Enters.record_eq (Enters.append (b := { expression := b.expression }) ?_ ?_) _
  · exact enters_member (by decide) rfl
  · refine enters_list? (by decide) ?_ fun h => ?_
    · simp [hdependencies, Binding.draft]
    · rw [Binding.draft, map_eq_nil_iff.1 h]

lemma real_ofNumber {x : Binary64} (h : x.isFinite) (old : Binary64) :
    real (ofNumber x) old = pure x := by
  simp only [ofNumber, real, binary64?, Binary64.readDecimal_text .json h, Option.map_some,
    Option.getD_some]

lemma valueDescription_toJson (h : v.isFinite) :
    valueDescription strict v.toJson {} = pure v.draft := by
  refine Enters.record_eq (Enters.append (b := { string := v.string, number := v.number })
    (Enters.append (b := { string := v.string }) ?_ ?_) ?_) _
  · refine enters_some? (by decide) (fun t ht => ?_) fun ht => ?_
    · rw [ht]
      rfl
    · rw [ht]
  · refine enters_some? (by decide) (fun x hx => ?_) fun hx => ?_
    · have hfinite : x.isFinite = true := by simpa [ValueDescription.isFinite, hx] using h
      have hread : optional real .zero (ofNumber x) none = pure (some x) := by
        show some <$> real (ofNumber x) .zero = _
        rw [real_ofNumber hfinite, map_pure]
      simp [hread, hx]
    · rw [hx]
  · refine enters_some? (by decide) (fun b hb => ?_) fun hb => ?_
    · have hread : optional (binding strict) {} b.toJson none = pure (some b.draft) :=
        optional_object (binding_toJson strict b)
      simp [hread, ValueDescription.draft, hb]
    · simp [ValueDescription.draft, hb]

lemma count_toJson (h : v.isFinite) : count v.toJson {} = pure v.draft := by
  have hread := congrFun (valueDescription_toJson false h) none
  simp only [count, hread]
  rfl

lemma replicator_toJson {r : ReplicatorDescription} (h : r.count.isFinite) :
    replicator r.toJson {} = pure r.draft := by
  have hcount := count_toJson h
  refine Enters.record_eq (Enters.append (b := { r.draft with parent := "" })
    (Enters.append (b := { r.draft with initializor := "", parent := "" })
      (Enters.append (b := { id := r.id, className := r.className })
        (Enters.append (b := { id := r.id }) ?_ ?_) ?_) ?_) ?_) _
  · exact enters_member (by decide) rfl
  · exact enters_member (by decide) rfl
  · refine enters_member (by decide) ?_
    simp [hcount, ReplicatorDescription.draft]
  · refine enters_text? (by decide) rfl fun ht => ?_
    simp [ReplicatorDescription.draft, ht]
  · exact enters_member (by decide) rfl

lemma property_toJson (p : Property) : property (propertyToJson p) {} = pure p := by
  refine Enters.record_eq (Enters.append (b := { name := p.name }) ?_ ?_) _
  · exact enters_member (by decide) rfl
  · exact enters_member (by decide) rfl

lemma signal_toJson (s : Signal) : signal (signalToJson s) {} = pure s := by
  refine Enters.record_eq (Enters.append (b := { name := s.name }) ?_ ?_) _
  · exact enters_member (by decide) rfl
  · refine enters_text? (by decide) rfl fun ht => ?_
    rw [← ht]

lemma function_toJson (f : Function) : function (functionToJson f) {} = pure f := by
  exact Enters.record_eq (enters_member (by decide) rfl) _

lemma resource_toJson (r : Resource) : resource (resourceToJson r) {} = pure r := by
  refine Enters.record_eq (Enters.append (b := { name := r.name, type := r.type })
    (Enters.append (b := { name := r.name }) ?_ ?_) ?_) _
  · exact enters_member (by decide) rfl
  · exact enters_member (by decide) rfl
  · exact enters_member (by decide) rfl

/-! Objects. -/

lemma optional_toJson? {v : Option ValueDescription} (h : v.all (·.isFinite) = true) :
    optional (valueDescription true) {} (ValueDescription.toJson? v) none =
      pure (v.map ValueDescription.draft) := by
  cases v with
  | none => rfl
  | some v => exact optional_object (valueDescription_toJson true h)

/-- Entries that come in the order of their keys are put one behind the other. -/
lemma foldlM_properties (ps t : Table Text (Option ValueDescription)) (hps : ps.Ordered)
    (ht : ∀ e ∈ t, ∀ p ∈ ps, e.1 < p.1) (hfinite : ∀ p ∈ ps, p.2.all (·.isFinite) = true) :
    (ps.map fun (k, v) => (k, ValueDescription.toJson? v)).foldlM (fun t (k, v) => do
      let v ← optional (valueDescription true) {} v none
      return t.insert k (v.map ValueDraft.finish)) t = (pure (t ++ ps) : Decoding _) := by
  induction ps generalizing t with
  | nil => rw [append_nil]; rfl
  | cons p ps ih =>
    obtain ⟨k, v⟩ := p
    obtain ⟨hk, hps⟩ := pairwise_cons.1 hps
    obtain ⟨hv, hfinite⟩ := forall_mem_cons.1 hfinite
    have hfinish : (v.map ValueDescription.draft).map ValueDraft.finish = v := by
      cases v with
      | none => rfl
      | some v => exact congrArg some v.finish_draft
    have hlast := Table.insert_last (fun e he => ht e he _ mem_cons_self) v
    have htail : ∀ e ∈ t ++ [(k, v)], ∀ p ∈ ps, e.1 < p.1 := by
      intro e he p hp
      rcases mem_append.1 he with he | he
      · exact ht e he p (mem_cons_of_mem _ hp)
      · exact mem_singleton.1 he ▸ hk p hp
    simp only [map_cons, foldlM_cons, optional_toJson? hv, pure_bind, hfinish, hlast,
      ih (t ++ [(k, v)]) hps htail hfinite, append_assoc, singleton_append]

/-- The fields of an object. -/
abbrev objectFields : List String := ["id", "class", "properties", "children"]

section

variable {id type : Text} {ps : Table Text (Option ValueDescription)} {cs : Draft ObjectDraft}
  {ms : List (Text × Json)}

lemma objectMembers_id (a : Text) :
    objectMembers (Json.text "id" a ++ ms) id type ps cs = objectMembers ms a type ps cs := by
  have hfield : IsField objectFields "id" := (by decide)
  rw [Json.text, member, singleton_append, objectMembers, hfield.fieldOf_eq]
  rfl

lemma objectMembers_class (a : Text) :
    objectMembers (Json.text "class" a ++ ms) id type ps cs = objectMembers ms id a ps cs := by
  have hfield : IsField objectFields "class" := (by decide)
  rw [Json.text, member, singleton_append, objectMembers, hfield.fieldOf_eq]
  rfl

lemma objectMembers_properties (hps : ps.Ordered)
    (hfinite : ps.all (fun p => p.2.all (·.isFinite)) = true) :
    objectMembers (ObjectDescription.propertiesToJson ps ++ ms) id type [] cs =
      objectMembers ms id type ps cs := by
  have hfield : IsField objectFields "properties" := (by decide)
  have hread := foldlM_properties ps [] hps (fun _ he => absurd he not_mem_nil)
    (all_eq_true.1 hfinite)
  unfold ObjectDescription.propertiesToJson
  split
  case isTrue hempty => rw [isEmpty_iff.1 hempty, nil_append]
  case isFalse =>
    rw [member, singleton_append, objectMembers, hfield.fieldOf_eq]
    simp only [properties, hread, pure_bind, nil_append]

lemma objectMembers_children {os : List ObjectDescription}
    (h : objectItems (ObjectDescription.toJsonAll os) [] = pure (ObjectDescription.drafts os)) :
    objectMembers (list? "children" (ObjectDescription.toJsonAll os)) id type ps {} =
      pure (.object id type ps (ObjectDescription.drafts os) []) := by
  have hfield : IsField objectFields "children" := (by decide)
  cases os with
  | nil => rfl
  | cons o os =>
    rw [ObjectDescription.toJsonAll] at h ⊢
    rw [list?, if_neg (by simp), member, objectMembers, hfield.fieldOf_eq]
    simp only [objectList, Draft.places, Draft.renew, append_nil, h, pure_bind, drop_nil,
      objectMembers]
    rfl

end

mutual

lemma object_toJson : ∀ o : ObjectDescription, o.Ordered → o.isFinite = true →
    object o.toJson .absent = pure o.draft
  | .absent, _, _ => rfl
  | .object id type ps cs, hordered, hfinite => by
    obtain ⟨hps, hcs⟩ := hordered
    rw [ObjectDescription.isFinite, Bool.and_eq_true] at hfinite
    have hchildren := objectItems_toJson cs hcs hfinite.2
    rw [ObjectDescription.toJson, object, append_assoc, append_assoc, objectMembers_id,
      objectMembers_class, objectMembers_properties hps hfinite.1, objectMembers_children hchildren]
    rfl

lemma objectItems_toJson : ∀ os : List ObjectDescription,
    ObjectDescription.EverywhereAll (fun _ _ ps => ps.Ordered) os →
    ObjectDescription.isFiniteAll os = true →
    objectItems (ObjectDescription.toJsonAll os) [] = pure (ObjectDescription.drafts os)
  | [], _, _ => rfl
  | o :: os, hordered, hfinite => by
    obtain ⟨ho, hos⟩ := hordered
    rw [ObjectDescription.isFiniteAll, Bool.and_eq_true] at hfinite
    simp only [ObjectDescription.toJsonAll, objectItems, headD_nil, tail_nil,
      object_toJson o ho hfinite.1, objectItems_toJson os hos hfinite.2, pure_bind,
      ObjectDescription.drafts]

end

/-! Classes and documents. -/

lemma optional_replicatorToJson {r : Option ReplicatorDescription}
    (h : r.all (·.count.isFinite) = true) :
    optional replicator {} (replicatorToJson r) none =
      pure (r.map ReplicatorDescription.draft) := by
  cases r with
  | none => rfl
  | some r => exact optional_object (replicator_toJson h)

lemma classDescription_toJson {c : ClassDescription} (hordered : c.root.Ordered)
    (hfinite : c.isFinite) : classDescription c.toJson {} = pure c.draft := by
  rw [isFinite, Bool.and_eq_true, all_eq_true] at hfinite
  have hproperties := list_map "[]schema.Property"
    fun p (_ : p ∈ c.properties) => property_toJson p
  have hsignals := list_map "[]schema.Signal"
    fun s (_ : s ∈ c.signals) => signal_toJson s
  have hfunctions := list_map "[]schema.Function"
    fun f (_ : f ∈ c.functions) => function_toJson f
  have hresources := list_map "[]schema.Resource"
    fun r (_ : r ∈ c.resources) => resource_toJson r
  have hreplicators := list_map "[]*load.Replicator"
    fun r (hr : r ∈ c.replicators) => optional_replicatorToJson (hfinite.1 r hr)
  have hroot := object_toJson c.root hordered hfinite.2
  unfold classDescription toJson
  simp only [append_assoc]
  refine Enters.record_eq ?_ _
  -- the fields one after the other, as they are written
  refine Enters.append (enters_member (by decide) rfl) ?_
  refine Enters.append
    (enters_text? (by decide) rfl fun h => by rw [h]) ?_
  refine Enters.append
    (b := { name := c.name, source := c.source, declarationOnly := c.declarationOnly }) ?_ ?_
  · split
    case isTrue h => exact enters_member (by decide) (by rw [h]; rfl)
    case isFalse h => rw [eq_false_of_ne_true h]; exact enters_nil _
  refine Enters.append
    (b := { c.draft with
      properties := {}, signals := {}, functions := {}, resources := {}, replicators := {},
      root := .absent })
    (enters_text? (by decide) rfl fun h => by rw [draft, h]) ?_
  refine Enters.append
    (b := { c.draft with
      signals := {}, functions := {}, resources := {}, replicators := {}, root := .absent })
    (enters_list? (by decide) (by simp [hproperties, draft])
      fun h => by rw [draft, map_eq_nil_iff.1 h]) ?_
  refine Enters.append
    (b := { c.draft with functions := {}, resources := {}, replicators := {}, root := .absent })
    (enters_list? (by decide) (by simp [hsignals, draft])
      fun h => by rw [draft, map_eq_nil_iff.1 h]) ?_
  refine Enters.append (b := { c.draft with resources := {}, replicators := {}, root := .absent })
    (enters_list? (by decide) (by simp [hfunctions, draft])
      fun h => by rw [draft, map_eq_nil_iff.1 h]) ?_
  refine Enters.append (b := { c.draft with replicators := {}, root := .absent })
    (enters_list? (by decide) (by simp [hresources, draft])
      fun h => by rw [draft, map_eq_nil_iff.1 h]) ?_
  refine Enters.append (b := { c.draft with root := .absent })
    (enters_list? (by decide) (by simp [hreplicators, draft])
      fun h => by rw [draft, map_eq_nil_iff.1 h]; rfl) ?_
  split
  case isTrue h =>
    have habsent : c.root = .absent := by
      cases hc : c.root with
      | absent => rfl
      | object => rw [hc] at h; exact Bool.noConfusion h
    rw [draft, habsent]
    exact enters_nil _
  case isFalse => exact enters_member (by decide) (by simp [hroot, draft])

/-- The JSON of a description stands for this description. -/
lemma document_toJson {d : Description} (hordered : d.Ordered) (hfinite : d.isFinite) :
    document d.toJson = .ok d := by
  have hread : description d.toJson {} = pure d.draft := by
    refine Enters.record_eq (enters_member (by decide) ?_) _
    obtain ⟨_ | cs⟩ := d
    · rfl
    · simp only [Option.getD_none, Description.draft, Option.map_some]
      rw [list_map _ fun c hc => ?_, pure_bind]
      cases c with
      | none => rfl
      | some c =>
        refine optional_object (classDescription_toJson (hordered c hc) ?_)
        exact all_eq_true.1 hfinite (some c) hc
  unfold document
  rw [hread]
  show Except.ok d.draft.finish = .ok d
  rw [d.finish_draft]

end Json.Decode

end ReactiveModel
