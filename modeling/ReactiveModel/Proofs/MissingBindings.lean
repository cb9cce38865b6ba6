import ReactiveModel.Proofs.Check

/-! Where a check does not end. It goes on after a fault, so a later part of it meets values that an
earlier part has found faulty. A value of the kind of bindings that carries none is the only one
that it cannot pass. -/

namespace ReactiveModel

open List Naming

/-- The kind says that there is a binding, and there is none. -/
def Value.LacksBinding (v : Value) : Prop := v.kind = .binding ∧ v.binding = none

namespace Class

variable {s : Settings} {reg : Registry} {c : Class} {o : Node} {p : Text × Value}

lemma bindingFaults_eq_none_iff {id : Text} : c.bindingFaults id p = none ↔ p.2.LacksBinding := by
  unfold bindingFaults Value.LacksBinding
  by_cases h : p.2.kind = .binding <;> simp [Value.isBinding, h]

lemma mapM_id_eq_none_iff {α : Type} {xs : List (Option α)} : xs.mapM id = none ↔ none ∈ xs := by
  induction xs with
  | nil => simp
  | cons x xs ih =>
    cases x with
    | none => simp
    | some a =>
      rw [List.mapM_cons, mem_cons, ← ih]
      cases xs.mapM id <;> simp

lemma referenceFaults_eq_none_iff :
    c.referenceFaults = none ↔
      ∃ o ∈ c.objects, ∃ p ∈ o.properties.table, p.2.LacksBinding := by
  unfold referenceFaults
  rw [Option.map_eq_none_iff, mapM_id_eq_none_iff]
  simp only [mem_flatMap, mem_map, bindingFaults_eq_none_iff]

lemma root_isSome_of_mem (ho : o ∈ c.objects) : c.root.isSome = true := by
  cases hroot : c.root with
  | none => simp [objects, hroot] at ho
  | some t => rfl

lemma check_eq_crashed_iff :
    c.check s reg = .crashed ↔
      isName c.name = true ∧ c.root.isSome = true ∧ c.faults reg = none := by
  unfold check
  cases isName c.name with
  | false => simp
  | true =>
    cases c.root with
    | none => simp
    | some t =>
      cases c.faults reg with
      | none => simp
      | some fs =>
        cases fs with
        | nil => cases c.checkNames s <;> simp
        | cons f fs => simp

lemma check_of_mem_faults (hname : isName c.name) (hroot : c.root.isSome)
    {fs : List Failure} (hfs : c.faults reg = some fs) {f : Failure} (hf : f ∈ fs) :
    c.check s reg = .failed (.join fs) := by
  obtain ⟨t, ht⟩ := Option.isSome_iff_exists.mp hroot
  obtain ⟨g, gs, rfl⟩ := exists_cons_of_ne_nil (ne_nil_of_mem hf)
  simp [check, hname, ht, hfs]

/-- What is told of an object with a faulty value. -/
def valueReport (c : Class) (o : Node) (name : Text) (f : Value.Fault) : Failure :=
  if o.id = "" then c.schemaFault "" "object without id"
  else .schema c.name (o.id ++ "." ++ name) "invalid property value" (some (.plain f.message))

lemma valueReport_mem_objectFaults (seen : List Text) (hp : p ∈ o.properties.table)
    {f : Value.Fault} (hf : p.2.fault? = some f) :
    c.valueReport o p.1 f ∈ c.objectFaults seen o := by
  unfold valueReport objectFaults
  by_cases hid : o.id = ""
  · simp [hid]
  · rw [if_neg hid, if_neg (by simpa using hid)]
    refine mem_append_right _ (mem_flatMap.mpr ⟨p, hp, ?_⟩)
    simp [valueFaults, hf]

lemma objectFaults_subset_treeFaults {os : List Node} (seen : List Text) (ho : o ∈ os) :
    ∃ before, c.objectFaults before o ⊆ c.treeFaults seen os := by
  induction os generalizing seen with
  | nil => cases ho
  | cons o' os ih =>
    rcases mem_cons.mp ho with rfl | ho
    · exact ⟨seen, subset_append_left _ _⟩
    · obtain ⟨before, hsub⟩ := ih (o'.id :: seen) ho
      exact ⟨before, fun _ hf => mem_append_right _ (hsub hf)⟩

/-- The check of a class ends unless a value lacks its binding, and then tells of each value that is
faulty. Neither a bad class name nor an object without id lets it get so far. -/
theorem check_ends_iff_no_binding_lacks (s : Settings) (reg : Registry) (c : Class) :
    (c.check s reg = .crashed ↔ isName c.name = true ∧
      ∃ o ∈ c.objects, ∃ p ∈ o.properties.table, p.2.LacksBinding) ∧
    (isName c.name = true → c.check s reg ≠ .crashed →
      ∀ o ∈ c.objects, ∀ p ∈ o.properties.table, ∀ f, p.2.fault? = some f →
        ∃ fs, c.check s reg = .failed (.join fs) ∧ c.valueReport o p.1 f ∈ fs) := by
  have hnone : c.faults reg = none ↔
      ∃ o ∈ c.objects, ∃ p ∈ o.properties.table, p.2.LacksBinding := by
    rw [faults, Option.map_eq_none_iff, referenceFaults_eq_none_iff]
  constructor
  · rw [check_eq_crashed_iff, hnone]
    constructor
    · rintro ⟨hname, -, hlacks⟩
      exact ⟨hname, hlacks⟩
    · rintro ⟨hname, o, ho, hlacks⟩
      exact ⟨hname, root_isSome_of_mem ho, o, ho, hlacks⟩
  · intro hname hends o ho p hp f hf
    have hroot := root_isSome_of_mem ho
    cases hfaults : c.faults reg with
    | none => exact absurd (check_eq_crashed_iff.mpr ⟨hname, hroot, hfaults⟩) hends
    | some fs =>
      obtain ⟨references, -, hrest⟩ := Option.map_eq_some_iff.mp hfaults
      obtain ⟨seen, hsub⟩ := objectFaults_subset_treeFaults (c := c) [] ho
      have hmem := hsub (valueReport_mem_objectFaults seen hp hf)
      have hfs : c.valueReport o p.1 f ∈ fs := by simp [← hrest, hmem]
      exact ⟨fs, check_of_mem_faults hname hroot hfaults hfs, hfs⟩

/-- A class with one object, which has one property. -/
def boxed (v : Value) : Class :=
  { name := "Row"
    root := some (.node
      { id := "box", type := some { name := "Box", declarationOnly := true, alloc := "NewBox()" }
        properties := .ofPairs [("width", v)] } []) }

/-- A number with a text beside it is reported. -/
theorem boxed_number_reported :
    ∃ fs, (boxed { kind := .number, str := "2" }).check {} {} = .failed (.join fs) ∧
      Failure.schema "Row" "box.width" "invalid property value"
        (some (.plain "number value carries another payload")) ∈ fs := by
  have hends : (boxed { kind := .number, str := "2" }).check {} {} ≠ .crashed := by
    obtain ⟨f, hf⟩ : ∃ f, (boxed { kind := .number, str := "2" }).check {} {} = .failed f :=
      ⟨_, rfl⟩
    rw [hf]
    nofun
  exact (check_ends_iff_no_binding_lacks {} {} _).2 (by decide) hends _ (mem_singleton_self _) _
    (mem_singleton_self _) .numberPayload rfl

/-- A binding that is missing is not. -/
theorem boxed_binding_crashes :
    (boxed { kind := .binding }).check {} {} = .crashed := by
  rfl

end Class

end ReactiveModel
