import ReactiveModel.Proofs.Accounting
import ReactiveModel.Proofs.DeclarationOrder

/-! Registries under additions. An addition that fails changes nothing, so a registry is what the
successful additions have put into it, and their order does not show. -/

namespace ReactiveModel

open List

/-- A registry, with the classes that were added to it. -/
structure Additions where
  registry : Registry := {}
  added : List Class := []

namespace Additions

/-- One more addition, which may fail. -/
def next (a : Additions) (x : Option Class) : Additions :=
  match x, a.registry.add x with
  | some c, .ok r => ⟨r, a.added ++ [c]⟩
  | _, _ => a

/-- Additions one after the other, to an empty registry. -/
def ofList (xs : List (Option Class)) : Additions := xs.foldl next {}

variable {a : Additions}

lemma next_of_error {x : Option Class} {e : Registry.Refusal} (h : a.registry.add x = .error e) :
    a.next x = a := by
  unfold next
  rw [h]
  cases x <;> rfl

lemma next_of_ok {c : Class} {r : Registry} (h : a.registry.add (some c) = .ok r) :
    a.next (some c) = ⟨r, a.added ++ [c]⟩ := by
  unfold next
  rw [h]

lemma ofList_append (xs : List (Option Class)) (x : Option Class) :
    ofList (xs ++ [x]) = (ofList xs).next x := by
  simp [ofList]

end Additions

namespace Registry

/-- Exactly some classes are found, each under its name. -/
structure Finds (r : Registry) (cs : List Class) : Prop where
  lookup : ∀ n c, r.lookup n = some c ↔ c ∈ cs ∧ c.name = n
  once : (cs.map fun c => c.name).Nodup

variable {r r' : Registry} {cs : List Class} {c : Class}

lemma finds_nil : Finds {} [] where
  lookup n c := by simp [Registry.lookup]
  once := nodup_nil

lemma Finds.lookup_eq_none_iff (h : r.Finds cs) {n : Text} :
    r.lookup n = none ↔ ∀ c ∈ cs, c.name ≠ n := by
  rw [Option.eq_none_iff_forall_ne_some]
  simp [h.lookup]

/-- The step lemma: a class that is added was not found before. -/
lemma Finds.add (h : r.Finds cs) (hr : r.add (some c) = .ok r') : r'.Finds (cs ++ [c]) := by
  have hnew := h.lookup_eq_none_iff.mp (exists_add_iff.mp ⟨r', hr⟩).2
  refine ⟨fun n d => ?_, ?_⟩
  · rw [lookup_of_add hr, mem_append, mem_singleton]
    split
    case isTrue hn =>
      subst hn
      constructor
      · intro hd
        obtain rfl := Option.some.inj hd
        exact ⟨.inr rfl, rfl⟩
      · rintro ⟨hd | rfl, hname⟩
        · exact absurd hname (hnew d hd)
        · rfl
    case isFalse hn =>
      rw [h.lookup]
      refine and_congr_left fun hname => ⟨.inl, fun hd => hd.resolve_right ?_⟩
      rintro rfl
      exact hn hname.symm
  · rw [map_append, nodup_append]
    refine ⟨h.once, nodup_singleton _, ?_⟩
    intro n hn m hm heq
    obtain ⟨d, hd, rfl⟩ := mem_map.mp hn
    exact hnew d hd (heq.trans (mem_singleton.mp hm))

lemma Finds.next {a : Additions} (h : a.registry.Finds a.added) (x : Option Class) :
    (a.next x).registry.Finds (a.next x).added := by
  cases hadd : a.registry.add x with
  | error e => rwa [Additions.next_of_error hadd]
  | ok r =>
    cases x with
    | none => nomatch hadd
    | some c =>
      rw [Additions.next_of_ok hadd]
      exact h.add hadd

/-- The run lemma. -/
lemma finds_ofList (xs : List (Option Class)) :
    (Additions.ofList xs).registry.Finds (Additions.ofList xs).added := by
  induction xs using List.reverseRecOn with
  | nil => exact finds_nil
  | append_singleton xs x ih =>
    rw [Additions.ofList_append]
    exact ih.next x

lemma Finds.add_eq_error_iff (h : r.Finds cs) {x : Option Class} :
    (∃ e, r.add x = .error e) ↔
      x = none ∨ ∃ c, x = some c ∧ (c.name.isBlank ∨ ∃ d ∈ cs, d.name = c.name) := by
  cases x with
  | none => exact ⟨fun _ => .inl rfl, fun _ => ⟨_, rfl⟩⟩
  | some c =>
    have hfails : (∃ e, r.add (some c) = .error e) ↔ ¬ ∃ r', r.add (some c) = .ok r' := by
      cases r.add (some c) <;> simp
    rw [hfails, exists_add_iff, h.lookup_eq_none_iff, not_and_or]
    simp

lemma mem_classes_iff : c ∈ r.classes ↔ r.lookup c.name = some c := by
  refine ⟨lookup_name, fun h => ?_⟩
  exact mem_map.mpr ⟨_, Table.mem_of_get? h, rfl⟩

lemma Finds.perm (h : r.Finds cs) : r.classes.Perm cs := by
  have hnodup : r.classes.Nodup := by
    refine r.pairwise_classes.imp ?_
    rintro a b hlt rfl
    exact List.lt_irrefl a.name.bytes hlt
  refine (perm_ext_iff_of_nodup hnodup (Nodup.of_map _ h.once)).mpr fun c => ?_
  simp [mem_classes_iff, h.lookup]

lemma Finds.unique {ds : List Class} (h : r.Finds cs) (h' : r'.Finds ds) (hperm : ds.Perm cs) :
    r' = r := by
  refine ext_lookup fun n => Option.ext fun c => ?_
  rw [h.lookup, h'.lookup, hperm.mem_iff]

/-- At any time, the next addition fails exactly without a class, with a blank name, or with the
name of a class that was added, and then changes nothing. The classes that were added are found by
their names and listed in the order of these; so classes that are added in another order give the
same list. -/
theorem additions_make_registry (xs : List (Option Class)) :
    let a := Additions.ofList xs
    (∀ x, (∃ e, a.registry.add x = .error e) ↔
      x = none ∨ ∃ c, x = some c ∧ (c.name.isBlank ∨ ∃ d ∈ a.added, d.name = c.name)) ∧
    (∀ x e, a.registry.add x = .error e → Additions.ofList (xs ++ [x]) = a) ∧
    (∀ c r, a.registry.add (some c) = .ok r →
      Additions.ofList (xs ++ [some c]) = ⟨r, a.added ++ [c]⟩) ∧
    (a.added.map fun c => c.name).Nodup ∧
    (∀ n c, a.registry.lookup n = some c ↔ c ∈ a.added ∧ c.name = n) ∧
    a.registry.classes.Perm a.added ∧
    (a.registry.classes.Pairwise fun c d => c.name.bytes < d.name.bytes) ∧
    a.registry.generated = a.registry.classes.filter (!·.declarationOnly) ∧
    a.registry.size = a.registry.classes.length ∧
    ∀ ys, (Additions.ofList ys).added.Perm a.added →
      (Additions.ofList ys).registry.classes = a.registry.classes := by
  intro a
  have hfinds : a.registry.Finds a.added := finds_ofList xs
  refine ⟨fun x => hfinds.add_eq_error_iff, fun x e hx => ?_, fun c r hr => ?_, hfinds.once,
    hfinds.lookup, hfinds.perm, a.registry.pairwise_classes, rfl, ?_, fun ys hperm => ?_⟩
  · rw [Additions.ofList_append, Additions.next_of_error hx]
  · rw [Additions.ofList_append, Additions.next_of_ok hr]
  · exact (length_map _).symm
  · rw [hfinds.unique (finds_ofList ys) hperm]

end Registry

end ReactiveModel
