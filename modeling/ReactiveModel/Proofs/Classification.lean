import Mathlib.Logic.Relation
import ReactiveModel.Proofs.Faults

/-! How failures are classified. A failure has the kinds of everything that it was made from, at any
depth, so what is wrapped around it adds its own kind and takes none away. -/

namespace ReactiveModel

namespace Failure

open Relation

/-- A failure and what it was made from: its cause, or one of the failures that it joins. -/
inductive Unwraps : Failure → Failure → Prop
  | schema (c member m : Text) (f : Failure) : Unwraps (.schema c member m (some f)) f
  | generation (c phase file m : Text) (f : Failure) :
      Unwraps (.generation c phase file m (some f)) f
  | load (c object m : Text) (f : Failure) : Unwraps (.load c object m (some f)) f
  | join {fs : List Failure} {f : Failure} (h : f ∈ fs) : Unwraps (.join fs) f

/-- What stands in a failure at any depth, the failure itself included. -/
def Holds : Failure → Failure → Prop := ReflTransGen Unwraps

variable {f g : Failure} {c m : Text} {cause : Option Failure}

lemma Unwraps.sizeOf_lt (h : f.Unwraps g) : sizeOf g < sizeOf f := by
  cases h with
  | schema => simp only [schema.sizeOf_spec, Option.some.sizeOf_spec]; omega
  | generation => simp only [generation.sizeOf_spec, Option.some.sizeOf_spec]; omega
  | load => simp only [load.sizeOf_spec, Option.some.sizeOf_spec]; omega
  | join hg =>
    have := List.sizeOf_lt_of_mem hg
    simp only [join.sizeOf_spec]
    omega

/-- A property of all failures, proved of a failure from the same property of what it was made
from. -/
lemma inductOn {P : Failure → Prop} (h : ∀ f, (∀ g, f.Unwraps g → P g) → P f) (f : Failure) : P f :=
  h f fun g hg => have := hg.sizeOf_lt; inductOn h g
termination_by sizeOf f

@[simp] lemma unwraps_schema {member : Text} :
    (schema c member m cause).Unwraps g ↔ cause = some g :=
  ⟨by rintro ⟨⟩; rfl, by rintro rfl; exact .schema ..⟩

@[simp] lemma unwraps_generation {phase file : Text} :
    (generation c phase file m cause).Unwraps g ↔ cause = some g :=
  ⟨by rintro ⟨⟩; rfl, by rintro rfl; exact .generation ..⟩

@[simp] lemma unwraps_load {object : Text} : (load c object m cause).Unwraps g ↔ cause = some g :=
  ⟨by rintro ⟨⟩; rfl, by rintro rfl; exact .load ..⟩

@[simp] lemma unwraps_join {fs : List Failure} : (join fs).Unwraps g ↔ g ∈ fs :=
  ⟨by rintro ⟨⟩; assumption, .join⟩

lemma any_iff_step (p : Failure → Bool) (f : Failure) :
    f.any p = true ↔ p f = true ∨ ∃ g, f.Unwraps g ∧ g.any p = true := by
  cases f with
  | schema | generation | load => simp [any, anyCause_eq, Option.any_eq_true]
  | join fs => simp [any, anyPart_eq]
  | _ =>
    refine (or_iff_left ?_).symm
    rintro ⟨g, ⟨⟩, -⟩

lemma any_iff_holds (p : Failure → Bool) (f : Failure) :
    f.any p = true ↔ ∃ g, f.Holds g ∧ p g = true := by
  induction f using inductOn with
  | h f ih =>
    rw [any_iff_step]
    constructor
    · rintro (hf | ⟨g, hg, hany⟩)
      · exact ⟨f, ReflTransGen.refl, hf⟩
      · obtain ⟨e, he, hp⟩ := (ih g hg).mp hany
        exact ⟨e, ReflTransGen.head hg he, hp⟩
    · rintro ⟨e, he, hp⟩
      rcases ReflTransGen.cases_head he with rfl | ⟨g, hg, he⟩
      · exact .inl hp
      · exact .inr ⟨g, hg, (ih g hg).mpr ⟨e, he, hp⟩⟩

lemma has_iff_holds (f : Failure) (k : FailureKind) :
    f.has k = true ↔ ∃ g, f.Holds g ∧ g.kind? = some k := by
  simp [has, any_iff_holds]

lemma stands_iff_holds (f : Failure) (k : FailureKind) :
    f.stands k = true ↔ ∃ g, f.Holds g ∧ (g.kind? = some k ∨ g = .sentinel k) := by
  rw [stands, any_iff_holds]
  refine exists_congr fun g => and_congr_right fun _ => ?_
  cases g <;> simp [kind?]

lemma stands_generation (c phase file m : Text) (cause : Option Failure) (k : FailureKind) :
    (generation c phase file m cause).stands k =
      (some .generation == some k || cause.any (·.stands k)) := by
  rw [stands, any, anyCause_eq]
  simp only [kind?, Bool.or_false]
  rfl

lemma any_join? {p : Failure → Bool} (hp : ∀ fs, p (.join fs) = false)
    (fs : List (Option Failure)) :
    (join? fs).any (any p) = true ↔ ∃ g, some g ∈ fs ∧ g.any p = true := by
  have hparts (g : Failure) : some g ∈ fs ↔ g ∈ fs.filterMap id := by simp
  simp only [hparts, join?]
  cases fs.filterMap id with
  | nil => simp
  | cons h gs => simp [any, anyPart_eq, hp]

/-- A failure has the kinds that stand in it, and stands for these and for those whose own texts
stand in it. What is wrapped around it adds its own kind and nothing else. -/
theorem kinds_stand_in_failure (f : Failure) (k : FailureKind) :
    (f.has k = true ↔ ∃ g, f.Holds g ∧ g.kind? = some k) ∧
    (f.stands k = true ↔ ∃ g, f.Holds g ∧ (g.kind? = some k ∨ g = .sentinel k)) ∧
    (∀ c phase file m,
      ((generation c phase file m (some f)).has k = true ↔ k = .generation ∨ f.has k = true) ∧
      ((generation c phase file m (some f)).stands k = true ↔
        k = .generation ∨ f.stands k = true)) ∧
    (∀ c object m,
      (load c object m (some f)).has k = f.has k ∧
      (load c object m (some f)).stands k = f.stands k) ∧
    ∀ fs : List (Option Failure),
      ((join? fs).any (·.has k) = true ↔ ∃ g, some g ∈ fs ∧ g.has k = true) ∧
      ((join? fs).any (·.stands k) = true ↔ ∃ g, some g ∈ fs ∧ g.stands k = true) := by
  have hkind : (some FailureKind.generation == some k) = true ↔ k = .generation := by
    rw [beq_iff_eq, Option.some.injEq, eq_comm]
  refine ⟨f.has_iff_holds k, f.stands_iff_holds k, fun c phase file m => ⟨?_, ?_⟩,
    fun c object m => ⟨rfl, rfl⟩,
    fun fs => ⟨any_join? (fun _ => rfl) fs, any_join? (fun _ => rfl) fs⟩⟩
  · rw [has_generation, Bool.or_eq_true, hkind, Option.any_some]
  · rw [stands_generation, Bool.or_eq_true, hkind, Option.any_some]

end Failure

end ReactiveModel
