import ReactiveModel.Description.Draft
import ReactiveModel.Proofs.Utf8

/-! Drafts of finished descriptions. A description that is read into fresh drafts leaves nothing
behind the end of its lists, and the drafts are finished as the description. -/

namespace ReactiveModel

open List

def Binding.draft (b : Binding) : BindingDraft := ⟨b.expression, ⟨b.dependencies, []⟩⟩

def ValueDescription.draft (v : ValueDescription) : ValueDraft :=
  ⟨v.string, v.number, v.binding.map Binding.draft⟩

def ReplicatorDescription.draft (r : ReplicatorDescription) : ReplicatorDraft :=
  ⟨r.id, r.className, r.count.draft, r.initializor, r.parent⟩

lemma ValueDescription.finish_draft (v : ValueDescription) : v.draft.finish = v := by
  obtain ⟨s, n, _ | b⟩ := v <;> rfl

lemma ReplicatorDescription.finish_draft (r : ReplicatorDescription) : r.draft.finish = r := by
  simp only [draft, ReplicatorDraft.finish, ValueDescription.finish_draft]

namespace ObjectDescription

mutual

def draft : ObjectDescription → ObjectDraft
  | .absent => .absent
  | .object id type ps cs => .object id type ps (drafts cs) []

def drafts : List ObjectDescription → List ObjectDraft
  | [] => []
  | o :: os => o.draft :: drafts os

end

mutual

lemma finish_draft : ∀ o : ObjectDescription, o.draft.finish = o
  | .absent => rfl
  | .object id type ps cs => by rw [draft, ObjectDraft.finish, finishAll_drafts cs]

lemma finishAll_drafts : ∀ os : List ObjectDescription, ObjectDraft.finishAll (drafts os) = os
  | [] => rfl
  | o :: os => by rw [drafts, ObjectDraft.finishAll, finish_draft o, finishAll_drafts os]

end

end ObjectDescription

def ClassDescription.draft (c : ClassDescription) : ClassDraft where
  name := c.name
  source := c.source
  declarationOnly := c.declarationOnly
  alloc := c.alloc
  properties := ⟨c.properties, []⟩
  signals := ⟨c.signals, []⟩
  functions := ⟨c.functions, []⟩
  resources := ⟨c.resources, []⟩
  replicators := ⟨c.replicators.map (·.map ReplicatorDescription.draft), []⟩
  root := c.root.draft

lemma map_finish_draft {α β : Type} {draft : α → β} {finish : β → α} (h : ∀ a, finish (draft a) = a)
    (as : List (Option α)) : (as.map (·.map draft)).map (·.map finish) = as := by
  rw [map_map]
  refine (map_congr_left fun a _ => ?_).trans (map_id _)
  cases a with
  | none => rfl
  | some a => exact congrArg some (h a)

lemma ClassDescription.finish_draft (c : ClassDescription) : c.draft.finish = c := by
  simp only [draft, ClassDraft.finish, ObjectDescription.finish_draft,
    map_finish_draft ReplicatorDescription.finish_draft]

def Description.draft (d : Description) : DescriptionDraft :=
  ⟨d.classes.map fun cs => ⟨cs.map (·.map ClassDescription.draft), []⟩⟩

lemma Description.finish_draft (d : Description) : d.draft.finish = d := by
  obtain ⟨_ | cs⟩ := d
  · rfl
  · simp only [draft, DescriptionDraft.finish, Option.map_some,
      map_finish_draft ClassDescription.finish_draft]

/-! What holds of all parts of a description. -/

namespace ObjectDescription

mutual

/-- A property of the objects of a tree, one by one. -/
def Everywhere (P : Text → Text → Table Text (Option ValueDescription) → Prop) :
    ObjectDescription → Prop
  | .absent => True
  | .object id type ps cs => P id type ps ∧ EverywhereAll P cs

def EverywhereAll (P : Text → Text → Table Text (Option ValueDescription) → Prop) :
    List ObjectDescription → Prop
  | [] => True
  | o :: os => o.Everywhere P ∧ EverywhereAll P os

end

end ObjectDescription

def Dependency.IsUtf8 (d : Dependency) : Prop := d.object.IsUtf8 ∧ d.property.IsUtf8

def Binding.IsUtf8 (b : Binding) : Prop :=
  b.expression.IsUtf8 ∧ ∀ d ∈ b.dependencies, d.IsUtf8

def ValueDescription.IsUtf8 (v : ValueDescription) : Prop :=
  (∀ t, v.string = some t → t.IsUtf8) ∧ ∀ b, v.binding = some b → b.IsUtf8

def ReplicatorDescription.IsUtf8 (r : ReplicatorDescription) : Prop :=
  r.id.IsUtf8 ∧ r.className.IsUtf8 ∧ r.count.IsUtf8 ∧ r.initializor.IsUtf8 ∧ r.parent.IsUtf8

def ObjectDescription.IsUtf8 : ObjectDescription → Prop :=
  Everywhere fun id type ps =>
    id.IsUtf8 ∧ type.IsUtf8 ∧ ∀ p ∈ ps, p.1.IsUtf8 ∧ ∀ v, p.2 = some v → v.IsUtf8

/-- The keys of property maps increase, so that each stands there once. -/
def ObjectDescription.Ordered : ObjectDescription → Prop := Everywhere fun _ _ ps => ps.Ordered

structure ClassDescription.IsUtf8 (c : ClassDescription) : Prop where
  name : c.name.IsUtf8
  source : c.source.IsUtf8
  alloc : c.alloc.IsUtf8
  properties : ∀ p ∈ c.properties, p.name.IsUtf8 ∧ p.type.IsUtf8
  signals : ∀ s ∈ c.signals, s.name.IsUtf8 ∧ s.signature.IsUtf8
  functions : ∀ f ∈ c.functions, f.signature.IsUtf8
  resources : ∀ r ∈ c.resources, r.name.IsUtf8 ∧ r.type.IsUtf8 ∧ r.initializer.IsUtf8
  replicators : ∀ r, some r ∈ c.replicators → r.IsUtf8
  root : c.root.IsUtf8

/-- All texts of a description are of characters. -/
def Description.IsUtf8 (d : Description) : Prop :=
  ∀ c, some c ∈ d.classes.getD [] → c.IsUtf8

/-- All property maps of a description are ordered. -/
def Description.Ordered (d : Description) : Prop :=
  ∀ c, some c ∈ d.classes.getD [] → c.root.Ordered

namespace Table

variable {κ α : Type} [LT κ] [DecidableLT κ] [DecidableEq κ] [Std.Irrefl (· < · : κ → κ → Prop)]
  [Trans (· < · : κ → κ → Prop) (· < ·) (· < ·)]

lemma insert_last {t : Table κ α} {k : κ} (h : ∀ e ∈ t, e.1 < k) (v : α) :
    t.insert k v = t ++ [(k, v)] := by
  induction t with
  | nil => rfl
  | cons e t ih =>
    obtain ⟨he, ht⟩ := forall_mem_cons.1 h
    have hlt : ¬k < e.1 := fun hk => Std.Irrefl.irrefl k (Trans.trans hk he)
    have hne : k ≠ e.1 := fun hk => hlt (hk ▸ he)
    simp only [insert, hlt, hne, if_false, ih ht, cons_append]

end Table

end ReactiveModel
