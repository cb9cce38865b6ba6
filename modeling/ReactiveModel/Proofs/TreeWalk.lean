import Mathlib.Data.List.Forall2
import ReactiveModel.Model.Class

/-! The order of a walk, by the structure of the tree: a node, then its subtrees one after the
other. -/

namespace ReactiveModel

open List

lemma exists_of_mem {α β : Type} {p : α → β → Prop} {as : List α} {bs : List β}
    (h : Forall₂ p as bs) {b : β} (hb : b ∈ bs) : ∃ a ∈ as, p a b := by
  induction h with
  | nil => nomatch hb
  | cons hp _ ih =>
    rcases mem_cons.mp hb with rfl | hb
    · exact ⟨_, mem_cons_self, hp⟩
    · obtain ⟨a, ha, hab⟩ := ih hb
      exact ⟨a, mem_cons_of_mem _ ha, hab⟩

namespace Tree

variable {α : Type}

/-- A property of all trees, proved of a node from the same property of its subtrees. -/
lemma inductOn {P : Tree α → Prop} (h : ∀ a ts, (∀ t ∈ ts, P t) → P (.node a ts)) :
    ∀ t : Tree α, P t
  | .node a ts => h a ts fun t _ => inductOn h t

/-- A walk that only collects comes to the end and has the nodes in reverse. -/
def collect (t : Tree α) (s : List α) : Option Empty × List α :=
  walk (fun a s => (.descend, a :: s)) t s

lemma walkAll_collect (ts : List (Tree α))
    (h : ∀ t ∈ ts, ∀ s, t.collect s = (none, t.nodes.reverse ++ s)) (s : List α) :
    walkAll (fun a s => ((.descend : Turn Empty), a :: s)) ts s =
      (none, (ts.flatMap nodes).reverse ++ s) := by
  induction ts generalizing s with
  | nil => rfl
  | cons t ts ih =>
    have ht := h t mem_cons_self s
    simp only [collect] at ht
    rw [walkAll, ht]
    simp only [ih (fun u hu => h u (mem_cons_of_mem _ hu))]
    simp

lemma collect_eq (t : Tree α) : ∀ s, t.collect s = (none, t.nodes.reverse ++ s) := by
  induction t using inductOn with
  | h a ts ih =>
    intro s
    have hs := walkAll_collect ts ih (a :: s)
    have hn := walkAll_collect ts ih [a]
    simp only [collect, nodes, walk, hs, hn]
    simp

@[simp] lemma nodes_node (a : α) (ts : List (Tree α)) :
    (node a ts).nodes = a :: ts.flatMap nodes := by
  have h := walkAll_collect ts (fun t _ => t.collect_eq) [a]
  simp only [nodes, walk, h]
  simp

lemma withParentsAll_eq (a : α) (ts : List (Tree α)) :
    withParentsAll a ts = ts.flatMap (withParents (some a)) := by
  induction ts with
  | nil => rfl
  | cons t ts ih => simp [withParentsAll, ih]

@[simp] lemma map_snd_withParents (t : Tree α) : ∀ p, (withParents p t).map Prod.snd = t.nodes := by
  induction t using inductOn with
  | h a ts ih =>
    intro p
    simp only [withParents, withParentsAll_eq, map_cons, map_flatMap, nodes_node]
    exact congrArg (a :: ·) (flatMap_congr fun t ht => ih t ht (some a))

end Tree
end ReactiveModel
