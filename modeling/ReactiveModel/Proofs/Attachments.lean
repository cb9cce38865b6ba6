import Mathlib.Data.List.Nodup
import Mathlib.Data.List.Perm.Subperm
import Mathlib.Logic.Relation
import ReactiveModel.Model.Forest
import ReactiveModel.Proofs.TreeWalk

/-! What a sequence of building steps leaves behind. The lists of children and the links to parents
both follow from the attachments made; they are a tree exactly when nothing is attached twice and
nothing comes to stand below itself. -/

namespace ReactiveModel

open List
namespace Forest

open Relation

inductive Step
  | new (id : Text)
  | set (i : Nat) (name : Text) (v : Value)
  | append (parent : Nat) (children : List Nat)

def act (f : Forest) : Step → Forest
  | .new id => (f.new id).2
  | .set i name v => f.set i name v
  | .append p cs => f.append p cs

def build (steps : List Step) : Forest := steps.foldl act {}

/-- Each step names only objects that are there, when `n` are there at the start. -/
def Scoped : Nat → List Step → Prop
  | _, [] => True
  | n, .new _ :: steps => Scoped (n + 1) steps
  | n, .set i _ _ :: steps => i < n ∧ Scoped n steps
  | n, .append p cs :: steps => (p < n ∧ ∀ c ∈ cs, c < n) ∧ Scoped n steps

def Step.edges : Step → List (Nat × Nat)
  | .append p cs => cs.map (p, ·)
  | _ => []

/-- The attachments, parent before child, in the order they are made. -/
def attachments (steps : List Step) : List (Nat × Nat) := steps.flatMap Step.edges

def children (f : Forest) (i : Nat) : List Nat := ((f.entry? i).map (·.children)).getD []

def parent? (f : Forest) (i : Nat) : Option Nat := (f.entry? i).bind (·.parent)

def Lists (f : Forest) (p c : Nat) : Prop := c ∈ f.children p

/-! ### One step -/

section
variable {f : Forest} {p c i : Nat} {g : Entry → Entry}

lemma entry?_modify (f : Forest) (i j : Nat) (g : Entry → Entry) :
    entry? (f.modify i g) j = if i = j then (f.entry? j).map g else f.entry? j := by
  simp only [modify, entry?, Array.getElem?_modify]

lemma children_modify (h : ∀ e, (g e).children = e.children) (j : Nat) :
    (f.modify i g).children j = f.children j := by
  rw [children, entry?_modify]
  split <;> simp [children, Function.comp_def, h]

lemma parent?_modify (h : ∀ e, (g e).parent = e.parent) (j : Nat) :
    (f.modify i g).parent? j = f.parent? j := by
  rw [parent?, entry?_modify]
  split
  · rw [Option.bind_map]
    exact congrArg _ (funext h)
  · rfl

lemma children_new (f : Forest) (id : Text) (j : Nat) : (f.new id).2.children j = f.children j := by
  simp only [children, entry?, new, Array.getElem?_push]
  split <;> simp_all

lemma parent?_new (f : Forest) (id : Text) (j : Nat) : (f.new id).2.parent? j = f.parent? j := by
  simp only [parent?, entry?, new, Array.getElem?_push]
  split <;> simp_all

lemma entry?_of_lt (h : i < f.entries.size) : ∃ e, f.entry? i = some e :=
  ⟨f.entries[i], Array.getElem?_eq_getElem h⟩

@[simp] lemma size_appendOne : (appendOne p f c).entries.size = f.entries.size := by
  simp [appendOne, modify]

lemma children_appendOne (hp : p < f.entries.size) (j : Nat) :
    (appendOne p f c).children j = if j = p then f.children j ++ [c] else f.children j := by
  obtain ⟨e, he⟩ := entry?_of_lt hp
  simp only [appendOne, children, entry?_modify]
  by_cases hj : p = j
  · subst hj
    rw [if_pos rfl, if_pos rfl, he]
    split <;> rfl
  · rw [if_neg hj, if_neg (Ne.symm hj)]
    split <;> simp [Function.comp_def]

lemma parent?_appendOne (hc : c < f.entries.size) (j : Nat) :
    (appendOne p f c).parent? j = if j = c then some p else f.parent? j := by
  obtain ⟨e, he⟩ := entry?_of_lt hc
  have h := parent?_modify (i := p) (f := f.modify c fun e => { e with parent := some p })
    (g := fun e => { e with children := e.children ++ [c] }) (fun _ => rfl) j
  rw [appendOne, h, parent?, entry?_modify]
  by_cases hj : c = j
  · subst hj
    simp [he]
  · rw [if_neg hj, if_neg (Ne.symm hj), parent?]

end

/-- The lists and the links are those of the attachments `as`: a list has all that was attached
there, a link goes to where its object was attached last. -/
structure Built (f : Forest) (as : List (Nat × Nat)) : Prop where
  bounded : ∀ a ∈ as, a.2 < f.entries.size
  children_eq : ∀ p, f.children p = (as.filter (·.1 == p)).map (·.2)
  parent?_eq : ∀ c, f.parent? c = (as.filter (·.2 == c)).getLast?.map (·.1)

section
variable {f : Forest} {as : List (Nat × Nat)} {p : Nat}

lemma Built.appendOne {c : Nat} (h : Built f as) (hp : p < f.entries.size)
    (hc : c < f.entries.size) : Built (appendOne p f c) (as ++ [(p, c)]) where
  bounded := by
    intro a ha
    rw [size_appendOne]
    rcases mem_append.1 ha with ha | ha
    · exact h.bounded a ha
    · rw [mem_singleton.1 ha]; exact hc
  children_eq j := by
    rw [children_appendOne hp, h.children_eq]
    by_cases hj : p = j
    · simp [hj]
    · simp [hj, Ne.symm hj]
  parent?_eq j := by
    rw [parent?_appendOne hc, h.parent?_eq]
    by_cases hj : c = j
    · simp [hj]
    · simp [hj, Ne.symm hj]

lemma Built.append {cs : List Nat} (h : Built f as) (hp : p < f.entries.size)
    (hcs : ∀ c ∈ cs, c < f.entries.size) :
    Built (f.append p cs) (as ++ cs.map (p, ·)) ∧
      (f.append p cs).entries.size = f.entries.size := by
  induction cs generalizing f as with
  | nil => simpa [append] using h
  | cons c cs ih =>
    have h₁ := h.appendOne hp (hcs c mem_cons_self)
    have h₂ := ih h₁ (by simpa using hp) fun d hd => by
      simpa using hcs d (mem_cons_of_mem _ hd)
    simpa [append] using h₂

variable {steps : List Step}

/-- The run lemma: each step adds its own attachments. -/
lemma Built.foldl (h : Built f as) (hs : Scoped f.entries.size steps) :
    Built (steps.foldl act f) (as ++ attachments steps) := by
  induction steps generalizing f as with
  | nil => simpa [attachments] using h
  | cons a steps ih =>
    rw [attachments, flatMap_cons, ← append_assoc]
    cases a with
    | new id =>
      refine ih ⟨fun a ha => ?_, fun p => ?_, fun c => ?_⟩ ?_
      · have := h.bounded a (by simpa [Step.edges] using ha)
        simp only [act, new, Array.size_push]
        omega
      · simpa [act, children_new, Step.edges] using h.children_eq p
      · simpa [act, parent?_new, Step.edges] using h.parent?_eq c
      · rw [Scoped] at hs
        simpa [act, new] using hs
    | set i name v =>
      refine ih ⟨fun a ha => ?_, fun p => ?_, fun c => ?_⟩ (by simpa [act, set, modify] using hs.2)
      · simpa [act, set, modify] using h.bounded a (by simpa [Step.edges] using ha)
      · simpa [act, set, children_modify, Step.edges] using h.children_eq p
      · simpa [act, set, parent?_modify, Step.edges] using h.parent?_eq c
    | append p cs =>
      obtain ⟨hb, hsize⟩ := h.append hs.1.1 hs.1.2
      exact ih hb (by simpa only [act, hsize] using hs.2)

lemma built (h : Scoped 0 steps) : Built (build steps) (attachments steps) := by
  have hstart : Built {} [] := ⟨by simp, fun p => rfl, fun c => rfl⟩
  exact hstart.foldl h

end

/-! ### Trees -/

/-- The tree that a walk from an object goes through. There is none where the walk never ends. -/
inductive Unfolds (f : Forest) : Nat → Tree Nat → Prop
  | node (i : Nat) {ts : List (Tree Nat)} (h : List.Forall₂ (Unfolds f) (f.children i) ts) :
    Unfolds f i (.node i ts)

structure IsTree (f : Forest) : Prop where
  /-- An object points to the one that lists it. -/
  linked : ∀ c p, f.parent? c = some p ↔ c ∈ f.children p
  once : ∀ p, (f.children p).Nodup
  only : ∀ c p q, c ∈ f.children p → c ∈ f.children q → p = q
  acyclic : ∀ i, ¬ TransGen (fun c p => f.parent? c = some p) i i
  walks : ∀ i < f.entries.size, Unfolds f i (f.tree i)
  visited_once : ∀ i, (f.objects i).Nodup

section
variable {f : Forest} {d i j : Nat}

lemma unfold_succ (f : Forest) (d i : Nat) :
    f.unfold (d + 1) i = .node i ((f.children i).map (f.unfold d)) := rfl

/-- Every object is listed once and none stands below itself. -/
structure Ordered (f : Forest) : Prop where
  once : ∀ p, (f.children p).Nodup
  only : ∀ c p q, c ∈ f.children p → c ∈ f.children q → p = q
  acyclic : ∀ i, ¬ TransGen f.Lists i i

/-- A line of descent without repetition is no longer than the number of objects, so the walk
reaches the end of each. -/
lemma Ordered.unfolds (h : f.Ordered) (hlt : ∀ i, ∀ c ∈ f.children i, c < f.entries.size)
    (d i : Nat) (above : List Nat) (hnodup : above.Nodup) (hbound : ∀ j ∈ above, j < f.entries.size)
    (habove : ∀ j ∈ above, TransGen f.Lists j i) (hi : i < f.entries.size)
    (hd : f.entries.size ≤ above.length + d) : Unfolds f i (f.unfold d i) := by
  have hnodup' : (i :: above).Nodup :=
    nodup_cons.2 ⟨fun hmem => h.acyclic i (habove i hmem), hnodup⟩
  have hbound' : ∀ j ∈ i :: above, j < f.entries.size := by simpa using ⟨hi, hbound⟩
  induction d generalizing i above with
  | zero =>
    have hsub : i :: above ⊆ range f.entries.size := by simpa [subset_def] using hbound'
    have hle := (subperm_of_subset hnodup' hsub).length_le
    simp only [length_cons, length_range] at hle
    omega
  | succ d ih =>
    refine .node i (forall₂_map_right_iff.2 (forall₂_same.2 fun c hc => ?_))
    have habove' : ∀ j ∈ i :: above, TransGen f.Lists j c := by
      intro j hj
      rcases mem_cons.1 hj with rfl | hj
      · exact .single hc
      · exact (habove j hj).tail hc
    have hclt := hlt i c hc
    have hmem : c ∉ i :: above := fun hmem => h.acyclic c (habove' c hmem)
    exact ih c (i :: above) hnodup' hbound' habove' hclt (by simp only [length_cons]; omega)
      (nodup_cons.2 ⟨hmem, hnodup'⟩) (forall_mem_cons.2 ⟨hclt, hbound'⟩)

lemma below_of_mem_unfold (h : j ∈ (f.unfold d i).nodes) : ReflTransGen f.Lists i j := by
  induction d generalizing i with
  | zero =>
    simp only [unfold, Tree.nodes_node, flatMap_nil, mem_singleton] at h
    exact h ▸ .refl
  | succ d ih =>
    rw [unfold_succ, Tree.nodes_node, flatMap_map, mem_cons, mem_flatMap] at h
    rcases h with rfl | ⟨c, hc, hj⟩
    · exact .refl
    · exact .head hc (ih hj)

/-- Two lines of descent that meet come from one another. -/
lemma Ordered.below_or_below (h : f.Ordered) {x : Nat} (hi : ReflTransGen f.Lists i x)
    (hj : ReflTransGen f.Lists j x) : ReflTransGen f.Lists i j ∨ ReflTransGen f.Lists j i := by
  have hunique : Relator.RightUnique fun c p => f.Lists p c := fun c p q hp hq => h.only c p q hp hq
  have htotal := ReflTransGen.total_of_right_unique hunique (reflTransGen_swap.2 hj)
    (reflTransGen_swap.2 hi)
  exact htotal.imp reflTransGen_swap.1 reflTransGen_swap.1

/-- A sibling is not below a sibling, or their parent would be below itself. -/
lemma Ordered.not_below_sibling (h : f.Ordered) {c : Nat} (hc : c ∈ f.children i)
    (hd : d ∈ f.children i) (hne : c ≠ d) : ¬ ReflTransGen f.Lists c d := by
  intro hbelow
  rcases hbelow.cases_tail with heq | ⟨q, hq, hqd⟩
  · exact hne heq.symm
  · rw [h.only d q i hqd hd] at hq
    exact h.acyclic i (.head' hc hq)

lemma Ordered.nodup_nodes (h : f.Ordered) (d i : Nat) : (f.unfold d i).nodes.Nodup := by
  induction d generalizing i with
  | zero => simp [unfold]
  | succ d ih =>
    rw [unfold_succ, Tree.nodes_node, flatMap_map, nodup_cons, nodup_flatMap]
    refine ⟨fun hmem => ?_, fun c _ => ih c,
      (h.once i).imp_of_mem fun {c e} hc he hne x hx hx' => ?_⟩
    · obtain ⟨c, hc, hi⟩ := mem_flatMap.1 hmem
      exact h.acyclic i (.head' hc (below_of_mem_unfold hi))
    · rcases h.below_or_below (below_of_mem_unfold hx) (below_of_mem_unfold hx') with hce | hec
      · exact h.not_below_sibling hc he hne hce
      · exact h.not_below_sibling he hc hne.symm hec

end

section
variable {f : Forest} {as : List (Nat × Nat)} {p c : Nat} (h : Built f as)

include h

lemma Built.mem_children : c ∈ f.children p ↔ (p, c) ∈ as := by
  rw [h.children_eq, mem_map]
  constructor
  · rintro ⟨⟨q, _⟩, hq, rfl⟩
    obtain ⟨hmem, heq⟩ := mem_filter.1 hq
    exact beq_iff_eq.1 heq ▸ hmem
  · exact fun hc => ⟨(p, c), mem_filter.2 ⟨hc, beq_self_eq_true p⟩, rfl⟩

lemma Built.mem_of_parent? (hp : f.parent? c = some p) : (p, c) ∈ as := by
  rw [h.parent?_eq, Option.map_eq_some_iff] at hp
  obtain ⟨⟨q, d⟩, hlast, rfl⟩ := hp
  obtain ⟨hmem, heq⟩ := mem_filter.1 (mem_of_getLast? hlast)
  exact beq_iff_eq.1 heq ▸ hmem

lemma Built.exists_parent? (hc : (p, c) ∈ as) : ∃ q, f.parent? c = some q := by
  rw [h.parent?_eq]
  cases hlast : (as.filter (·.2 == c)).getLast? with
  | some a => exact ⟨a.1, rfl⟩
  | none =>
    have hmem : (p, c) ∈ as.filter (·.2 == c) := mem_filter.2 ⟨hc, beq_self_eq_true c⟩
    rw [getLast?_eq_none_iff.1 hlast] at hmem
    exact absurd hmem not_mem_nil

lemma Built.ordered (hnodup : (as.map (·.2)).Nodup)
    (hacyclic : ∀ i, ¬ TransGen (fun p c => (p, c) ∈ as) i i) : f.Ordered where
  once p := by
    rw [h.children_eq]
    exact hnodup.sublist (filter_sublist.map _)
  only c p q hp hq := congrArg Prod.fst (inj_on_of_nodup_map hnodup (h.mem_children.1 hp)
    (h.mem_children.1 hq) rfl)
  acyclic := by
    rwa [show f.Lists = fun p c => (p, c) ∈ as from funext₂ fun p c => propext h.mem_children]

lemma Built.isTree (ho : f.Ordered) : IsTree f := by
  have hlinked : ∀ c p, f.parent? c = some p ↔ c ∈ f.children p := by
    refine fun c p => ⟨fun hp => h.mem_children.2 (h.mem_of_parent? hp), fun hc => ?_⟩
    obtain ⟨q, hq⟩ := h.exists_parent? (h.mem_children.1 hc)
    rw [hq, ho.only c q p (h.mem_children.2 (h.mem_of_parent? hq)) hc]
  refine ⟨hlinked, ho.once, ho.only, fun i hi => ho.acyclic i ?_, fun i hi => ?_, ho.nodup_nodes _⟩
  · simp only [hlinked] at hi
    exact transGen_swap.1 hi
  · exact ho.unfolds (fun j c hc => h.bounded _ (h.mem_children.1 hc)) _ i [] .nil
      (by simp) (by simp) hi (by simp)

lemma Built.nodup_of_isTree (ht : IsTree f) : (as.map (·.2)).Nodup := by
  rw [List.Nodup, pairwise_map, pairwise_iff_forall_sublist]
  intro a b hab heq
  have hmem := hab.subset
  have hfst : b.1 = a.1 := ht.only b.2 b.1 a.1 (h.mem_children.2 (hmem (by simp)))
    (h.mem_children.2 (heq ▸ hmem (by simp)))
  have hsub := (hab.filter (·.1 == a.1)).map (·.2)
  rw [← h.children_eq] at hsub
  simpa [hfst, heq] using (ht.once a.1).sublist hsub

lemma Built.acyclic_of_isTree (ht : IsTree f) (i : Nat) :
    ¬ TransGen (fun p c => (p, c) ∈ as) i i := by
  intro hi
  refine ht.acyclic i (transGen_swap.1 (hi.lift id fun p c hpc => ?_))
  exact (ht.linked c p).2 (h.mem_children.2 hpc)

end

/-- An object is listed wherever it was attached and points to where it was attached last. The lists
and the links are a tree, and the walks over it end and meet nothing twice, exactly when no object
was attached twice and none came to stand below itself. -/
theorem isTree_iff_attached_once (steps : List Step) (h : Scoped 0 steps) :
    (∀ p, (build steps).children p = ((attachments steps).filter (·.1 == p)).map (·.2)) ∧
    (∀ c, (build steps).parent? c = ((attachments steps).filter (·.2 == c)).getLast?.map (·.1)) ∧
    (IsTree (build steps) ↔ ((attachments steps).map (·.2)).Nodup ∧
      ∀ i, ¬ TransGen (fun p c => (p, c) ∈ attachments steps) i i) := by
  have hb := built h
  refine ⟨hb.children_eq, hb.parent?_eq, fun ht => ?_, fun ht => hb.isTree (hb.ordered ht.1 ht.2)⟩
  exact ⟨hb.nodup_of_isTree ht, hb.acyclic_of_isTree ht⟩

/-- A tree built from below. -/
theorem isTree_from_below :
    Scoped 0 [.new "a", .new "b", .new "c", .append 1 [2], .append 0 [1]] ∧
    IsTree (build [.new "a", .new "b", .new "c", .append 1 [2], .append 0 [1]]) := by
  have h : Scoped 0 [.new "a", .new "b", .new "c", .append 1 [2], .append 0 [1]] := by simp [Scoped]
  refine ⟨h, (isTree_iff_attached_once _ h).2.2.2 ⟨by decide, fun i hi => ?_⟩⟩
  have hlt : ∀ e ∈ [(1, 2), (0, 1)], e.1 < e.2 := by decide
  have hdown := hi.lift id fun p c hpc => hlt (p, c) hpc
  rw [transGen_eq_self] at hdown
  exact Nat.lt_irrefl i hdown

/-- Attached to a second parent, an object stays in the list of the first. -/
theorem not_isTree_of_second_parent :
    let f := build [.new "a", .new "b", .new "c", .append 0 [2], .append 1 [2]]
    2 ∈ f.children 0 ∧ f.parent? 2 = some 1 ∧ ¬ IsTree f := by
  refine ⟨by decide, by decide, fun ht => ?_⟩
  exact absurd (ht.only 2 0 1 (by decide) (by decide)) (by decide)

end Forest
end ReactiveModel
