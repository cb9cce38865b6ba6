import ReactiveModel.Proofs.ObjectTree

/-! Classes whose objects name their parents themselves. An object is attached below the object that
it names, which the check does not look at. It is the object that it is nested in where trees are
made by appending. -/

namespace ReactiveModel

open List

/-- A class with the objects in the order of a walk, each with the object that it names as its
parent. -/
structure LinkedClass extends Class where
  links : List (Option Node × Node)
  map_snd_links : links.map Prod.snd = toClass.objects

namespace LinkedClass

variable {s : Settings} {reg : Registry} {c : LinkedClass}

def artifact (s : Settings) (reg : Registry) (c : LinkedClass) : Artifact :=
  { c.toClass.artifact s reg with construction := .ofNodes [] c.links }

/-- The class in which every object names the object that it is nested in. -/
def ofNesting (c : Class) : LinkedClass where
  toClass := c
  links := (c.root.map (Tree.withParents none)).getD []
  map_snd_links := by cases hroot : c.root <;> simp [Class.objects, hroot]

@[simp] lemma artifact_ofNesting (s : Settings) (reg : Registry) (c : Class) :
    (ofNesting c).artifact s reg = c.artifact s reg := rfl

/-- The named parents have the ids of the objects around. -/
def Nested (c : LinkedClass) : Prop :=
  c.links.map (fun x => x.1.map Node.id) = (ofNesting c.toClass).links.map fun x => x.1.map Node.id

/-- Of a named parent only the id matters. -/
lemma ofNodes_congr {xs ys : List (Option Node × Node)}
    (hparents : xs.map (fun x => x.1.map Node.id) = ys.map fun y => y.1.map Node.id)
    (hobjects : xs.map Prod.snd = ys.map Prod.snd) (built : List Text) :
    Construction.ofNodes built xs = Construction.ofNodes built ys := by
  induction xs generalizing ys built with
  | nil => rw [map_eq_nil_iff.mp hobjects.symm]
  | cons x xs ih =>
    obtain ⟨y, ys, rfl⟩ := exists_cons_of_ne_nil (l := ys) (by rintro rfl; cases hobjects)
    obtain ⟨p, o⟩ := x
    obtain ⟨q, u⟩ := y
    simp only [map_cons, cons.injEq] at hparents hobjects
    obtain ⟨hpq, hparents⟩ := hparents
    obtain ⟨rfl, hobjects⟩ := hobjects
    have hblock (built : List Text) : o.block p built = o.block q built := by
      cases p <;> cases q <;> simp_all [Node.block, Node.slot]
    simp only [Construction.ofNodes, hblock, ih hparents hobjects]

lemma Nested.artifact_eq (h : c.Nested) : c.artifact s reg = c.toClass.artifact s reg := by
  rw [← artifact_ofNesting, artifact, artifact]
  have hobjects := c.map_snd_links.trans (ofNesting c.toClass).map_snd_links.symm
  rw [ofNodes_congr h hobjects]
  rfl

/-- A class in which an object names one as its parent that comes after it. -/
def misplaced : LinkedClass :=
  let root : Node := { id := "root", type := some .box }
  let first : Node := { id := "first", type := some .box }
  let second : Node := { id := "second", type := some .box }
  { name := "Row"
    root := some (.node root [.node first [], .node second []])
    links := [(none, root), (some second, first), (some root, second)]
    map_snd_links := rfl }

end LinkedClass
end ReactiveModel
