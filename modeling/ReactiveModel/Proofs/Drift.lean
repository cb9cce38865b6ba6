import Mathlib.Data.List.Induction
import ReactiveModel.Proofs.Tree

/-! How files change when several tasks work on them. Every entry stands in a directory, and stays
in one; apart from places where anything may happen, directories are made and removed but files are
left as they are. -/

namespace ReactiveModel.Files

open List

/-- Every entry but the root stands in a directory. -/
def Treelike (f : Files) : Prop :=
  ∀ es e, (∀ n ∈ es ++ [e], Path.Plain n) → f.lookup? (placeAt (es ++ [e])) ≠ none →
    f.lookup? (placeAt es) = some .directory

variable {f : Files} {es : List String}

lemma Treelike.opens (h : f.Treelike) {ns : List String} (hplain : Path.Plains (es ++ ns))
    (hentry : f.lookup? (placeAt (es ++ ns)) ≠ none) : f.Opens es ns := by
  induction ns using reverseRecOn with
  | nil => exact f.opens_nil es
  | append_singleton ns n ih =>
    rw [← append_assoc] at hplain hentry
    have hdir := h (es ++ ns) n hplain hentry
    exact opens_concat.mpr ⟨ih hplain.left (by simp [hdir]),
      hdir⟩

lemma Treelike.set (h : f.Treelike) {e : String} (hplain : Path.Plains (es ++ [e]))
    (hdir : f.lookup? (placeAt es) = some .directory) {x : Entry}
    (hx : f.lookup? (placeAt (es ++ [e])) = some .directory → x = .directory) :
    (f.set (placeAt (es ++ [e])) x).Treelike := by
  intro ds d hds hentry
  have hds' := Path.Plains.left hds
  by_cases hself : ds ++ [d] = es ++ [e]
  · -- the entry itself stands where it stood, in a directory
    obtain rfl : ds = es := append_inj_left' hself rfl
    have hne : placeAt ds ≠ placeAt (ds ++ [e]) := by
      intro heq
      simpa using congrArg length (placeAt_inj hds' hplain heq)
    rw [lookup?_set_of_ne hne, hdir]
  · have hne : placeAt (ds ++ [d]) ≠ placeAt (es ++ [e]) := fun heq =>
      hself (placeAt_inj hds hplain heq)
    rw [lookup?_set_of_ne hne] at hentry
    have hparent := h ds d hds hentry
    by_cases hsame : placeAt ds = placeAt (es ++ [e])
    · -- an entry below the new one: it was a directory, and still is
      rw [hsame, lookup?_set, if_neg (placeAt_concat_ne_root hplain), if_pos rfl]
      rw [hx (hsame ▸ hparent)]
    · rw [lookup?_set_of_ne hsame, hparent]

lemma Treelike.unset (h : f.Treelike) (hplain : Path.Plains es)
    (hempty : ∀ e, (Path.Plains (es ++ [e])) → f.lookup? (placeAt (es ++ [e])) = none) :
    (f.unset (placeAt es)).Treelike := by
  intro ds d hds hentry
  have hds' := Path.Plains.left hds
  have hold : f.lookup? (placeAt (ds ++ [d])) ≠ none := by
    rw [lookup?_unset, if_neg (placeAt_concat_ne_root hds)] at hentry
    split at hentry
    · exact absurd rfl hentry
    · exact hentry
  have hne : placeAt ds ≠ placeAt es := by
    intro heq
    obtain rfl := placeAt_inj hds' hplain heq
    exact hold (hempty d hds)
  rw [lookup?_unset_of_ne hne]
  exact h ds d hds hold

def content? (f : Files) (q : String) : Option (List UInt8) :=
  match f.lookup? q with
  | some (.file bs) => some bs
  | _ => none

lemma content?_eq_some_iff {q : String} {bs : List UInt8} :
    f.content? q = some bs ↔ f.lookup? q = some (.file bs) := by
  unfold content?
  split
  · rename_i h
    simp [h]
  · rename_i h
    exact iff_of_false nofun (h bs)

/-- Where files may change, and how. -/
structure Reach where
  /-- Anything may happen. -/
  free : String → Prop
  /-- A directory may be made. -/
  opened : String → Prop
  /-- A directory may be removed. -/
  closed : String → Prop

namespace Reach

/-- Whether an entry may become another one. -/
inductive Allows (r : Reach) (q : String) : Option Entry → Option Entry → Prop
  | same (x : Option Entry) : Allows r q x x
  | free (h : r.free q) (x y : Option Entry) : Allows r q x y
  | opened (h : r.opened q) : Allows r q none (some .directory)
  | closed (h : r.closed q) : Allows r q (some .directory) none

structure Within (r s : Reach) : Prop where
  free : ∀ q, r.free q → s.free q
  opened : ∀ q, r.opened q → s.opened q
  closed : ∀ q, r.closed q → s.closed q

variable {r s : Reach} {q : String} {x y z : Option Entry}

lemma Allows.trans (hxy : r.Allows q x y) (hyz : r.Allows q y z) : r.Allows q x z := by
  cases hxy with
  | same => exact hyz
  | free h => exact .free h x z
  | opened h =>
    cases hyz with
    | same => exact .opened h
    | free h => exact .free h _ _
    | closed => exact .same none
  | closed h =>
    cases hyz with
    | same => exact .closed h
    | free h => exact .free h _ _
    | opened => exact .same _

lemma Allows.mono (h : r.Allows q x y) (hrs : r.Within s) : s.Allows q x y := by
  cases h with
  | same => exact .same x
  | free h => exact .free (hrs.free q h) x y
  | opened h => exact .opened (hrs.opened q h)
  | closed h => exact .closed (hrs.closed q h)

end Reach

structure Drift (r : Reach) (f g : Files) : Prop where
  workDir : g.workDir = f.workDir
  treelike : f.Treelike → g.Treelike
  lookup? : ∀ q, r.Allows q (f.lookup? q) (g.lookup? q)

namespace Drift

variable {r s : Reach} {f g h : Files} {q : String}

lemma refl (r : Reach) (f : Files) : f.Drift r f := ⟨rfl, id, fun _ => .same _⟩

variable (hfg : f.Drift r g)

include hfg

lemma trans (hgh : g.Drift r h) : f.Drift r h :=
  ⟨hgh.workDir.trans hfg.workDir, hgh.treelike ∘ hfg.treelike,
    fun q => (hfg.lookup? q).trans (hgh.lookup? q)⟩

lemma mono (hrs : r.Within s) : f.Drift s g :=
  ⟨hfg.workDir, hfg.treelike, fun q => (hfg.lookup? q).mono hrs⟩

lemma content?_eq (hq : ¬r.free q) : g.content? q = f.content? q := by
  unfold content?
  have hallowed := hfg.lookup? q
  generalize f.lookup? q = x, g.lookup? q = y at hallowed
  cases hallowed with
  | same => rfl
  | free h => exact absurd h hq
  | opened => rfl
  | closed => rfl

lemma lookup?_eq (hfree : ¬r.free q) (hopened : ¬r.opened q) (hclosed : ¬r.closed q) :
    g.lookup? q = f.lookup? q := by
  have hallowed := hfg.lookup? q
  generalize f.lookup? q = x, g.lookup? q = y at hallowed
  cases hallowed with
  | same => rfl
  | free h => exact absurd h hfree
  | opened h => exact absurd h hopened
  | closed h => exact absurd h hclosed

lemma isDirectory (hfree : ¬r.free q) (hclosed : ¬r.closed q) (hq : f.lookup? q = some .directory) :
    g.lookup? q = some .directory := by
  have hallowed := hfg.lookup? q
  rw [hq] at hallowed
  generalize g.lookup? q = y at hallowed
  cases hallowed with
  | same => rfl
  | free h => exact absurd h hfree
  | closed h => exact absurd h hclosed

lemma isNone (hfree : ¬r.free q) (hopened : ¬r.opened q) (hq : f.lookup? q = none) :
    g.lookup? q = none := by
  have hallowed := hfg.lookup? q
  rw [hq] at hallowed
  generalize g.lookup? q = y at hallowed
  cases hallowed with
  | same => rfl
  | free h => exact absurd h hfree
  | opened h => exact absurd h hopened

end Drift

end ReactiveModel.Files
