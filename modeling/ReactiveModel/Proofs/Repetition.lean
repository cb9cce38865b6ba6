import ReactiveModel.Proofs.Schedules

/-! Runs that are repeated. What a class writes and where does not depend on what the classes before
it left, and what was removed is not there a second time. So a run that is repeated does as it did,
and changes nothing. -/

namespace ReactiveModel

open List Files Naming ReactiveModel.Path

namespace Run

/-- Files that a run may meet which starts from others: the same files are in the way, and the same
places are taken by directories. -/
structure Kin (s : Settings) (ws : List String) (h f : Files) : Prop where
  grounded : f.Grounded ws s.targetDir
  way : ∀ q, Passage s ws q → f.content? q = h.content? q
  kind : ∀ q, ¬Passage s ws q →
    (f.lookup? q = some .directory ↔ h.lookup? q = some .directory)

/-- Places in directories of programs, where things may be removed. -/
def Removable (s : Settings) (ws : List String) (q : String) : Prop :=
  s.enabled .entryPoint = false ∧ ∃ b ns, isName b = true ∧ programDir b <+: ns ∧
    (∀ n ∈ ns, Plain n) ∧ q = spot s ws ns

/-- A task does the same to all files that a run may meet: it sets some entries, and removes others
unless they are gone. -/
structure Settles {α : Type} (s : Settings) (ws : List String) (h : Files) (t : Work α)
    (sets : String → Option Entry) (gone : Files → Prop) : Prop where
  answer : ∀ f, Kin s ws h f → (t.run f).1 = (t.run h).1
  kin : ∀ f, Kin s ws h f → Kin s ws h (t.run f).2
  lookup? : ∀ f, Kin s ws h f → ∀ q, (t.run f).2.lookup? q = (sets q).or (f.lookup? q) ∨
    Removable s ws q ∧ (t.run f).2.lookup? q = none ∧ ¬gone f
  spares : ∀ q, Removable s ws q → sets q = none
  clears : ∀ f, Kin s ws h f → gone (t.run f).2
  stays : ∀ f g, (∀ q, Removable s ws q → g.lookup? q = f.lookup? q ∨ g.lookup? q = none) →
    gone f → gone g

def Repeats {α : Type} (s : Settings) (ws : List String) (h : Files) (t : Work α) : Prop :=
  ∃ sets gone, Settles s ws h t sets gone

section

variable {α β : Type} {s : Settings} {ws : List String} {a : Text} {f g h : Files} {t : Work α}
  {sets : String → Option Entry} {gone : Files → Prop} {bs : List UInt8} {q : String}
  {imports : String → String → Option String}

lemma Kin.of_drift (hf : Kin s ws h f) (ha : isName a) (hdrift : f.Drift (reach s ws (· = a)) g)
    (hkind : ∀ q, ¬Passage s ws q →
      (g.lookup? q = some .directory ↔ f.lookup? q = some .directory)) : Kin s ws h g where
  grounded := grounded_of_drift (by rintro b rfl; exact ha) hf.grounded hdrift
  way q hq := (hdrift.content?_eq (not_free_of_passage hf.grounded.plain
    (by rintro b rfl; exact ha) hq)).trans (hf.way q hq)
  kind q hq := (hkind q hq).trans (hf.kind q hq)

lemma Settles.removable (ht : Settles s ws h t sets gone) (hf : Kin s ws h f)
    (hq : Removable s ws q) :
    (t.run f).2.lookup? q = f.lookup? q ∨ (t.run f).2.lookup? q = none := by
  have hlookup := ht.lookup? f hf q
  rw [ht.spares q hq] at hlookup
  exact hlookup.imp_right fun hgone => hgone.2.1

lemma Repeats.bind (hh : Kin s ws h h) (ht : Repeats s ws h t) {next : α → Work β}
    (hnext : Repeats s ws h (next (t.run h).1)) : Repeats s ws h (t >>= next) := by
  obtain ⟨sets, gone, ht⟩ := ht
  obtain ⟨sets', gone', hnext⟩ := hnext
  have hrun (f : Files) (hf : Kin s ws h f) :
      (t >>= next).run f = (next (t.run h).1).run (t.run f).2 := by
    rw [← ht.answer f hf]
    exact Work.run_bind t next f
  refine ⟨fun q => (sets' q).or (sets q), fun f => gone f ∧ gone' f, ?_, ?_, ?_, ?_, ?_, ?_⟩
  · intro f hf
    rw [hrun f hf, hrun h hh, hnext.answer _ (ht.kin f hf), hnext.answer _ (ht.kin h hh)]
  · intro f hf
    rw [hrun f hf]
    exact hnext.kin _ (ht.kin f hf)
  · intro f hf q
    rw [hrun f hf, Option.or_assoc]
    rcases ht.lookup? f hf q with hset | ⟨hq, hnone, hgone⟩
    · rw [← hset]
      refine (hnext.lookup? _ (ht.kin f hf) q).imp_right fun ⟨hq, hnone, hgone⟩ => ⟨hq, hnone, ?_⟩
      exact fun h => hgone (hnext.stays f _ (fun q hq => ht.removable hf hq) h.2)
    · refine .inr ⟨hq, ?_, fun h => hgone h.1⟩
      exact (hnext.removable (ht.kin f hf) hq).elim (·.trans hnone) id
  · intro q hq
    rw [ht.spares q hq, hnext.spares q hq, Option.none_or]
  · intro f hf
    rw [hrun f hf]
    exact ⟨ht.stays _ _ (fun q hq => hnext.removable (ht.kin f hf) hq) (ht.clears f hf),
      hnext.clears _ (ht.kin f hf)⟩
  · exact fun f g hkept hgone =>
      ⟨ht.stays f g hkept hgone.1, hnext.stays f g hkept hgone.2⟩

variable {ds : List String} {n : String}

lemma Kin.set (hf : Kin s ws h f) (ha : isName a) (hown : ds ++ [n] ∈ filePlaces a)
    (hleads : Leads s (ds ++ [n])) (hdir : f.lookup? (spot s ws ds) = some .directory)
    (hentry : f.lookup? (spot s ws (ds ++ [n])) ≠ some .directory) (bs : List UInt8) :
    Kin s ws h (f.set (spot s ws (ds ++ [n])) (.file bs)) := by
  have k : Among ws a fun _ => False := ⟨hf.grounded.plain, ha, nofun, nofun⟩
  refine hf.of_drift ha (k.drift_set bs hown hleads hdir hentry) fun q _ => ?_
  rw [lookup?_set_of_ne_root f (placeAt_target_ne_root k.plain
    (plain_of_mem_filePlaces ha _ hown))]
  split
  · rename_i hq
    exact iff_of_false nofun (hq ▸ hentry)
  · exact Iff.rfl

lemma Kin.unset (hf : Kin s ws h f) (ha : isName a) (hown : ds ++ [n] ∈ filePlaces a)
    (hleads : Leads s (ds ++ [n])) (hfile : f.lookup? (spot s ws (ds ++ [n])) = some (.file bs)) :
    Kin s ws h (f.unset (spot s ws (ds ++ [n]))) := by
  have k : Among ws a fun _ => False := ⟨hf.grounded.plain, ha, nofun, nofun⟩
  refine hf.of_drift ha (k.drift_unset hown hleads hf.grounded.treelike hfile) fun q _ => ?_
  by_cases hq : q = spot s ws (ds ++ [n])
  · rw [hq, lookup?_unset_self (placeAt_target_ne_root k.plain
      (plain_of_mem_filePlaces ha _ hown)), hfile]
    exact iff_of_false nofun nofun
  · rw [lookup?_unset_of_ne hq]

variable {workDir : String} {reg : Registry} {c : Class}

end

end Run

end ReactiveModel
