import Mathlib.Data.List.Nodup
import Mathlib.Data.List.Perm.Basic
import ReactiveModel.Proofs.Build
import ReactiveModel.Proofs.PackRoundTrip
import ReactiveModel.Run.Generator

/-! The order in which a description declares things. Classes and the values of an object are found
by name, and kept in the order of the names. So a description with its classes or its property maps
in another order stands for the same registry. -/

namespace ReactiveModel

open List Option

namespace Table

variable {κ α : Type} [DecidableEq κ] {t u : Table κ α}

lemma mem_of_get? {k : κ} {v : α} (h : t.get? k = some v) : (k, v) ∈ t := by
  induction t with
  | nil => simp at h
  | cons e t ih =>
    rw [get?_cons] at h
    split at h
    case isTrue hk =>
      obtain rfl := Option.some.inj h
      exact hk ▸ mem_cons_self
    case isFalse => exact mem_cons_of_mem _ (ih h)

lemma get?_of_perm (h : t.Perm u) (hkeys : (t.map Prod.fst).Nodup) (k : κ) :
    t.get? k = u.get? k := by
  induction h with
  | nil => rfl
  | cons e _ ih => rw [get?_cons, get?_cons, ih (nodup_cons.mp hkeys).2]
  | swap a b t =>
    have hne : b.1 ≠ a.1 := by
      intro heq
      simp [heq] at hkeys
    by_cases ha : k = a.1
    · simp [ha, hne.symm]
    · simp [ha]
  | trans h _ ih ih' => exact (ih hkeys).trans (ih' ((h.map Prod.fst).nodup_iff.mp hkeys))

variable [LT κ] [Std.Irrefl (· < · : κ → κ → Prop)] [Trans (· < · : κ → κ → Prop) (· < ·) (· < ·)]

lemma Ordered.ext (ht : t.Ordered) (hu : u.Ordered) (h : ∀ k, t.get? k = u.get? k) : t = u := by
  have hirrefl (k : κ) : ¬k < k := Std.Irrefl.irrefl k
  have hnodup {t : Table κ α} (ht : t.Ordered) : t.Nodup := by
    refine Pairwise.imp ?_ ht
    intro a b hab heq
    exact hirrefl a.1 (heq ▸ hab)
  have hmem {t u : Table κ α} (ht : t.Ordered) (h : ∀ k, t.get? k = u.get? k) {e : κ × α}
      (he : e ∈ t) : e ∈ u :=
    mem_of_get? ((h e.1).symm.trans (ht.get?_eq_some he))
  refine Perm.eq_of_pairwise (fun a b _ _ hab hba => ?_) ht hu
    ((perm_ext_iff_of_nodup (hnodup ht) (hnodup hu)).mpr fun e =>
      ⟨hmem ht h, hmem hu fun k => (h k).symm⟩)
  exact absurd (Trans.trans hab hba) (hirrefl _)

end Table

lemma Properties.ext_get? {p q : Properties} (h : ∀ n, p.table.get? n = q.table.get? n) :
    p = q := by
  obtain ⟨t, ht⟩ := p
  obtain ⟨u, hu⟩ := q
  obtain rfl : t = u := ht.ext hu h
  rfl

lemma Registry.ext_lookup {r s : Registry} (h : ∀ n, r.lookup n = s.lookup n) : r = s := by
  obtain ⟨t, ht, _⟩ := r
  obtain ⟨u, hu, _⟩ := s
  obtain rfl : t = u := ht.ext hu h
  rfl

variable {α β : Type}

lemma optionRel_unique {R : α → β → Prop} (hR : ∀ a b b', R a b → R a b' → b = b') {x : Option α}
    {y y' : Option β} (h : Rel R x y) (h' : Rel R x y') : y = y' := by
  cases h with
  | none =>
    cases h'
    rfl
  | some hb =>
    cases h' with
    | some hb' => rw [hR _ _ _ hb hb']

lemma mapM_eq_ok_congr {ε : Type} {f : α → Except ε β} {xs xs' : List α}
    (h : Forall₂ (fun x x' => ∀ y, f x = .ok y ↔ f x' = .ok y) xs xs') (ys : List β) :
    xs.mapM f = .ok ys ↔ xs'.mapM f = .ok ys := by
  induction h generalizing ys with
  | nil => rfl
  | cons hx _ ih => simp only [mapM_cons, Except.bind_eq_ok_iff, hx, ih]

/-! Property maps in another order. -/

namespace ObjectDescription

variable {ps : Properties} {ds es : Table Text (Option ValueDescription)} {owner id : Text}

/-- Each name stands once in a property map. -/
def Distinct : ObjectDescription → Prop := Everywhere fun _ _ ps => (ps.map Prod.fst).Nodup

lemma everywhereAll_iff {P : Text → Text → Table Text (Option ValueDescription) → Prop}
    {cs : List ObjectDescription} : EverywhereAll P cs ↔ ∀ c ∈ cs, c.Everywhere P := by
  induction cs with
  | nil => simp [EverywhereAll]
  | cons c cs ih => rw [EverywhereAll, ih, forall_mem_cons]

lemma PropertyDescribes.unique {v : Option ValueDescription} {w w' : Value}
    (h : PropertyDescribes v w) (h' : PropertyDescribes v w') : w = w' :=
  Except.ok.inj ((build_property_iff.mpr h).symm.trans (build_property_iff.mpr h'))

lemma PropertiesDescribe.unique {ps ps' : Properties} (h : PropertiesDescribe ds ps)
    (h' : PropertiesDescribe ds ps') : ps = ps' :=
  Properties.ext_get? fun n =>
    optionRel_unique (fun _ _ _ hw hw' => hw.unique hw') (h.values n)
      (h'.values n)

lemma buildProperties_eq_ok_iff :
    buildProperties owner id ds = .ok ps ↔ PropertiesDescribe ds ps := by
  refine ⟨describe_of_buildProperties, fun h => ?_⟩
  obtain ⟨qs, hqs⟩ := exists_buildProperties owner id h.valid
  rw [hqs, h.unique (describe_of_buildProperties hqs)]

lemma PropertiesDescribe.perm (h : PropertiesDescribe ds ps) (hperm : ds.Perm es)
    (hkeys : (ds.map Prod.fst).Nodup) : PropertiesDescribe es ps where
  valid d hd := h.valid d (hperm.mem_iff.mpr hd)
  values n := Table.get?_of_perm hperm hkeys n ▸ h.values n

lemma buildProperties_of_perm (hperm : ds.Perm es) (hkeys : (ds.map Prod.fst).Nodup) :
    buildProperties owner id ds = .ok ps ↔ buildProperties owner id es = .ok ps := by
  rw [buildProperties_eq_ok_iff, buildProperties_eq_ok_iff]
  exact ⟨fun h => h.perm hperm hkeys,
    fun h => h.perm hperm.symm ((hperm.map Prod.fst).nodup_iff.mp hkeys)⟩

lemma Rearranged.build_iff {lookup : Text → Option Outline} (d : ObjectDescription) :
    ∀ {e : ObjectDescription} {t : Object}, d.Rearranged e → d.Distinct →
      (build lookup owner d = .ok t ↔ build lookup owner e = .ok t) := by
  induction d using inductOn with
  | absent =>
    intro e t h _
    cases h
    rfl
  | object id type ds cs ih =>
    intro e t h hdistinct
    obtain ⟨hkeys, hbelow⟩ := hdistinct
    cases h with
    | @object _ _ _ es _ cs' hperm hchildren =>
      have hbuild : ∀ c ∈ cs, ∀ e, c.Rearranged e → ∀ t,
          build lookup owner c = .ok t ↔ build lookup owner e = .ok t :=
        fun c hc e he t => ih c hc he (everywhereAll_iff.mp hbelow c hc)
      have hall := mapM_eq_ok_congr (((forall₂_and_left cs cs').mpr ⟨hbuild, hchildren⟩).imp
        fun c e h => h.1 e h.2)
      simp only [build_object_eq_ok_iff, buildProperties_of_perm hperm hkeys, hall]

end ObjectDescription

namespace ClassDescription

variable {c d : ClassDescription}

lemma Rearranged.name_eq (h : c.Rearranged d) : d.name = c.name := by
  obtain ⟨root, -, rfl⟩ := h
  rfl

lemma Rearranged.buildHead_eq (h : c.Rearranged d) : d.buildHead = c.buildHead := by
  obtain ⟨root, -, rfl⟩ := h
  rfl

lemma Rearranged.buildRoot_iff (h : c.Rearranged d) (hdistinct : c.root.Distinct)
    {lookup : Text → Option Outline} {root : Option Object} :
    c.buildRoot lookup = .ok root ↔ d.buildRoot lookup = .ok root := by
  obtain ⟨e, he, rfl⟩ := h
  have habsent : e.isAbsent = c.root.isAbsent := by
    generalize c.root = r at he
    cases he <;> rfl
  have hbuild (t : Object) : c.root.build lookup c.name = .ok t ↔ e.build lookup c.name = .ok t :=
    ObjectDescription.Rearranged.build_iff c.root he hdistinct
  simp only [buildRoot, habsent]
  cases c.declarationOnly <;> cases c.root.isAbsent <;> simp [Except.map_eq_ok_iff, hbuild]

end ClassDescription

namespace Description

variable {d e : Description} {reg r : Registry} {cs ds : List ClassDescription}
  {es es' : List (Option ClassDescription)}

/-! Classes in another order. -/

/-- Each name stands once in every property map. -/
def Distinct (d : Description) : Prop :=
  ∀ c, some c ∈ d.classes.getD [] → c.root.Distinct

lemma Registered.unique {r' : Registry} (h : Registered cs r) (h' : Registered cs r') : r = r' := by
  refine Registry.ext_lookup fun n => ?_
  by_cases hn : n ∈ cs.map (·.name)
  · obtain ⟨d, hd, rfl⟩ := mem_map.mp hn
    obtain ⟨c, hc, hlookup⟩ := h.held d hd
    obtain ⟨c', hc', hlookup'⟩ := h'.held d hd
    rw [hlookup, hlookup', Except.ok.inj (hc.symm.trans hc')]
  · have hnone {r : Registry} (h : Registered cs r) : r.lookup n = none :=
      not_isSome_iff_eq_none.mp fun hsome => hn (h.only n hsome)
    rw [hnone h, hnone h']

lemma Registered.perm (h : Registered cs r) (hperm : cs.Perm ds) : Registered ds r where
  named d hd := h.named d (hperm.mem_iff.mpr hd)
  distinct := (hperm.map (·.name)).nodup_iff.mp h.distinct
  held d hd := h.held d (hperm.mem_iff.mpr hd)
  only n hn := (hperm.map (·.name)).mem_iff.mp (h.only n hn)

/-- Classes can be registered one after the other exactly when a registry has them all. -/
lemma foldlM_register_iff : (cs.map some).foldlM register {} = .ok r ↔ Registered cs r := by
  constructor
  · intro h
    obtain ⟨ds, hds, hregistered⟩ := registered_nil.foldlM h
    obtain rfl : cs = ds := (List.map_inj_right fun _ _ h => Option.some.inj h).mp hds
    simpa using hregistered
  · intro h
    obtain ⟨r', hr'⟩ : ∃ r', (cs.map some).foldlM register {} = .ok r' :=
      registered_nil.exists_foldlM h.distinct fun c hc =>
        ⟨h.named c hc, (h.held c hc).imp fun _ hc => hc.1⟩
    obtain ⟨ds, hds, hregistered⟩ := registered_nil.foldlM hr'
    obtain rfl : cs = ds := (List.map_inj_right fun _ _ h => Option.some.inj h).mp hds
    rw [hr', hregistered.unique h]

lemma attach_comm {e e' : Text × Except Failure (Option Object)} (h : e.1 = e'.1 → e = e')
    (r : Registry) : attach (attach r e) e' = attach (attach r e') e := by
  by_cases heq : e.1 = e'.1
  · rw [h heq]
  · refine Registry.ext_lookup fun n => ?_
    simp only [lookup_attach, Option.map_map]
    congr 1
    funext c
    by_cases hn : n = e.1
    · cases e.2 <;> cases e'.2 <;> simp [hn, heq]
    · cases e.2 <;> cases e'.2 <;> simp [hn]

lemma map_some_filterMap (h : ∀ e ∈ es, e.isSome) : (es.filterMap id).map some = es := by
  induction es with
  | nil => rfl
  | cons e es ih =>
    obtain ⟨he, hes⟩ := forall_mem_cons.mp h
    obtain ⟨c, rfl⟩ := isSome_iff_exists.mp he
    exact congrArg (some c :: ·) (ih hes)

lemma build_of_perm (h : (d.classes.getD []).Perm (e.classes.getD []))
    (hd : d.build = .ok reg) : e.build = .ok reg := by
  obtain ⟨heads, hheads, hfailures, rfl⟩ := build_eq_ok_iff.mp hd
  obtain ⟨cs, hcs, hregistered⟩ := registered_nil.foldlM hheads
  have hperm : cs.Perm ((e.classes.getD []).filterMap id) := by
    simpa [hcs] using h.filterMap id
  have hentries : ((e.classes.getD []).filterMap id).map some = e.classes.getD [] := by
    refine map_some_filterMap fun x hx => ?_
    rw [← h.mem_iff, hcs] at hx
    obtain ⟨c, -, rfl⟩ := mem_map.mp hx
    rfl
  have hclasses : (d.classes.getD []).filterMap id = cs := by simp [hcs, filterMap_map]
  rw [hclasses] at hfailures ⊢
  have hroots := hperm.map fun c => (c.name, c.buildRoot heads.outline?)
  refine build_eq_ok_iff.mpr ⟨heads, ?_, ?_, ?_⟩
  · rw [← hentries]
    exact foldlM_register_iff.mpr (hregistered.perm hperm)
  · rw [failures_roots_eq_nil_iff] at hfailures ⊢
    exact fun c hc => hfailures c (hperm.mem_iff.mpr hc)
  · refine (hroots.foldl_eq' (fun x hx y hy r => attach_comm (fun hxy => ?_) r) heads).symm
    obtain ⟨c, hc, rfl⟩ := mem_map.mp hx
    obtain ⟨c', hc', rfl⟩ := mem_map.mp hy
    rw [inj_on_of_nodup_map hregistered.distinct hc hc' hxy]

lemma register_congr {x y : Option ClassDescription} (h : Rel ClassDescription.Rearranged x y)
    (r : Registry) : register r x = register r y := by
  cases h with
  | none => rfl
  | some h => simp only [register, h.buildHead_eq, h.name_eq]

lemma foldlM_register_congr (h : Forall₂ (Rel ClassDescription.Rearranged) es es') (r : Registry) :
    es.foldlM register r = es'.foldlM register r := by
  induction h generalizing r with
  | nil => rfl
  | cons hx _ ih => rw [foldlM_cons, foldlM_cons, register_congr hx, funext ih]

lemma forall₂_filterMap (h : Forall₂ (Rel ClassDescription.Rearranged) es es') :
    Forall₂ ClassDescription.Rearranged (es.filterMap id) (es'.filterMap id) := by
  induction h with
  | nil => exact .nil
  | cons hx _ ih =>
    cases hx with
    | none => exact ih
    | some hc => exact .cons hc ih

lemma roots_congr {heads : Registry} (h : Forall₂ ClassDescription.Rearranged cs ds)
    (hdistinct : ∀ c ∈ cs, c.root.Distinct)
    (hbuilt : failures (roots heads cs) = [] ∨ failures (roots heads ds) = []) :
    roots heads cs = roots heads ds := by
  simp only [failures_roots_eq_nil_iff] at hbuilt
  induction h with
  | nil => rfl
  | @cons c d cs ds hc _ ih =>
    obtain ⟨hfirst, hrest⟩ := forall_mem_cons.mp hdistinct
    simp only [forall_mem_cons] at hbuilt
    have hiff (root : Option Object) :
        c.buildRoot heads.outline? = .ok root ↔ d.buildRoot heads.outline? = .ok root :=
      hc.buildRoot_iff hfirst
    have hroot : c.buildRoot heads.outline? = d.buildRoot heads.outline? := by
      rcases hbuilt with ⟨⟨root, hroot⟩, -⟩ | ⟨⟨root, hroot⟩, -⟩
      · rw [hroot, (hiff root).mp hroot]
      · rw [hroot, (hiff root).mpr hroot]
    have htail := ih hrest (hbuilt.imp And.right And.right)
    simp only [roots] at htail ⊢
    rw [map_cons, map_cons, htail, hroot, hc.name_eq]

lemma Rearranged.build_iff (h : d.Rearranged e) (hdistinct : d.Distinct)
    : d.build = .ok reg ↔ e.build = .ok reg := by
  have hentries : Forall₂ (Rel ClassDescription.Rearranged) (d.classes.getD [])
      (e.classes.getD []) := by
    unfold Rearranged at h
    generalize d.classes = x at h
    generalize e.classes = y at h
    cases h with
    | none => exact .nil
    | some h => exact h
  have hall : ∀ c ∈ (d.classes.getD []).filterMap id, c.root.Distinct := fun c hc =>
    hdistinct c (by simpa using hc)
  have hclasses := forall₂_filterMap hentries
  simp only [build_eq_ok_iff, foldlM_register_congr hentries]
  refine exists_congr fun heads => and_congr_right fun _ => ?_
  constructor
  · rintro ⟨hfailures, hreg⟩
    have heq := roots_congr hclasses hall (.inl hfailures)
    rw [heq] at hfailures hreg
    exact ⟨hfailures, hreg⟩
  · rintro ⟨hfailures, hreg⟩
    have heq := roots_congr hclasses hall (.inr hfailures)
    rw [← heq] at hfailures hreg
    exact ⟨hfailures, hreg⟩

/-- The same classes in another order, with their property maps in another order. -/
def Shuffled (d e : Description) : Prop :=
  ∃ m : Description, Option.Rel List.Perm d.classes m.classes ∧ m.Rearranged e

lemma Shuffled.build_iff (h : d.Shuffled e) (hdistinct : d.Distinct)
    : d.build = .ok reg ↔ e.build = .ok reg := by
  obtain ⟨m, hclasses, hrearranged⟩ := h
  have hperm : (d.classes.getD []).Perm (m.classes.getD []) := by
    generalize d.classes = x at hclasses
    generalize m.classes = y at hclasses
    cases hclasses with
    | none => exact .nil
    | some h => exact h
  have hm : m.Distinct := fun c hc => hdistinct c (hperm.mem_iff.mpr hc)
  rw [← hrearranged.build_iff hm]
  exact ⟨build_of_perm hperm, build_of_perm hperm.symm⟩

/-- A description has the same registry in every order of its classes and property maps, or in none
of them any. So the classes are the same and in the same order, and so are their artifacts or the
errors of their checks, and what a run of them leaves and reports. -/
theorem declaration_order_does_not_matter {d e : Description} (h : d.Shuffled e)
    (hdistinct : d.Distinct) :
    (∀ reg, d.build = .ok reg ↔ e.build = .ok reg) ∧
      ∀ reg reg', d.build = .ok reg → e.build = .ok reg' →
        reg.classes = reg'.classes ∧
        (∀ s workDir, reg.classes.map (·.file s workDir reg) =
          reg'.classes.map (·.file s workDir reg')) ∧
        ∀ settings workDir limit files,
          (Run.ofRegistry reg settings workDir limit).run files =
            (Run.ofRegistry reg' settings workDir limit).run files := by
  refine ⟨fun reg => h.build_iff hdistinct, fun reg reg' hd he => ?_⟩
  obtain rfl : reg = reg' := Except.ok.inj (((h.build_iff hdistinct).mp hd).symm.trans he)
  exact ⟨rfl, fun _ _ => rfl, fun _ _ _ _ => rfl⟩

/-- A shelf, whose root has the given properties, with the class of its root. -/
def shelf (properties : Table Text (Option ValueDescription)) : List (Option ClassDescription) :=
  [some { name := "Box", declarationOnly := true, alloc := "box()" },
    some { name := "Shelf", root := .object "root" "Box" properties [.object "leg" "Box" [] []] }]

def shelfProperties : Table Text (Option ValueDescription) :=
  [("width", some { string := some "1" }),
    ("height", some { binding := some ⟨"h()", [⟨"leg", "height"⟩]⟩ })]

theorem shelf_in_another_order :
    (Description.mk (some (shelf shelfProperties))).Shuffled
        ⟨some (shelf shelfProperties.reverse).reverse⟩ ∧
      (Description.mk (some (shelf shelfProperties))).Distinct ∧
      ∃ reg, (Description.mk (some (shelf shelfProperties))).build = .ok reg ∧
        (Description.mk (some (shelf shelfProperties.reverse).reverse)).build = .ok reg := by
  have hshuffled : (Description.mk (some (shelf shelfProperties))).Shuffled
      ⟨some (shelf shelfProperties.reverse).reverse⟩ := by
    refine ⟨⟨some (shelf shelfProperties).reverse⟩, .some (List.reverse_perm _).symm, ?_⟩
    refine .some (.cons (.some ⟨_, .object (List.reverse_perm _).symm ?_, rfl⟩)
      (.cons (.some ⟨_, .absent, rfl⟩) .nil))
    exact .cons (.object (.refl _) .nil) .nil
  have hdistinct : (Description.mk (some (shelf shelfProperties))).Distinct := by
    intro c hc
    simp only [shelf, Option.getD_some, List.mem_cons, Option.some.injEq, List.not_mem_nil,
      or_false] at hc
    rcases hc with rfl | rfl
    · trivial
    · exact ⟨by decide, ⟨by decide, trivial⟩, trivial⟩
  obtain ⟨reg, hreg⟩ : ∃ reg, (Description.mk (some (shelf shelfProperties))).build = .ok reg :=
    ⟨_, rfl⟩
  have hbuilt := (declaration_order_does_not_matter hshuffled hdistinct).1 reg
  exact ⟨hshuffled, hdistinct, reg, hreg, hbuilt.mp hreg⟩

end Description
end ReactiveModel
