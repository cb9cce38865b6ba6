import ReactiveModel.Proofs.Resolution

/-! What a description stands for. Classes are registered one after the other, and their trees are
built when all names are known; the registry is there exactly for descriptions that are well
formed, and holds what they describe. -/

namespace ReactiveModel

open List ClassDescription ReplicatorDescription

variable {d : ClassDescription}

namespace ClassDescription

variable {lookup : Text → Option Outline} {c : Class}

/-- What is asked of a class when the known classes are given. -/
structure WellFormed (known : Text → Prop) (d : ClassDescription) : Prop where
  named : d.name.isBlank = false
  replicators : ∀ r ∈ d.replicators, ∃ e w, r = some e ∧ e.count.Describes w
  rooted : d.root.isAbsent = d.declarationOnly
  objects : d.root.isAbsent = false → ∀ e ∈ d.root.entries, e.Sound known

/-- A class has all that is described of it. -/
structure Describes (lookup : Text → Option Outline) (d : ClassDescription) (c : Class) : Prop where
  outline : c.toOutline = d.toOutline
  signals : c.signals = d.signals
  functions : c.functions = d.functions
  resources : c.resources = d.resources
  replicators : List.Forall₂ (fun r r' => ∃ e, r = some e ∧ e.Describes r') d.replicators
    c.replicators
  root : if d.root.isAbsent then c.root = none else ∃ t, c.root = some t ∧ d.root.Describes lookup t

lemma buildHead_eq_ok_iff : d.buildHead = .ok c ↔
      ∃ rs, d.replicators.mapM (build d.name) = .ok rs ∧
        c = { toOutline := d.toOutline, signals := d.signals, functions := d.functions,
              resources := d.resources, replicators := rs } := by
  simp only [buildHead, Except.bind_eq_ok_iff]
  simp only [pure, Except.pure, Except.ok.injEq, eq_comm]

lemma name_of_buildHead (h : d.buildHead = .ok c) : c.name = d.name := by
  obtain ⟨rs, -, rfl⟩ := buildHead_eq_ok_iff.mp h
  rfl

lemma exists_buildHead_iff :
    (∃ c, d.buildHead = .ok c) ↔ ∀ r ∈ d.replicators, ∃ e w, r = some e ∧ e.count.Describes w := by
  have hrs : (∃ c, d.buildHead = .ok c) ↔
      ∃ rs, d.replicators.mapM (build d.name) = .ok rs := by
    simp only [buildHead_eq_ok_iff]
    constructor
    · rintro ⟨c, rs, h, -⟩
      exact ⟨rs, h⟩
    · rintro ⟨rs, h⟩
      exact ⟨_, rs, h, rfl⟩
  rw [hrs, exists_mapM_eq_ok_iff]
  refine forall₂_congr fun r _ => ?_
  simp only [build_eq_ok_iff]
  constructor
  · rintro ⟨r', e, he, hr⟩
    exact ⟨e, r'.count, he, hr.count⟩
  · rintro ⟨e, w, he, hw⟩
    exact ⟨⟨e.id, e.className, w, e.initializor, e.parent⟩, e, he, rfl, rfl, hw, rfl, rfl⟩

lemma exists_buildRoot_iff : (∃ root, d.buildRoot lookup = .ok root) ↔
      d.root.isAbsent = d.declarationOnly ∧
        (d.root.isAbsent = false →
          ∀ e ∈ d.root.entries, e.Sound fun name => (lookup name).isSome) := by
  rw [← ObjectDescription.exists_build_iff d.name]
  unfold buildRoot
  cases hd : d.declarationOnly <;> cases ha : d.root.isAbsent <;>
    simp [Except.map_eq_ok_iff]

lemma describes_of_build {root : Option Object} (hc : d.buildHead = .ok c)
    (hr : d.buildRoot lookup = .ok root) : d.Describes lookup { c with root } := by
  obtain ⟨rs, hrs, rfl⟩ := buildHead_eq_ok_iff.mp hc
  refine ⟨rfl, rfl, rfl, rfl, ?_, ?_⟩
  · exact (mapM_eq_ok_iff.mp hrs).imp fun r r' h => build_eq_ok_iff.mp h
  · unfold buildRoot at hr
    cases ha : d.root.isAbsent with
    | true =>
      cases hd : d.declarationOnly <;> simp [ha, hd] at hr
      simp [hr]
    | false =>
      cases hd : d.declarationOnly <;> simp [ha, hd, Except.map_eq_ok_iff] at hr
      obtain ⟨t, ht, rfl⟩ := hr
      simpa using ObjectDescription.describes_of_build d.root t ht

lemma Describes.root_describes
    (h : d.Describes lookup c) {t : Object} (ht : c.root = some t) : d.root.Describes lookup t := by
  have hroot := h.root
  split at hroot
  · simp [hroot] at ht
  · obtain ⟨u, hu, hdescribes⟩ := hroot
    rw [ht, Option.some.injEq] at hu
    exact hu ▸ hdescribes

end ClassDescription

namespace Description

variable {ds : List ClassDescription} {heads reg : Registry} {r r' : Registry}
  {e : Option ClassDescription} {es : List (Text × Except Failure (Option Object))} {n : Text}

/-! Registering the classes. -/

/-- A registry after some classes: each is there under its name, and no other. -/
structure Registered (ds : List ClassDescription) (r : Registry) : Prop where
  named : ∀ d ∈ ds, d.name.isBlank = false
  distinct : (ds.map (·.name)).Nodup
  held : ∀ d ∈ ds, ∃ c, d.buildHead = .ok c ∧ r.lookup d.name = some c
  only : ∀ n, (r.lookup n).isSome → n ∈ ds.map (·.name)

lemma registered_nil : Registered [] {} := by
  refine ⟨by simp, by simp, by simp, fun n h => ?_⟩
  simp [Registry.lookup] at h

lemma Registered.isSome_lookup_iff {r : Registry}
    (h : Registered ds r) (n : Text) : (r.lookup n).isSome ↔ n ∈ ds.map (·.name) := by
  refine ⟨h.only n, fun hn => ?_⟩
  obtain ⟨d, hd, rfl⟩ := mem_map.mp hn
  obtain ⟨c, -, hc⟩ := h.held d hd
  simp [hc]

lemma register_eq_ok_iff :
    register r e = .ok r' ↔
      ∃ d c, e = some d ∧ d.buildHead = .ok c ∧ r.add (some c) = .ok r' := by
  cases e with
  | none => simp [register]
  | some d =>
    simp only [register, Except.bind_eq_ok_iff]
    constructor
    · rintro ⟨c, hc, h⟩
      cases ha : r.add (some c) with
      | error f => simp [ha] at h
      | ok r₁ => exact ⟨d, c, rfl, hc, by simpa [ha] using h⟩
    · rintro ⟨_, c, ⟨⟩, hc, ha⟩
      exact ⟨c, hc, by simp [ha]⟩

lemma Registered.register (h : Registered ds r) (he : register r e = .ok r') :
    ∃ d, e = some d ∧ Registered (ds ++ [d]) r' := by
  obtain ⟨d, c, rfl, hc, ha⟩ := register_eq_ok_iff.mp he
  have hname := name_of_buildHead hc
  obtain ⟨hblank, hnew⟩ := Registry.exists_add_iff.mp ⟨r', ha⟩
  have hlookup := Registry.lookup_of_add ha
  rw [hname] at hblank hnew
  simp only [hname] at hlookup
  have hfresh : d.name ∉ ds.map (·.name) := by
    rw [← h.isSome_lookup_iff, hnew]
    simp
  refine ⟨d, rfl, ⟨?_, ?_, ?_, ?_⟩⟩
  · exact forall_mem_append.mpr ⟨h.named, by simpa using hblank⟩
  · simpa [nodup_append, h.distinct] using hfresh
  · intro u hu
    rcases mem_append.mp hu with hu | hu
    · obtain ⟨k, hk, hl⟩ := h.held u hu
      have hne : u.name ≠ d.name := fun heq => hfresh (heq ▸ mem_map.mpr ⟨u, hu, rfl⟩)
      exact ⟨k, hk, by simp [hlookup, hne, hl]⟩
    · obtain rfl := mem_singleton.mp hu
      exact ⟨c, hc, by simp [hlookup]⟩
  · intro n hn
    rw [map_append, mem_append]
    by_cases hnd : n = d.name
    · exact .inr (by simp [hnd])
    · exact .inl (h.only n (by simpa [hlookup, hnd] using hn))

lemma Registered.foldlM {es : List (Option ClassDescription)}
    (h : Registered ds r) (hes : es.foldlM Description.register r = .ok r') :
    ∃ cs, es = cs.map some ∧ Registered (ds ++ cs) r' := by
  induction es generalizing ds r with
  | nil =>
    cases hes
    exact ⟨[], rfl, by simpa using h⟩
  | cons e es ih =>
    rw [foldlM_cons, Except.bind_eq_ok_iff] at hes
    obtain ⟨r₁, he, hes⟩ := hes
    obtain ⟨d, rfl, h₁⟩ := h.register he
    obtain ⟨cs, rfl, hcs⟩ := ih h₁ hes
    exact ⟨d :: cs, rfl, by simpa using hcs⟩

/-- Classes with different names that can be built by themselves can be registered. -/
lemma Registered.exists_foldlM {ds cs : List ClassDescription} {r : Registry}
    (h : Registered ds r) (hdistinct : ((ds ++ cs).map (·.name)).Nodup)
    (hcs : ∀ c ∈ cs, c.name.isBlank = false ∧ ∃ k, c.buildHead = .ok k) :
    ∃ r', (cs.map some).foldlM Description.register r = .ok r' := by
  induction cs generalizing ds r with
  | nil => exact ⟨r, rfl⟩
  | cons c cs ih =>
    obtain ⟨⟨hblank, k, hk⟩, hrest⟩ := forall_mem_cons.mp hcs
    have hname := name_of_buildHead hk
    have hnew : r.lookup c.name = none := by
      rw [← Option.not_isSome_iff_eq_none, h.isSome_lookup_iff]
      intro hmem
      rw [map_append, nodup_append] at hdistinct
      exact hdistinct.2.2 _ hmem _ (by simp) rfl
    obtain ⟨r₁, hr₁⟩ := Registry.exists_add_iff.mpr ⟨hname ▸ hblank, hname ▸ hnew⟩
    have he : Description.register r (some c) = .ok r₁ :=
      register_eq_ok_iff.mpr ⟨c, k, rfl, hk, hr₁⟩
    obtain ⟨d, hd, h₁⟩ := h.register he
    obtain rfl := Option.some.inj hd
    obtain ⟨r', hr'⟩ := ih h₁ (by simpa using hdistinct) hrest
    exact ⟨r', by rw [map_cons, foldlM_cons, he]; exact hr'⟩

/-! Attaching the trees. -/

lemma lookup_attach (r : Registry) (e : Text × Except Failure (Option Object)) (n : Text) :
    (attach r e).lookup n = (r.lookup n).map fun c =>
      match e.2 with
      | .ok root => if n = e.1 then { c with root } else c
      | .error _ => c := by
  obtain ⟨name, _ | root⟩ := e
  · simp [attach]
  · exact r.lookup_setRoot name root n

lemma lookup_foldl_attach_of_notMem (r : Registry) (h : n ∉ es.map Prod.fst) :
    (es.foldl attach r).lookup n = r.lookup n := by
  induction es generalizing r with
  | nil => rfl
  | cons e es ih =>
    rw [map_cons, mem_cons, not_or] at h
    rw [foldl_cons, ih _ h.2, lookup_attach]
    cases e.2 <;> simp [h.1]

lemma lookup_foldl_attach (r : Registry) (hd : (es.map Prod.fst).Nodup) {root : Option Object}
    (h : (n, .ok root) ∈ es) :
    (es.foldl attach r).lookup n = (r.lookup n).map fun c => { c with root } := by
  induction es generalizing r with
  | nil => nomatch h
  | cons e es ih =>
    obtain ⟨hfresh, hd⟩ := nodup_cons.mp hd
    rw [foldl_cons]
    rcases mem_cons.mp h with rfl | h
    · rw [lookup_foldl_attach_of_notMem _ hfresh, lookup_attach]
      simp
    · have hne : n ≠ e.1 := by
        rintro rfl
        exact hfresh (mem_map.mpr ⟨_, h, rfl⟩)
      rw [ih _ hd h, lookup_attach]
      cases e.2 <;> simp [hne]

lemma outline_foldl_attach (es : List (Text × Except Failure (Option Object))) (r : Registry)
    (n : Text) :
    ((es.foldl attach r).lookup n).map Class.toOutline = (r.lookup n).map Class.toOutline := by
  induction es generalizing r with
  | nil => rfl
  | cons e es ih =>
    rw [foldl_cons, ih, lookup_attach, Option.map_map]
    congr 1
    funext c
    cases e.2 with
    | error f => rfl
    | ok root => by_cases hn : n = e.1 <;> simp [hn]

/-! The registry of a description. -/

lemma failures_roots_eq_nil_iff :
    failures (roots heads ds) = [] ↔ ∀ d ∈ ds, ∃ root, d.buildRoot heads.outline? = .ok root := by
  simp only [failures, roots, filterMap_eq_nil_iff, forall_mem_map]
  refine forall₂_congr fun d _ => ?_
  cases d.buildRoot heads.outline? <;> simp

lemma build_eq_ok_iff {d : Description} :
    d.build = .ok reg ↔
      ∃ heads, (d.classes.getD []).foldlM register {} = .ok heads ∧
        failures (roots heads ((d.classes.getD []).filterMap id)) = [] ∧
        (roots heads ((d.classes.getD []).filterMap id)).foldl attach heads = reg := by
  simp only [build, Except.bind_eq_ok_iff]
  refine exists_congr fun heads => and_congr_right fun _ => ?_
  cases hf : failures (roots heads ((d.classes.getD []).filterMap id)) with
  | nil => simp [pure, Except.pure]
  | cons f fs => simp

/-- A list of classes for which there is a registry. -/
structure WellFormed (ds : List ClassDescription) : Prop where
  distinct : (ds.map (·.name)).Nodup
  classes : ∀ d ∈ ds, d.WellFormed (· ∈ ds.map (·.name))

/-- A registry that holds the described classes and no other. -/
structure Describes (ds : List ClassDescription) (reg : Registry) : Prop where
  held : ∀ d ∈ ds, ∃ c, reg.lookup d.name = some c ∧ d.Describes reg.outline? c
  only : ∀ n, (reg.lookup n).isSome → n ∈ ds.map (·.name)
  /-- The object above an object is the one around its description. -/
  parents : ∀ d ∈ ds, ∀ c t, reg.lookup d.name = some c → c.root = some t →
    List.Forall₂ (ObjectDescription.PlaceDescribes reg.outline?) (d.root.withParents none)
      (t.withParents none)
  counts : ∀ n c, reg.lookup n = some c → ∀ r ∈ c.replicators, r.count.fault? = none
  values : ∀ n c, reg.lookup n = some c → ∀ o ∈ c.objects, ∀ e ∈ o.properties.table,
    e.2.fault? = none

section

variable (h : Registered ds heads)

include h

lemma Registered.wellFormed_iff :
    WellFormed ds ↔ ∀ d ∈ ds, ∃ root, d.buildRoot heads.outline? = .ok root := by
  have hknown : (fun name => (heads.outline? name).isSome = true) = (· ∈ ds.map (·.name)) := by
    funext n
    simp [Registry.outline?, h.isSome_lookup_iff n]
  simp only [exists_buildRoot_iff, hknown]
  constructor
  · intro hw d hd
    exact ⟨(hw.classes d hd).rooted, (hw.classes d hd).objects⟩
  · intro hroots
    refine ⟨h.distinct, fun d hd => ⟨h.named d hd, ?_, (hroots d hd).1, (hroots d hd).2⟩⟩
    obtain ⟨c, hc, -⟩ := h.held d hd
    exact exists_buildHead_iff.mp ⟨c, hc⟩

lemma Registered.describes_class (hw : WellFormed ds) (hd : d ∈ ds) :
    let reg := (roots heads ds).foldl attach heads
    ∃ c, reg.lookup d.name = some c ∧ d.Describes reg.outline? c := by
  intro reg
  have hnames : (roots heads ds).map Prod.fst = ds.map (·.name) := by
    simp [roots]
  have houtline : reg.outline? = heads.outline? := by
    funext n
    exact outline_foldl_attach (roots heads ds) heads n
  obtain ⟨c, hc, hl⟩ := h.held d hd
  obtain ⟨root, hr⟩ := h.wellFormed_iff.mp hw d hd
  have hmem : (d.name, .ok root) ∈ roots heads ds := mem_map.mpr ⟨d, hd, by rw [hr]⟩
  refine ⟨{ c with root }, ?_, ?_⟩
  · rw [lookup_foldl_attach heads (hnames ▸ h.distinct) hmem, hl]
    rfl
  · rw [houtline]
    exact describes_of_build hc hr

lemma Registered.isSome_lookup_attach_iff (n : Text) :
    (((roots heads ds).foldl attach heads).lookup n).isSome ↔ n ∈ ds.map (·.name) := by
  have houtline := congrArg Option.isSome (outline_foldl_attach (roots heads ds) heads n)
  rw [Option.isSome_map, Option.isSome_map] at houtline
  rw [houtline, h.isSome_lookup_iff]

lemma Registered.describes (hw : WellFormed ds) :
    Describes ds ((roots heads ds).foldl attach heads) := by
  have hheld := fun d hd => h.describes_class hw (d := d) hd
  have honly := fun n => (h.isSome_lookup_attach_iff n).mp
  have hall : ∀ n c, ((roots heads ds).foldl attach heads).lookup n = some c →
      ∃ d ∈ ds, d.Describes ((roots heads ds).foldl attach heads).outline? c := by
    intro n c hc
    obtain ⟨d, hd, rfl⟩ := mem_map.mp (honly n (by simp [hc]))
    obtain ⟨k, hk, hdescribes⟩ := hheld d hd
    rw [hc, Option.some.injEq] at hk
    exact ⟨d, hd, hk ▸ hdescribes⟩
  refine ⟨hheld, honly, ?_, ?_, ?_⟩
  · intro d hd c t hc ht
    obtain ⟨k, hk, hdescribes⟩ := hheld d hd
    rw [hc, Option.some.injEq] at hk
    subst hk
    exact ObjectDescription.Describes.withParents d.root (hdescribes.root_describes ht) .none
  · intro n c hc r hr
    obtain ⟨d, -, hd⟩ := hall n c hc
    obtain ⟨-, -, e, -, he⟩ := exists_of_mem hd.replicators hr
    exact he.count.fault?_eq_none
  · intro n c hc o ho e he
    obtain ⟨d, -, hd⟩ := hall n c hc
    cases ht : c.root with
    | none => simp [Class.objects, ht] at ho
    | some t =>
      have hot : o ∈ t.nodes := by simpa [Class.objects, ht] using ho
      exact (hd.root_describes ht).fault?_eq_none hot he

end

lemma describes_of_build {d : Description} (h : d.build = .ok reg) :
    ∃ ds, d.classes.getD [] = ds.map some ∧ WellFormed ds ∧ Describes ds reg := by
  obtain ⟨heads, hheads, hfailures, rfl⟩ := build_eq_ok_iff.mp h
  obtain ⟨ds, hds, hregistered⟩ := registered_nil.foldlM hheads
  have hentries : (d.classes.getD []).filterMap id = ds := by simp [hds, filterMap_map]
  rw [hentries] at hfailures ⊢
  have hw : WellFormed ds :=
    hregistered.wellFormed_iff.mpr (failures_roots_eq_nil_iff.mp hfailures)
  exact ⟨ds, hds, hw, hregistered.describes hw⟩

lemma exists_build_of_wellFormed {d : Description}
    (hds : d.classes.getD [] = ds.map some) (hw : WellFormed ds) : ∃ reg, d.build = .ok reg := by
  have hhead : ∀ c ∈ ds, c.name.isBlank = false ∧ ∃ k, c.buildHead = .ok k := fun c hc =>
    ⟨(hw.classes c hc).named,
      exists_buildHead_iff.mpr (hw.classes c hc).replicators⟩
  obtain ⟨heads, hheads⟩ := registered_nil.exists_foldlM hw.distinct hhead
  obtain ⟨cs, hcs, hregistered⟩ := registered_nil.foldlM hheads
  obtain rfl : ds = cs := (map_inj_right fun _ _ h => Option.some.inj h).mp hcs
  have hentries : (d.classes.getD []).filterMap id = ds := by simp [hds, filterMap_map]
  refine ⟨_, build_eq_ok_iff.mpr ⟨heads, hds ▸ hheads, ?_, rfl⟩⟩
  rw [hentries, failures_roots_eq_nil_iff]
  exact hregistered.wellFormed_iff.mp hw

/-- There is a registry exactly when there is a well-formed description, and it is what the
description stands for. -/
theorem build_exactly_wellFormed (d? : Option Description) :
    ((∃ reg, buildOptional d? = .ok reg) ↔
      ∃ d ds, d? = some d ∧ d.classes.getD [] = ds.map some ∧ WellFormed ds) ∧
    ∀ reg, buildOptional d? = .ok reg →
      ∃ d ds, d? = some d ∧ d.classes.getD [] = ds.map some ∧ Describes ds reg := by
  cases d? with
  | none => simp [buildOptional]
  | some d =>
    refine ⟨⟨?_, ?_⟩, ?_⟩
    · rintro ⟨reg, h⟩
      obtain ⟨ds, hds, hw, -⟩ := describes_of_build h
      exact ⟨d, ds, rfl, hds, hw⟩
    · rintro ⟨_, ds, ⟨⟩, hds, hw⟩
      exact exists_build_of_wellFormed hds hw
    · intro reg h
      obtain ⟨ds, hds, -, hdescribes⟩ := describes_of_build h
      exact ⟨d, ds, rfl, hds, hdescribes⟩

end Description
end ReactiveModel
