import ReactiveModel.Proofs.Members
import ReactiveModel.Proofs.Options
import ReactiveModel.Proofs.PackageNames

/-! Names made from names of the model. All names that an artifact declares can be declared: they
are identifiers and no keywords. They can be selected unless they are blank, and a blank comes only
from a blank in the model. -/

namespace ReactiveModel

open List

namespace Source

variable {s t : String} {d : Char}

lemma IsIdentifier.exists_cons (h : IsIdentifier s) :
    ∃ c cs, s = String.ofList (c :: cs) ∧ isNameStart c = true ∧ ∀ d ∈ cs, isNamePart d = true := by
  obtain ⟨⟨c, hc, hstart⟩, hparts⟩ := h
  obtain ⟨cs, hcs⟩ := head?_eq_some_iff.mp hc
  refine ⟨c, cs, by rw [← hcs, String.ofList_toList], hstart, fun d hd => hparts d ?_⟩
  rw [hcs]
  exact mem_cons_of_mem c hd

lemma isIdentifier_ofList {c : Char} {cs : List Char} (hc : isNameStart c = true)
    (hcs : ∀ d ∈ cs, isNamePart d = true) : IsIdentifier (String.ofList (c :: cs)) := by
  simp [IsIdentifier, isNamePart, hc] at hcs ⊢
  exact hcs

lemma IsIdentifier.append (hs : IsIdentifier s) (ht : IsIdentifier t) : IsIdentifier (s ++ t) := by
  obtain ⟨c, cs, rfl, hc, hcs⟩ := hs.exists_cons
  have happend : String.ofList (c :: cs) ++ t = String.ofList (c :: (cs ++ t.toList)) := by
    rw [← String.toList_inj]
    simp
  rw [happend]
  refine isIdentifier_ofList hc fun d hd => ?_
  rcases mem_append.mp hd with hd | hd
  · exact hcs d hd
  · exact ht.2 d hd

lemma notMem_keywords (hd : d ∈ s.toList) (hlower : d.isLower = false) : s ∉ keywords := by
  have hall : (keywords.all fun k => k.toList.all Char.isLower) = true := by decide +kernel
  intro h
  have hd' := all_eq_true.mp (all_eq_true.mp hall s h) d hd
  simp [hlower] at hd'

lemma isIdentifier_of_mem_keywords (h : s ∈ keywords) : IsIdentifier s := by
  have hall : (keywords.all fun k => (k.toList.head?.any isNameStart && k.toList.all isNamePart)) =
      true := by decide +kernel
  have hs := all_eq_true.mp hall s h
  simpa [IsIdentifier, Option.any_eq_true] using hs

end Source

namespace Naming

open Source Text

variable {t : Text} {s : String} {f : Char → Char}

/-- Whether a text is an identifier and no keyword, as the names of declarations are. -/
def IsDeclarable (t : Text) : Prop :=
  ∃ s, t = Text.ofString s ∧ Source.IsIdentifier s ∧ s ∉ Source.keywords

lemma isName_iff_isDeclarable : isName t = true ↔ IsDeclarable t := by
  simp [isName, IsDeclarable, Option.any_eq_true, toString?_eq_some_iff, Source.isName_iff,
    Source.isKeyword]

lemma isBase_iff : isBase t = true ↔ ∃ s, t = ofString s ∧ IsIdentifier s := by
  unfold isBase isKeyword
  rw [Bool.or_eq_true, isName_iff_isDeclarable, Option.any_eq_true]
  simp only [toString?_eq_some_iff, Source.isKeyword, contains_iff_mem]
  constructor
  · rintro (⟨s, hs, hident, -⟩ | ⟨s, hs, hkey⟩)
    · exact ⟨s, hs, hident⟩
    · exact ⟨s, hs, isIdentifier_of_mem_keywords hkey⟩
  · rintro ⟨s, hs, hident⟩
    by_cases hkey : s ∈ keywords
    · exact .inr ⟨s, hs, hkey⟩
    · exact .inl ⟨s, hs, hident, hkey⟩

lemma mapFirst_ofString (f : Char → Char) (c : Char) (cs : List Char) :
    mapFirst f (ofString (String.ofList (c :: cs))) = ofString (String.ofList (f c :: cs)) := by
  rw [mapFirst, pieces_ofString, String.toList_ofList]
  exact ofPieces_map_char (f c :: cs)

lemma exists_mapFirst (hblank : f '_' = '_')
    (hletter : ∀ {c}, isLetter c = true → isLetter (f c) = true) (h : isBase t = true) :
    ∃ c cs, mapFirst f t = ofString (String.ofList (f c :: cs)) ∧
      IsIdentifier (String.ofList (f c :: cs)) := by
  obtain ⟨s, rfl, hs⟩ := isBase_iff.mp h
  obtain ⟨c, cs, rfl, hc, hcs⟩ := hs.exists_cons
  refine ⟨c, cs, mapFirst_ofString f c cs, isIdentifier_ofList ?_ hcs⟩
  simp only [isNameStart, Bool.or_eq_true, beq_iff_eq] at hc ⊢
  rcases hc with rfl | hc
  · exact .inl hblank
  · exact .inr (hletter hc)

lemma exists_title (h : isBase t = true) :
    ∃ s, title t = ofString s ∧ IsIdentifier s ∧ ∃ d ∈ s.toList, d.isLower = false := by
  obtain ⟨c, cs, htitle, hident⟩ := exists_mapFirst (by decide) isLetter_toUpper h
  exact ⟨_, htitle, hident, toUpper c, by simp, isLower_toUpper c⟩

lemma isDeclarable_safe (h : isBase t = true) : IsDeclarable (safe t) := by
  unfold safe
  split
  · obtain ⟨s, rfl, hs⟩ := isBase_iff.mp h
    rw [← ofString_append]
    have hblank : IsIdentifier "_" := by
      exact isIdentifier_ofList (by decide) (forall_mem_nil _)
    exact ⟨_, rfl, hblank.append hs, notMem_keywords (d := '_') (by simp) (by decide)⟩
  · rename_i hkey
    simp only [isBase, hkey, Bool.or_false] at h
    exact isName_iff_isDeclarable.mp h

/-! Blanks. -/

lemma mapFirst_eq_blank_iff (hf : ∀ c, f c = '_' ↔ c = '_') : mapFirst f t = "_" ↔ t = "_" := by
  constructor
  · intro h
    unfold mapFirst at h
    split at h
    · exact absurd h (by decide)
    · rename_i p ps hps
      have hbytes : String.utf8EncodeChar (f p.shown) ++ ps.flatMap Text.Piece.bytes =
          [.ofNat '_'.toNat] := congrArg bytes h
      rcases append_eq_singleton_iff.mp hbytes with ⟨hnil, -⟩ | ⟨hfirst, hrest⟩
      · exact absurd hnil String.utf8EncodeChar_ne_nil
      have hshown : p.shown = '_' :=
        (hf _).mp (eq_of_mem_utf8EncodeChar (by decide) (hfirst ▸ mem_cons_self))
      have hpieces : t.bytes = p.bytes ++ ps.flatMap Text.Piece.bytes := by
        rw [← flatMap_cons, ← hps]
        exact (flatMap_piecesOf (Nat.le_refl _)).symm
      rw [hrest] at hpieces
      cases p with
      | char c =>
        obtain rfl : c = '_' := hshown
        exact congrArg Text.mk hpieces
      | stray b =>
        have hne : '\ufffd' ≠ '_' := by decide
        exact absurd hshown hne
  · rintro rfl
    have hblank := mapFirst_ofString f '_' []
    rwa [(hf '_').mpr rfl] at hblank

lemma title_eq_blank_iff : title t = "_" ↔ t = "_" := by
  refine mapFirst_eq_blank_iff fun c => ⟨fun h => eq_of_toUpper h (by decide) (by decide), ?_⟩
  rintro rfl
  decide

lemma lowerFirst_eq_blank_iff : lowerFirst t = "_" ↔ t = "_" := by
  refine mapFirst_eq_blank_iff fun c => ⟨fun h => eq_of_toLower h (by decide) (by decide), ?_⟩
  rintro rfl
  decide

lemma safe_eq_blank_iff : safe t = "_" ↔ t = "_" := by
  unfold safe
  split
  · rename_i hkey
    refine ⟨fun h => ?_, fun h => ?_⟩
    · have hbytes : (95 : UInt8) :: t.bytes = [95] := congrArg bytes h
      obtain rfl : t = "" := congrArg Text.mk (cons_inj_right _ |>.mp hbytes)
      exact absurd hkey (by decide)
    · subst h
      exact absurd hkey (by decide)
  · rfl

lemma ne_blank_of_mem {b : UInt8} (hb : b ∈ t.bytes) (hne : b ≠ 95) : t ≠ "_" := by
  rintro rfl
  exact hne (mem_singleton.mp hb)

/-! Names with a beginning or an end of their own. -/

lemma isBase_append {a b : Text} (ha : isBase a = true) (hb : isBase b = true) :
    isBase (a ++ b) = true := by
  obtain ⟨s, rfl, hs⟩ := isBase_iff.mp ha
  obtain ⟨u, rfl, hu⟩ := isBase_iff.mp hb
  exact isBase_iff.mpr ⟨s ++ u, (ofString_append s u).symm, hs.append hu⟩

lemma isDeclarable_of_mem (h : isBase t = true) {d : Char} (hmem : .ofNat d.toNat ∈ t.bytes)
    (hd : d.toNat < 0x80 ∧ d.isLower = false) : IsDeclarable t := by
  obtain ⟨s, rfl, hs⟩ := isBase_iff.mp h
  exact ⟨s, rfl, hs, notMem_keywords ((mem_bytes_ofString hd.1).mp hmem) hd.2⟩

end Naming

namespace Class

open Naming Source Text

variable {c : Class} {s : Settings} {reg : Registry} {m : Member} {p : Property}

/-- Whether a name of the model is blank that a member of the artifact is called by. -/
def HasBlank (c : Class) : Prop :=
  (∃ o ∈ c.objects, o.id = "_") ∨ (∃ r ∈ c.resources, r.name = "_") ∨
    (∃ x ∈ c.signals, x.name = "_") ∨ ("_" : Text) ∈ c.functionNames

lemma isDeclarable_fixedMembers (hm : m ∈ c.fixedMembers s) :
    IsDeclarable m.name ∧ m.name ≠ "_" := by
  have hmem : m.name ∈ ["initialized", "Initialize", "Root", "initResources", "initObjects",
      "initReplicators", "evaluateBindings"].map ofString := by
    unfold fixedMembers at hm
    cases c.replicators.isEmpty <;> cases c.isEager s <;> simp at hm ⊢ <;> grind
  have hall : ∀ n ∈ ["initialized", "Initialize", "Root", "initResources", "initObjects",
      "initReplicators", "evaluateBindings"].map ofString, isName n = true ∧ n ≠ "_" := by
    decide +kernel
  obtain ⟨hname, hblank⟩ := hall _ hmem
  exact ⟨isName_iff_isDeclarable.mp hname, hblank⟩

lemma isDeclarable_propertyMembers (hbase : isBase p.name = true) (hm : m ∈ propertyMembers p) :
    IsDeclarable m.name ∧ (m.name = "_" → p.name = "_") := by
  obtain ⟨u, htitle, hident, d, hd, hlower⟩ := exists_title hbase
  have hbase' : isBase (title p.name) = true := isBase_iff.mpr ⟨u, htitle, hident⟩
  simp only [propertyMembers, mem_cons, not_mem_nil, or_false] at hm
  rcases hm with rfl | rfl | rfl | rfl
  · obtain ⟨c, cs, hlower, hident⟩ := exists_mapFirst (by decide) isLetter_toLower hbase
    exact ⟨isDeclarable_safe (isBase_iff.mpr ⟨_, hlower, hident⟩), fun h =>
      lowerFirst_eq_blank_iff.mp (safe_eq_blank_iff.mp h)⟩
  · exact ⟨⟨u, htitle, hident, notMem_keywords hd hlower⟩, title_eq_blank_iff.mp⟩
  · have hmem : .ofNat 'S'.toNat ∈ (setter p.name).bytes := mem_append_left _ (by decide)
    exact ⟨isDeclarable_of_mem (isBase_append (by decide) hbase') hmem (by decide),
      fun h => absurd h (ne_blank_of_mem hmem (by decide))⟩
  · have hmem : .ofNat 'O'.toNat ∈ (changedSignal p.name).bytes :=
      mem_append_left _ (mem_append_left _ (by decide))
    exact ⟨isDeclarable_of_mem (isBase_append (isBase_append (by decide) hbase') (by decide)) hmem
      (by decide), fun h => absurd h (ne_blank_of_mem hmem (by decide))⟩

lemma isDeclarable_objectMembers {o : Node} (ho : ObjectSound o) (hm : m ∈ objectMembers o) :
    IsDeclarable m.name ∧ (m.name = "_" → o.id = "_") := by
  rcases mem_cons.mp hm with rfl | hm
  · exact ⟨isDeclarable_safe ho.base, safe_eq_blank_iff.mp⟩
  obtain ⟨b, hb, hm⟩ := mem_flatMap.mp hm
  obtain ⟨p, hp, rfl⟩ := mem_map.mp hb
  have hproperty := (ho.values p (mem_filter.mp hp).1).1
  have hhandler : isBase (bindingHandler o.id p.1) = true :=
    isBase_append (isBase_append (isBase_append (by decide) ho.base) (by decide)) hproperty
  have hmem {d : Char} (hd : .ofNat d.toNat ∈ ("binding_" : Text).bytes) :
      .ofNat d.toNat ∈ (bindingHandler o.id p.1).bytes :=
    mem_append_left _ (mem_append_left _ (mem_append_left _ hd))
  simp only [bindingMembers, mem_cons, not_mem_nil, or_false] at hm
  rcases hm with rfl | rfl
  · exact ⟨isDeclarable_of_mem hhandler (@hmem '_' (by decide)) (by decide),
      fun h => absurd h (ne_blank_of_mem (@hmem 'b' (by decide)) (by decide))⟩
  · exact ⟨isDeclarable_of_mem (d := '_') (isBase_append (by decide) hhandler)
      (mem_append_left _ (by decide)) (by decide),
      fun h => absurd h (ne_blank_of_mem (b := 101) (mem_append_left _ (by decide)) (by decide))⟩

lemma isDeclarable_replicatorMember {r : Replicator} (h : isBase r.id = true) :
    IsDeclarable (replicatorMember r).name ∧ (replicatorMember r).name ≠ "_" :=
  ⟨isDeclarable_of_mem (d := '_') (isBase_append (by decide) h) (mem_append_left _ (by decide))
    (by decide), ne_blank_of_mem (b := 114) (mem_append_left _ (by decide)) (by decide)⟩

/-- A property that is called by a blank has storage and getter of one name. -/
lemma property_ne_blank (h : c.checkNames s = none) (hp : p ∈ c.properties) : p.name ≠ "_" := by
  intro hblank
  have hsame : storageField p.name = getter p.name :=
    (safe_eq_blank_iff.mpr (lowerFirst_eq_blank_iff.mpr hblank)).trans
      (title_eq_blank_iff.mpr hblank).symm
  have hnodup := checkNames_eq_none_iff.mp h
  simp only [members, map_append] at hnodup
  have hproperties := hnodup.of_append_left.of_append_left.of_append_left.of_append_left
    |>.of_append_left.of_append_right
  rw [map_flatMap] at hproperties
  have hown := (nodup_flatMap.mp hproperties).1 p hp
  simp [propertyMembers, hsame] at hown

/-- What the check assures of the names of members. -/
lemma isDeclarable_of_mem_members (h : c.check s reg = .passed) (hm : m ∈ c.members s) :
    IsDeclarable m.name ∧ (m.name = "_" → c.HasBlank) := by
  obtain ⟨-, -, hfaults, hnames⟩ := check_eq_passed_iff.mp h
  obtain ⟨htree, -, hreplicators, hproperties, hsignals, hfunctions, hresources⟩ :=
    faults_eq_some_nil_iff.mp hfaults
  simp only [members, mem_append, mem_flatMap, mem_map] at hm
  rcases hm with (((((hm | ⟨p, hp, hm⟩) | ⟨x, hx, rfl⟩) | ⟨f, hf, rfl⟩) | ⟨r, hr, rfl⟩) |
    ⟨o, ho, hm⟩) | ⟨r, hr, rfl⟩
  · obtain ⟨hname, hblank⟩ := isDeclarable_fixedMembers hm
    exact ⟨hname, fun h => absurd h hblank⟩
  · have hbase : isBase p.name = true := by
      by_contra hbase
      simpa [propertyFaults, hbase] using hproperties p hp
    obtain ⟨hname, hblank⟩ := isDeclarable_propertyMembers hbase hm
    exact ⟨hname, fun h => absurd (hblank h) (property_ne_blank hnames hp)⟩
  · have hname : isName (title x.name) = true := by
      by_contra hname
      simpa [signalFaults, hname] using hsignals x hx
    exact ⟨isName_iff_isDeclarable.mp hname,
      fun h => .inr (.inr (.inl ⟨x, hx, title_eq_blank_iff.mp h⟩))⟩
  · have hname : isName (functionName f.signature) = true := by
      by_contra hname
      simpa [functionFaults, hname] using hfunctions f hf
    exact ⟨isName_iff_isDeclarable.mp hname, fun h => .inr (.inr (.inr (mem_map.mpr ⟨f, hf, h⟩)))⟩
  · have hbase : isBase r.name = true := by
      by_contra hbase
      simpa [resourceFaults, hbase] using hresources r hr
    exact ⟨isDeclarable_safe hbase, fun h => .inr (.inl ⟨r, hr, safe_eq_blank_iff.mp h⟩)⟩
  · obtain ⟨hname, hblank⟩ :=
      isDeclarable_objectMembers ((treeFaults_eq_nil_iff.mp htree).1 o ho).1 hm
    exact ⟨hname, fun h => .inl ⟨o, ho, hblank h⟩⟩
  · obtain ⟨hname, hblank⟩ := isDeclarable_replicatorMember
      ((replicatorsFaults_eq_nil_iff.mp hreplicators).1 r hr).1.base
    exact ⟨hname, fun h => absurd h hblank⟩

lemma HasBlank.exists_member (h : c.HasBlank) (s : Settings) : ∃ m ∈ c.members s, m.name = "_" := by
  simp only [members, mem_append, mem_flatMap, mem_map]
  rcases h with ⟨o, ho, hid⟩ | ⟨r, hr, hname⟩ | ⟨x, hx, hname⟩ | h
  · exact ⟨_, .inl (.inr ⟨o, ho, mem_cons_self⟩), safe_eq_blank_iff.mpr hid⟩
  · exact ⟨_, .inl (.inl (.inr ⟨r, hr, rfl⟩)), safe_eq_blank_iff.mpr hname⟩
  · exact ⟨_, .inl (.inl (.inl (.inl (.inr ⟨x, hx, rfl⟩)))), title_eq_blank_iff.mpr hname⟩
  · obtain ⟨f, hf, hname⟩ := mem_map.mp h
    exact ⟨_, .inl (.inl (.inl (.inr ⟨f, hf, rfl⟩))), hname⟩

lemma exists_member_of_mem_signals {n : Text} (h : n ∈ (c.artifact s reg).signals.map Field.name) :
    ∃ m ∈ c.members s, m.name = n := by
  simp only [artifact, signalFields, map_append, map_map, mem_append, mem_map,
    Function.comp_apply] at h
  simp only [members, mem_append, mem_flatMap, mem_map]
  rcases h with ⟨p, hp, rfl⟩ | ⟨x, hx, rfl⟩
  · refine ⟨⟨changedSignal p.name, "change signal of property " ++ p.name⟩, ?_, rfl⟩
    exact .inl (.inl (.inl (.inl (.inl (.inr ⟨p, hp, by simp [propertyMembers]⟩)))))
  · exact ⟨_, .inl (.inl (.inl (.inl (.inr ⟨x, hx, rfl⟩)))), rfl⟩

/-- The names that an accepted class declares can be declared. They can be selected as well unless
a name of the model is blank: that of the class, an object, a resource, a signal or a function. -/
theorem declared_names_usable (h : c.check s reg = .passed) :
    let names := c.name :: (c.artifact s reg).code.declaredOn c.name ++
      (c.artifact s reg).signals.map Field.name ++ c.functionNames
    (∀ n ∈ names, IsDeclarable n) ∧ (ofString "_" ∈ names ↔ c.name = "_" ∨ c.HasBlank) := by
  intro names
  have hmem : ∀ n, n ∈ names ↔ n = c.name ∨ ∃ m ∈ c.members s, m.name = n := by
    intro n
    have hdeclared : (c.artifact s reg).code.declaredOn c.name = (c.artifact s reg).memberNames :=
      (c.artifact s reg).declaredOn_code
    have hperm := (perm_members s reg c).mem_iff (a := n)
    rw [mem_append, mem_map] at hperm
    simp only [names, hdeclared, mem_append, mem_cons]
    constructor
    · rintro (((hn | hn) | hn) | hn)
      · exact .inl hn
      · exact .inr (hperm.mp (.inl hn))
      · exact .inr (exists_member_of_mem_signals hn)
      · exact .inr (hperm.mp (.inr hn))
    · rintro (hn | hn)
      · exact .inl (.inl (.inl hn))
      · exact (hperm.mpr hn).imp (fun hn => .inl (.inr hn)) id
  refine ⟨fun n hn => ?_, ?_⟩
  · rcases (hmem n).mp hn with rfl | ⟨m, hm, rfl⟩
    · exact isName_iff_isDeclarable.mp (check_eq_passed_iff.mp h).1
    · exact (isDeclarable_of_mem_members h hm).1
  · rw [hmem]
    refine or_congr eq_comm ⟨?_, fun hblank => hblank.exists_member s⟩
    rintro ⟨m, hm, hblank⟩
    exact (isDeclarable_of_mem_members h hm).2 hblank

/-- A class whose members are called by keywords. -/
def keyworded : Class :=
  { name := "Row", properties := [⟨"range", "int"⟩], signals := [⟨"select", ""⟩]
    resources := [⟨"map", "int", "new(int)"⟩]
    root := some (.node
      { id := "type", type := some .box
        properties := .ofPairs [("go", .ofBinding ⟨"1", []⟩)] } []) }

theorem declared_names_usable_keyworded :
    keyworded.check {} {} = .passed ∧
      ∀ n ∈ (keyworded.artifact {} {}).code.declaredOn "Row", IsDeclarable n := by
  have h : keyworded.check {} {} = .passed := by rfl
  refine ⟨h, fun n hn => (declared_names_usable h).1 n ?_⟩
  exact List.mem_append_left _ (List.mem_append_left _ (List.mem_cons_of_mem _ hn))

/-- A class with an object that is called by a blank is accepted, and has a field of this name. -/
theorem blank_object_declared :
    let row : Class := { name := "Row", root := some (.node { id := "_", type := some .box } []) }
    row.check {} {} = .passed ∧ ofString "_" ∈ (row.artifact {} {}).code.declaredOn row.name :=
  ⟨by rfl, by decide +kernel⟩

end Class
end ReactiveModel
