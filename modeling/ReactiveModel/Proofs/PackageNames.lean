import Mathlib.Data.List.Pairwise
import ReactiveModel.Proofs.Accounting

/-! Names that artifacts declare in their package, which all artifacts of a run share: the type of a
class, the interface of its functions and the variable of its signals. The check of a class looks at
the members of its type only, so two classes that are accepted may declare one name. They do so
exactly when the name of one is made from the name of the other, or when their signals are held by
one variable. -/

namespace ReactiveModel

open List Naming

namespace Text

lemma append_left_inj {a b t : Text} : a ++ t = b ++ t ↔ a = b := by
  refine ⟨fun h => ?_, fun h => by rw [h]⟩
  have hbytes : a.bytes ++ t.bytes = b.bytes ++ t.bytes := congrArg bytes h
  exact congrArg Text.mk (append_cancel_right hbytes)

end Text

namespace Naming

/-! Names made from the name of a class. -/

variable {a b : Text}

lemma functionsInterface_inj : functionsInterface a = functionsInterface b ↔ a = b :=
  Text.append_left_inj

lemma signalsVar_inj : signalsVar a = signalsVar b ↔ lowerFirst a = lowerFirst b :=
  Text.append_left_inj

lemma signalsVar_ne_functionsInterface (a b : Text) : signalsVar a ≠ functionsInterface b := by
  intro h
  have hending : ∀ t e : Text, 2 ≤ e.bytes.length →
      (t ++ e).bytes.reverse.take 2 = e.bytes.reverse.take 2 := by
    intro t e he
    have hreverse : (t ++ e).bytes.reverse = e.bytes.reverse ++ t.bytes.reverse :=
      reverse_append
    rw [hreverse, take_append_of_le_length (by simpa using he)]
  have htake := congrArg (fun t : Text => t.bytes.reverse.take 2) h
  simp only [signalsVar, functionsInterface] at htake
  rw [hending _ _ (by decide), hending _ _ (by decide)] at htake
  exact absurd htake (by decide)

lemma length_append_bytes (a b : Text) :
    (a ++ b).bytes.length = a.bytes.length + b.bytes.length := length_append

lemma functionsInterface_ne_self (a : Text) : functionsInterface a ≠ a := by
  intro h
  have hlength := congrArg (fun t : Text => t.bytes.length) h
  have hending : ("Functions" : Text).bytes.length = 9 := by decide
  simp only [functionsInterface, length_append_bytes, hending] at hlength
  omega

/-- The first letter may take more or fewer bytes in lower case, so characters are counted. -/
lemma signalsVar_ne_self (h : isName a) : signalsVar a ≠ a := by
  obtain ⟨s, hs, -⟩ : ∃ s, a.toString? = some s ∧ Source.isName s = true := by
    simpa [isName, Option.any_eq_true] using h
  have hpieces := Text.pieces_of_toString? hs
  obtain ⟨cs, hcs, hlower⟩ : ∃ cs : List Char, cs.length = s.toList.length ∧
      lowerFirst a = .ofString (String.ofList cs) := by
    rw [lowerFirst, mapFirst, hpieces]
    cases s.toList with
    | nil => exact ⟨[], rfl, rfl⟩
    | cons c cs => exact ⟨Text.toLower c :: cs, rfl, Text.ofPieces_map_char (Text.toLower c :: cs)⟩
  intro heq
  have hlength := congrArg (fun t : Text => t.pieces.length) heq
  simp [signalsVar, hlower, ← Text.ofString_append, Text.pieces_ofString, hpieces, hcs] at hlength

lemma append_ne_blank (a : Text) {e : Text} (he : 1 < e.bytes.length) : a ++ e ≠ "_" := by
  intro h
  have hlength := congrArg (fun t : Text => t.bytes.length) h
  have hblank : ("_" : Text).bytes.length = 1 := by decide
  simp only [length_append_bytes, hblank] at hlength
  omega

lemma functionsInterface_ne_blank (a : Text) : functionsInterface a ≠ "_" :=
  append_ne_blank a (by decide)

lemma signalsVar_ne_blank (a : Text) : signalsVar a ≠ "_" := append_ne_blank _ (by decide)

end Naming

namespace Code

/-- The name that a declaration gives to its package. A blank names nothing. -/
def packageNamesOf : Code → List Text
  | .phrase (.word keyword :: .word name :: _) =>
    if (keyword = "type" ∨ keyword = "var") ∧ name ≠ "_" then [name] else []
  | _ => []

/-- The names that a file gives to its package. -/
def packageNames : Code → List Text
  | .group _ _ _ _ cs => cs.flatMap packageNamesOf
  | _ => []

@[simp] lemma packageNamesOf_gap : packageNamesOf gap = [] := rfl

@[simp] lemma packageNamesOf_comment (t : Text) : packageNamesOf (comment t) = [] := rfl

end Code

namespace Artifact

open Code

@[simp] lemma packageNamesOf_method (a : Artifact) (name : Text) (header body : List Code) :
    packageNamesOf (a.method name header body) = [] := by
  simp [method, params, packageNamesOf]

lemma packageNames_code (a : Artifact) :
    a.code.packageNames =
      (if a.functions.isEmpty then [] else [functionsInterface a.className]) ++
        (if a.signals.isEmpty then [] else [signalsVar a.className]) ++
        (if a.className = "_" then [] else [a.className]) := by
  have hfunctions : a.functionsCode.flatMap packageNamesOf =
      if a.functions.isEmpty then [] else [functionsInterface a.className] := by
    unfold functionsCode
    split
    · rfl
    · simp [packageNamesOf, comment, functionsInterface_ne_blank]
  have hsignals : a.signalsCode.flatMap packageNamesOf =
      if a.signals.isEmpty then [] else [signalsVar a.className] := by
    unfold signalsCode
    split
    · rfl
    · simp [packageNamesOf, signalsVariable, signalsVar_ne_blank]
  have hstruct : a.structCode.flatMap packageNamesOf =
      if a.className = "_" then [] else [a.className] := by
    simp [structCode, packageNamesOf, comment]
  have hproperties : (a.properties.flatMap a.propertyCode).flatMap packageNamesOf = [] := by
    simp [flatMap_assoc, propertyCode, signalCode]
  have haccessors : (a.signalAccessors.flatMap a.signalCode).flatMap packageNamesOf = [] := by
    simp [flatMap_assoc, signalCode]
  have hevaluations : (a.evaluations.flatMap a.evaluationCode).flatMap packageNamesOf = [] := by
    simp [flatMap_assoc, evaluationCode]
  have hreplications : a.replicationsCode.flatMap packageNamesOf = [] := by
    unfold replicationsCode
    split <;> simp
  have hevaluate : a.evaluateCode.flatMap packageNamesOf = [] := by
    unfold evaluateCode
    split <;> simp
  simp only [code, declarations, packageNames, flatMap_append, hfunctions, hsignals, hstruct,
    hproperties, haccessors, hevaluations, hreplications, hevaluate]
  simp [initializeCode, rootCode, resourcesCode, objectsCode]

end Artifact

/-- The classes of a run whose check lets an artifact be made. -/
def Registry.accepted (s : Settings) (reg : Registry) : List Class :=
  reg.generated.filter fun c =>
    match c.check s reg with
    | .passed => true
    | _ => false

lemma Registry.mem_accepted_iff {s : Settings} {reg : Registry} {c : Class} :
    c ∈ reg.accepted s ↔ c ∈ reg.generated ∧ c.check s reg = .passed := by
  unfold accepted
  rw [mem_filter]
  cases c.check s reg <;> simp

namespace Class

/-- Whether the artifact holds signals: those of the class, and one for changes of each property. -/
def HasSignals (c : Class) : Prop := c.properties ≠ [] ∨ c.signals ≠ []

/-- Whether two classes declare one name in their package, told from what they are called. -/
def Clashes (a b : Class) : Prop :=
  (a.functions ≠ [] ∧ b.name = Naming.functionsInterface a.name) ∨
    (a.HasSignals ∧ b.name = Naming.signalsVar a.name) ∨
    (a.HasSignals ∧ b.HasSignals ∧ a.name ≠ b.name ∧
      Naming.lowerFirst a.name = Naming.lowerFirst b.name)

section

variable {s : Settings} {reg : Registry} {a b c : Class} {n : Text}

lemma packageNames_artifact (s : Settings) (reg : Registry) (c : Class) :
    (c.artifact s reg).code.packageNames =
      (if c.functions = [] then [] else [functionsInterface c.name]) ++
        (if c.properties = [] ∧ c.signals = [] then [] else [signalsVar c.name]) ++
        (if c.name = "_" then [] else [c.name]) := by
  rw [Artifact.packageNames_code]
  simp [artifact, signalFields]

lemma mem_packageNames_iff :
    n ∈ (c.artifact s reg).code.packageNames ↔
      (c.functions ≠ [] ∧ n = functionsInterface c.name) ∨
        (c.HasSignals ∧ n = signalsVar c.name) ∨ (c.name ≠ "_" ∧ n = c.name) := by
  rw [packageNames_artifact]
  by_cases hf : c.functions = [] <;> by_cases hp : c.properties = [] <;>
    by_cases hs : c.signals = [] <;> by_cases hn : c.name = "_" <;>
    simp [HasSignals, hf, hp, hs, hn]

lemma nodup_packageNames (h : c.check s reg = .passed) :
    (c.artifact s reg).code.packageNames.Nodup := by
  have hfunctions := functionsInterface_ne_self c.name
  have hsignals := signalsVar_ne_self (check_eq_passed_iff.mp h).1
  have hboth := (signalsVar_ne_functionsInterface c.name c.name).symm
  rw [packageNames_artifact]
  split <;> split <;> split <;> simp [hfunctions, hsignals, hboth]

lemma clashes_of_mem (hne : a.name ≠ b.name) (ha : n ∈ (a.artifact s reg).code.packageNames)
    (hb : n ∈ (b.artifact s reg).code.packageNames) : a.Clashes b ∨ b.Clashes a := by
  rcases mem_packageNames_iff.mp ha with ⟨hf, rfl⟩ | ⟨hs, rfl⟩ | ⟨-, rfl⟩ <;>
    rcases mem_packageNames_iff.mp hb with ⟨hf', heq⟩ | ⟨hs', heq⟩ | ⟨-, heq⟩
  · exact absurd (functionsInterface_inj.mp heq) hne
  · exact absurd heq.symm (signalsVar_ne_functionsInterface _ _)
  · exact .inl (.inl ⟨hf, heq.symm⟩)
  · exact absurd heq (signalsVar_ne_functionsInterface _ _)
  · exact .inl (.inr (.inr ⟨hs, hs', hne, signalsVar_inj.mp heq⟩))
  · exact .inl (.inr (.inl ⟨hs, heq.symm⟩))
  · exact .inr (.inl ⟨hf', heq⟩)
  · exact .inr (.inr (.inl ⟨hs', heq⟩))
  · exact absurd heq hne

lemma Clashes.exists_mem (h : a.Clashes b) (s : Settings) (reg : Registry) :
    ∃ n, n ∈ (a.artifact s reg).code.packageNames ∧ n ∈ (b.artifact s reg).code.packageNames := by
  rcases h with ⟨hf, hname⟩ | ⟨hs, hname⟩ | ⟨hs, hs', -, hlower⟩
  · have hblank : b.name ≠ "_" := hname ▸ functionsInterface_ne_blank a.name
    exact ⟨b.name, mem_packageNames_iff.mpr (.inl ⟨hf, hname⟩),
      mem_packageNames_iff.mpr (.inr (.inr ⟨hblank, rfl⟩))⟩
  · have hblank : b.name ≠ "_" := hname ▸ signalsVar_ne_blank a.name
    exact ⟨b.name, mem_packageNames_iff.mpr (.inr (.inl ⟨hs, hname⟩)),
      mem_packageNames_iff.mpr (.inr (.inr ⟨hblank, rfl⟩))⟩
  · exact ⟨signalsVar a.name, mem_packageNames_iff.mpr (.inr (.inl ⟨hs, rfl⟩)),
      mem_packageNames_iff.mpr (.inr (.inl ⟨hs', signalsVar_inj.mpr hlower⟩))⟩

lemma Clashes.name_ne (h : a.Clashes b) (ha : a.check s reg = .passed) : a.name ≠ b.name := by
  rcases h with ⟨-, hname⟩ | ⟨-, hname⟩ | ⟨-, -, hne, -⟩
  · exact hname ▸ (functionsInterface_ne_self a.name).symm
  · exact hname ▸ (signalsVar_ne_self (check_eq_passed_iff.mp ha).1).symm
  · exact hne

lemma Clashes.not_nodup (h : a.Clashes b) (ha : a ∈ reg.accepted s) (hb : b ∈ reg.accepted s) :
    ¬ ((reg.accepted s).flatMap fun c => (c.artifact s reg).code.packageNames).Nodup := by
  intro hnodup
  have hne : a ≠ b := fun heq =>
    h.name_ne (Registry.mem_accepted_iff.mp ha).2 (by rw [heq])
  have hsymm : Std.Symm (Function.onFun Disjoint fun c : Class =>
      (c.artifact s reg).code.packageNames) := ⟨fun _ _ hdisjoint _ hx hy => hdisjoint hy hx⟩
  have hdisjoint := (nodup_flatMap.mp hnodup).2.forall ha hb hne
  obtain ⟨n, hna, hnb⟩ := h.exists_mem s reg
  exact hdisjoint hna hnb

end

/-- The artifacts of a run declare different names in their package exactly when no two accepted
classes clash. -/
theorem package_names_distinct_iff (s : Settings) (reg : Registry) :
    ((reg.accepted s).flatMap fun c => (c.artifact s reg).code.packageNames).Nodup ↔
      ∀ a ∈ reg.accepted s, ∀ b ∈ reg.accepted s, ¬ a.Clashes b := by
  refine ⟨fun hnodup a ha b hb hclash => hclash.not_nodup ha hb hnodup, fun hclear => ?_⟩
  have hnames : (reg.accepted s).Pairwise fun a b => a.name ≠ b.name :=
    (List.pairwise_map.mp reg.nodup_generated).sublist List.filter_sublist
  refine List.nodup_flatMap.mpr ⟨fun c hc => ?_, hnames.imp_of_mem ?_⟩
  · exact nodup_packageNames (Registry.mem_accepted_iff.mp hc).2
  · intro a b ha hb hne n hna hnb
    exact (clashes_of_mem hne hna hnb).elim (hclear a ha b hb) (hclear b hb a ha)

/-- A class with one function and one signal, made of one object. -/
def panel (name : Text) : Class :=
  { name, functions := [⟨"Paint()"⟩], signals := [⟨"Clicked", ""⟩]
    root := some (.node { id := "box", type := some .box } []) }

/-- A registry of two panels. -/
def panels (a b : Text) : Registry :=
  (Registry.ofList [some (panel a), some (panel b)]).toOption.getD {}

/-- Two panels are accepted together, and their artifacts declare one name. -/
def PanelsShareName (a b : Text) : Prop :=
  (panels a b).accepted {} = [panel a, panel b] ∧
    ¬ (((panels a b).accepted {}).flatMap fun c =>
      (c.artifact {} (panels a b)).code.packageNames).Nodup

lemma panelsShareName_of_clashes {a b : Text}
    (haccepted : (panels a b).accepted {} = [panel a, panel b])
    (hclash : (panel a).Clashes (panel b)) : PanelsShareName a b :=
  ⟨haccepted, hclash.not_nodup (haccepted ▸ .head _) (haccepted ▸ .tail _ (.head _))⟩

/-- A class may be called like the functions of another one, or like its signals, or differ from it
in the case of its first letter. -/
theorem panels_share_names :
    PanelsShareName "Row" "RowFunctions" ∧ PanelsShareName "Row" "rowSignals" ∧
      PanelsShareName "Row" "row" := by
  have hsignals (n : Text) : (panel n).HasSignals := .inr (List.cons_ne_nil _ _)
  refine ⟨panelsShareName_of_clashes (by rfl) ?_, panelsShareName_of_clashes (by rfl) ?_,
    panelsShareName_of_clashes (by rfl) ?_⟩
  · exact .inl ⟨List.cons_ne_nil _ _, by decide +kernel⟩
  · exact .inr (.inl ⟨hsignals _, by decide +kernel⟩)
  · exact .inr (.inr ⟨hsignals _, hsignals _, by decide +kernel, by decide +kernel⟩)

end Class
end ReactiveModel
