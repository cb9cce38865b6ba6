import ReactiveModel.Proofs.DerivedNames

/-! Names that methods bind, and names of types, packages and variables of the package that stand in
the scope of these. A name that is bound hides one that is called the same. -/

namespace ReactiveModel

open List Naming Text

namespace Source

mutual

/-- The names that a type is made of. What is selected from a name is none of them, and neither are
the names of fields, methods and parameters. -/
def Expr.typeNames : Expr → List Text
  | .name n => [n.text]
  | .selector _ x _ | .star _ x | .paren _ x _ | .unary _ _ x | .channel _ _ _ x
  | .ellipsis _ (some x) | .array _ none x => x.typeNames
  | .array _ (some x) y | .map _ x y | .binary _ x _ _ y => x.typeNames ++ y.typeNames
  | .index _ x _ xs _ => x.typeNames ++ typeNamesOf xs
  | .record _ _ fs _ | .interface _ _ fs _ => fieldTypeNames fs
  | .functionType _ (.mk _ (.mk _ ps _) none) => fieldTypeNames ps
  | .functionType _ (.mk _ (.mk _ ps _) (some (.mk _ rs _))) =>
    fieldTypeNames ps ++ fieldTypeNames rs
  | _ => []

def typeNamesOf : List Expr → List Text
  | [] => []
  | x :: xs => x.typeNames ++ typeNamesOf xs

def fieldTypeNames : List Field → List Text
  | [] => []
  | .mk _ _ t _ _ :: fs => t.typeNames ++ fieldTypeNames fs

end

end Source

namespace Code

/-- The names that a statement binds for those behind it. -/
def bindsOne : Code → List Text
  | .phrase (.word a :: .word b :: _) =>
    if a = "var" then [b] else if b = ":=" then [a] else []
  | _ => []

/-- The head of a statement binds for its block. -/
def binds : Code → List Text
  | .group opening _ _ _ cs =>
    if opening = "if " ∨ opening = "for " then cs.flatMap bindsOne else []
  | c => c.bindsOne

/-- The names that the text of a type uses. -/
def namesIn (t : Text) : List Text :=
  ((t.toString?.bind Source.Expr.read?).map Source.Expr.typeNames).getD []

section

variable (vars : List Text) (nameOf : Text → Text)

mutual

/-- The names that a type uses, where packages have the given names. -/
def typeNames : Code → List Text
  | .word t => namesIn t
  | .qualified path _ => [nameOf path]
  | .phrase cs => typeNamesAll cs
  | .group _ _ _ _ cs => typeNamesAll cs

def typeNamesAll : List Code → List Text
  | [] => []
  | c :: cs => c.typeNames ++ typeNamesAll cs

end

/-- The type of a variable or of a new value, or one of some variables that something is selected
from. -/
def nameUse? : List Code → Option Text
  | [.word a, .word b, .word c] =>
    if a = "&" then some b
    else if b = "." then if a ∈ vars then some a else none
    else if a = "var" then some c
    else none
  | _ => none

mutual

/-- The names of packages, types and some variables that code uses, each with the names that are
bound there. -/
def uses (bound : List Text) : Code → List (List Text × Text)
  | .word _ => []
  | .qualified path _ => [(bound, nameOf path)]
  | .phrase cs => ((nameUse? vars cs).map (bound, ·)).toList ++ usesAll bound cs
  | .group opening _ _ _ cs =>
    if opening = "[" then (typeNamesAll nameOf cs).map (bound, ·) else usesAll bound cs

def usesAll (bound : List Text) : List Code → List (List Text × Text)
  | [] => []
  | c :: cs => uses bound c ++ usesAll (c.binds ++ bound) cs

end
end

def paramName? : Code → Option Text
  | .phrase (.word name :: _ :: _) => some name
  | _ => none

def paramNames : Code → List Text
  | .group _ _ _ _ cs => cs.filterMap paramName?
  | _ => []

/-- The names that a method binds, and its body. -/
def methodOf? : Code → Option (List Text × Code)
  | .phrase (.word keyword :: receiver :: .word _ :: parameters :: rest) =>
    if keyword = "func" then
      rest.getLast?.map fun body => (receiver.paramNames ++ parameters.paramNames, body)
    else none
  | _ => none

/-- A method binds no name of a package, a type or one of some variables that it uses where the name
is bound. -/
def Clean (vars : List Text) (nameOf : Text → Text) (c : Code) : Prop :=
  ∀ m ∈ c.methodOf?, ∀ u ∈ m.2.uses vars nameOf m.1, u.2 ∉ u.1

def Hygienic (vars : List Text) (nameOf : Text → Text) : Code → Prop
  | .group _ _ _ _ cs => ∀ c ∈ cs, c.Clean vars nameOf
  | _ => True

end Code

namespace Code

variable {vars : List Text} {nameOf : Text → Text} {cs ds : List Code} {bound : List Text}

lemma usesAll_eq_nil (h : ∀ c ∈ cs, ∀ b, c.uses vars nameOf b = []) (bound : List Text) :
    usesAll vars nameOf bound cs = [] := by
  induction cs generalizing bound with
  | nil => rfl
  | cons c cs ih =>
    rw [forall_mem_cons] at h
    rw [usesAll, h.1, ih h.2]
    rfl

lemma usesAll_append_of_nil (h : ∀ d ∈ ds, ∀ b, d.uses vars nameOf b = []) :
    usesAll vars nameOf bound (cs ++ ds) = usesAll vars nameOf bound cs := by
  induction cs generalizing bound with
  | nil => exact usesAll_eq_nil h bound
  | cons c cs ih => rw [cons_append, usesAll, usesAll, ih]

lemma usesAll_flatMap {α : Type} {xs : List α} {f : α → List Code}
    (h : ∀ x ∈ xs, ∀ c ∈ f x, c.binds = []) :
    usesAll vars nameOf bound (xs.flatMap f) =
      xs.flatMap fun x => usesAll vars nameOf bound (f x) := by
  have hflat : ∀ cs : List Code, (∀ c ∈ cs, c.binds = []) →
        usesAll vars nameOf bound cs = cs.flatMap (uses vars nameOf bound) := by
    intro cs hcs
    induction cs with
    | nil => rfl
    | cons c cs ih =>
      rw [forall_mem_cons] at hcs
      rw [usesAll, hcs.1, nil_append, ih hcs.2, flatMap_cons]
  rw [hflat, flatMap_assoc]
  · exact flatMap_congr fun x hx => (hflat _ (h x hx)).symm
  · intro c hc
    obtain ⟨x, hx, hc⟩ := mem_flatMap.mp hc
    exact h x hx c hc

end Code

/-- The name ends in a small s. -/
lemma Naming.signalsVar_ne {s : String} (h : (ofString s).bytes.getLast? ≠ some 115)
    (c : Text) : signalsVar c ≠ ofString s := by
  rintro heq
  rw [← heq] at h
  have hbytes : (signalsVar c).bytes = (lowerFirst c).bytes ++ (ofString "Signals").bytes := rfl
  rw [hbytes, getLast?_append_of_ne_nil _ (by decide)] at h
  exact h (by decide)

def Maker.classes : Maker → List Text
  | .literal c => [c]
  | .verbatim _ => []

namespace Artifact

open Code

variable (a : Artifact) {vars : List Text} {nameOf : Text → Text} {name : Text}
  {ps header body : List Code}

attribute [local simp] uses usesAll nameUse? binds bindsOne dot call params block ret Code.head
  assign unlessDone callOf ofString_inj

lemma clean_method :
    (a.method name (params ps :: header) body).Clean vars nameOf ↔
      ∀ u ∈ usesAll vars nameOf (a.receiver :: ps.filterMap paramName?) body, u.2 ∉ u.1 := by
  simp [Clean, method, methodOf?, paramNames, paramName?]

lemma clean_of_eq_nil (hbody : ∀ c ∈ body, ∀ b, c.uses vars nameOf b = []) :
    (a.method name (params ps :: header) body).Clean vars nameOf := by
  rw [clean_method, usesAll_eq_nil hbody]
  exact fun _ hu => absurd hu not_mem_nil

lemma clean_word (t : Text) : (word t).Clean vars nameOf := by
  simp [Clean, methodOf?]

/-- The receiver is no mark, and some variables are called neither by it nor by a local. -/
structure Apart (vars : List Text) : Prop where
  amp : a.receiver ≠ "&"
  receiver : a.receiver ∉ vars
  locals : ∀ n ∈ Settings.generatedLocals, ofString n ∉ vars

section

variable {a} (h : a.Apart vars)
include h

lemma uses_stepCode (s : ObjectStep) (bound : List Text) :
    (a.stepCode s).uses vars nameOf bound = [] := by
  cases s <;> simp [stepCode, member, h.amp, h.receiver]

lemma uses_passOn (n : Text) (bound : List Text) : (a.passOn n).uses vars nameOf bound = [] := by
  simp [passOn, member, h.amp, h.receiver, ← ofString_append]

lemma uses_acquisitionCode (r : Acquisition) (bound : List Text) :
    (a.acquisitionCode r).uses vars nameOf bound =
      (nameOf a.runtime :: r.type.code.typeNames nameOf ++ [nameOf "fmt"]).map (bound, ·) := by
  simp [acquisitionCode, failure, typeArgument, runtimeName, typeNamesAll, member, h.amp,
    h.receiver, ← ofString_append]

lemma uses_replicationCode (r : Replication) (bound : List Text) :
    usesAll vars nameOf bound (a.replicationCode r) =
      r.maker.classes.map (("index" :: bound : List Text), ·) ++
        [(["err", "instance", "index"].map ofString ++ bound, nameOf "fmt")] := by
  have hinstance := h.locals "instance" (by decide)
  cases hm : r.maker <;> by_cases hi : r.initializor = "" <;>
    simp [replicationCode, failure, member, Maker.code, Maker.classes, h.amp, h.receiver,
      hinstance, hm, hi, comment, gap, ← ofString_append]

lemma clean_initializeCode : ∀ c ∈ a.initializeCode, c.Clean vars nameOf := by
  simp only [initializeCode, comment, forall_mem_cons, clean_word, managed, true_and]
  refine ⟨a.clean_of_eq_nil ?_, forall_mem_nil _⟩
  cases a.replications.isEmpty <;> cases a.eager <;>
    simp [member, h.amp, h.receiver, uses_passOn h, ← ofString_append]

lemma clean_rootCode : ∀ c ∈ a.rootCode, c.Clean vars nameOf := by
  simp only [rootCode, comment, forall_mem_cons, clean_word, true_and]
  refine ⟨a.clean_of_eq_nil ?_, forall_mem_nil _⟩
  simp [member, h.amp, h.receiver]

lemma clean_objectsCode : ∀ c ∈ a.objectsCode, c.Clean vars nameOf := by
  simp only [objectsCode, gap, forall_mem_cons, clean_word, true_and]
  refine ⟨a.clean_of_eq_nil fun c hc b => ?_, forall_mem_nil _⟩
  have hsteps : ∀ c ∈ spaced (a.construction.blocks.map (·.map a.stepCode)),
      c.uses vars nameOf b = [] := by
    have hnone := filterMap_spaced (f := fun c => (c.uses vars nameOf b).head?) rfl
      (a.construction.blocks.map (·.map a.stepCode))
    have hsteps : (a.construction.blocks.flatten).filterMap
        ((fun c => (c.uses vars nameOf b).head?) ∘ a.stepCode) = [] :=
      filterMap_eq_nil_iff.mpr fun s _ => congrArg head? (uses_stepCode h s b)
    rw [← map_flatten, filterMap_map, hsteps, filterMap_eq_nil_iff] at hnone
    exact fun c hc => head?_eq_none_iff.mp (hnone c hc)
  rcases mem_append.mp hc with hc | hc
  · exact hsteps c hc
  · split at hc
    · exact absurd hc not_mem_nil
    · simp only [comment, mem_cons, mem_map] at hc
      rcases hc with rfl | rfl | ⟨s, -, rfl⟩
      · rfl
      · rfl
      · exact uses_stepCode h s b

lemma clean_evaluationCode (e : Evaluation) : ∀ c ∈ a.evaluationCode e, c.Clean vars nameOf := by
  simp only [evaluationCode, gap, forall_mem_cons, clean_word, true_and]
  refine ⟨a.clean_of_eq_nil ?_, forall_mem_nil _⟩
  simp [member, h.amp, h.receiver]

lemma clean_evaluateCode : ∀ c ∈ a.evaluateCode, c.Clean vars nameOf := by
  unfold evaluateCode
  split
  · simp only [gap, forall_mem_cons, clean_word, true_and]
    refine ⟨a.clean_of_eq_nil ?_, forall_mem_nil _⟩
    simp [member, h.amp, h.receiver]
  · exact forall_mem_nil _

lemma clean_signalCode (f : Field) : ∀ c ∈ a.signalCode f, c.Clean vars nameOf := by
  have hamp := signalsVar_ne (s := "&") (by decide) a.className
  simp only [signalCode, gap, forall_mem_cons, clean_word, clean_method, true_and]
  by_cases hmem : signalsVar a.className ∈ vars
  · have hne : signalsVar a.className ≠ a.receiver := fun heq => h.receiver (heq ▸ hmem)
    simp [signalOf, signalsVariable, hamp, hmem, hne]
  · simp [signalOf, signalsVariable, hamp, hmem]

lemma clean_propertyCode {p : Accessors} : (∀ c ∈ a.propertyCode p, c.Clean vars nameOf) ↔
    (p.comparable = false → nameOf "reflect" ∉ [a.receiver, "value"]) := by
  have hamp := signalsVar_ne (s := "&") (by decide) a.className
  have hvalue := signalsVar_ne (s := "value") (by decide) a.className
  simp only [propertyCode, forall_mem_append, iff_true_intro (clean_signalCode h _), and_true]
  simp only [gap, forall_mem_cons, clean_word, clean_method, true_and]
  by_cases hmem : signalsVar a.className ∈ vars
  · have hne : signalsVar a.className ≠ a.receiver := fun heq => h.receiver (heq ▸ hmem)
    cases p.comparable <;>
      simp [paramName?, member, signalOf, signalsVariable, hamp, hvalue, hmem, hne,
        h.amp, h.receiver, ← ofString_append]
  · cases p.comparable <;>
      simp [paramName?, member, signalOf, signalsVariable, hamp, hmem, h.amp,
        h.receiver, ← ofString_append]

lemma clean_resourcesCode : (∀ c ∈ a.resourcesCode, c.Clean vars nameOf) ↔
    (a.acquisitions ≠ [] → a.receiver ≠ "error") ∧ ∀ r ∈ a.acquisitions,
      ∀ n ∈ nameOf a.runtime :: r.type.code.typeNames nameOf ++ [nameOf "fmt"],
        n ∉ [ofString "err", a.receiver, "manager"] := by
  simp only [resourcesCode, gap, forall_mem_cons, managed, clean_word, clean_method, true_and]
  rw [usesAll_append_of_nil (by simp)]
  cases hempty : a.acquisitions with
  | nil => simp
  | cons r rs =>
    rw [isEmpty_cons, if_neg Bool.false_ne_true, singleton_append, usesAll, map_eq_flatMap,
      usesAll_flatMap (by simp [acquisitionCode])]
    simp only [usesAll, append_nil, uses_acquisitionCode h, forall_mem_append,
      forall_mem_flatMap, forall_mem_map]
    simp [paramName?, eq_comm]

lemma clean_replicationsCode : (∀ c ∈ a.replicationsCode, c.Clean vars nameOf) ↔
    (a.replications ≠ [] → a.receiver ≠ "int") ∧ ∀ r ∈ a.replications,
      (∀ n ∈ r.maker.classes, n ∉ [ofString "index", "count", a.receiver, "manager"]) ∧
        nameOf "fmt" ∉ [ofString "err", "instance", "index", "count", a.receiver, "manager"] := by
  unfold replicationsCode
  cases hempty : a.replications with
  | nil => simp
  | cons r rs =>
    rw [isEmpty_cons, if_neg Bool.false_ne_true, ← hempty]
    simp only [gap, forall_mem_cons, managed, clean_word, clean_method, true_and]
    rw [usesAll_append_of_nil (by simp), usesAll,
      usesAll_flatMap (by simp [replicationCode, comment, gap])]
    simp only [uses_replicationCode h, forall_mem_append, forall_mem_flatMap, forall_mem_map]
    simp [hempty, paramName?, eq_comm]

end

def packageVariables (a : Artifact) : List Text :=
  if a.signals.isEmpty then [] else [signalsVar a.className]

lemma clean_front : ∀ c ∈ a.functionsCode ++ a.signalsCode ++ a.structCode,
    c.Clean vars nameOf := by
  have hfunctions : ∀ c ∈ a.functionsCode, c.Clean vars nameOf := by
    unfold functionsCode
    split <;> simp [Clean, methodOf?, comment]
  have hsignals : ∀ c ∈ a.signalsCode, c.Clean vars nameOf := by
    unfold signalsCode
    split <;> simp [Clean, methodOf?]
  simp only [forall_mem_append]
  exact ⟨⟨hfunctions, hsignals⟩, by simp [structCode, Clean, methodOf?, comment]⟩

lemma receiver_notMem (hamp : a.receiver ≠ "&") (h : a.code.Hygienic vars nameOf) :
    a.receiver ∉ vars := by
  intro hmem
  simp only [code, declarations, Hygienic, forall_mem_append] at h
  simp only [initializeCode, forall_mem_cons, managed, clean_method] at h
  simp [member, hamp, hmem, ← ofString_append] at h

lemma apart_packageVariables (hamp : a.receiver ≠ "&") (h : a.receiver ∉ a.packageVariables) :
    a.Apart a.packageVariables := by
  refine ⟨hamp, h, fun n hn => ?_⟩
  have hlast : ∀ n ∈ Settings.generatedLocals, (ofString n).bytes.getLast? ≠ some 115 := by
    decide
  have hne := signalsVar_ne (hlast n hn) a.className
  unfold packageVariables
  split
  · exact not_mem_nil
  · exact fun hmem => hne (mem_singleton.mp hmem).symm

/-- Only the methods of properties, resources and replicators use more than the variable. -/
lemma hygienic_iff (h : a.Apart vars) : a.code.Hygienic vars nameOf ↔
    (∀ p ∈ a.properties, p.comparable = false → nameOf "reflect" ∉ [a.receiver, "value"]) ∧
      (∀ c ∈ a.resourcesCode, c.Clean vars nameOf) ∧
      ∀ c ∈ a.replicationsCode, c.Clean vars nameOf := by
  have hfront := @clean_front a vars nameOf
  simp only [forall_mem_append] at hfront
  simp only [code, declarations, Hygienic, forall_mem_append, forall_mem_flatMap,
    clean_propertyCode h]
  constructor
  · rintro ⟨⟨⟨⟨⟨⟨⟨-, hproperties⟩, -⟩, hresources⟩, -⟩, -⟩, hreplications⟩, -⟩
    exact ⟨hproperties, hresources, hreplications⟩
  · rintro ⟨hproperties, hresources, hreplications⟩
    exact ⟨⟨⟨⟨⟨⟨⟨⟨⟨hfront, clean_initializeCode h⟩, clean_rootCode h⟩, hproperties⟩,
      fun f _ => clean_signalCode h f⟩, hresources⟩, clean_objectsCode h⟩,
      fun e _ => clean_evaluationCode h e⟩, hreplications⟩, clean_evaluateCode h⟩

end Artifact

lemma Settings.Sound.isDeclarable_receiverOf {s : Settings} (h : s.Sound) (n : Text) :
    IsDeclarable (s.receiverOf n) := by
  unfold receiverOf
  rcases h.receiver with hempty | ⟨hident, hkey, -⟩
  · rw [hempty]
    change IsDeclarable (Naming.receiver n)
    unfold Naming.receiver
    split
    · rename_i c hc
      have hstart : Source.isNameStart (toLower c) = true := by
        simp [Source.isNameStart, isLetter_toLower (find?_some hc)]
      exact isDeclarable_safe (isBase_iff.mpr
        ⟨_, rfl, Source.isIdentifier_ofList hstart (forall_mem_nil _)⟩)
    · exact isName_iff_isDeclarable.mp (by decide)
  · split
    · rename_i hempty
      rw [beq_iff_eq.mp hempty] at hident
      simp [Source.IsIdentifier] at hident
    · exact ⟨_, rfl, hident, by simpa [Source.isKeyword] using hkey⟩

namespace Class

/-- What is not called the same: names that methods of a class use, where packages have the given
names, and names that are bound there. -/
structure Unhidden (s : Settings) (reg : Registry) (nameOf : Text → Text) (c : Class) : Prop where
  signals : c.HasSignals → s.receiverOf c.name ≠ Naming.signalsVar c.name
  comparison : ∀ p ∈ c.properties, isComparable p.type = false →
    nameOf "reflect" ∉ [s.receiverOf c.name, "value"]
  error : c.resources ≠ [] → s.receiverOf c.name ≠ "error"
  acquisition : ∀ r ∈ c.resources,
    ∀ n ∈ nameOf s.runtimePath :: (TypeCode.ofText s.runtimePath r.type).code.typeNames nameOf ++
      [nameOf "fmt"], n ∉ [ofString "err", s.receiverOf c.name, "manager"]
  int : c.replicators ≠ [] → s.receiverOf c.name ≠ "int"
  instances : ∀ r ∈ c.replicators, (target reg r).isGenerated = true →
    (target reg r).name ∉ [ofString "index", "count", s.receiverOf c.name, "manager"]
  failure : ∀ r ∈ c.replicators,
    nameOf "fmt" ∉ [ofString "err", "instance", "index", "count", s.receiverOf c.name, "manager"]

/-- In the methods of a class no name is hidden exactly when some names are not called the same. The
settings see to none of this: they compare a receiver with the locals only. -/
theorem methods_hygienic_iff {os : List Setting} {s : Settings} (hs : Settings.ofList os = .ok s)
    (reg : Registry) (c : Class) (nameOf : Text → Text) :
    (c.artifact s reg).code.Hygienic (c.artifact s reg).packageVariables nameOf ↔
      c.Unhidden s reg nameOf := by
  have hamp : (c.artifact s reg).receiver ≠ "&" := by
    intro heq
    have hname := isName_iff_isDeclarable.mpr
      ((Settings.sound_ofList hs).isDeclarable_receiverOf c.name)
    change isName (c.artifact s reg).receiver = true at hname
    rw [heq] at hname
    exact absurd hname (by decide)
  have hsignals : (c.HasSignals → s.receiverOf c.name ≠ signalsVar c.name) ↔
      (c.artifact s reg).receiver ∉ (c.artifact s reg).packageVariables := by
    have hempty : (c.artifact s reg).signals.isEmpty = true ↔ ¬ c.HasSignals := by
      simp [artifact, signalFields, HasSignals]
    unfold Artifact.packageVariables
    split <;> simp_all [artifact]
  by_cases hrecv : (c.artifact s reg).receiver ∈ (c.artifact s reg).packageVariables
  · exact ⟨fun h => absurd hrecv (Artifact.receiver_notMem _ hamp h),
      fun h => absurd hrecv (hsignals.mp h.signals)⟩
  have hapart := Artifact.apart_packageVariables _ hamp hrecv
  rw [Artifact.hygienic_iff _ hapart, Artifact.clean_resourcesCode hapart,
    Artifact.clean_replicationsCode hapart]
  simp only [artifact, List.forall_mem_map, ne_eq, List.map_eq_nil_iff]
  have hclasses (r : Replicator) : (replication reg r).maker.classes =
      if (target reg r).isGenerated then [(target reg r).name] else [] := by
    unfold replication
    cases (target reg r).isGenerated <;> rfl
  constructor
  · rintro ⟨hproperties, ⟨herror, hresources⟩, hint, hreplicators⟩
    exact ⟨hsignals.mpr hrecv, hproperties, herror, hresources, hint,
      fun r hr hgen => (hreplicators r hr).1 _ (by simp [hclasses, hgen]),
      fun r hr => (hreplicators r hr).2⟩
  · intro h
    refine ⟨h.comparison, ⟨h.error, h.acquisition⟩, h.int,
      fun r hr => ⟨fun n hn => ?_, h.failure r hr⟩⟩
    rw [hclasses] at hn
    split at hn
    · exact List.mem_singleton.mp hn ▸ h.instances r hr ‹_›
    · exact absurd hn List.not_mem_nil

theorem methods_hygienic_panel :
    ∃ s, Settings.ofList [.receiver "self"] = .ok s ∧ ((panel "Row").artifact s {}).code.Hygienic
      ((panel "Row").artifact s {}).packageVariables id := by
  refine ⟨_, rfl, (methods_hygienic_iff (rfl : Settings.ofList [.receiver "self"] = _)
    {} (panel "Row") id).mpr ?_⟩
  have hnone {α : Type} {P : α → Prop} : ∀ x ∈ ([] : List α), P x := List.forall_mem_nil _
  exact ⟨fun _ => by decide +kernel, hnone, absurd rfl, hnone, absurd rfl, hnone, hnone⟩

/-- A receiver may be called like the signals of a class. -/
theorem panel_signals_hidden :
    ∃ s, Settings.ofList [.receiver "rowSignals"] = .ok s ∧ (panel "Row").check s {} = .passed ∧
      ¬ ((panel "Row").artifact s {}).code.Hygienic ((panel "Row").artifact s {}).packageVariables
        id :=
  ⟨_, rfl, by rfl, fun h => Artifact.receiver_notMem _ (by decide) h (by decide +kernel)⟩

end Class
end ReactiveModel
