import ReactiveModel.Proofs.DeclaredTypes
import ReactiveModel.Proofs.Signals

/-! Comparison of stored values. A setter leaves when the value that it is given is the one that is
stored, and compares the two with an operator unless the type is a slice, a map or a function. By
the rules of the language, arrays and structs that hold one of these cannot be compared either. -/

namespace ReactiveModel

open List

def basicTypes : List String :=
  ["bool", "string", "int", "int8", "int16", "int32", "int64", "uint", "uint8", "uint16", "uint32",
   "uint64", "uintptr", "byte", "rune", "float32", "float64", "complex64", "complex128"]

/-- Types that are built from basic ones. Names, separators and blanks around the types in a
function or a struct are kept as gaps. -/
inductive GoType
  | basic (name : String) (h : name ∈ basicTypes)
  | pointer (t : GoType)
  | slice (t : GoType)
  | array (length : String) (h : ∃ c ∈ length.toList.head?, c ≠ ']') (t : GoType)
  | map (key value : GoType)
  | channel (d : Source.Direction) (t : GoType)
  | function (gaps : List String) (parameters results : List GoType)
  | struct (gaps : List String) (fields : List GoType)

namespace GoType

def channelText : Source.Direction → GoType → String → String
  | .both, .channel .receive _, w => "chan (" ++ (w ++ ")")
  | .both, _, w => "chan " ++ w
  | .send, _, w => "chan<- " ++ w
  | .receive, _, w => "<-chan " ++ w

def woven : List String → List String → String
  | gaps, [] => "".intercalate gaps
  | gaps, t :: ts => gaps.headD "" ++ t ++ woven gaps.tail ts

mutual

def text : GoType → String
  | basic n _ => n
  | pointer t => "*" ++ t.text
  | slice t => "[]" ++ t.text
  | array n _ t => "[" ++ (n ++ "]" ++ t.text)
  | map k v => "map[" ++ (k.text ++ "]" ++ v.text)
  | channel d t => channelText d t t.text
  | function gaps ps rs => "func(" ++ woven gaps (texts ps ++ texts rs)
  | struct gaps ts => "struct" ++ woven gaps (texts ts)

def texts : List GoType → List String
  | [] => []
  | t :: ts => t.text :: texts ts

end

/-- Types whose values the operator compares, by the rules of the language. -/
inductive Comparable : GoType → Prop
  | basic (n : String) (h : n ∈ basicTypes) : Comparable (.basic n h)
  | pointer (t : GoType) : Comparable (.pointer t)
  | channel (d : Source.Direction) (t : GoType) : Comparable (.channel d t)
  | array {n : String} {h : _} {t : GoType} (ht : Comparable t) : Comparable (.array n h t)
  | struct {gaps : List String} {ts : List GoType} (h : ∀ t ∈ ts, Comparable t) :
      Comparable (.struct gaps ts)

def IsBarred : GoType → Prop
  | slice _ | map _ _ | function _ _ _ => True
  | _ => False

/-- What values of a type hold in themselves: elements of arrays and fields of structs. -/
inductive Contains : GoType → GoType → Prop
  | self (t : GoType) : Contains t t
  | element {n : String} {h : _} {t u : GoType} (hu : Contains t u) : Contains (.array n h t) u
  | field {gaps : List String} {t u : GoType} {ts : List GoType} (hmem : t ∈ ts)
      (hu : Contains t u) : Contains (.struct gaps ts) u

lemma Comparable.not_isBarred {t u : GoType} (h : t.Comparable) (hu : t.Contains u) :
    ¬u.IsBarred := by
  induction hu with
  | self t => cases h <;> exact id
  | element _ ih =>
    cases h with
    | array h => exact ih h
  | field hmem _ ih =>
    cases h with
    | struct h => exact ih (h _ hmem)

lemma comparable_of_contains (t : GoType) (h : ∀ u, t.Contains u → ¬u.IsBarred) : t.Comparable := by
  match t with
  | .basic n hn => exact .basic n hn
  | .pointer t => exact .pointer t
  | .channel d t => exact .channel d t
  | .slice t | .map k v | .function gaps ps rs => exact absurd trivial (h _ (.self _))
  | .array n hn t => exact .array (comparable_of_contains t fun u hu => h u (.element hu))
  | .struct gaps ts =>
    exact .struct fun t ht => comparable_of_contains t fun u hu => h u (.field ht hu)

lemma comparable_iff {t : GoType} : t.Comparable ↔ ∀ u, t.Contains u → ¬u.IsBarred :=
  ⟨fun h _ => h.not_isBarred, comparable_of_contains t⟩

end GoType

/-- How types start that are not compared with an operator. -/
def barredStarts : List String := ["[]", "map[", "func(", "func ("]

lemma isComparable_iff {s : String} (hs : Text.IsTight s) :
    isComparable s = true ↔ ∀ p ∈ barredStarts, ¬ p.toList <+: s.toList := by
  have hneutral : ∀ e ∈ neutralTypes, ∀ p ∈ barredStarts,
      ¬ p.toList <+: e.1.toList ∧ ¬ p.toList <+: e.2.toList := by decide +kernel
  have hstarts {t : String} (ht : goTypeName s = .ofString t) :
      isComparable s = true ↔ ∀ p ∈ barredStarts, ¬ p.toList <+: t.toList := by
    unfold isComparable
    rw [ht, Bool.not_eq_true', any_eq_false]
    exact forall₂_congr fun p _ => not_congr Text.startsWith_ofString
  cases hfind : neutralTypes.find? fun e => (e.1 : Text) == (s : Text) with
  | none =>
    refine hstarts ?_
    rw [goTypeName, Text.trim_ofString, Text.trimString_of_isTight hs]
    simp only [hfind]
  | some e =>
    obtain rfl : e.1 = s := Text.ofString_inj.mp (by simpa using find?_some hfind)
    have hmem := mem_of_find?_eq_some hfind
    have hname : goTypeName e.1 = .ofString e.2 := by
      rw [goTypeName, Text.trim_ofString, Text.trimString_of_isTight hs]
      simp only [hfind]
    rw [hstarts hname]
    exact iff_of_true (fun p hp => (hneutral e hmem p hp).2) fun p hp => (hneutral e hmem p hp).1

namespace GoType

/-- Only the outside of a type is looked at. -/
lemma isComparable_text {t : GoType} (h : Text.IsTight t.text) :
    isComparable t.text = true ↔ ¬ t.IsBarred := by
  rw [isComparable_iff h]
  cases t with
  | basic n hn =>
    have hbasic : ∀ n ∈ basicTypes, ∀ p ∈ barredStarts, ¬ p.toList <+: n.toList := by
      decide +kernel
    simpa [text, IsBarred] using hbasic n hn
  | array n hn t =>
    -- the length keeps the brackets apart
    obtain ⟨c, hc, hne⟩ := hn
    obtain ⟨cs, hcs⟩ := head?_eq_some_iff.mp hc
    simpa [text, barredStarts, IsBarred, hcs] using hne.symm
  | channel d t =>
    have hhead : ∃ c ∈ ['c', '<'], c ∈ (channelText d t t.text).toList.head? := by
      unfold channelText
      split <;> simp
    obtain ⟨c, hc, hhead⟩ := hhead
    obtain ⟨cs, hcs⟩ := head?_eq_some_iff.mp hhead
    rcases mem_pair.mp hc with rfl | rfl <;> simp [text, barredStarts, IsBarred, hcs]
  | pointer | slice | map | function | struct => simp [text, barredStarts, IsBarred]

end GoType

namespace Artifact

open Code

/-- Whether a body first compares a member with the value that is given, by the operator. -/
def ComparesByOperator (a : Artifact) (member : Text) (body : List Code) : Prop :=
  body.head? = some (.phrase [head "if" [.phrase [a.member member, "==", "value"]], block [ret []]])

lemma comparesByOperator_setterBody (a : Artifact) (p : Accessors) :
    a.ComparesByOperator p.storage (a.setterBody p) ↔ p.comparable = true := by
  cases hp : p.comparable <;>
    simp [ComparesByOperator, setterBody, setterGuard, hp, Code.head, call]

end Artifact

namespace Class

open GoType

lemma setter_mem_methodsOn {c : Class} {p : Property} (hp : p ∈ c.properties) (s : Settings)
    (reg : Registry) :
    (Naming.setter p.name, (c.artifact s reg).setterBody (accessors s.runtimePath p)) ∈
      (c.artifact s reg).code.methodsOn c.name := by
  have hmem : accessors s.runtimePath p ∈ (c.artifact s reg).properties := mem_map_of_mem hp
  refine Artifact.mem_methodsOn_of_property hmem ?_
  rw [Artifact.methodsOf_propertyCode]
  exact .tail _ (.head _)

/-- A setter compares by the operator unless the type is a slice, a map or a function. This is legal
unless an array or a struct holds one of these. -/
theorem setter_compares_legally_iff {c : Class} {p : Property} (hp : p ∈ c.properties)
    {t : GoType} (ht : p.type = .ofString t.text) (htight : Text.IsTight t.text) (s : Settings)
    (reg : Registry) :
    ∃ body, (Naming.setter p.name, body) ∈ (c.artifact s reg).code.methodsOn c.name ∧
      ((c.artifact s reg).ComparesByOperator (Naming.storageField p.name) body ↔ ¬ t.IsBarred) ∧
      (((c.artifact s reg).ComparesByOperator (Naming.storageField p.name) body → t.Comparable) ↔
        t.IsBarred ∨ ∀ u, t.Contains u → ¬ u.IsBarred) := by
  have hbody : (c.artifact s reg).ComparesByOperator (Naming.storageField p.name)
      ((c.artifact s reg).setterBody (accessors s.runtimePath p)) ↔ ¬ t.IsBarred := by
    rw [← isComparable_text htight, ← ht]
    exact Artifact.comparesByOperator_setterBody _ (accessors s.runtimePath p)
  refine ⟨_, setter_mem_methodsOn hp s reg, hbody, ?_⟩
  rw [hbody, ← comparable_iff, imp_iff_not_or, not_not]

def twoOf (t : GoType) : GoType := .array "2" ⟨'2', rfl, by decide⟩ t

def sliceOfInts : GoType := .slice (.basic "int" (by decide))

def rowOf (t : GoType) : Class :=
  { name := "Row", properties := [{ name := "cells", type := t.text }] }

def ComparesCells (t : GoType) : Prop :=
  ∃ body, (Naming.setter "cells", body) ∈ ((rowOf t).artifact {} {}).code.methodsOn "Row" ∧
    ((rowOf t).artifact {} {}).ComparesByOperator (Naming.storageField "cells") body

/-- Pointers to slices are compared. -/
theorem pointers_compared : (twoOf (.pointer sliceOfInts)).Comparable ∧
    ComparesCells (twoOf (.pointer sliceOfInts)) := by
  have htight : Text.IsTight (twoOf (.pointer sliceOfInts)).text :=
    ⟨by decide +kernel, by decide +kernel⟩
  obtain ⟨body, hmem, hoperator, -⟩ := @setter_compares_legally_iff
    (rowOf (twoOf (.pointer sliceOfInts))) _ (mem_singleton_self _) _ rfl htight {} {}
  exact ⟨.array (.pointer _), body, hmem, hoperator.mpr id⟩

/-- So are slices in an array, which have no operator. -/
theorem slices_compared :
    ¬ (twoOf sliceOfInts).Comparable ∧ ComparesCells (twoOf sliceOfInts) := by
  exact ⟨fun h => h.not_isBarred (.element (.self _)) trivial, _,
    setter_mem_methodsOn (c := rowOf (twoOf sliceOfInts)) (mem_singleton_self _) {} {},
    (Artifact.comparesByOperator_setterBody _ _).mpr (by decide +kernel)⟩

end Class

end ReactiveModel
