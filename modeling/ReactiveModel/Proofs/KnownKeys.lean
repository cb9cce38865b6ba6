import Mathlib.Data.List.Basic
import ReactiveModel.Description.Document

/-! Keys that documents may use. A description is made of records, and each field of a record holds
a text, a record or several of them. Where a reading ends without complaint, every key of every
object that was read as a record is a field of it. Counts stand apart: they are read on their own,
and keys in them are not looked at. -/

namespace ReactiveModel

open List

/-- The records of a description. -/
inductive Record
  | description | classDescription | property | signal | function | resource | replicator | object
  | value | binding | dependency

/-- What stands under a field of a record. -/
inductive Part
  /-- A text, a number or a flag. -/
  | plain
  /-- The count of a replicator. -/
  | count
  | one (r : Record)
  | each (r : Record)
  /-- Records under names that are free. -/
  | named (r : Record)

def Record.fields : Record → List (String × Part)
  | .description => [("classes", .each .classDescription)]
  | .classDescription =>
    [("name", .plain), ("include", .plain), ("declaration_only", .plain), ("alloc", .plain),
      ("properties", .each .property), ("signals", .each .signal), ("functions", .each .function),
      ("resources", .each .resource), ("replicators", .each .replicator), ("root", .one .object)]
  | .property => [("name", .plain), ("type", .plain)]
  | .signal => [("name", .plain), ("signature", .plain)]
  | .function => [("signature", .plain)]
  | .resource => [("name", .plain), ("type", .plain), ("initializer", .plain)]
  | .replicator =>
    [("id", .plain), ("class", .plain), ("count", .count), ("initializor", .plain),
      ("parent", .plain)]
  | .object =>
    [("id", .plain), ("class", .plain), ("properties", .named .value), ("children", .each .object)]
  | .value => [("string", .plain), ("number", .plain), ("binding", .one .binding)]
  | .binding => [("expression", .plain), ("dependencies", .each .dependency)]
  | .dependency => [("object", .plain), ("property", .plain)]

def Record.names (r : Record) : List String := r.fields.map Prod.fst

lemma Record.exists_part {r : Record} {f : String} (h : f ∈ r.names) : ∃ p, (f, p) ∈ r.fields := by
  obtain ⟨⟨_, p⟩, hmem, rfl⟩ := mem_map.mp h
  exact ⟨p, hmem⟩

/-! Readings that keep their complaints. -/

section

variable {σ ε α β : Type} {clean : σ → Prop}

/-- What is known when a reading ends clean: it was clean before, and its result is such. -/
def Yields (clean : σ → Prop) (x : StateT σ (Except ε) α) (P : α → Prop) : Prop :=
  ∀ s a s', x s = .ok (a, s') → clean s' → clean s ∧ P a

namespace Yields

variable {P : α → Prop} {x : StateT σ (Except ε) α} {Q : β → Prop}

lemma mono {P Q : α → Prop} (h : Yields clean x P) (himp : ∀ a, P a → Q a) : Yields clean x Q :=
  fun s a s' hrun hclean => (h s a s' hrun hclean).imp id (himp a)

lemma pure {a : α} (h : P a) : Yields clean (Pure.pure a : StateT σ (Except ε) α) P := by
  intro s b s' hrun hclean
  cases hrun
  exact ⟨hclean, h⟩

lemma throw {e : ε} : Yields clean (MonadExcept.throw e : StateT σ (Except ε) α) P := by
  intro s a s' hrun
  nomatch hrun

/-- What a reading is known to give may be used for the one that follows it. -/
lemma bind {f : α → StateT σ (Except ε) β} (h : Yields clean x P)
    (h' : ∀ a, Yields clean (f a) fun b => P a → Q b) : Yields clean (x >>= f) Q := by
  intro s b s' hrun hclean
  have hbind : (x >>= f) s = x s >>= fun r => f r.1 r.2 := rfl
  rw [hbind] at hrun
  cases hx : x s with
  | error e => rw [hx] at hrun; nomatch hrun
  | ok r =>
    rw [hx] at hrun
    obtain ⟨hmiddle, hq⟩ := h' r.1 r.2 b s' hrun hclean
    obtain ⟨hstart, hp⟩ := h s r.1 r.2 hx hmiddle
    exact ⟨hstart, hq hp⟩

lemma map {f : α → β} (h : Yields clean x P) (himp : ∀ a, P a → Q (f a)) :
    Yields clean (f <$> x) Q := by
  exact h.bind fun a => .pure (himp a)

lemma foldlM {step : β → α → StateT σ (Except ε) β} {xs : List α}
    (h : ∀ x ∈ xs, ∀ b, Yields clean (step b x) fun _ => P x) (b : β) :
    Yields clean (xs.foldlM step b) fun _ => ∀ x ∈ xs, P x := by
  induction xs generalizing b with
  | nil => exact .pure (forall_mem_nil _)
  | cons x xs ih =>
    obtain ⟨hx, hxs⟩ := forall_mem_cons.mp h
    exact (hx b).bind fun b' => (ih hxs b').mono fun _ hrest hfirst =>
      forall_mem_cons.mpr ⟨hfirst, hrest⟩

end Yields

end

namespace Json

open Decode

variable {r : Record} {ms : List (Text × Json)}

/-- An object with the given members is read as a record, somewhere in a value. Nothing in a count
is told. -/
inductive Holds : Part → Json → Record → List (Text × Json) → Prop
  | here {r : Record} {ms : List (Text × Json)} : Holds (.one r) (.object ms) r ms
  | field {r r' : Record} {ms ms' : List (Text × Json)} {k : Text} {j : Json} {f : String}
      {p : Part} (hmem : (k, j) ∈ ms) (hfield : fieldOf r.names k = some f)
      (hpart : (f, p) ∈ r.fields) (h : Holds p j r' ms') : Holds (.one r) (.object ms) r' ms'
  | item {r r' : Record} {js : List Json} {j : Json} {ms' : List (Text × Json)} (hmem : j ∈ js)
      (h : Holds (.one r) j r' ms') : Holds (.each r) (.array js) r' ms'
  | entry {r r' : Record} {ms ms' : List (Text × Json)} {k : Text} {j : Json}
      (hmem : (k, j) ∈ ms) (h : Holds (.one r) j r' ms') : Holds (.named r) (.object ms) r' ms'

/-- All keys of records in a value are fields. -/
def KeysKnown (p : Part) (j : Json) : Prop :=
  ∀ r ms, Holds p j r ms → ∀ m ∈ ms, (fieldOf r.names m.1).isSome = true

lemma keysKnown_plain (j : Json) : KeysKnown .plain j := nofun

lemma keysKnown_count (j : Json) : KeysKnown .count j := nofun

/-- The key of a member is a field, and what stands under it has known keys. -/
def MemberKnown (r : Record) (m : Text × Json) : Prop :=
  ∃ f, fieldOf r.names m.1 = some f ∧ ∀ p, (f, p) ∈ r.fields → KeysKnown p m.2

lemma keysKnown_object (h : ∀ m ∈ ms, MemberKnown r m) : KeysKnown (.one r) (.object ms) := by
  intro r' ms' hholds
  cases hholds with
  | here =>
    intro m hm
    obtain ⟨f, hf, -⟩ := h m hm
    rw [hf, Option.isSome_some]
  | field hmem hfield hpart hbelow =>
    obtain ⟨f', hf', hparts⟩ := h _ hmem
    rw [hfield] at hf'
    cases hf'
    exact hparts _ hpart _ _ hbelow

lemma keysKnown_array {js : List Json} (h : ∀ j ∈ js, KeysKnown (.one r) j) :
    KeysKnown (.each r) (.array js) := by
  intro r' ms' hholds
  cases hholds with
  | item hmem hitem => exact h _ hmem _ _ hitem

lemma keysKnown_named
    (h : ∀ m ∈ ms, KeysKnown (.one r) m.2) : KeysKnown (.named r) (.object ms) := by
  intro r' ms' hholds
  cases hholds with
  | entry hmem hentry => exact h _ hmem _ _ hentry

namespace Decode

/-- Nothing is complained about. -/
abbrev Clean (s : Option Complaint) : Prop := s = none

/-- Reading a value without complaint shows that its keys are known. -/
def Strict {α : Type} (p : Part) (read : Json → α → Decoding α) : Prop :=
  ∀ j old, Yields Clean (read j old) fun _ => KeysKnown p j

section

variable {α : Type} {item : Json → α → Decoding α} {new : α} {expected : String}

lemma yields_complain (c : Complaint) (P : PUnit → Prop) : Yields Clean (complain c) P := by
  intro s a s' hrun hclean
  cases hrun
  cases s <;> nomatch hclean

lemma yields_misfit (expected : String) (old : α) (P : α → Prop) :
    Yields Clean (misfit expected old) P :=
  (yields_complain _ fun _ => False).bind fun _ => .pure False.elim

lemma strict_text : Strict .plain text := by
  intro j old
  unfold text
  split
  · exact .pure (keysKnown_plain _)
  · exact .pure (keysKnown_plain _)
  · exact yields_misfit _ _ _

lemma strict_flag : Strict .plain flag := by
  intro j old
  unfold flag
  split
  · exact .pure (keysKnown_plain _)
  · exact .pure (keysKnown_plain _)
  · exact yields_misfit _ _ _

lemma strict_real : Strict .plain real := by
  intro j old
  unfold real
  split
  · exact .pure (keysKnown_plain _)
  · cases binary64? _ with
    | none => exact yields_misfit _ _ _
    | some x => exact .pure (keysKnown_plain _)
  · exact yields_misfit _ _ _

/-- The complaint of a count is told at once, and no other one is lost. -/
lemma strict_count : Strict .count count := by
  intro j old s a s' hrun hclean
  refine ⟨?_, keysKnown_count j⟩
  cases j with
  | null => cases hrun; exact hclean
  | number t =>
    simp only [count] at hrun
    cases hx : binary64? t with
    | none => rw [hx] at hrun; nomatch hrun
    | some x => rw [hx] at hrun; cases hrun; exact hclean
  | bool _ | string _ | array _ | object _ =>
    simp only [count] at hrun
    split at hrun
    · nomatch hrun
    · nomatch hrun
    · cases hrun
      exact hclean

lemma strict_optional_plain (h : Strict .plain item) : Strict .plain (optional item new) := by
  intro j old
  unfold optional
  split
  · exact .pure (keysKnown_plain _)
  · exact (h _ _).map fun _ hknown => hknown

lemma strict_optional (h : Strict (.one r) item) : Strict (.one r) (optional item new) := by
  intro j old
  unfold optional
  split
  · exact .pure nofun
  · exact (h _ _).map fun _ hknown => hknown

lemma strict_record {set : String → Json → α → Decoding α}
    (h : r.fields.Forall fun e => Strict e.2 (set e.1)) :
    Strict (.one r) (record true expected r.names set) := by
  have hfields := forall_iff_forall_mem.mp h
  intro j old
  unfold record
  split
  · exact .pure nofun
  · refine (Yields.foldlM ?_ old).mono fun _ => keysKnown_object
    intro m _ old
    dsimp only
    split
    · rename_i f hf
      intro s a s' hrun hclean
      obtain ⟨p, hp⟩ := Record.exists_part (mem_of_find?_eq_some hf)
      have hread (p : Part) (hp : (f, p) ∈ r.fields) := hfields _ hp m.2 old s a s' hrun hclean
      exact ⟨(hread p hp).1, f, hf, fun p hp => (hread p hp).2⟩
    · exact (yields_complain _ fun _ => False).bind fun _ => .pure False.elim
  · exact yields_misfit _ _ _

lemma strict_list (h : Strict (.one r) item) : Strict (.each r) (list expected item new) := by
  have hitems : ∀ (js : List Json) (old : List α), Yields Clean (listItems item new js old)
      fun _ => ∀ j ∈ js, KeysKnown (.one r) j := by
    intro js
    induction js with
    | nil => exact fun _ => .pure (forall_mem_nil _)
    | cons j js ih =>
      intro old
      refine (h j _).bind fun a => (ih old.tail).bind fun rest => .pure ?_
      exact fun hrest hfirst => forall_mem_cons.mpr ⟨hfirst, hrest⟩
  intro j old
  unfold list
  split
  · exact .pure nofun
  · exact .pure nofun
  · exact (hitems _ _).bind fun _ => .pure keysKnown_array
  · exact yields_misfit _ _ _

end

/-! The parts of a description. -/

variable {p : Part}

variable {α β : Type} {j : Json}

/-- A field that is read on its own and put back. -/
lemma Strict.field {read : Json → β → Decoding β} (h : Strict p read) (get : α → β)
    (put : α → β → α) : Strict p fun j a => do return put a (← read j (get a)) :=
  fun j a => (h j (get a)).bind fun _ => .pure id

lemma strict_dependency : Strict (.one .dependency) (dependency true) :=
  strict_record ⟨strict_text.field _ _, strict_text.field _ _⟩

lemma strict_binding : Strict (.one .binding) (binding true) :=
  strict_record
    ⟨strict_text.field _ _, (strict_list strict_dependency).field _ _⟩

lemma strict_valueDescription : Strict (.one .value) (valueDescription true) :=
  strict_record
    ⟨(strict_optional_plain strict_text).field _ _, (strict_optional_plain strict_real).field _ _,
      (strict_optional strict_binding).field _ _⟩

lemma strict_replicator : Strict (.one .replicator) replicator :=
  strict_record
    ⟨strict_text.field _ _, strict_text.field _ _, strict_count.field _ _, strict_text.field _ _,
      strict_text.field _ _⟩

lemma strict_property : Strict (.one .property) property :=
  strict_record ⟨strict_text.field _ _, strict_text.field _ _⟩

lemma strict_signal : Strict (.one .signal) signal :=
  strict_record ⟨strict_text.field _ _, strict_text.field _ _⟩

lemma strict_function : Strict (.one .function) function :=
  strict_record (strict_text.field _ _)

lemma strict_resource : Strict (.one .resource) resource :=
  strict_record
    ⟨strict_text.field _ _, strict_text.field _ _, strict_text.field _ _⟩

lemma strict_properties : Strict (.named .value) properties := by
  intro j old
  unfold properties
  split
  · exact .pure nofun
  · refine (Yields.foldlM ?_ old).mono
      fun _ => keysKnown_named
    exact fun m _ t => (strict_optional strict_valueDescription m.2 none).bind fun _ => .pure id
  · exact yields_misfit _ _ _

lemma yields_member {k : Text} {f : String} (hf : fieldOf r.names k = some f)
    (hp : ∀ q, (f, q) ∈ r.fields → q = p) {x : Decoding β}
    (hx : Yields Clean x fun _ => KeysKnown p j) {g : β → Decoding α}
    (hg : ∀ b, Yields Clean (g b) fun _ => ∀ m ∈ ms, MemberKnown r m) :
    Yields Clean (x >>= g) fun _ => ∀ m ∈ (k, j) :: ms, MemberKnown r m :=
  hx.bind fun b => (hg b).mono fun _ hrest hknown => forall_mem_cons.mpr
    ⟨⟨f, hf, fun q hq => hp q hq ▸ hknown⟩, hrest⟩

mutual

lemma strict_object : ∀ (j : Json) (old : ObjectDraft),
    Yields Clean (object j old) fun _ => KeysKnown (.one .object) j
  | .null, _ => .pure nofun
  | .object ms, .absent => (strict_objectMembers ms _ _ _ _).mono fun _ => keysKnown_object
  | .object ms, .object _ _ _ _ _ =>
    (strict_objectMembers ms _ _ _ _).mono fun _ => keysKnown_object
  | .bool _, _ => yields_misfit _ _ _
  | .number _, _ => yields_misfit _ _ _
  | .string _, _ => yields_misfit _ _ _
  | .array _, _ => yields_misfit _ _ _

lemma strict_objectMembers : ∀ (ms : List (Text × Json)) (id type : Text)
    (ps : Table Text (Option ValueDescription)) (cs : Draft ObjectDraft),
    Yields Clean (objectMembers ms id type ps cs) fun _ => ∀ m ∈ ms, MemberKnown .object m
  | [], _, _, _, _ => .pure (forall_mem_nil _)
  | (k, j) :: ms, id, type, ps, cs => by
    rw [objectMembers]
    split
    · rename_i hf
      exact yields_member (r := .object) hf (p := .plain) (by simp [Record.fields])
        (strict_text j id) fun id => strict_objectMembers ms id type ps cs
    · rename_i hf
      exact yields_member (r := .object) hf (p := .plain) (by simp [Record.fields])
        (strict_text j type) fun type => strict_objectMembers ms id type ps cs
    · rename_i hf
      exact yields_member (r := .object) hf (p := .named .value) (by simp [Record.fields])
        (strict_properties j ps) fun ps => strict_objectMembers ms id type ps cs
    · rename_i f hid hclass hproperties hf
      have hnames : ∀ f ∈ Record.object.names,
          f = "id" ∨ f = "class" ∨ f = "properties" ∨ f = "children" := by decide
      have hchildren : f = "children" := ((hnames f (mem_of_find?_eq_some hf)).resolve_left
        hid |>.resolve_left hclass).resolve_left hproperties
      exact yields_member (r := .object) hf (p := .each .object)
        (by simp [Record.fields, hchildren])
        (strict_objectList j cs) fun cs => strict_objectMembers ms id type ps cs
    · exact (yields_complain _ fun _ => False).bind fun _ =>
        (strict_objectMembers ms id type ps cs).mono fun _ _ => False.elim

lemma strict_objectList : ∀ (j : Json) (old : Draft ObjectDraft),
    Yields Clean (objectList j old) fun _ => KeysKnown (.each .object) j
  | .null, _ => .pure nofun
  | .array [], _ => .pure nofun
  | .array (j :: js), _ => (strict_objectItems (j :: js) _).bind fun _ => .pure keysKnown_array
  | .bool _, _ => yields_misfit _ _ _
  | .number _, _ => yields_misfit _ _ _
  | .string _, _ => yields_misfit _ _ _
  | .object _, _ => yields_misfit _ _ _

lemma strict_objectItems : ∀ (js : List Json) (old : List ObjectDraft),
    Yields Clean (objectItems js old) fun _ => ∀ j ∈ js, KeysKnown (.one .object) j
  | [], _ => .pure (forall_mem_nil _)
  | j :: js, old => by
    rw [objectItems]
    refine (strict_object j _).bind fun _ =>
      (strict_objectItems js old.tail).bind fun _ => .pure ?_
    exact fun hrest hfirst => forall_mem_cons.mpr ⟨hfirst, hrest⟩

end

lemma strict_classDescription : Strict (.one .classDescription) classDescription :=
  strict_record
    ⟨strict_text.field _ _, strict_text.field _ _, strict_flag.field _ _, strict_text.field _ _,
      (strict_list strict_property).field _ _, (strict_list strict_signal).field _ _,
      (strict_list strict_function).field _ _, (strict_list strict_resource).field _ _,
      (strict_list (strict_optional strict_replicator)).field _ _,
      Strict.field strict_object _ _⟩

lemma strict_description : Strict (.one .description) description := by
  refine strict_record fun j d => ?_
  have hlist : Strict (.each .classDescription)
      (list "[]*load.Class" (optional classDescription {}) none) :=
    strict_list (strict_optional strict_classDescription)
  split
  · exact .pure nofun
  · exact (hlist _ _).bind fun _ => .pure id

/-- A document that is accepted has no other keys than fields, outside of its counts. -/
lemma keysKnown_of_document {d : Description} (h : document j = .ok d) :
    KeysKnown (.one .description) j := by
  unfold document at h
  split at h
  · nomatch h
  · nomatch h
  · rename_i hrun
    exact (strict_description j {} none _ none hrun rfl).2

end Decode

end Json

end ReactiveModel
