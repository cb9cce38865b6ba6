import ReactiveModel.Proofs.JsonDecoding

/-! JSON documents of descriptions. What is written for a description is read back as the same
description. -/

namespace ReactiveModel

open List

namespace Json

/-! Documents that can be read. -/

lemma readableItems_map {β : Type} {f : β → Json} {bs : List β} (h : ∀ b ∈ bs, (f b).Readable) :
    ReadableItems (bs.map f) :=
  readableItems_iff.mpr (forall_mem_map.mpr h)

lemma ReadableMembers.append {ms ms' : List (Text × Json)} (h : ReadableMembers ms)
    (h' : ReadableMembers ms') : ReadableMembers (ms ++ ms') := by
  rw [readableMembers_iff] at *
  exact forall_mem_append.mpr ⟨h, h'⟩

variable (k : String)

lemma readable_member {j : Json} (h : j.Readable) : ReadableMembers (member k j) :=
  ⟨⟨k, rfl⟩, h, trivial⟩

lemma readable_text {t : Text} (h : t.IsUtf8) : ReadableMembers (text k t) :=
  readable_member k h

lemma readable_text? {t : Text} (h : t.IsUtf8) : ReadableMembers (text? k t) := by
  unfold text?
  split
  · exact trivial
  · exact readable_text k h

lemma readable_list? {js : List Json} (h : ReadableItems js) : ReadableMembers (list? k js) := by
  unfold list?
  split
  · exact trivial
  · exact readable_member k h

lemma readable_some? {β : Type} {f : β → Json} {b : Option β}
    (h : ∀ x, b = some x → (f x).Readable) : ReadableMembers (some? k (b.map f)) := by
  cases b with
  | none => exact trivial
  | some x => exact readable_member k (h x rfl)

end Json

open Json

lemma Dependency.readable_toJson {d : Dependency} (h : d.IsUtf8) : d.toJson.Readable :=
  (readable_text _ h.1).append (readable_text _ h.2)

lemma Binding.readable_toJson {b : Binding} (h : b.IsUtf8) : b.toJson.Readable :=
  (readable_text _ h.1).append
    (readable_list? _ (readableItems_map fun d hd => Dependency.readable_toJson (h.2 d hd)))

lemma ValueDescription.readable_toJson {v : ValueDescription} (h : v.IsUtf8)
    (hfinite : v.isFinite) : v.toJson.Readable := by
  refine ((readable_some? _ h.1).append (readable_some? _ fun x hx => ?_)).append
    (readable_some? _ fun b hb => Binding.readable_toJson (h.2 b hb))
  refine numeral_text .json ?_
  simpa [ValueDescription.isFinite, hx] using hfinite

lemma ReplicatorDescription.readable_toJson {r : ReplicatorDescription} (h : r.IsUtf8)
    (hfinite : r.count.isFinite) : r.toJson.Readable := by
  obtain ⟨hid, hclass, hcount, hinitializor, hparent⟩ := h
  exact ((((readable_text _ hid).append (readable_text _ hclass)).append
    (readable_member _ (ValueDescription.readable_toJson hcount hfinite))).append
    (readable_text? _ hinitializor)).append (readable_text _ hparent)

namespace ObjectDescription

lemma readable_properties {ps : Table Text (Option ValueDescription)}
    (h : ∀ p ∈ ps, p.1.IsUtf8 ∧ ∀ v, p.2 = some v → v.IsUtf8)
    (hfinite : ps.all (fun p => p.2.all (·.isFinite)) = true) :
    ReadableMembers (propertiesToJson ps) := by
  unfold propertiesToJson
  split
  · exact trivial
  · refine readable_member _ (readableMembers_iff.mpr fun m hm => ?_)
    obtain ⟨⟨k, v⟩, hp, rfl⟩ := mem_map.1 hm
    refine ⟨(h _ hp).1, ?_⟩
    have hv := all_eq_true.1 hfinite _ hp
    cases v with
    | none => exact trivial
    | some v => exact ValueDescription.readable_toJson ((h _ hp).2 v rfl) hv

mutual

lemma readable_toJson : ∀ o : ObjectDescription, o.IsUtf8 → o.isFinite = true →
    o.toJson.Readable
  | .absent, _, _ => trivial
  | .object id type ps cs, h, hfinite => by
    obtain ⟨⟨hid, htype, hps⟩, hcs⟩ := h
    rw [isFinite, Bool.and_eq_true] at hfinite
    exact (((readable_text _ hid).append (readable_text _ htype)).append
      (readable_properties hps hfinite.1)).append
      (readable_list? _ (readable_toJsonAll cs hcs hfinite.2))

lemma readable_toJsonAll : ∀ os : List ObjectDescription,
    EverywhereAll (fun id type ps =>
      id.IsUtf8 ∧ type.IsUtf8 ∧ ∀ p ∈ ps, p.1.IsUtf8 ∧ ∀ v, p.2 = some v → v.IsUtf8) os →
    isFiniteAll os = true → ReadableItems (toJsonAll os)
  | [], _, _ => trivial
  | o :: os, h, hfinite => by
    rw [isFiniteAll, Bool.and_eq_true] at hfinite
    exact ⟨readable_toJson o h.1 hfinite.1, readable_toJsonAll os h.2 hfinite.2⟩

end

end ObjectDescription

namespace ClassDescription

lemma readable_toJson {c : ClassDescription} (h : c.IsUtf8) (hfinite : c.isFinite) :
    c.toJson.Readable := by
  rw [isFinite, Bool.and_eq_true, all_eq_true] at hfinite
  unfold toJson
  simp only [append_assoc]
  refine (readable_text _ h.name).append ((readable_text? _ h.source).append (.append ?_
    ((readable_text? _ h.alloc).append
    ((readable_list? _ (readableItems_map fun p hp => ?_)).append
    ((readable_list? _ (readableItems_map fun s hs => ?_)).append
    ((readable_list? _ (readableItems_map fun f hf => ?_)).append
    ((readable_list? _ (readableItems_map fun r hr => ?_)).append
    ((readable_list? _ (readableItems_map fun r hr => ?_)).append ?_))))))))
  · split
    · exact readable_member _ trivial
    · exact trivial
  · exact (readable_text _ (h.properties p hp).1).append (readable_text _ (h.properties p hp).2)
  · exact (readable_text _ (h.signals s hs).1).append (readable_text? _ (h.signals s hs).2)
  · exact readable_text _ (h.functions f hf)
  · obtain ⟨hname, htype, hinitializer⟩ := h.resources r hr
    exact ((readable_text _ hname).append (readable_text _ htype)).append
      (readable_text _ hinitializer)
  · cases r with
    | none => exact trivial
    | some r => exact ReplicatorDescription.readable_toJson (h.replicators r hr) (hfinite.1 _ hr)
  · split
    · exact trivial
    · exact readable_member _ (ObjectDescription.readable_toJson _ h.root hfinite.2)

end ClassDescription

namespace Description

lemma readable_toJson {d : Description} (h : d.IsUtf8) (hfinite : d.isFinite) :
    d.toJson.Readable := by
  refine readable_member "classes" ?_
  obtain ⟨_ | cs⟩ := d
  · exact trivial
  · refine readableItems_map fun c hc => ?_
    cases c with
    | none => exact trivial
    | some c => exact ClassDescription.readable_toJson (h c hc) (all_eq_true.1 hfinite _ hc)

/-- A description whose texts are UTF-8, whose numbers are finite and whose document is not nested
too deep is written as JSON, and what is written is read back as the same description. Its property
maps are tables, in the order of their keys. -/
theorem json_round_trip (d : Description) (hutf8 : d.IsUtf8) (hordered : d.Ordered)
    (hfinite : d.isFinite = true) (hnesting : d.toJson.nesting ≤ Json.maxDepth) :
    ∃ bs, d.encode .json = some bs ∧ decode .json bs = .ok d := by
  have hjson : d.json? = some (d.toJson.pretty 0 ++ "\n") := if_pos hfinite
  refine ⟨(d.toJson.pretty 0 ++ "\n").toUTF8.toList, by rw [encode, hjson]; rfl, ?_⟩
  simp only [decode, ofJson, Text.ofUtf8_toUTF8, Json.read_pretty (readable_toJson hutf8 hfinite)
    hnesting, Json.Decode.document_toJson hordered hfinite]

/-- Values of no, one and several payloads, an empty text that is there, and a missing child. -/
def sheetRoot : ObjectDescription :=
  .object "root" ""
    [("", none),
      ("a", some ⟨some "", some ⟨0x8000000000000000⟩, some ⟨"b < 1", [⟨"this", "b"⟩]⟩⟩),
      ("b", some {})]
    [.absent, .object "" "Cell" [("c", some { number := some ⟨0x7FEFFFFFFFFFFFFF⟩ })] []]

lemma isUtf8_sheetRoot : sheetRoot.IsUtf8 := by
  simp only [sheetRoot, ObjectDescription.IsUtf8, ObjectDescription.Everywhere,
    ObjectDescription.EverywhereAll, forall_mem_cons]
  simp [ValueDescription.IsUtf8, Binding.IsUtf8, Dependency.IsUtf8]

lemma ordered_sheetRoot : sheetRoot.Ordered :=
  ⟨by unfold Table.Ordered; decide, trivial, ⟨by unfold Table.Ordered; decide, trivial⟩, trivial⟩

/-- A document with missing entries and with characters that are escaped. -/
def sheet : Description where
  classes := some [none, some {
    name := "Sheet"
    alloc := "new<Sheet>"
    properties := [⟨"tête & \"tail\"", "float"⟩]
    signals := [⟨"moved", ""⟩]
    functions := [⟨"void f(int)\n"⟩]
    resources := [⟨"icon", "", "load('\\')"⟩]
    replicators := [none, some { id := "cells", className := "Cell" },
      some { count := { number := some ⟨0x3FB999999999999A⟩ } }]
    root := sheetRoot }]

theorem json_round_trip_sheet : sheet.IsUtf8 ∧ sheet.Ordered ∧ sheet.isFinite = true ∧
    sheet.toJson.nesting ≤ Json.maxDepth ∧
    ∃ bs, sheet.encode .json = some bs ∧ decode .json bs = .ok sheet := by
  have hclass : ∀ c, some c ∈ sheet.classes.getD [] → c.root = sheetRoot ∧ c.IsUtf8 := by
    intro c hc
    simp only [sheet, Option.getD_some, List.mem_cons, reduceCtorEq, Option.some.injEq, false_or,
      List.not_mem_nil, or_false] at hc
    subst hc
    refine ⟨rfl, ?_⟩
    constructor
    case root => exact isUtf8_sheetRoot
    all_goals simp [ReplicatorDescription.IsUtf8, ValueDescription.IsUtf8]
  have hutf8 : sheet.IsUtf8 := fun c hc => (hclass c hc).2
  have hordered : sheet.Ordered := fun c hc => (hclass c hc).1 ▸ ordered_sheetRoot
  have hfinite : sheet.isFinite = true := by decide
  have hnesting : sheet.toJson.nesting ≤ Json.maxDepth := by decide
  exact ⟨hutf8, hordered, hfinite, hnesting, json_round_trip sheet hutf8 hordered hfinite hnesting⟩

end Description

end ReactiveModel
