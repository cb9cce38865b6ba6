import ReactiveModel.Description.JsonText
import ReactiveModel.Proofs.Utf8

/-! What is written as a JSON document is read back, up to the depth that the reader allows. -/

namespace ReactiveModel.Json

open List

variable {c : Char} {cs cs' rest : List Char} {n fuel depth : Nat} {j : Json}

/-! Strings. -/

/-- Whether the escape of a character is a code unit. -/
def isUnit (c : Char) : Bool :=
  let n := c.toNat
  n < 0x20 && !(['\x08', '\x0c', '\n', '\r', '\t'].contains c) ||
    c == '<' || c == '>' || c == '&' ||
    n == 0x2028 || n == 0x2029

/-- What stands for a character between quotes once its escape is read. -/
def unitOf (c : Char) : Unit16 := if isUnit c then .unit c.toNat else .char c

lemma hexValue?_digitChar : ∀ d < 16, Text.hexValue? (Nat.digitChar d) = some d := by decide

lemma codeUnit?_hexDigits (h : n < 0x10000) : codeUnit? (Text.hexDigits n 4) = some n := by
  have hdigit : ∀ m, Text.hexValue? (Nat.digitChar (m % 16)) = some (m % 16) :=
    fun m => hexValue?_digitChar _ (Nat.mod_lt _ (by omega))
  simp only [codeUnit?, Text.hexDigits, nil_append, cons_append, foldlM_cons,
    foldlM_nil, hdigit, Option.map_some, Option.bind_eq_bind, Option.bind_some, Option.pure_def]
  congr 1
  omega

lemma units_hexDigits (h : n < 0x10000) (cs : List Char) (done : List Unit16) :
    units ('\\' :: 'u' :: Text.hexDigits n 4 ++ cs) done = units cs (.unit n :: done) := by
  have hcode := codeUnit?_hexDigits h
  obtain ⟨a, b, c, d, hdigits⟩ : ∃ a b c d, Text.hexDigits n 4 = [a, b, c, d] := ⟨_, _, _, _, rfl⟩
  rw [hdigits] at hcode ⊢
  simp [units, hcode]

lemma isUnit_lt (h : isUnit c) : c.toNat < 0xD800 := by
  simp only [isUnit, Bool.or_eq_true, Bool.and_eq_true, decide_eq_true_eq, contains_eq_mem,
    beq_iff_eq] at h
  rcases h with ((((h | rfl) | rfl) | rfl) | h) | h
  all_goals first | decide | omega

/-- Characters that have an escape of one letter. -/
def isShort (c : Char) : Bool := ['"', '\\', '\x08', '\x0c', '\n', '\r', '\t'].contains c

lemma escape_of_not_isShort (h : isShort c = false) :
    escape c = if isUnit c then '\\' :: 'u' :: Text.hexDigits c.toNat 4 else [c] := by
  simp only [isShort, contains_eq_mem, mem_cons, not_mem_nil, or_false,
    decide_eq_false_iff_not, not_or] at h
  obtain ⟨h₁, h₂, h₃, h₄, h₅, h₆, h₇⟩ := h
  have hunit : isUnit c = (c.toNat < 0x20 || c == '<' || c == '>' || c == '&' ||
      c.toNat == 0x2028 || c.toNat == 0x2029) := by
    simp [isUnit, h₃, h₄, h₅, h₆, h₇, Bool.or_assoc]
  simp [escape, hunit, h₁, h₂, h₃, h₄, h₅, h₆, h₇]

lemma units_escape (c : Char) (cs : List Char) (done : List Unit16) :
    units (escape c ++ cs) done = units cs (unitOf c :: done) := by
  cases hshort : isShort c with
  | true =>
    simp only [isShort, contains_eq_mem, mem_cons, not_mem_nil, or_false,
      decide_eq_true_eq] at hshort
    rcases hshort with rfl | rfl | rfl | rfl | rfl | rfl | rfl <;> rfl
  | false =>
    rw [escape_of_not_isShort hshort, unitOf]
    cases hunit : isUnit c with
    | true => exact units_hexDigits (Nat.lt_trans (isUnit_lt hunit) (by decide)) cs done
    | false =>
      simp only [isShort, contains_eq_mem, mem_cons, not_mem_nil, or_false,
        decide_eq_false_iff_not, not_or] at hshort
      have hlarge : ¬ c.toNat < 0x20 := by
        intro h
        simp [isUnit, h, hshort] at hunit
      simp [units, hshort, hlarge]

/-- Characters between quotes are read up to the closing quote. -/
lemma units_escapes (cs rest : List Char) (done : List Unit16) :
    units (cs.flatMap escape ++ '"' :: rest) done = .ok (done.reverse ++ cs.map unitOf, rest) := by
  induction cs generalizing done with
  | nil => simp [units]
  | cons c cs ih =>
    rw [flatMap_cons, append_assoc, units_escape, ih]
    simp

lemma joinUnits_unit (h : n < 0xD800) (us : List Unit16) :
    joinUnits (.unit n :: us) = Char.ofNat n :: joinUnits us := by
  have hhigh : isHigh n = false := by simp [isHigh]; omega
  have hlow : isLow n = false := by simp [isLow]; omega
  cases us with
  | nil => simp [joinUnits, hhigh, hlow]
  | cons u us => cases u <;> simp [joinUnits, hhigh, hlow]

lemma joinUnits_map (cs : List Char) : joinUnits (cs.map unitOf) = cs := by
  induction cs with
  | nil => rfl
  | cons c cs ih =>
    rw [map_cons, unitOf]
    cases hunit : isUnit c with
    | true =>
      simp only [if_true]
      rw [joinUnits_unit (isUnit_lt hunit), ih, Char.ofNat_toNat]
    | false => simp [joinUnits, ih]

lemma stringBody_escapes (cs rest : List Char) :
    stringBody (cs.flatMap escape ++ '"' :: rest) = .ok (.ofString (String.ofList cs), rest) := by
  simp [stringBody, units_escapes, joinUnits_map, Except.map]

variable (s : String)

lemma toList_quote : (quote (.ofString s)).toList = '"' :: s.toList.flatMap escape ++ ['"'] := by
  simp [quote, Text.pieces_ofString, flatMap_map, escapePiece]

lemma stringBody_quote (rest : List Char) :
    ∃ body, (quote (.ofString s)).toList ++ rest = '"' :: body ∧
      stringBody body = .ok (.ofString s, rest) := by
  refine ⟨s.toList.flatMap escape ++ '"' :: rest, by simp [toList_quote], ?_⟩
  rw [stringBody_escapes, String.ofList_toList]

/-! Values. -/

mutual

/-- How deep arrays and objects are nested. -/
def nesting : Json → Nat
  | .array js => nestingItems js + 1
  | .object ms => nestingMembers ms + 1
  | _ => 0

def nestingItems : List Json → Nat
  | [] => 0
  | j :: js => max j.nesting (nestingItems js)

def nestingMembers : List (Text × Json) → Nat
  | [] => 0
  | (_, j) :: ms => max j.nesting (nestingMembers ms)

end

/-- What follows a value that is written inside a document. -/
def Apart (rest : List Char) : Prop := ∃ c cs, rest = c :: cs ∧ (c = ',' ∨ c = '\n')

/-- A text that is read as a number to its end. -/
structure Numeral (t : String) : Prop where
  head : ∃ c cs, t.toList = c :: cs ∧ (c = '-' ∨ isDigit c = true)
  reads : ∀ rest, Apart rest → numeral (t.toList ++ rest) = .ok (.number t, rest)

mutual

/-- All texts are of characters, and all numbers are numerals. -/
def Readable : Json → Prop
  | .null | .bool _ => True
  | .number t => Numeral t
  | .string t => t.IsUtf8
  | .array js => ReadableItems js
  | .object ms => ReadableMembers ms

def ReadableItems : List Json → Prop
  | [] => True
  | j :: js => j.Readable ∧ ReadableItems js

def ReadableMembers : List (Text × Json) → Prop
  | [] => True
  | (k, j) :: ms => k.IsUtf8 ∧ j.Readable ∧ ReadableMembers ms

end

/-- A property of all values, proved of an array and of an object from the same property of their
parts. -/
lemma inductOn {P : Json → Prop} (null : P .null) (bool : ∀ b, P (.bool b))
    (number : ∀ t, P (.number t)) (string : ∀ t, P (.string t))
    (array : ∀ js, (∀ j ∈ js, P j) → P (.array js))
    (object : ∀ ms, (∀ m ∈ ms, P m.2) → P (.object ms)) : ∀ j, P j
  | .null => null
  | .bool b => bool b
  | .number t => number t
  | .string t => string t
  | .array js => array js fun j _ => inductOn null bool number string array object j
  | .object ms => object ms fun m _ => inductOn null bool number string array object m.2
decreasing_by
  · decreasing_tactic
  · have hlt := List.sizeOf_lt_of_mem ‹m ∈ ms›
    have hpart : sizeOf m = 1 + sizeOf m.1 + sizeOf m.2 := rfl
    simp only [Json.object.sizeOf_spec]
    omega

lemma skipBlanks_append {bs : List Char} (h : ∀ b ∈ bs, isBlank b = true) (cs : List Char) :
    skipBlanks (bs ++ cs) = skipBlanks cs :=
  dropWhile_append_of_pos h

lemma skipBlanks_cons (h : isBlank c = false) (cs : List Char) :
    skipBlanks (c :: cs) = c :: cs := by
  simp [skipBlanks, h]

lemma toList_indentation (n : Nat) :
    (indentation n).toList = '\n' :: List.replicate (2 * n) ' ' := by
  simp [indentation]

lemma isBlank_indentation (n : Nat) : ∀ b ∈ (indentation n).toList, isBlank b = true := by
  intro b hb
  rw [toList_indentation] at hb
  rcases mem_cons.mp hb with rfl | hb
  · rfl
  · rw [eq_of_mem_replicate hb]
    rfl

variable (indent : Nat)

lemma toList_pretty_null : (pretty indent .null).toList = ['n', 'u', 'l', 'l'] := by
  rw [pretty]
  rfl

lemma toList_pretty_bool (b : Bool) :
    (pretty indent (.bool b)).toList =
      if b then ['t', 'r', 'u', 'e'] else ['f', 'a', 'l', 's', 'e'] := by
  rw [pretty]
  cases b <;> rfl

/-- The items of an array or the members of an object, one after the other. -/
def listed (texts : List String) : List Char := (",".intercalate texts).toList

lemma listed_singleton (text : String) : listed [text] = text.toList := by
  rw [listed, String.intercalate_singleton]

lemma listed_cons_cons (text next : String) (texts : List String) :
    listed (text :: next :: texts) = text.toList ++ ',' :: listed (next :: texts) := by
  simp [listed]

lemma toList_pretty_array (j : Json) (js : List Json) :
    (pretty indent (.array (j :: js))).toList =
      '[' :: listed (prettyItems (indent + 1) (j :: js)) ++
        (indentation indent).toList ++ [']'] := by
  rw [pretty]
  simp [listed]

lemma toList_pretty_object (m : Text × Json) (ms : List (Text × Json)) :
    (pretty indent (.object (m :: ms))).toList =
      '\x7b' :: listed (prettyMembers (indent + 1) (m :: ms)) ++ (indentation indent).toList ++
        ['\x7d'] := by
  rw [pretty]
  simp [listed]

lemma toList_pretty_nil :
    (pretty indent (.array [])).toList = ['[', ']'] ∧
    (pretty indent (.object [])).toList = ['\x7b', '\x7d'] := by
  simp [pretty]

/-- The characters that open or close something are no digits. -/
lemma ne_of_isDigit {c d : Char} (h : isDigit c) (hd : isDigit d = false) : c ≠ d := by
  rintro rfl
  simp [h] at hd

lemma isBlank_of_isDigit (h : isDigit c) : isBlank c = false := by
  have hne : ∀ d, isDigit d = false → (c == d) = false := fun d hd => by
    simpa using ne_of_isDigit h hd
  simp [isBlank, hne ' ' rfl, hne '\t' rfl, hne '\r' rfl, hne '\n' rfl]

/-- A written value starts with a character that opens it. -/
lemma exists_head (h : j.Readable) (indent : Nat) :
    ∃ c cs, (pretty indent j).toList = c :: cs ∧ isBlank c = false ∧ c ≠ ']' ∧ c ≠ '\x7d' := by
  cases j with
  | null => exact ⟨_, _, toList_pretty_null indent, by decide⟩
  | bool b =>
    have hb := toList_pretty_bool indent b
    cases b <;> exact ⟨_, _, hb, by decide⟩
  | number t =>
    obtain ⟨c, cs, hcs, hc⟩ := Numeral.head h
    refine ⟨c, cs, hcs, ?_⟩
    rcases hc with rfl | hc
    · decide
    · exact ⟨isBlank_of_isDigit hc, ne_of_isDigit hc rfl, ne_of_isDigit hc rfl⟩
  | string t =>
    obtain ⟨s, rfl⟩ := h
    exact ⟨_, _, toList_quote s, by decide⟩
  | array js =>
    cases js with
    | nil => exact ⟨_, _, (toList_pretty_nil indent).1, by decide⟩
    | cons j js => exact ⟨_, _, toList_pretty_array indent j js, by decide⟩
  | object ms =>
    cases ms with
    | nil => exact ⟨_, _, (toList_pretty_nil indent).2, by decide⟩
    | cons m ms => exact ⟨_, _, toList_pretty_object indent m ms, by decide⟩

lemma value_of_skipBlanks (h : skipBlanks cs = skipBlanks cs')
    (fuel depth : Nat) : value fuel depth cs = value fuel depth cs' := by
  cases fuel with
  | zero => rfl
  | succ fuel => rw [value, value, h]

/-- A value is read back from where it stands in a document. -/
def ReadsBack (j : Json) : Prop :=
  ∀ (indent fuel depth : Nat) (rest : List Char), j.Readable →
    (pretty indent j).toList.length ≤ fuel → depth + j.nesting ≤ maxDepth → Apart rest →
    value fuel depth ((pretty indent j).toList ++ rest) = .ok (j, rest)

lemma apart_indentation (n : Nat) (cs : List Char) : Apart ((indentation n).toList ++ cs) :=
  ⟨'\n', _, by rw [toList_indentation]; rfl, .inr rfl⟩

lemma apart_comma (cs : List Char) : Apart (',' :: cs) := ⟨',', cs, rfl, .inl rfl⟩

section

variable {α : Type} {close : Char} {part : List Char → Reading α} {text : α → String} {x : α}
  {xs : List α}

/-- Parts are read back up to the closing mark if each of them is. -/
lemma parts_listed (hclose : isBlank close = false ∧ close ≠ ',') (outer : Nat)
    (h : ∀ y ∈ x :: xs, ∀ rest, Apart rest → part ((text y).toList ++ rest) = .ok (y, rest))
    (hfuel : xs.length < fuel) (done : List α) :
    parts close part fuel
        (listed ((x :: xs).map text) ++ ((indentation outer).toList ++ close :: rest)) done =
      .ok (done.reverse ++ x :: xs, rest) := by
  induction xs generalizing x fuel done with
  | nil =>
    obtain _ | fuel := fuel
    · cases hfuel
    rw [map_singleton, listed_singleton, parts, h x mem_cons_self _ (apart_indentation outer _)]
    simp only [skipBlanks_append (isBlank_indentation _), skipBlanks_cons hclose.1]
    simp [hclose.2]
  | cons y ys ih =>
    obtain _ | fuel := fuel
    · cases hfuel
    have hrest := ih (fun u hu => h u (mem_cons_of_mem _ hu)) (Nat.lt_of_succ_lt_succ hfuel)
      (x :: done)
    rw [map_cons] at hrest
    rw [map_cons, map_cons, listed_cons_cons, append_assoc, cons_append, parts,
      h x mem_cons_self _ (apart_comma _)]
    simp only [skipBlanks_cons (c := ',') rfl, BEq.rfl, if_true, hrest]
    simp

/-- Texts are no longer than what they are listed in, and there are no more of them. -/
lemma length_listed (text : String) (texts : List String) :
    texts.length ≤ (listed (text :: texts)).length ∧
      ∀ t ∈ text :: texts, t.toList.length ≤ (listed (text :: texts)).length := by
  induction texts generalizing text with
  | nil => simp [listed_singleton]
  | cons next texts ih =>
    obtain ⟨hall, hone⟩ := ih next
    rw [listed_cons_cons, length_append, length_cons, length_cons]
    refine ⟨by omega, forall_mem_cons.mpr ⟨Nat.le_add_right _ _, fun t ht => ?_⟩⟩
    have hle := hone t ht
    omega

lemma listed_cons (text : String) (texts : List String) :
    ∃ more, listed (text :: texts) = text.toList ++ more := by
  cases texts with
  | nil => exact ⟨[], by rw [listed_singleton, append_nil]⟩
  | cons next texts => exact ⟨_, listed_cons_cons text next texts⟩

lemma nested_listed {make : List α → Json} (hclose : isBlank close = false ∧ close ≠ ',')
    (hdepth : depth < maxDepth) (outer : Nat)
    (hhead : ∀ more, ∃ c cs, skipBlanks ((text x).toList ++ more) = c :: cs ∧ c ≠ close)
    (hfuel : (listed ((x :: xs).map text)).length < fuel)
    (h : ∀ y ∈ x :: xs, (text y).toList.length ≤ fuel → ∀ rest, Apart rest →
      part ((text y).toList ++ rest) = .ok (y, rest)) :
    nested close part make fuel depth
        (listed ((x :: xs).map text) ++ ((indentation outer).toList ++ close :: rest)) =
      .ok (make (x :: xs), rest) := by
  obtain ⟨more, hmore⟩ := listed_cons (text x) (xs.map text)
  have hlength := length_listed (text x) (xs.map text)
  rw [length_map, ← map_cons] at hlength
  have hparts := @parts_listed rest fuel _ close part text x xs hclose outer
    (fun y hy => h y hy (Nat.le_of_lt (Nat.lt_of_le_of_lt (hlength.2 _ (mem_map_of_mem hy)) hfuel)))
    (Nat.lt_of_le_of_lt hlength.1 hfuel) []
  rw [map_cons, hmore, append_assoc] at hparts ⊢
  obtain ⟨c, cs, hcs, hc⟩ := hhead (more ++ ((indentation outer).toList ++ close :: rest))
  rw [nested, if_neg (Nat.not_le_of_lt hdepth), hcs, hparts]
  simp [hc, Except.map]

end

lemma prettyItems_eq (js : List Json) :
    prettyItems indent js = js.map fun j => indentation indent ++ pretty indent j := by
  induction js with
  | nil => rfl
  | cons j js ih => rw [prettyItems, ih, map_cons]

lemma prettyMembers_eq (ms : List (Text × Json)) :
    prettyMembers indent ms =
      ms.map fun m => indentation indent ++ quote m.1 ++ ": " ++ pretty indent m.2 := by
  induction ms with
  | nil => rfl
  | cons m ms ih => rw [prettyMembers, ih, map_cons]

lemma value_numeral {t : String} (h : Numeral t) (hfuel : t.toList.length ≤ fuel) (depth : Nat)
    (hrest : Apart rest) : value fuel depth (t.toList ++ rest) = .ok (.number t, rest) := by
  have hreads := h.reads rest hrest
  obtain ⟨c, cs, hcs, hc⟩ := h.head
  rw [hcs] at hfuel hreads ⊢
  obtain ⟨fuel, rfl⟩ : ∃ n, fuel = n + 1 := ⟨fuel - 1, by simp at hfuel; omega⟩
  rw [cons_append] at hreads ⊢
  rcases hc with rfl | hc
  · exact hreads
  · have hne : ∀ d, isDigit d = false → c ≠ d := fun d => ne_of_isDigit hc
    rw [value, skipBlanks_cons (isBlank_of_isDigit hc)]
    simp [hne '"' rfl, hne '[' rfl, hne '\x7b' rfl, hne 't' rfl, hne 'f' rfl,
      hne 'n' rfl, hc, hreads]

lemma nesting_item {js : List Json} (h : j ∈ js) : j.nesting ≤ nestingItems js := by
  induction js with
  | nil => cases h
  | cons i js ih =>
    rw [nestingItems]
    rcases mem_cons.mp h with rfl | h
    · exact Nat.le_max_left _ _
    · exact Nat.le_trans (ih h) (Nat.le_max_right _ _)

lemma nestingMembers_eq (ms : List (Text × Json)) :
    nestingMembers ms = nestingItems (ms.map Prod.snd) := by
  induction ms with
  | nil => rfl
  | cons m ms ih => rw [nestingMembers, ih, map_cons, nestingItems]

lemma readableItems_iff {js : List Json} : ReadableItems js ↔ ∀ j ∈ js, j.Readable := by
  induction js with
  | nil => simp [ReadableItems]
  | cons j js ih => rw [ReadableItems, ih, forall_mem_cons]

lemma readableMembers_iff {ms : List (Text × Json)} :
    ReadableMembers ms ↔ ∀ m ∈ ms, m.1.IsUtf8 ∧ m.2.Readable := by
  induction ms with
  | nil => simp [ReadableMembers]
  | cons m ms ih => rw [ReadableMembers, ih, forall_mem_cons, and_assoc]

lemma readsBack_array (js : List Json) (ih : ∀ j ∈ js, ReadsBack j) : ReadsBack (.array js) := by
  intro indent fuel depth rest hr hfuel hdepth _
  rw [nesting] at hdepth
  have hr := readableItems_iff.mp hr
  cases js with
  | nil =>
    rw [(toList_pretty_nil indent).1] at hfuel ⊢
    obtain ⟨fuel, rfl⟩ : ∃ n, fuel = n + 1 := ⟨fuel - 1, by simp at hfuel; omega⟩
    simp [value, nested, skipBlanks, isBlank, show ¬ maxDepth ≤ depth by omega]
  | cons j js =>
    rw [toList_pretty_array, prettyItems_eq] at hfuel ⊢
    simp only [length_append, length_cons, length_nil] at hfuel
    obtain _ | fuel := fuel
    · omega
    simp only [append_assoc, cons_append, nil_append]
    rw [value, skipBlanks_cons rfl]
    refine nested_listed (by decide) (by omega) indent (fun more => ?_) (by omega)
      fun i hi hlength rest hrest => ?_
    · obtain ⟨c, cs, hcs, hblank, hc, -⟩ := exists_head (hr j mem_cons_self) (indent + 1)
      refine ⟨c, cs ++ more, ?_, hc⟩
      rw [String.toList_append, append_assoc, skipBlanks_append (isBlank_indentation _), hcs]
      exact skipBlanks_cons hblank _
    · have hdeep := nesting_item hi
      rw [String.toList_append, length_append] at hlength
      rw [String.toList_append, append_assoc,
        value_of_skipBlanks (skipBlanks_append (isBlank_indentation _) _)]
      exact ih i hi _ _ _ _ (hr i hi) (by omega) (by omega) hrest

lemma toList_member (s : String) (j : Json) :
    (indentation indent ++ quote (.ofString s) ++ ": " ++ pretty indent j).toList =
      (indentation indent).toList ++
        ((quote (.ofString s)).toList ++ ':' :: ' ' :: (pretty indent j).toList) := by
  simp

lemma keyed_member {indent : Nat}
    (hvalue : value fuel depth ((pretty indent j).toList ++ rest) = .ok (j, rest)) :
    keyed (value fuel depth) ((indentation indent).toList ++ ((quote (.ofString s)).toList ++
        ':' :: ' ' :: ((pretty indent j).toList ++ rest))) = .ok ((.ofString s, j), rest) := by
  obtain ⟨body, hquote, hbody⟩ :=
    stringBody_quote s (':' :: ' ' :: ((pretty indent j).toList ++ rest))
  have hblank : skipBlanks (' ' :: ((pretty indent j).toList ++ rest)) =
      skipBlanks ((pretty indent j).toList ++ rest) := by simp [skipBlanks, isBlank]
  rw [keyed, skipBlanks_append (isBlank_indentation _), hquote, skipBlanks_cons rfl]
  simp only [hbody]
  rw [skipBlanks_cons rfl]
  simp only [value_of_skipBlanks hblank, hvalue]
  rfl

lemma readsBack_object (ms : List (Text × Json)) (ih : ∀ m ∈ ms, ReadsBack m.2) :
    ReadsBack (.object ms) := by
  intro indent fuel depth rest hr hfuel hdepth _
  rw [nesting, nestingMembers_eq] at hdepth
  have hr := readableMembers_iff.mp hr
  cases ms with
  | nil =>
    rw [(toList_pretty_nil indent).2] at hfuel ⊢
    obtain ⟨fuel, rfl⟩ : ∃ n, fuel = n + 1 := ⟨fuel - 1, by simp at hfuel; omega⟩
    simp [value, nested, skipBlanks, isBlank, show ¬ maxDepth ≤ depth by omega]
  | cons m ms =>
    rw [toList_pretty_object, prettyMembers_eq] at hfuel ⊢
    simp only [length_append, length_cons, length_nil] at hfuel
    obtain _ | fuel := fuel
    · omega
    simp only [append_assoc, cons_append, nil_append]
    rw [value, skipBlanks_cons rfl]
    refine nested_listed (by decide) (by omega) indent (fun more => ?_) (by omega) ?_
    · obtain ⟨s, hs⟩ := (hr m mem_cons_self).1
      rw [hs, toList_member, toList_quote, append_assoc,
        skipBlanks_append (isBlank_indentation _)]
      exact ⟨'"', _, skipBlanks_cons rfl _, by decide⟩
    · rintro ⟨k, j⟩ hi hlength rest hrest
      obtain ⟨⟨s, rfl⟩, hj⟩ := hr _ hi
      have hdeep := nesting_item (mem_map_of_mem (f := Prod.snd) hi)
      rw [toList_member] at hlength ⊢
      simp only [length_append, length_cons] at hlength
      simp only [append_assoc, cons_append]
      exact keyed_member s (ih _ hi _ _ _ _ hj (by dsimp only; omega) (by omega) hrest)

lemma readsBack (j : Json) : ReadsBack j := by
  induction j using inductOn with
  | null =>
    intro indent fuel depth rest _ hfuel _ _
    rw [toList_pretty_null] at hfuel ⊢
    obtain ⟨fuel, rfl⟩ : ∃ n, fuel = n + 1 := ⟨fuel - 1, by simp at hfuel; omega⟩
    simp [value, skipBlanks, isBlank, word, Except.map]
  | bool b =>
    intro indent fuel depth rest _ hfuel _ _
    rw [toList_pretty_bool] at hfuel ⊢
    cases b <;>
    · obtain ⟨fuel, rfl⟩ : ∃ n, fuel = n + 1 := ⟨fuel - 1, by simp at hfuel; omega⟩
      simp [value, skipBlanks, isBlank, word, Except.map]
  | number t =>
    intro indent fuel depth rest hr hfuel _ hrest
    exact value_numeral hr hfuel depth hrest
  | string t =>
    intro indent fuel depth rest hr hfuel _ _
    obtain ⟨s, rfl⟩ := hr
    rw [pretty] at hfuel ⊢
    obtain ⟨body, hquote, hbody⟩ := stringBody_quote s rest
    rw [toList_quote] at hfuel
    obtain ⟨fuel, rfl⟩ : ∃ n, fuel = n + 1 := ⟨fuel - 1, by simp at hfuel; omega⟩
    rw [hquote, value, skipBlanks_cons rfl]
    simp [hbody, Except.map]
  | array js ih => exact readsBack_array js ih
  | object ms ih => exact readsBack_object ms ih

/-- A document of one value with the end of its line. -/
lemma read_pretty (h : j.Readable) (hdepth : j.nesting ≤ maxDepth) :
    read (pretty 0 j ++ "\n") = .ok j := by
  have hvalue := readsBack j 0 ((pretty 0 j ++ "\n").length + 1) 0 ['\n'] h
    (by rw [← String.length_toList, String.toList_append, length_append]; omega) (by omega)
    ⟨'\n', [], rfl, .inr rfl⟩
  rw [read, String.toList_append]
  exact congrArg (Except.map Prod.fst) hvalue

end ReactiveModel.Json
