import Mathlib.Data.List.Forall2
import Mathlib.Tactic.Ring
import ReactiveModel.Description.Document
import ReactiveModel.Proofs.Drafts

/-! What is packed is read back. Each reader takes exactly the bytes that were written, whatever
follows them. Lengths that fit into four bytes can be said, and no others can be read. -/

namespace ReactiveModel.Pack

open List

variable {α β : Type} {r : Unpacking α} {a : α} {bs : List UInt8} {n code k low high : Nat}

/-- A reader takes some bytes, whatever follows them, and gives a value. -/
def Reads (r : Unpacking α) (bs : List UInt8) (a : α) : Prop :=
  ∀ rest, r (bs ++ rest) = .ok (a, rest)

lemma reads_pure (a : α) : Reads (pure a) [] a := fun _ => rfl

lemma Reads.bind {k : α → Unpacking β} {s t : List UInt8} {b : β} (h : Reads r s a)
    (h' : Reads (k a) t b) : Reads (r >>= k) (s ++ t) b := by
  intro rest
  have hfirst := h (t ++ rest)
  rw [← append_assoc] at hfirst
  simp only [Bind.bind, StateT.bind, hfirst, Except.bind]
  exact h' rest

lemma Reads.map (h : Reads r bs a) (f : α → β) : Reads (do return f (← r)) bs (f a) := by
  have hread := h.bind (k := fun a => pure (f a)) (reads_pure (f a))
  rwa [append_nil] at hread

lemma reads_byte (b : UInt8) : Reads byte [b] b.toNat := fun _ => rfl

lemma reads_bytes (h : bs.length = n) : Reads (bytes n) bs bs := by
  subst h
  intro rest
  simp [bytes]

/-! Numbers. -/

lemma length_bytesOf (w n : Nat) : (bytesOf w n).length = n := by
  induction n with
  | zero => rfl
  | succ n ih => simp [bytesOf, ih]

lemma foldl_bytesOf (w n a : Nat) :
    (bytesOf w n).foldl (fun a b => a * 256 + b.toNat) a = a * 256 ^ n + w % 256 ^ n := by
  induction n generalizing a with
  | zero => simp [bytesOf, Nat.mod_one]
  | succ n ih =>
    have hbyte : (UInt8.ofNat (w / Nat.pow 256 n)).toNat = w / 256 ^ n % 256 := by
      simp [UInt8.toNat_ofNat']
    rw [bytesOf, foldl_cons, ih, hbyte, Nat.mod_pow_succ]
    ring

lemma reads_word {w : Nat} (h : w < 256 ^ n) : Reads (word n) (bytesOf w n) w := by
  have hread := (reads_bytes (length_bytesOf w n)).map fun bs =>
    bs.foldl (fun a (b : UInt8) => a * 256 + b.toNat) 0
  rw [foldl_bytesOf, Nat.zero_mul, Nat.zero_add, Nat.mod_eq_of_lt h] at hread
  exact hread

lemma reads_real (x : Binary64) : Reads real (packReal x) x := by
  have hbits : x.bits.toNat < 256 ^ 8 := x.bits.toNat_lt
  have hread := (reads_word hbits).map fun w => (⟨UInt64.ofNat w⟩ : Binary64)
  rw [UInt64.ofNat_toNat] at hread
  exact (reads_byte 0xcb).bind hread

/-! Lengths. -/

/-- Lengths are below what has no place in four bytes. -/
def lengthLimit : Nat := 4294967296

def mapHead (n : Nat) : List UInt8 :=
  if n < 16 then [UInt8.ofNat (0x80 + n)]
  else if n < 65536 then 0xde :: bytesOf n 2
  else 0xdf :: bytesOf n 4

def arrayHead (n : Nat) : List UInt8 :=
  if n < 16 then [UInt8.ofNat (0x90 + n)]
  else if n < 65536 then 0xdc :: bytesOf n 2
  else 0xdd :: bytesOf n 4

def textHead (n : Nat) : List UInt8 :=
  if n < 32 then [UInt8.ofNat (0xa0 + n)]
  else if n < 256 then 0xd9 :: bytesOf n 1
  else if n < 65536 then 0xda :: bytesOf n 2
  else 0xdb :: bytesOf n 4

/-- Whether a value that starts with a code is a map. -/
def isMapCode (code : Nat) : Bool :=
  (0x80 ≤ code && code ≤ 0x8f) || code == 0xde || code == 0xdf

lemma isNil_of_isMapCode (h : isMapCode code) : (code == 0xc0) = false := by
  refine beq_eq_false_iff_ne.mpr ?_
  rintro rfl
  exact Bool.noConfusion h

lemma isExtension_of_isMapCode (h : isMapCode code) : isExtension code = false := by
  simp only [isMapCode, Bool.or_eq_true, Bool.and_eq_true, decide_eq_true_eq, beq_iff_eq] at h
  simp only [isExtension, Bool.or_eq_false_iff, Bool.and_eq_false_iff, decide_eq_false_iff_not]
  omega

lemma toNat_ofNat_add {base : Nat} (h : base + n < 256) :
    (UInt8.ofNat (base + n)).toNat = base + n := by
  rw [UInt8.toNat_ofNat', Nat.mod_eq_of_lt h]

lemma reads_short (widths : List (Nat × Nat)) (h : low + n ≤ high) (hhigh : high < 0xc0) :
    Reads (lengthBy low high widths (low + n)) [] (some n) := by
  have hnil : low + n ≠ 0xc0 := by omega
  have hlength : lengthBy low high widths (low + n) = pure (some n) := by simp [lengthBy, hnil, h]
  exact hlength ▸ reads_pure _

/-- The head of a map starts with the code of a map, and a map of any size that can be said has its
size there. -/
lemma exists_mapHead (n : Nat) : ∃ code more, mapHead n = code :: more ∧
    isMapCode code.toNat = true ∧
    (n < lengthLimit → Reads (mapLength code.toNat) more (some n)) := by
  unfold mapHead
  split
  · refine ⟨_, _, rfl, ?_, fun _ => ?_⟩ <;> rw [toNat_ofNat_add (by omega)]
    · simp [isMapCode]
      omega
    · exact reads_short _ (by omega) (by decide)
  · split
    · rename_i hn
      exact ⟨_, _, rfl, rfl, fun _ => (reads_word hn).map some⟩
    · exact ⟨_, _, rfl, rfl, fun hn => (reads_word hn).map some⟩

lemma exists_arrayHead (h : n < lengthLimit) :
    ∃ code more, arrayHead n = code :: more ∧ Reads (arrayLength code.toNat) more (some n) := by
  unfold arrayHead
  split
  · refine ⟨_, _, rfl, ?_⟩
    rw [toNat_ofNat_add (by omega)]
    exact reads_short _ (by omega) (by decide)
  · split
    · rename_i hn
      exact ⟨_, _, rfl, (reads_word hn).map some⟩
    · exact ⟨_, _, rfl, (reads_word h).map some⟩

lemma exists_textHead (n : Nat) : ∃ code more, textHead n = code :: more ∧
    (code.toNat == 0xc0) = false ∧
    (n < lengthLimit → Reads (stringLength code.toNat) more (some n)) := by
  unfold textHead
  split
  · refine ⟨_, _, rfl, ?_, fun _ => ?_⟩ <;> rw [toNat_ofNat_add (by omega)]
    · exact beq_eq_false_iff_ne.mpr (by omega)
    · exact reads_short _ (by omega) (by decide)
  · split
    · rename_i hn
      exact ⟨_, _, rfl, rfl, fun _ => (reads_word hn).map some⟩
    · split
      · rename_i hn
        exact ⟨_, _, rfl, rfl, fun _ => (reads_word hn).map some⟩
      · exact ⟨_, _, rfl, rfl, fun h => (reads_word h).map some⟩

/-! Nothing longer can be read. -/

lemma foldl_bytes_lt (bs : List UInt8) (a : Nat) :
    bs.foldl (fun a b => a * 256 + b.toNat) a < (a + 1) * 256 ^ bs.length := by
  induction bs generalizing a with
  | nil => simp
  | cons b bs ih =>
    have hb : b.toNat < 256 := b.toNat_lt
    calc
      _ < (a * 256 + b.toNat + 1) * 256 ^ bs.length := ih _
      _ ≤ (a + 1) * 256 * 256 ^ bs.length := Nat.mul_le_mul_right _ (by omega)
      _ = (a + 1) * 256 ^ (b :: bs).length := by rw [length_cons]; ring

/-- A reader takes no length that is too long to be said. -/
def Limited (r : Unpacking (Option Nat)) : Prop :=
  ∀ bs n rest, r bs = .ok (some n, rest) → n < lengthLimit

lemma limited_none : Limited (pure none) := nofun

lemma limited_throw (e : Stop) : Limited (throw e) := nofun

lemma limited_pure (h : n < lengthLimit) : Limited (pure (some n)) := by
  rintro bs _ rest ⟨⟩
  exact h

lemma length_of_bytes {taken rest : List UInt8} (h : bytes k bs = .ok (taken, rest)) :
    taken.length = k := by
  simp only [bytes] at h
  split at h
  · cases h
    exact beq_iff_eq.1 ‹_›
  · cases h

lemma limited_word (hk : 256 ^ k ≤ lengthLimit) : Limited (do return some (← word k)) := by
  intro bs n rest h
  simp only [word, bind_assoc, pure_bind] at h
  simp only [Bind.bind, StateT.bind, Except.bind] at h
  split at h
  · cases h
  · rename_i taken htaken
    cases h
    have hlt := foldl_bytes_lt taken.1 0
    rw [length_of_bytes htaken, Nat.one_mul] at hlt
    exact hlt.trans_le hk

lemma limited_lengthBy {widths : List (Nat × Nat)} (hhigh : high < lengthLimit)
    (hwidths : ∀ c ∈ widths, 256 ^ c.2 ≤ lengthLimit) (code : Nat) :
    Limited (lengthBy low high widths code) := by
  unfold lengthBy
  split
  · exact limited_none
  split
  · rename_i h
    simp only [Bool.and_eq_true, decide_eq_true_eq] at h
    exact limited_pure (by omega)
  cases h : widths.lookup code with
  | some k =>
    obtain ⟨before, after, rfl, -⟩ := lookup_eq_some_iff.mp h
    exact limited_word (hwidths (code, k) (by simp))
  | none => exact limited_throw _

lemma limited_mapLength : ∀ code, Limited (mapLength code) :=
  limited_lengthBy (by decide) (by decide)

lemma limited_arrayLength : ∀ code, Limited (arrayLength code) :=
  limited_lengthBy (by decide) (by decide)

lemma limited_stringLength : ∀ code, Limited (stringLength code) :=
  limited_lengthBy (by decide) (by decide)

end ReactiveModel.Pack

namespace ReactiveModel

/-- A text whose length can be said. -/
def Text.Fits (t : Text) : Prop := t.bytes.length < Pack.lengthLimit

instance (t : Text) : Decidable t.Fits := inferInstanceAs (Decidable (_ < _))

namespace Pack

variable {α β : Type} {item : α → Unpacking α} {bss : List (List UInt8)} {new a : α} {as : List α}
  {bs : List UInt8}

lemma exists_packText (t : Text) : ∃ code more, packText t = code :: (more ++ t.bytes) ∧
    (code.toNat == 0xc0) = false ∧
    (t.Fits → Reads (stringLength code.toNat) more (some t.bytes.length)) := by
  obtain ⟨code, more, hhead, hcode, hlength⟩ := exists_textHead t.bytes.length
  exact ⟨code, more, congrArg (· ++ t.bytes) hhead, hcode, hlength⟩

lemma reads_text {t : Text} (h : t.Fits) : Reads text (packText t) t := by
  obtain ⟨code, more, hpack, -, hlength⟩ := exists_packText t
  have hbytes := (reads_bytes (Eq.refl t.bytes.length)).map fun bs => (⟨bs⟩ : Text)
  rw [hpack]
  exact (reads_byte code).bind ((hlength h).bind hbytes)

/-! Entries of a map. -/

/-- A field that its own name means. -/
structure IsField (fields : List String) (k : String) : Prop where
  found : fields.find? (fun (f : String) => (f : Text) == (k : Text)) = some k
  fits : (k : Text).Fits

instance (fields : List String) (k : String) : Decidable (IsField fields k) :=
  decidable_of_iff (_ ∧ _) ⟨fun h => ⟨h.1, h.2⟩, fun h => ⟨h.1, h.2⟩⟩

section

variable (fields : List String) (set : String → α → Unpacking α) {old new : α} {k : String}

/-- What one entry of a record does. -/
def enter (a : α) : Unpacking α := do
  let key ← text
  match fields.find? fun (f : String) => f == key with
  | some f => set f a
  | none =>
    skipValue
    return a

/-- The bytes of entries. -/
def entryBytes (es : List (Text × List UInt8)) : List UInt8 :=
  es.flatMap fun (k, v) => packText k ++ v

/-- Entries, of which there are only so many, turn one value into another. -/
structure Enters (most : Nat) (es : List (Text × List UInt8)) (old new : α) : Prop where
  length : es.length ≤ most
  reads : Reads (times (enter fields set) es.length old) (entryBytes es) new

variable {fields set} {m n : Nat} {a b c : α} {es : List (Text × List UInt8)} {t : Text}

/-- Steps that are repeated take one piece of the bytes after the other. -/
lemma Reads.times {step : α → Unpacking α} {bs cs : List UInt8} (h : Reads (times step m a) bs b)
    (h' : Reads (Pack.times step n b) cs c) : Reads (Pack.times step (m + n) a) (bs ++ cs) c := by
  have hsplit : Pack.times step (m + n) a = Pack.times step m a >>= Pack.times step n := by
    clear h h'
    induction m generalizing a with
    | zero => simp [Pack.times]
    | succ m ih =>
      rw [Nat.succ_add]
      simp only [Pack.times, bind_assoc]
      exact congrArg _ (funext fun _ => ih)
  rw [hsplit]
  exact h.bind h'

lemma enters_nil (n : Nat) (a : α) : Enters fields set n [] a a := ⟨Nat.zero_le n, reads_pure a⟩

lemma Enters.append {es' : List (Text × List UInt8)} (h : Enters fields set m es a b)
    (h' : Enters fields set n es' b c) : Enters fields set (m + n) (es ++ es') a c := by
  have hread := h.reads.times h'.reads
  rw [← List.length_append, entryBytes, entryBytes, ← List.flatMap_append] at hread
  exact ⟨List.length_append ▸ Nat.add_le_add h.length h'.length, hread⟩

section

variable (hk : IsField fields k)

include hk

lemma enters_entry {v : List UInt8} (h : Reads (set k old) v new) :
    Enters fields set 1 (entry k v) old new := by
  have hstep : Reads (enter fields set old) (packText k ++ v) new := by
    refine (reads_text hk.fits).bind ?_
    simp only [hk.found]
    exact h
  have hread := hstep.bind (reads_pure new)
  exact ⟨Nat.le_refl 1, by simpa [entryBytes, entry, times] using hread⟩

lemma enters_named (h : Reads (set k old) (packText t) new) :
    Enters fields set 1 (named k t) old new :=
  enters_entry hk h

lemma enters_named? (h : Reads (set k old) (packText t) new) (hempty : t = "" → old = new) :
    Enters fields set 1 (named? k t) old new := by
  unfold named?
  split
  case isTrue ht => exact hempty (beq_iff_eq.1 ht) ▸ enters_nil 1 old
  case isFalse => exact enters_named hk h

lemma enters_list? {item : β → List UInt8} {bs : List β}
    (h : Reads (set k old) (packArray (bs.map item)) new) (hempty : bs = [] → old = new) :
    Enters fields set 1 (list? k item bs) old new := by
  unfold list?
  split
  case isTrue hbs => exact hempty (List.isEmpty_iff.1 hbs) ▸ enters_nil 1 old
  case isFalse => exact enters_entry hk h

lemma enters_some? {item : β → List UInt8} {b : Option β}
    (h : ∀ x, b = some x → Reads (set k old) (item x) new) (hnone : b = none → old = new) :
    Enters fields set 1 (some? k item b) old new := by
  cases b with
  | none => exact hnone rfl ▸ enters_nil 1 old
  | some x => exact enters_entry hk (h x rfl)

end

lemma exists_packMap (es : List (Text × List UInt8)) : ∃ code more,
    packMap es = code :: (more ++ entryBytes es) ∧ isMapCode code.toNat = true ∧
    (es.length < lengthLimit → Reads (mapLength code.toNat) more (some es.length)) := by
  obtain ⟨code, more, hhead, hcode, hlength⟩ := exists_mapHead es.length
  exact ⟨code, more, congrArg (· ++ entryBytes es) hhead, hcode, hlength⟩

lemma Enters.record (h : Enters fields set n es old new) (hn : n < lengthLimit) (zero : α) :
    Reads (record fields zero set old) (packMap es) new := by
  obtain ⟨code, more, hpack, hcode, hlength⟩ := exists_packMap es
  have harray : ((0x90 ≤ code.toNat && code.toNat ≤ 0x9f) || code.toNat == 0xdc ||
      code.toNat == 0xdd) = false := by
    simp only [isMapCode, Bool.or_eq_true, Bool.and_eq_true, decide_eq_true_eq, beq_iff_eq] at hcode
    simp only [Bool.or_eq_false_iff, Bool.and_eq_false_iff, decide_eq_false_iff_not,
      beq_eq_false_iff_ne]
    omega
  rw [hpack]
  refine (reads_byte code).bind ?_
  simp only [harray, Bool.false_eq_true, if_false]
  exact (hlength (Nat.lt_of_le_of_lt h.length hn)).bind h.reads

end

/-! Lists. -/

lemma reads_listItems (h : List.Forall₂ (Reads (item new)) bss as) :
    Reads (listItems item new bss.length []) bss.flatten as := by
  induction h with
  | nil => exact reads_pure []
  | cons ha _ ih => exact ha.bind (ih.map _)

lemma reads_list (hbss : bss.length < lengthLimit) (h : List.Forall₂ (Reads (item new)) bss as) :
    Reads (list item new {}) (packArray bss) (some ⟨as, []⟩) := by
  obtain ⟨code, more, hhead, hlength⟩ := exists_arrayHead hbss
  have hpack : packArray bss = code :: (more ++ bss.flatten) := congrArg (· ++ bss.flatten) hhead
  have hrenew : Draft.renew {} as = ⟨as, []⟩ := by simp [Draft.renew, Draft.places]
  have hread := (reads_listItems h).map fun items => some (Draft.renew {} items)
  rw [hrenew] at hread
  rw [hpack]
  exact (reads_byte code).bind (hlength.bind hread)

lemma reads_plainList (hbss : bss.length < lengthLimit)
    (h : List.Forall₂ (Reads (item new)) bss as) :
    Reads (plainList item new {}) (packArray bss) ⟨as, []⟩ :=
  (reads_list hbss h).map fun d => d.getD {}

lemma forall₂_reads {pack : β → List UInt8} {g : β → α} {bs : List β}
    (h : ∀ b ∈ bs, Reads (item new) (pack b) (g b)) :
    List.Forall₂ (Reads (item new)) (bs.map pack) (bs.map g) := by
  rw [List.forall₂_map_left_iff, List.forall₂_map_right_iff]
  exact List.forall₂_same.mpr h

/-! What may be nil. -/

/-- Bytes that start something that is not nil. -/
def Starts (bs : List UInt8) : Prop := ∃ b cs, bs = b :: cs ∧ (b.toNat == 0xc0) = false

lemma starts_packMap (es : List (Text × List UInt8)) : Starts (packMap es) := by
  obtain ⟨code, more, hpack, hcode, -⟩ := exists_packMap es
  exact ⟨code, _, hpack, isNil_of_isMapCode hcode⟩

lemma starts_packText (t : Text) : Starts (packText t) := by
  obtain ⟨code, more, hpack, hcode, -⟩ := exists_packText t
  exact ⟨code, _, hpack, hcode⟩

/-- One way to go on at nil, and another one elsewhere. -/
def atNil (r s : Unpacking α) : Unpacking α := do
  match (← get).head? with
  | some 0xc0 => r
  | _ => s

lemma reads_atNil {r s : Unpacking α} (hbs : Starts bs) (h : Reads s bs a) :
    Reads (atNil r s) bs a := by
  obtain ⟨b, cs, rfl, hb⟩ := hbs
  intro rest
  have hne : some b ≠ some 0xc0 := by
    rintro ⟨⟩
    exact Bool.noConfusion hb
  have hhead : (b :: cs ++ rest).head? = some b := rfl
  simp only [atNil, Bind.bind, StateT.bind, get, getThe, MonadStateOf.get, StateT.get, Except.bind,
    pure, Except.pure, hhead]
  exact h rest

lemma reads_optional_some (hbs : Starts bs) (h : Reads (item new) bs a) :
    Reads (optional item new none) bs (some a) :=
  reads_atNil hbs (h.map some)

lemma reads_optional_none (item : α → Unpacking α) (new : α) :
    Reads (optional item new none) nil none := fun _ => rfl

end Pack

end ReactiveModel
