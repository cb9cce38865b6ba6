import Mathlib.Data.List.Basic
import ReactiveModel.Text.Basic

/-! Text of characters in UTF-8: what is encoded is read back, character by character. -/

namespace ReactiveModel.Text

open List Option

variable {n fuel : Nat} {bs : List UInt8} {c : Char} {s : String} {t : Text}

lemma toNat_ofNat (h : n < 256) : (UInt8.ofNat n).toNat = n :=
  UInt8.toNat_ofNat_of_lt' h

lemma not_surrogate (c : Char) : ¬ (0xD800 ≤ c.toNat ∧ c.toNat < 0xE000) := by
  have h := c.valid
  have hlow : ∀ n : Nat, n.isValidChar → ¬ (0xD800 ≤ n ∧ n < 0xE000) := by
    rintro n (h | h) <;> omega
  exact hlow _ h

lemma toNat_lt (c : Char) : c.toNat < 0x110000 := by
  have hlow : ∀ n : Nat, n.isValidChar → n < 0x110000 := by
    rintro n (h | h) <;> omega
  exact hlow _ c.valid

/-- Continuation bytes give the number that they were made from. -/
lemma continuation_append (h : ∀ b ∈ bs, 0x80 ≤ b.toNat ∧ b.toNat < 0xC0) (rest : List UInt8) :
    continuation bs.length (bs ++ rest) =
      some (bs.foldl (fun a b => a * 64 + (b.toNat - 0x80)) 0) := by
  have hall : bs.all (fun b => 0x80 ≤ b.toNat && b.toNat < 0xC0) = true := by
    simpa using h
  simp [continuation, hall]

/-- The bytes `encoding` are a lead byte with the continuation bytes it announces, and they decode
to `c`. -/
def DecodesTo (c : Char) (encoding : List UInt8) : Prop :=
  ∃ lead bs, encoding = lead :: bs ∧ ∀ rest, utf8Char? lead.toNat (bs ++ rest) = some (c, bs.length)

/-- A lead and its continuation bytes give a character when their number is within the bounds. -/
lemma decodesTo_of {lead low high : Nat} (ns : List Nat) (hlead : lead < 256)
    (hbounds : leadBounds lead = some (ns.length, low, high)) (hns : ∀ n ∈ ns, n < 64)
    (hvalue : (if ns.length == 0 then lead else lead % Nat.pow 2 (6 - ns.length)) *
      Nat.pow 64 ns.length + ns.foldl (fun a n => a * 64 + n) 0 = c.toNat)
    (hlow : low ≤ c.toNat) (hhigh : c.toNat ≤ high) :
    DecodesTo c (.ofNat lead :: ns.map fun n => .ofNat (n + 128)) := by
  have hs := not_surrogate c
  have hrange : (low ≤ c.toNat && c.toNat ≤ high && !(0xD800 ≤ c.toNat && c.toNat < 0xE000)) =
      true := by
    simp only [Bool.and_eq_true, decide_eq_true_eq, Bool.not_eq_true', Bool.and_eq_false_iff,
      decide_eq_false_iff_not]
    omega
  have hbyte {n : Nat} (hn : n ∈ ns) : (UInt8.ofNat (n + 128)).toNat = n + 128 := by
    have hlt := hns n hn
    exact toNat_ofNat (by omega)
  refine ⟨_, _, rfl, fun rest => ?_⟩
  have hrest : ∀ b ∈ ns.map fun n => UInt8.ofNat (n + 128), 0x80 ≤ b.toNat ∧ b.toNat < 0xC0 := by
    refine forall_mem_map.mpr fun n hn => ?_
    have hlt := hns n hn
    rw [hbyte hn]
    omega
  have hbytes := continuation_append hrest rest
  rw [foldl_map, foldl_ext _ (fun a n => a * 64 + n) 0 fun a n hn => by
    rw [hbyte hn, Nat.add_sub_cancel], length_map] at hbytes
  simp only [utf8Char?, toNat_ofNat hlead, hbounds, bind_eq_bind, bind_some, hbytes, hvalue,
    hrange, if_true, Char.ofNat_toNat, length_map]

/-- The encoding of a character decodes to it, in each of the four lengths. -/
lemma decodesTo_utf8EncodeChar (c : Char) : DecodesTo c (String.utf8EncodeChar c) := by
  have hval : c.val.toNat = c.toNat := rfl
  rw [String.utf8EncodeChar.eq_1, hval]
  have hlt := toNat_lt c
  by_cases h₁ : c.toNat ≤ 127
  · rw [if_pos h₁]
    exact decodesTo_of [] (by omega) (if_pos (by omega)) (by simp) (by simp) (Nat.zero_le _) h₁
  rw [if_neg h₁]
  by_cases h₂ : c.toNat ≤ 2047
  · rw [if_pos h₂]
    refine decodesTo_of [c.toNat % 64] (by omega) ?_ (by simp; omega) ?_ (by omega : 0x80 ≤ _) h₂
    · simp only [leadBounds, Bool.and_eq_true, decide_eq_true_eq]
      rw [if_neg (by omega), if_pos (by omega)]
      rfl
    · change (c.toNat / 64 % 32 + 192) % 32 * 64 + (0 * 64 + c.toNat % 64) = _
      omega
  rw [if_neg h₂]
  by_cases h₃ : c.toNat ≤ 65535
  · rw [if_pos h₃]
    refine decodesTo_of [c.toNat / 64 % 64, c.toNat % 64] (by omega) ?_ (by simp; omega) ?_
      (by omega : 0x800 ≤ _) h₃
    · simp only [leadBounds, Bool.and_eq_true, decide_eq_true_eq]
      rw [if_neg (by omega), if_neg (by omega), if_pos (by omega)]
      rfl
    · change (c.toNat / 4096 % 16 + 224) % 16 * 4096 +
        ((0 * 64 + c.toNat / 64 % 64) * 64 + c.toNat % 64) = _
      omega
  · rw [if_neg h₃]
    refine decodesTo_of [c.toNat / 4096 % 64, c.toNat / 64 % 64, c.toNat % 64] (by omega) ?_
      (by simp; omega) ?_ (by omega : 0x10000 ≤ _) (by omega : _ ≤ 0x10FFFF)
    · simp only [leadBounds, Bool.and_eq_true, decide_eq_true_eq]
      rw [if_neg (by omega), if_neg (by omega), if_neg (by omega), if_pos (by omega)]
      rfl
    · simp only [length_cons, length_nil]
      change (c.toNat / 262144 % 8 + 240) % 8 * 262144 +
        (((0 * 64 + c.toNat / 4096 % 64) * 64 + c.toNat / 64 % 64) * 64 + c.toNat % 64) = _
      omega

variable (cs : List Char)

/-- The pieces of encoded characters are these characters, whatever follows them. -/
lemma piecesOf_append (rest : List UInt8) (fuel : Nat) :
    piecesOf (cs.length + fuel) (cs.flatMap String.utf8EncodeChar ++ rest) =
      cs.map .char ++ piecesOf fuel rest := by
  induction cs with
  | nil =>
    rw [length_nil, Nat.zero_add]
    rfl
  | cons c cs ih =>
    obtain ⟨lead, bs, henc, hchar⟩ := decodesTo_utf8EncodeChar c
    rw [flatMap_cons, henc, length_cons, Nat.add_right_comm]
    simp only [cons_append, append_assoc]
    rw [piecesOf, hchar]
    simp only [drop_left, map_cons, cons_append]
    rw [ih]

lemma piecesOf_congr {m : Nat} (hn : bs.length ≤ n) (hm : bs.length ≤ m) :
    piecesOf n bs = piecesOf m bs := by
  induction n generalizing m bs with
  | zero =>
    rw [length_eq_zero_iff.mp (Nat.le_zero.mp hn)]
    cases m <;> rfl
  | succ n ih =>
    cases bs with
    | nil => cases m <;> rfl
    | cons b bs =>
      obtain _ | m := m
      · cases hm
      rw [length_cons, Nat.add_le_add_iff_right] at hn hm
      have hdrop (k : Nat) : (bs.drop k).length ≤ bs.length := by
        rw [length_drop]
        exact Nat.sub_le _ _
      rw [piecesOf, piecesOf]
      split
      · rw [ih (Nat.le_trans (hdrop _) hn) (Nat.le_trans (hdrop _) hm)]
      · rw [ih hn hm]

lemma pieces_append (s : String) (t : Text) :
    (ofString s ++ t).pieces = s.toList.map .char ++ t.pieces := by
  have hmore : t.bytes.length ≤ (ofString s ++ t).bytes.length := by
    change _ ≤ ((ofString s).bytes ++ t.bytes).length
    rw [length_append]
    exact Nat.le_add_left _ _
  rw [pieces, piecesOf_congr (Nat.le_refl _) (Nat.le_add_left _ s.toList.length), pieces,
    piecesOf_congr (Nat.le_refl _) hmore]
  exact piecesOf_append s.toList t.bytes _

lemma piecesOf_encoded (h : (cs.flatMap String.utf8EncodeChar).length ≤ fuel) :
    piecesOf fuel (cs.flatMap String.utf8EncodeChar) = cs.map .char := by
  have hnil (fuel : Nat) : piecesOf fuel [] = [] := by cases fuel <;> rfl
  have happend := piecesOf_append cs [] fuel
  rw [append_nil, hnil, append_nil] at happend
  rw [piecesOf_congr h (Nat.le_trans h (Nat.le_add_left _ _)), happend]

lemma pieces_ofString (s : String) : (ofString s).pieces = s.toList.map .char :=
  piecesOf_encoded s.toList (Nat.le_refl _)

lemma ofUtf8_encoded (s : String) : ofUtf8 (s.toList.flatMap String.utf8EncodeChar) = s := by
  rw [ofUtf8, piecesOf_encoded s.toList (Nat.le_refl _), List.map_map]
  exact (congrArg String.ofList (List.map_id _)).trans String.ofList_toList

lemma shown_ofString (s : String) : (ofString s).shown = s := ofUtf8_encoded s

lemma ofString_inj {t : String} : ofString s = ofString t ↔ s = t := by
  refine ⟨fun h => ?_, congrArg ofString⟩
  rw [← shown_ofString s, h, shown_ofString]

lemma ofString_append (a b : String) : ofString (a ++ b) = ofString a ++ ofString b := by
  simp only [ofString, String.toList_append, flatMap_append]
  rfl

lemma mapM_char? : (cs.map Piece.char).mapM Piece.char? = some cs := by
  induction cs with
  | nil => rfl
  | cons c cs ih => simp [mapM_cons, ih, Piece.char?]

lemma toString?_ofString (s : String) : (ofString s).toString? = some s := by
  unfold toString? ofUtf8? ofString
  rw [piecesOf_encoded s.toList (Nat.le_refl _), mapM_char?]
  simp

lemma pieces_of_toString? (h : t.toString? = some s) : t.pieces = s.toList.map .char := by
  obtain ⟨cs, hcs, rfl⟩ := map_eq_some_iff.mp h
  have hpieces : ∀ ps : List Piece, ∀ cs, ps.mapM Piece.char? = some cs → ps = cs.map .char := by
    intro ps
    induction ps with
    | nil => simp
    | cons p ps ih =>
      intro cs hps
      simp only [mapM_cons, bind_eq_bind, bind_eq_some_iff,
        Option.pure_def, some.injEq] at hps
      obtain ⟨c, hc, cs, hcs, rfl⟩ := hps
      cases p with
      | char d => cases hc; rw [map_cons, ← ih cs hcs]
      | stray b => nomatch hc
  rw [String.toList_ofList]
  exact hpieces _ cs hcs

lemma shown_of_toString? (h : t.toString? = some s) : t.shown = s := by
  have hpieces : piecesOf t.bytes.length t.bytes = s.toList.map .char := pieces_of_toString? h
  rw [shown, ofUtf8, hpieces, List.map_map]
  exact (congrArg String.ofList (List.map_id _)).trans String.ofList_toList

/-- Characters at the front of a text are at the front of its string. -/
lemma prefix_of_toString? {out : String} (h : (ofString s ++ t).toString? = some out) :
    s.toList <+: out.toList := by
  obtain ⟨cs, hpieces, rfl⟩ := map_eq_some_iff.mp h
  change (ofString s ++ t).pieces.mapM Piece.char? = some cs at hpieces
  rw [pieces_append] at hpieces
  rw [mapM_append, mapM_char?, bind_eq_bind, bind_some] at hpieces
  obtain ⟨rest, -, hrest⟩ := bind_eq_some_iff.mp hpieces
  cases hrest
  rw [String.toList_ofList]
  exact prefix_append _ _

lemma startsWith_ofString {p : String} :
    (ofString s).startsWith p = true ↔ p.toList <+: s.toList := by
  rw [startsWith, isPrefixOf_iff_prefix]
  constructor
  · rintro ⟨rest, hrest⟩
    refine prefix_of_toString? (t := ⟨rest⟩) ?_
    rw [← toString?_ofString s]
    exact congrArg (fun bs => toString? ⟨bs⟩) hrest
  · rintro ⟨rest, hrest⟩
    simp only [ofString, ← hrest, flatMap_append]
    exact prefix_append _ _

/-- A character of ASCII is a byte of its own. -/
lemma eq_of_mem_utf8EncodeChar {d : Char} (hd : d.toNat < 0x80)
    (h : .ofNat d.toNat ∈ String.utf8EncodeChar c) : c = d := by
  have htoNat {n : Nat} (hn : n < 256) (heq : UInt8.ofNat n = .ofNat d.toNat) : n = d.toNat := by
    rw [← toNat_ofNat hn, heq, toNat_ofNat (by omega)]
  -- bytes of longer encodings are greater
  have hlong (ns : List Nat) (hns : ∀ n ∈ ns, 128 ≤ n ∧ n < 256) :
      .ofNat d.toNat ∉ ns.map UInt8.ofNat := by
    intro hmem
    obtain ⟨n, hn, heq⟩ := mem_map.mp hmem
    have hbounds := hns n hn
    have hnat := htoNat hbounds.2 heq
    omega
  have hval : c.val.toNat = c.toNat := rfl
  rw [String.utf8EncodeChar.eq_1] at h
  split at h
  · exact Char.toNat_inj.mp (htoNat (by omega) (mem_singleton.mp h).symm)
  split at h
  · exact absurd h (hlong [c.toNat / 64 % 32 + 192, c.toNat % 64 + 128] (by simp; omega))
  split at h
  · exact absurd h (hlong [c.toNat / 4096 % 16 + 224, c.toNat / 64 % 64 + 128,
      c.toNat % 64 + 128] (by simp; omega))
  · exact absurd h (hlong [c.toNat / 262144 % 8 + 240, c.toNat / 4096 % 64 + 128,
      c.toNat / 64 % 64 + 128, c.toNat % 64 + 128] (by simp; omega))

lemma utf8EncodeChar_of_lt (h : c.toNat < 0x80) : String.utf8EncodeChar c = [.ofNat c.toNat] := by
  exact if_pos (Nat.le_of_lt_succ h)

lemma mem_bytes_ofString (h : c.toNat < 0x80) :
    .ofNat c.toNat ∈ (ofString s).bytes ↔ c ∈ s.toList := by
  unfold ofString
  rw [mem_flatMap]
  constructor
  · rintro ⟨d, hd, hmem⟩
    exact eq_of_mem_utf8EncodeChar h hmem ▸ hd
  · exact fun hc => ⟨c, hc, by simp [utf8EncodeChar_of_lt h]⟩

lemma hasAny_ofString {set : String} (hset : ∀ c ∈ set.toList, c.toNat < 0x80) :
    (ofString s).hasAny set = true ↔ ∃ c ∈ set.toList, c ∈ s.toList := by
  unfold hasAny
  rw [List.any_eq_true]
  constructor
  · rintro ⟨b, hb, hmem⟩
    obtain ⟨c, hc, hbyte⟩ := mem_flatMap.mp (contains_iff_mem.mp hmem)
    obtain rfl := mem_singleton.mp (utf8EncodeChar_of_lt (hset c hc) ▸ hbyte)
    exact ⟨c, hc, (mem_bytes_ofString (hset c hc)).mp hb⟩
  · rintro ⟨c, hc, hmem⟩
    exact ⟨_, (mem_bytes_ofString (hset c hc)).mpr hmem,
      contains_iff_mem.mpr ((mem_bytes_ofString (hset c hc)).mpr hc)⟩

lemma toList_loop (bs : ByteArray) (n i : Nat) (h : bs.size - i = n) (done : List UInt8) :
    ByteArray.toList.loop bs i done = done.reverse ++ bs.data.toList.drop i := by
  induction n generalizing i done with
  | zero =>
    have hi : bs.data.toList.length ≤ i := by
      exact Nat.le_of_sub_eq_zero h
    rw [ByteArray.toList.loop, if_neg (by omega), drop_of_length_le hi, append_nil]
  | succ n ih =>
    have hi : i < bs.data.toList.length := by
      change i < bs.data.size
      change bs.data.size - i = n + 1 at h
      omega
    have hget : bs.get! i = bs.data.toList[i] := by
      change bs.data[i]! = _
      simp [getElem!_pos bs.data i hi]
    rw [ByteArray.toList.loop, if_pos (by omega), ih (i + 1) (by omega), drop_eq_getElem_cons hi,
      hget]
    simp

lemma toUTF8_toList (s : String) : s.toUTF8.toList = s.toList.flatMap String.utf8EncodeChar := by
  rw [ByteArray.toList, toList_loop _ _ 0 rfl, String.toUTF8_eq_toByteArray,
    ← String.utf8Encode_toList,
    List.utf8Encode, toList_data_toByteArray]
  rfl

lemma ofUtf8_toUTF8 (s : String) : ofUtf8 s.toUTF8.toList = s := by
  rw [toUTF8_toList, ofUtf8_encoded]

/-- A character is taken from bytes that are its encoding. -/
lemma utf8EncodeChar_of_utf8Char? {b : UInt8} (h : utf8Char? b.toNat bs = some (c, n)) :
    String.utf8EncodeChar c = b :: bs.take n := by
  obtain ⟨⟨m, low, high⟩, hlead, h⟩ := bind_eq_some_iff.mp h
  obtain ⟨v, hv, h⟩ := bind_eq_some_iff.mp h
  simp only [ite_none_right_eq_some, Bool.and_eq_true, decide_eq_true_eq, Bool.not_eq_true',
    Bool.and_eq_false_iff, decide_eq_false_iff_not, some.injEq, Prod.mk.injEq] at h
  obtain ⟨hrange, hc, rfl⟩ := h
  simp only [continuation, ite_none_right_eq_some, Bool.and_eq_true, beq_iff_eq, List.all_eq_true,
    decide_eq_true_eq, some.injEq] at hv
  obtain ⟨⟨hlength, hbytes⟩, rfl⟩ := hv
  have hnat {w : Nat} (hw : w.isValidChar) (hc : Char.ofNat w = c) : c.val.toNat = w := by
    rw [← hc, Char.ofNat, dif_pos hw]
    rfl
  have hbyte {x : UInt8} {w : Nat} (hw : w = x.toNat) : UInt8.ofNat w = x := by
    rw [hw, UInt8.ofNat_toNat]
  unfold leadBounds at hlead
  simp only [Bool.and_eq_true, decide_eq_true_eq] at hlead
  generalize bs.take m = ts at hlength hbytes hrange hc ⊢
  -- the bounds of the lead tell how many bytes its character takes
  split_ifs at hlead with h₁ h₂ h₃ h₄ <;> cases hlead
  · obtain rfl := length_eq_zero_iff.mp hlength
    simp at hrange hc
    have hc := hnat (by omega) hc
    rw [String.utf8EncodeChar.eq_1, if_pos (by omega), hbyte hc]
  · obtain ⟨x, rfl⟩ := length_eq_one_iff.mp hlength
    simp at hrange hbytes hc
    have hc := hnat (by omega) hc
    rw [String.utf8EncodeChar.eq_1, if_neg (by omega), if_pos (by omega), @hbyte b _ (by omega),
      @hbyte x _ (by omega)]
  · obtain ⟨x, y, rfl⟩ := length_eq_two.mp hlength
    simp at hrange hbytes hc
    have hc := hnat (by omega) hc
    rw [String.utf8EncodeChar.eq_1, if_neg (by omega), if_neg (by omega), if_pos (by omega),
      @hbyte b _ (by omega), @hbyte x _ (by omega), @hbyte y _ (by omega)]
  · obtain ⟨x, y, z, rfl⟩ := length_eq_three.mp hlength
    simp at hrange hbytes hc
    have hc := hnat (by omega) hc
    rw [String.utf8EncodeChar.eq_1, if_neg (by omega), if_neg (by omega), if_neg (by omega),
      @hbyte b _ (by omega), @hbyte x _ (by omega), @hbyte y _ (by omega), @hbyte z _ (by omega)]

lemma flatMap_piecesOf (h : bs.length ≤ fuel) : (piecesOf fuel bs).flatMap Piece.bytes = bs := by
  induction fuel generalizing bs with
  | zero => simp_all [piecesOf]
  | succ fuel ih =>
    cases bs with
    | nil => rfl
    | cons b bs =>
      rw [length_cons, Nat.add_le_add_iff_right] at h
      rw [piecesOf]
      split
      · rename_i c n hchar
        have hrest : (bs.drop n).length ≤ fuel := by
          rw [length_drop]
          omega
        rw [flatMap_cons, ih hrest, Piece.bytes, utf8EncodeChar_of_utf8Char? hchar, cons_append,
          take_append_drop]
      · rw [flatMap_cons, ih h]
        rfl

lemma ofPieces_map_char : ofPieces (cs.map .char) = ofString (String.ofList cs) := by
  simp [ofPieces, ofString, flatMap_map, Piece.bytes]

/-- A text without stray bytes is the encoding of its characters. -/
lemma toString?_eq_some_iff : t.toString? = some s ↔ t = ofString s := by
  refine ⟨fun h => ?_, fun h => h ▸ toString?_ofString s⟩
  have hpieces : ofPieces t.pieces = t := congrArg mk (flatMap_piecesOf (Nat.le_refl _))
  rw [← hpieces, pieces_of_toString? h, ofPieces_map_char, String.ofList_toList]

/-- A text without stray bytes: the encoding of some characters. -/
def IsUtf8 (t : Text) : Prop := ∃ s : String, t = ofString s

@[simp] lemma isUtf8_ofString (s : String) : (ofString s).IsUtf8 := ⟨s, rfl⟩

end ReactiveModel.Text
