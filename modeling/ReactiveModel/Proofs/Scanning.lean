import ReactiveModel.Proofs.Comments
import ReactiveModel.Proofs.Heading

/-! Where the tokens of a source text stand. -/

namespace ReactiveModel.Source

open List Lines

variable {cs acc t r : List Char} {fuel : Nat} {shift : Int} {out : Scanned} {p q : Pos}
  {w w₁ w₂ s : String}

lemma Pos.offset_advance (p : Pos) (cs : List Char) :
    (p.advance cs).offset = p.offset + String.utf8Len cs := by
  induction cs generalizing p with
  | nil => rfl
  | cons c cs ih =>
    have hstep : (p.step c).offset = p.offset + c.utf8Size := by
      unfold Pos.step
      split
      · rename_i hc
        rw [eq_of_beq hc]
        rfl
      · rfl
    rw [Pos.advance, foldl_cons, ← Pos.advance, ih, String.utf8Len]
    omega

lemma Pos.advance_unbroken (p : Pos) (h : '\n' ∉ cs) :
    p.advance cs = ⟨p.offset + String.utf8Len cs, p.line, p.column + String.utf8Len cs⟩ := by
  induction cs generalizing p with
  | nil => rfl
  | cons c cs ih =>
    obtain ⟨hc, hcs⟩ := not_or.mp (mt mem_cons.mpr h)
    rw [Pos.advance, foldl_cons, ← Pos.advance, ih _ hcs, Pos.step,
      if_neg (by simp [Ne.symm hc]), String.utf8Len]
    simp only [Pos.mk.injEq, true_and]
    omega

lemma takeBytes_size (cs : List Char) : takeBytes (cs.foldr (·.utf8Size + ·) 0) cs = cs := by
  induction cs with
  | nil => rfl
  | cons c cs ih => simp [takeBytes, ih]

/-- A text is what was read before and what is read on to a rest. -/
def Reads (acc cs t r : List Char) : Prop := ∃ u, t = acc.reverse ++ u ∧ cs = u ++ r

lemma Reads.cons {cs : List Char} {c : Char} (h : Reads (c :: acc) cs t r) :
    Reads acc (c :: cs) t r := by
  obtain ⟨u, rfl, rfl⟩ := h
  exact ⟨c :: u, by simp, rfl⟩

lemma reads_nil (acc r : List Char) : Reads acc r acc.reverse r := ⟨[], by simp, rfl⟩

lemma reads_spanString {skip : Nat} {cs : List Char} (h : spanString skip acc cs = some (t, r)) :
    Reads acc cs t r := by
  fun_induction spanString skip acc cs with
  | case1 | case4 | case6 => cases h
  | case2 _ _ _ _ ih => exact (ih h).cons
  | case3 =>
    cases h
    exact (reads_nil _ _).cons
  | case5 _ _ _ _ _ _ _ _ ih => exact (ih h).cons
  | case7 _ _ _ _ _ _ ih => exact (ih h).cons

lemma reads_spanRaw {cs : List Char} (h : spanRaw acc cs = some (t, r)) : Reads acc cs t r := by
  fun_induction spanRaw acc cs with
  | case1 => cases h
  | case2 =>
    cases h
    exact (reads_nil _ _).cons
  | case3 _ _ _ _ ih => exact (ih h).cons

lemma scanNumber_eq_some {cs : List Char} {k : Kind} (h : scanNumber cs = some (k, t, r)) :
    k ≠ .string ∧ t ≠ [] := by
  have hkind (a b : Bool) : (if a then Kind.imaginary else if b then .int else .float) ≠
        .string := by
    cases a <;> cases b <;> decide
  have hbody (front whole fraction exponent unit : List Char) (point : Bool)
      (hpoint : point = false → fraction = [])
      (hdigit : (whole ++ fraction).any (· != '_') = true) :
      front ++ (whole ++ (if point then '.' :: fraction else []) ++ exponent ++ unit) ≠ [] := by
    intro hnil
    cases point with
    | true => simp at hnil
    | false =>
      rw [hpoint rfl] at hdigit
      have hwhole : whole = [] := by
        simp at hnil
        exact hnil.2.1
      simp [hwhole] at hdigit
  obtain ⟨hok, h⟩ := Option.ite_none_right_eq_some.mp h
  have h' := Option.some.inj h
  rw [← (Prod.mk.inj h').1, ← (Prod.mk.inj (Prod.mk.inj h').2).1]
  simp only [Bool.and_eq_true] at hok
  refine ⟨hkind _ _, hbody _ _ _ _ _ _ ?_ hok.1.1.1.2⟩
  intro hpoint
  split at hpoint
  · cases hpoint
  · rfl

/-- A lexeme takes some of a text; a string literal is spelled there. -/
structure Lexeme.Fits (cs : List Char) (l : Lexeme) : Prop where
  taken : 0 < l.taken
  string : l.kind = .string → l.text.Sublist (cs.take l.taken)

lemma fits_scanLexeme {l : Lexeme} (h : scanLexeme cs = some l) : l.Fits cs := by
  cases cs with
  | nil => cases h
  | cons c rest =>
    unfold scanLexeme at h
    dsimp only at h
    split at h
    · cases h
      refine ⟨Nat.succ_pos _, fun hkind => ?_⟩
      split at hkind <;> cases hkind
    split at h
    · obtain ⟨⟨k, t, r⟩, hscan, rfl⟩ := Option.map_eq_some_iff.mp h
      obtain ⟨hkind, hne⟩ := scanNumber_eq_some hscan
      exact ⟨length_pos_iff.mpr hne, fun hstring => absurd hstring hkind⟩
    split at h
    · obtain ⟨⟨t, r⟩, hspan, rfl⟩ := Option.map_eq_some_iff.mp h
      obtain ⟨u, rfl, rfl⟩ := reads_spanString hspan
      exact ⟨Nat.succ_pos _, fun _ => by simp⟩
    split at h
    · obtain ⟨⟨t, r⟩, hspan, rfl⟩ := Option.map_eq_some_iff.mp h
      obtain ⟨u, rfl, rfl⟩ := reads_spanRaw hspan
      exact ⟨Nat.succ_pos _, fun _ => by simp [dropReturns]⟩
    split at h
    · obtain ⟨⟨t, r⟩, -, rfl⟩ := Option.map_eq_some_iff.mp h
      exact ⟨Nat.succ_pos _, nofun⟩
    split at h
    · cases h
      exact ⟨Nat.succ_pos _, nofun⟩
    split at h
    · rename_i hcomment
      cases h
      have hc : c = '/' := by simpa using (Bool.and_eq_true_iff.mp hcomment).1
      rw [hc]
      exact ⟨Nat.succ_pos _, nofun⟩
    split at h
    · obtain ⟨⟨t, r⟩, -, rfl⟩ := Option.map_eq_some_iff.mp h
      exact ⟨Nat.succ_pos _, nofun⟩
    · obtain ⟨op, hop, rfl⟩ := Option.map_eq_some_iff.mp h
      have hall : ∀ op ∈ operators, 0 < op.length := by decide
      exact ⟨hall op (mem_of_find?_eq_some hop), nofun⟩

/-- A token stands between two places; a string literal also ends there. -/
structure Token.Within (start stop : Nat) (t : Token) : Prop where
  start_le : start ≤ t.pos.offset
  le_stop : t.pos.offset ≤ stop
  string : t.kind = .string → t.pos.offset + t.text.utf8ByteSize ≤ stop

lemma Token.Within.mono {start stop start' stop' : Nat} {t : Token} (h : t.Within start stop)
    (hstart : start' ≤ start) (hstop : stop ≤ stop') : t.Within start' stop' :=
  ⟨hstart.trans h.start_le, h.le_stop.trans hstop, fun hs => (h.string hs).trans hstop⟩

/-- Scanned tokens are appended, and stand in the text that is scanned. -/
lemma tokens_scanFrom {pos : Pos} {pending : Bool} {res : Scanned}
    (h : scanFrom fuel cs pos pending shift out = some res) :
    ∃ ts, res.tokens.toList = out.tokens.toList ++ ts ∧
      ∀ t ∈ ts, t.Within pos.offset (pos.offset + String.utf8Len cs) := by
  induction fuel generalizing cs pos pending shift out with
  | zero => cases h
  | succ fuel ih =>
    -- tokens that were found on the way, and those behind
    have hgo {cs' : List Char} {pos' : Pos} {pending' : Bool} {shift' : Int} {out' : Scanned}
        (h' : scanFrom fuel cs' pos' pending' shift' out' = some res)
        (hstart : pos.offset ≤ pos'.offset)
        (hstop : pos'.offset + String.utf8Len cs' = pos.offset + String.utf8Len cs)
        {xs : List Token} (hout : out'.tokens.toList = out.tokens.toList ++ xs)
        (hxs : ∀ t ∈ xs, t.Within pos.offset (pos.offset + String.utf8Len cs)) :
        ∃ ts, res.tokens.toList = out.tokens.toList ++ ts ∧
          ∀ t ∈ ts, t.Within pos.offset (pos.offset + String.utf8Len cs) := by
      obtain ⟨ts, hres, hts⟩ := ih h'
      refine ⟨xs ++ ts, by rw [hres, hout, append_assoc], forall_mem_append.mpr ⟨hxs, ?_⟩⟩
      exact fun t ht => (hts t ht).mono hstart hstop.le
    have hplaced {k : Kind} (hk : k ≠ .string) {text : String} {p stop : Pos} {line : Int}
        (hstart : pos.offset ≤ p.offset) (hstop : p.offset ≤ pos.offset + String.utf8Len cs) :
        Token.Within pos.offset (pos.offset + String.utf8Len cs) ⟨k, text, p, stop, line⟩ :=
      ⟨hstart, hstop, fun hstring => absurd hstring hk⟩
    have hhere {k : Kind} (hk : k ≠ .string) {text : String} {stop : Pos} {line : Int} :
        Token.Within pos.offset (pos.offset + String.utf8Len cs) ⟨k, text, pos, stop, line⟩ :=
      hplaced hk (Nat.le_refl _) (Nat.le_add_right _ _)
    have hlineEnd := @hhere (.semicolon false) (by decide) "\n" pos (pos.line + shift)
    cases cs with
    | nil =>
      cases h
      have hend := @hhere .eof (by decide) "" pos (pos.line + shift)
      split
      · refine ⟨[_, _], ?_, forall_mem_cons.mpr ⟨hlineEnd, forall_mem_singleton.mpr hend⟩⟩
        simp [Scanned.push]
      · refine ⟨[_], ?_, forall_mem_singleton.mpr hend⟩
        simp [Scanned.push]
    | cons c rest =>
      have hstep : (pos.step c).offset = pos.offset + c.utf8Size := by
        simpa [Pos.advance] using Pos.offset_advance pos [c]
      have hnext : (pos.step c).offset + String.utf8Len rest =
          pos.offset + String.utf8Len (c :: rest) := by
        rw [String.utf8Len]
        omega
      rw [scanFrom] at h
      split at h
      · exact hgo h (by omega) hnext (Array.toList_push ..) (forall_mem_singleton.mpr hlineEnd)
      split at h
      · exact hgo h (by omega) hnext (append_nil _).symm (forall_mem_nil _)
      split at h
      · cases h
      · rename_i l hl
        generalize htaken : (c :: rest).take l.taken = taken at h
        have hsplit : String.utf8Len (c :: rest) =
            String.utf8Len taken + String.utf8Len ((c :: rest).drop l.taken) := by
          rw [← htaken, ← String.utf8Len_append, take_append_drop]
        have hbehind := Pos.offset_advance pos taken
        have hlexeme : Token.Within pos.offset (pos.offset + String.utf8Len (c :: rest))
            ⟨l.kind, String.ofList l.text, pos,
              pos.advance (takeBytes (l.text.foldr (·.utf8Size + ·) 0) taken),
              pos.line + shift⟩ := by
          refine ⟨Nat.le_refl _, Nat.le_add_right _ _, fun hstring => ?_⟩
          have hle := String.utf8Len_le_of_sublist ((fits_scanLexeme hl).string hstring)
          rw [htaken] at hle
          rw [String.utf8ByteSize_ofList]
          dsimp only
          omega
        dsimp only at h
        split at h
        · -- a comment, behind which a statement may end
          have hended := Pos.offset_advance pos (taken.takeWhile (· != '\n'))
          have hle := String.utf8Len_le_of_sublist (takeWhile_sublist (l := taken) (· != '\n'))
          have hbreak := @hplaced (.semicolon false) (by decide) "\n"
            (pos.advance (taken.takeWhile (· != '\n'))) (pos.advance (taken.takeWhile (· != '\n')))
            ((pos.advance (taken.takeWhile (· != '\n'))).line + shift) (by omega) (by omega)
          generalize (⟨.semicolon false, "\n", pos.advance (taken.takeWhile (· != '\n')), _, _⟩ :
            Token) = lineEnd at h hbreak
          generalize (⟨l.kind, _, _, _, _⟩ : Token) = comment at h hlexeme
          obtain ⟨xs, hxs, hwithin⟩ : ∃ xs, (if pending && taken.contains '\n' then
              (out.push comment).push lineEnd else out.push comment).tokens.toList =
                out.tokens.toList ++ xs ∧
              ∀ t ∈ xs, t.Within pos.offset (pos.offset + String.utf8Len (c :: rest)) := by
            split
            · refine ⟨[comment, lineEnd], by simp [Scanned.push], ?_⟩
              exact forall_mem_cons.mpr ⟨hlexeme, forall_mem_singleton.mpr hbreak⟩
            · exact ⟨[comment], Array.toList_push .., forall_mem_singleton.mpr hlexeme⟩
          split at h
          · cases h
          · exact hgo h (by omega) (by omega) hxs hwithin
          · exact hgo h (by omega) (by omega) hxs hwithin
        · exact hgo h (by omega) (by omega) (Array.toList_push ..)
            (forall_mem_singleton.mpr hlexeme)

/-! Whether a text can be scanned. -/


/-- Places that are both at the start of their lines, or both not. -/
structure Pos.Alike (p q : Pos) : Prop where
  left : 0 < p.column
  right : 0 < q.column
  column : p.column = 1 ↔ q.column = 1

lemma Pos.Alike.step (h : p.Alike q) (c : Char) : (p.step c).Alike (q.step c) := by
  have hc := c.utf8Size_pos
  have hp := h.left
  have hq := h.right
  unfold Pos.step
  split
  · exact ⟨Nat.one_pos, Nat.one_pos, Iff.rfl⟩
  · refine ⟨?_, ?_, ?_⟩ <;> dsimp only <;> omega

lemma Pos.Alike.advance (h : p.Alike q) (cs : List Char) : (p.advance cs).Alike (q.advance cs) := by
  induction cs generalizing p q with
  | nil => exact h
  | cons c cs ih => exact ih (h.step c)

/-- Whether a text can be scanned does not depend on where it stands. -/
lemma isSome_scanFrom {fuel' : Nat} (pending : Bool) {shift' : Int} {out' : Scanned}
    (hfuel : cs.length < fuel) (hfuel' : cs.length < fuel') (h : p.Alike q) :
    (scanFrom fuel cs p pending shift out).isSome =
      (scanFrom fuel' cs q pending shift' out').isSome := by
  induction fuel generalizing fuel' cs p q pending shift shift' out out' with
  | zero => omega
  | succ fuel ih =>
    obtain ⟨fuel', rfl⟩ : ∃ n, fuel' = n + 1 := ⟨fuel' - 1, by omega⟩
    cases cs with
    | nil =>
      rfl
    | cons c rest =>
      rw [length_cons] at hfuel hfuel'
      rw [scanFrom, scanFrom]
      split
      · exact ih _ (by omega) (by omega) (h.step c)
      split
      · exact ih _ (by omega) (by omega) (h.step c)
      split
      · rfl
      · rename_i l hl
        have hpos := (fits_scanLexeme hl).taken
        have hdrop : ((c :: rest).drop l.taken).length < fuel ∧
            ((c :: rest).drop l.taken).length < fuel' := by
          rw [length_drop, length_cons]
          omega
        have hnext := h.advance ((c :: rest).take l.taken)
        have hcolumn : (p.column == 1) = (q.column == 1) := by
          rw [Bool.eq_iff_iff, beq_iff_eq, beq_iff_eq]
          exact h.column
        dsimp only
        split
        · rw [hcolumn]
          split
          · rfl
          · exact ih _ hdrop.1 hdrop.2 hnext
          · exact ih _ hdrop.1 hdrop.2 hnext
        · exact ih _ hdrop.1 hdrop.2 hnext

/-! The tokens of a heading. -/

lemma IsLineComment.notMem_break (h : IsLineComment w) : '\n' ∉ w.toList :=
  fun hmem => absurd (h.unbroken _ hmem) (by decide)

lemma scanFrom_lineComment (h : IsLineComment w) (fuel : Nat) (r : List Char) (pos : Pos)
    (shift : Int) (out : Scanned) :
    scanFrom (fuel + 1) (w.toList ++ '\n' :: r) pos false shift out =
      scanFrom fuel ('\n' :: r) (pos.advance w.toList) false shift
        (out.push ⟨.comment, w, pos, pos.advance w.toList, pos.line + shift⟩) := by
  obtain ⟨cs, hcs⟩ := h.marked
  have hline : (w.toList ++ '\n' :: r).takeWhile (· != '\n') = w.toList := by
    rw [takeWhile_append_of_pos, takeWhile_cons_of_neg (by decide), append_nil]
    intro c hc
    have hbreak := h.unbroken c hc
    simp only [Lay.isBreakChar, Bool.or_eq_false_iff] at hbreak
    simp [bne, hbreak.1]
  have hreturns : dropReturns w.toList = w.toList := by
    refine filter_eq_self.mpr fun c hc => ?_
    simp only [bne_iff_ne]
    rintro rfl
    exact h.unreturned hc
  have hlexeme : scanLexeme (w.toList ++ '\n' :: r) =
        some ⟨.comment, w.toList, w.toList.length⟩ := by
    have hstart : isNameStart '/' = false := by decide
    have hdigit : isDecimalDigit '/' = false := by decide
    rw [← hcs] at hline hreturns ⊢
    simp only [cons_append, nil_append] at hline hreturns ⊢
    unfold scanLexeme
    simp [hstart, hdigit, hline, hreturns]
  have hdirective : LineDirective.ofComment (pos.column == 1) w.toList = .nothing := by
    rw [← hcs]
    rfl
  have hfirst : w.toList ++ '\n' :: r = '/' :: ('/' :: ' ' :: (cs ++ '\n' :: r)) := by
    rw [← hcs]
    rfl
  have hlayout : isLayout '/' = false := by decide
  rw [hfirst, scanFrom, ← hfirst]
  simp only [hlexeme, take_left, drop_left, String.ofList_toList, hdirective,
    hlayout, takeBytes_size]
  simp

lemma scanFrom_package (fuel : Nat) (r : List Char) (pos : Pos) (shift : Int) (out : Scanned) :
    scanFrom (fuel + 1) ("package ".toList ++ r) pos false shift out =
      scanFrom fuel (' ' :: r) (pos.advance "package".toList) false shift
        (out.push ⟨.keyword "package", "package", pos, pos.advance "package".toList,
          pos.line + shift⟩) := by
  rfl

lemma scanFrom_break (fuel : Nat) (r : List Char) (pos : Pos) (shift : Int) (out : Scanned) :
    scanFrom (fuel + 1) ('\n' :: r) pos false shift out =
      scanFrom fuel r ⟨pos.offset + 1, pos.line + 1, 1⟩ false shift out := rfl

/-- A text that starts with two line comments, a blank line and a package clause. -/
def HasHeading (w₁ w₂ : String) (s : String) : Prop :=
  ∃ r, s.toList = w₁.toList ++ '\n' :: (w₂.toList ++ '\n' :: '\n' :: ("package ".toList ++ r))

/-- Where the package clause stands. -/
def clauseAt (w₁ w₂ : String) : Nat := w₁.utf8ByteSize + 1 + w₂.utf8ByteSize + 1 + 1

lemma utf8ByteSize_of_heading
    (h : s.toList = w₁.toList ++ '\n' :: (w₂.toList ++ '\n' :: '\n' :: ("package ".toList ++ r))) :
    s.utf8ByteSize = clauseAt w₁ w₂ + 7 + String.utf8Len (' ' :: r) := by
  have hword : "package".utf8ByteSize = 7 := rfl
  have hclause : "package ".toList ++ r = "package".toList ++ ' ' :: r := rfl
  have hbreak (ds : List Char) : String.utf8Len ('\n' :: ds) = String.utf8Len ds + 1 := rfl
  rw [← String.utf8Len_toList, h, hclause]
  simp only [String.utf8Len_append, hbreak, String.utf8Len_toList, clauseAt, hword]
  omega

/-- The tokens of a text with a heading. -/
structure HeadingTokens (w₁ w₂ : String) (size : Nat) (ts : List Token) : Prop where
  heading : ∃ stop₁ stop₂ stop rest,
    ts = ⟨.comment, w₁, ⟨0, 1, 1⟩, stop₁, 1⟩ ::
      ⟨.comment, w₂, ⟨w₁.utf8ByteSize + 1, 2, 1⟩, stop₂, 2⟩ ::
        ⟨.keyword "package", "package", ⟨clauseAt w₁ w₂, 4, 1⟩, stop, 4⟩ :: rest ∧
      ∀ t ∈ rest, t.Within (clauseAt w₁ w₂ + 1) size

lemma heading_scan (h₁ : IsLineComment w₁) (h₂ : IsLineComment w₂) (hs : HasHeading w₁ w₂ s)
    {t : Scanned} (h : scan s = some t) : HeadingTokens w₁ w₂ s.utf8ByteSize t.tokens.toList := by
  obtain ⟨r, hr⟩ := hs
  obtain ⟨cs, hcs⟩ := h₁.marked
  have hword : "package".utf8ByteSize = 7 := rfl
  have hsize := utf8ByteSize_of_heading hr
  have hfirst : s.toList = '/' :: ('/' :: ' ' :: (cs ++ '\n' :: (w₂.toList ++ '\n' :: '\n' ::
      ("package ".toList ++ r)))) := by
    rw [hr, ← hcs]
    rfl
  rw [scan_of_toList hfirst (by decide), ← hfirst] at h
  split at h
  · cases h
  · obtain ⟨fuel, hfuel⟩ : ∃ fuel, ('/' :: ' ' :: (cs ++ '\n' :: (w₂.toList ++ '\n' :: '\n' ::
        ("package ".toList ++ r)))).length + 3 = fuel + 1 + 1 + 1 + 1 + 1 + 1 := ⟨_, by simp; rfl⟩
    rw [hfuel, hr, scanFrom_lineComment h₁, scanFrom_break, scanFrom_lineComment h₂, scanFrom_break,
      scanFrom_break, scanFrom_package] at h
    simp only [Pos.advance_unbroken _ h₁.notMem_break, Pos.advance_unbroken _ h₂.notMem_break,
      String.utf8Len_toList, Pos.first] at h
    obtain ⟨ts, htokens, hts⟩ := tokens_scanFrom h
    refine ⟨_, _, _, ts, by simpa [Scanned.push, clauseAt] using htokens,
      fun t ht => (hts t ht).mono ?_ ?_⟩
    · rw [Pos.offset_advance, String.utf8Len_toList, clauseAt]
      dsimp only
      omega
    · rw [Pos.offset_advance, String.utf8Len_toList, hsize, clauseAt]
      dsimp only
      omega

/-! Comments between tokens. -/

lemma takeGroup_append (gap last : Int) (ts : List Token) :
    (takeGroup gap last ts).1 ++ (takeGroup gap last ts).2.2 = ts := by
  induction ts generalizing last with
  | nil => rfl
  | cons t ts ih =>
    rw [takeGroup]
    split
    · exact congrArg (t :: ·) (ih t.lastLine)
    · rfl

lemma flatten_takeGroups (fuel : Nat) (ts : List Token) :
    (takeGroups fuel ts).1.flatten <+: ts := by
  induction fuel generalizing ts with
  | zero => exact nil_prefix
  | succ fuel ih =>
    cases ts with
    | nil => exact nil_prefix
    | cons t ts =>
      have hgroup := takeGroup_append 1 t.line (t :: ts)
      have hrest := ih (takeGroup 1 t.line (t :: ts)).2.2
      have hall : (takeGroup 1 t.line (t :: ts)).1 ++
          (takeGroups fuel (takeGroup 1 t.line (t :: ts)).2.2).1.flatten <+: t :: ts := by
        refine ((prefix_append_right_inj _).mpr hrest).trans ?_
        exact ⟨[], (append_nil _).trans hgroup⟩
      rw [takeGroups]
      dsimp only
      split
      · rename_i gs hgs
        rw [hgs] at hall
        exact hall
      · rename_i gs l _ hgs
        rw [hgs] at hall
        exact hall

/-- The groups between two tokens have only comments that stand there. -/
lemma mem_attach {lines : Lines} {before : Int} {comments : List Token} {t : Token}
    {g : List Comment} (hg : g ∈ (attach lines before comments t).1) {c : Comment} (hc : c ∈ g) :
    ∃ u ∈ comments, c = lines.comment u.pos.offset u.text := by
  have hplace {us : List Token} (hus : ∀ u ∈ us, u ∈ comments)
      (hc : c ∈ us.map fun t => lines.comment t.pos.offset t.text) :
      ∃ u ∈ comments, c = lines.comment u.pos.offset u.text := by
    obtain ⟨u, hu, rfl⟩ := mem_map.mp hc
    exact ⟨u, hus u hu, rfl⟩
  unfold attach at hg
  split at hg
  · cases hg
  · rename_i first others
    generalize hfirst : (if first.line == before then takeGroup 0 first.line (first :: others)
      else ([], 0, first :: others)) = parts at hg
    obtain ⟨line, last, rest⟩ := parts
    have hparts : line ++ rest = first :: others := by
      split at hfirst
      · have happend := takeGroup_append 0 first.line (first :: others)
        rwa [hfirst] at happend
      · cases hfirst
        rfl
    have hline : ∀ u ∈ line, u ∈ first :: others := fun u hu =>
      hparts ▸ mem_append_left _ hu
    have hgroups : ∀ us ∈ (takeGroups (rest.length + 1) rest).1, ∀ u ∈ us, u ∈ first :: others :=
      fun us hus u hu => hparts ▸ mem_append_right _
        ((flatten_takeGroups _ rest).subset (mem_flatten.mpr ⟨us, hus, hu⟩))
    have hmapped (hmem : g ∈ (takeGroups (rest.length + 1) rest).1.map
        fun us => us.map fun t => lines.comment t.pos.offset t.text) :
        ∃ u ∈ first :: others, c = lines.comment u.pos.offset u.text := by
      obtain ⟨us, hus, rfl⟩ := mem_map.mp hmem
      exact hplace (hgroups us hus) hc
    dsimp only at hg
    split at hg
    · exact hmapped hg
    · rcases mem_cons.mp hg with rfl | hg
      · exact hplace hline hc
      · exact hmapped hg

lemma token_attach (lines : Lines) (before : Int) (comments : List Token) (t : Token) :
    (attach lines before comments t).2.token = t := by
  unfold attach
  split <;> rfl

lemma arrange_eq (lines : Lines) (ts : List Token) (before : Int) (pending : List Token)
    (items : Array Item) (groups : Array (List Comment)) :
    ∃ is gs, (arrange lines ts before pending items groups).1.toList = items.toList ++ is ∧
      (arrange lines ts before pending items groups).2.toList = groups.toList ++ gs ∧
      (∀ i ∈ is, i.token ∈ ts) ∧
      ∀ g ∈ gs, ∀ c ∈ g, ∃ u ∈ ts ++ pending, c = lines.comment u.pos.offset u.text := by
  induction ts generalizing before pending items groups with
  | nil =>
    exact ⟨[], [], by simp [arrange], by simp [arrange], forall_mem_nil _, forall_mem_nil _⟩
  | cons t ts ih =>
    rw [arrange]
    split
    · obtain ⟨is, gs, hitems, hgroups, his, hgs⟩ := ih before (t :: pending) items groups
      refine ⟨is, gs, hitems, hgroups, fun i hi => mem_cons_of_mem _ (his i hi), ?_⟩
      intro g hg c hc
      obtain ⟨u, hu, rfl⟩ := hgs g hg c hc
      exact ⟨u, by simpa [or_left_comm] using hu, rfl⟩
    · generalize hattach : attach lines before pending.reverse t = parts
      obtain ⟨gs', item⟩ := parts
      obtain ⟨is, gs, hitems, hgroups, his, hgs⟩ :=
        ih t.line [] (items.push item) (groups ++ gs'.toArray)
      have htoken : item.token = t := by
        have heq := token_attach lines before pending.reverse t
        rwa [hattach] at heq
      refine ⟨item :: is, gs' ++ gs, by simpa using hitems, by simpa using hgroups, ?_, ?_⟩
      · rintro i (_ | ⟨_, hi⟩)
        · exact mem_cons.mpr (.inl htoken)
        · exact mem_cons_of_mem _ (his i hi)
      · intro g hg c hc
        rcases mem_append.mp hg with hg | hg
        · have hg' : g ∈ (attach lines before pending.reverse t).1 := by
            rw [hattach]
            exact hg
          obtain ⟨u, hu, rfl⟩ := mem_attach hg' hc
          exact ⟨u, mem_append_right _ (mem_reverse.mp hu), rfl⟩
        · obtain ⟨u, hu, rfl⟩ := hgs g hg c hc
          rw [append_nil] at hu
          exact ⟨u, mem_append_left _ (mem_cons_of_mem _ hu), rfl⟩

/-! Lines. -/

namespace Lines

lemma breaksFrom_append (n : Nat) (cs ds : List Char) :
    breaksFrom n (cs ++ ds) = breaksFrom n cs ++ breaksFrom (n + String.utf8Len cs) ds := by
  induction cs generalizing n with
  | nil => rfl
  | cons c cs ih =>
    rw [cons_append, breaksFrom, breaksFrom]
    split
    · rename_i hc
      rw [ih, cons_append, eq_of_beq hc, String.utf8Len_cons]
      have : Char.utf8Size '\n' = 1 := rfl
      rw [this, Nat.add_assoc, Nat.add_comm 1]
    · rw [ih, String.utf8Len_cons, Nat.add_assoc, Nat.add_comm c.utf8Size]

lemma breaksFrom_eq_nil (n : Nat) (h : '\n' ∉ cs) : breaksFrom n cs = [] := by
  induction cs generalizing n with
  | nil => rfl
  | cons c cs ih =>
    obtain ⟨hc, hcs⟩ := not_or.mp (mt mem_cons.mpr h)
    rw [breaksFrom, if_neg (by simp [Ne.symm hc]), ih _ hcs]

lemma lt_of_mem_breaksFrom {n x : Nat} (h : x ∈ breaksFrom n cs) : n < x := by
  induction cs generalizing n with
  | nil => cases h
  | cons c cs ih =>
    rw [breaksFrom] at h
    split at h
    · rcases mem_cons.mp h with rfl | h
      · exact Nat.lt_succ_self n
      · exact Nat.lt_of_succ_lt (ih h)
    · exact Nat.lt_of_le_of_lt (Nat.le_add_right _ _) (ih h)

lemma offset_place {l : Lines} {p : Nat} (h : p ≤ l.size) : (l.place p).offset = p := by
  rw [place, if_neg (Nat.not_lt.mpr h)]

end Lines

/-- Lines that begin with those of a heading. -/
structure Lines.Headed (w₁ w₂ : String) (size : Nat) (l : Lines) : Prop where
  starts : ∃ more, l.starts = [0, w₁.utf8ByteSize + 1, w₁.utf8ByteSize + 1 + w₂.utf8ByteSize + 1,
    clauseAt w₁ w₂] ++ more ∧ ∀ x ∈ more, clauseAt w₁ w₂ < x
  size_eq : l.size = size
  clause : clauseAt w₁ w₂ < size

/-- Tokens that begin with those of a heading. -/
structure Tokens.Headed (w₁ w₂ : String) (size : Nat) (t : Tokens) : Prop where
  lines : t.lines.Headed w₁ w₂ size
  comments : ∃ rest, t.comments =
      [t.lines.comment 0 w₁, t.lines.comment (w₁.utf8ByteSize + 1) w₂] :: rest ∧
    ∀ g ∈ rest, ∀ c ∈ g, clauseAt w₁ w₂ < c.pos.offset ∧ c.pos.offset ≤ size
  clause : ∃ i, t.items[0]? = some i ∧ i.token.kind = .keyword "package" ∧
    i.token.pos = ⟨clauseAt w₁ w₂, 4, 1⟩
  others : ∀ i ∈ t.items, i.token.kind = .keyword "package" ∨
    i.token.Within (clauseAt w₁ w₂ + 1) size

section

variable {w₁ w₂ s : String} (h₁ : IsLineComment w₁) (h₂ : IsLineComment w₂)

include h₁ h₂

lemma headed_lines (hs : HasHeading w₁ w₂ s) (numbered : List (Nat × Int)) :
    (ofString s numbered).Headed w₁ w₂ s.utf8ByteSize := by
  obtain ⟨r, hr⟩ := hs
  have hsize := utf8ByteSize_of_heading hr
  have hbreak (n : Nat) (cs : List Char) :
      breaksFrom n ('\n' :: cs) = (n + 1) :: breaksFrom (n + 1) cs := rfl
  have hbreaks : breaksFrom 0 s.toList = [w₁.utf8ByteSize + 1,
      w₁.utf8ByteSize + 1 + w₂.utf8ByteSize + 1, clauseAt w₁ w₂] ++
        breaksFrom (clauseAt w₁ w₂) ("package ".toList ++ r) := by
    rw [hr, breaksFrom_append, breaksFrom_eq_nil _ h₁.notMem_break, hbreak,
      breaksFrom_append, breaksFrom_eq_nil _ h₂.notMem_break, hbreak, hbreak]
    simp [clauseAt, String.utf8Len_toList]
  refine ⟨⟨(breaksFrom (clauseAt w₁ w₂) ("package ".toList ++ r)).filter
    (· < s.utf8ByteSize), ?_, fun x hx => ?_⟩, rfl, ?_⟩
  · have hinside : w₁.utf8ByteSize + 1 < s.utf8ByteSize ∧
        w₁.utf8ByteSize + 1 + w₂.utf8ByteSize + 1 < s.utf8ByteSize ∧
        clauseAt w₁ w₂ < s.utf8ByteSize := by
      rw [hsize, clauseAt]
      omega
    simp [ofString, hbreaks, hinside]
  · exact lt_of_mem_breaksFrom (mem_of_mem_filter hx)
  · omega

lemma attach_heading (lines : Lines) (p₁ p₂ stop₁ stop₂ : Pos) (t : Token) :
    (attach lines 0 [⟨.comment, w₁, p₁, stop₁, 1⟩, ⟨.comment, w₂, p₂, stop₂, 2⟩] t).1 =
      [[lines.comment p₁.offset w₁, lines.comment p₂.offset w₂]] := by
  have hlines {w : String} (hw : IsLineComment w) (p stop : Pos) (line : Int) :
      Token.lastLine ⟨.comment, w, p, stop, line⟩ = line := by
    have hnone : w.toList.filter (· == '\n') = [] := by
      refine filter_eq_nil_iff.mpr fun c hc => ?_
      simp only [beq_iff_eq]
      rintro rfl
      exact hw.notMem_break hc
    simp [Token.lastLine, hnone]
  simp [attach, takeGroups, takeGroup, hlines h₁, hlines h₂]

lemma arrange_heading (lines : Lines) (p₁ p₂ stop₁ stop₂ : Pos) {t : Token}
    (ht : (t.kind == .comment) = false) (ts : List Token) :
    ∃ item : Item, item.token = t ∧
      arrange lines (⟨.comment, w₁, p₁, stop₁, 1⟩ :: ⟨.comment, w₂, p₂, stop₂, 2⟩ :: t :: ts) 0 []
          #[] #[] =
        arrange lines ts t.line [] #[item]
          #[[lines.comment p₁.offset w₁, lines.comment p₂.offset w₂]] := by
  have hgroup := attach_heading h₁ h₂ lines p₁ p₂ stop₁ stop₂ t
  have htoken := token_attach lines 0
    [⟨.comment, w₁, p₁, stop₁, 1⟩, ⟨.comment, w₂, p₂, stop₂, 2⟩] t
  refine ⟨_, htoken, ?_⟩
  have hcomment (u : Token) (hu : u.kind = .comment) (us pending : List Token) :
      arrange lines (u :: us) 0 pending #[] #[] = arrange lines us 0 (u :: pending) #[] #[] := by
    rw [arrange, if_pos (by simp [hu])]
  rw [hcomment _ rfl, hcomment _ rfl, arrange, if_neg (by simp [ht])]
  change arrange lines ts t.line [] (#[].push _) (#[] ++ toArray (attach lines 0
    [⟨.comment, w₁, p₁, stop₁, 1⟩, ⟨.comment, w₂, p₂, stop₂, 2⟩] t).1) = _
  rw [hgroup]
  rfl

lemma headed_tokens (hs : HasHeading w₁ w₂ s) {t : Tokens} (h : Tokens.ofString? s = some t) :
    t.Headed w₁ w₂ s.utf8ByteSize := by
  obtain ⟨sc, hscan, rfl⟩ := Option.map_eq_some_iff.mp h
  have hlines := headed_lines h₁ h₂ hs sc.numbered
  obtain ⟨stop₁, stop₂, stop, ts, htokens, hts⟩ := heading_scan h₁ h₂ hs hscan
  obtain ⟨item, hitem, harrange⟩ := arrange_heading h₁ h₂ (ofString s sc.numbered) ⟨0, 1, 1⟩
    ⟨w₁.utf8ByteSize + 1, 2, 1⟩ stop₁ stop₂
    (t := ⟨.keyword "package", "package", ⟨clauseAt w₁ w₂, 4, 1⟩, stop, 4⟩) rfl ts
  dsimp only
  rw [htokens, harrange]
  generalize ofString s sc.numbered = lines at *
  obtain ⟨is, gs, hitems, hgroups, his, hgs⟩ := arrange_eq lines ts 4 [] #[item]
    #[[lines.comment 0 w₁, lines.comment (w₁.utf8ByteSize + 1) w₂]]
  refine ⟨hlines, ⟨gs, hgroups, fun g hg c hc => ?_⟩,
    ⟨item, ?_, by rw [hitem], by rw [hitem]⟩, fun i hi => ?_⟩
  · obtain ⟨u, hu, rfl⟩ := hgs g hg c hc
    rw [append_nil] at hu
    have hwithin := hts u hu
    have hplace : (lines.comment u.pos.offset u.text).pos.offset = u.pos.offset :=
      offset_place (hlines.size_eq ▸ hwithin.le_stop)
    rw [hplace]
    exact ⟨hwithin.start_le, hwithin.le_stop⟩
  · rw [← Array.getElem?_toList, hitems]
    rfl
  · have hmem := Array.mem_toList_iff.mpr hi
    rw [hitems] at hmem
    rcases mem_cons.mp hmem with rfl | hmem
    · exact .inl (by rw [hitem])
    · exact .inr (hts _ (his i hmem))

end

end ReactiveModel.Source
