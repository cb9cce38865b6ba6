import ReactiveModel.Proofs.Scanning

/-! Where the imports of a source file stand. A reader takes them from the items that it was given,
so they stand where the items do. -/

namespace ReactiveModel.Source

open List Option ImportSection

namespace Reader

variable {α β : Type} {post : α → Prop}

/-- What a reader keeps of its state, and what it answers. -/
def Gives (r : Reader α) (inv : ReadState → Prop) (post : α → Prop) : Prop :=
  ∀ s a s', inv s → r.run s = some (a, s') → inv s' ∧ post a

section

variable {inv : ReadState → Prop} {post : α → Prop} {r : Reader α}

lemma gives_pure {a : α} (h : post a) : Gives (pure a : Reader α) inv post := by
  rintro s _ _ hs ⟨⟩
  exact ⟨hs, h⟩

lemma gives_bind {k : α → Reader β} {mid : α → Prop} {post : β → Prop} (hr : r.Gives inv mid)
    (hk : ∀ a, mid a → (k a).Gives inv post) : (r >>= k).Gives inv post := by
  intro s b s'' hs hrun
  obtain ⟨⟨a, s'⟩, ha, hb⟩ := bind_eq_some_iff.mp hrun
  obtain ⟨hs', hmid⟩ := hr s a s' hs ha
  exact hk a hmid s' b s'' hs' hb

lemma gives_failure : Gives (failure : Reader α) inv post := by
  rintro s a s' hs ⟨⟩

lemma gives_ite {p : Prop} [Decidable p] {a b : Reader α} (ha : p → a.Gives inv post)
    (hb : ¬p → b.Gives inv post) : (if p then a else b).Gives inv post := by
  split
  · exact ha ‹_›
  · exact hb ‹_›

lemma gives_none : Gives (pure none : Reader (Option α)) inv fun o => ∀ a ∈ o, post a :=
  gives_pure fun _ hmem => absurd hmem (not_mem_none _)

lemma gives_some (h : r.Gives inv post) :
    Gives (do return some (← r)) inv fun o => ∀ a ∈ o, post a :=
  gives_bind h fun _ ha => gives_pure fun _ hmem => mem_some.mp hmem ▸ ha

lemma gives_many (post : α → Prop) {step : Reader (Option α)}
    (h : step.Gives inv fun o => ∀ a ∈ o, post a) (fuel : Nat) :
    (many step fuel).Gives inv fun as => ∀ a ∈ as, post a := by
  induction fuel with
  | zero => exact gives_failure
  | succ fuel ih =>
    refine gives_bind h fun o ho => ?_
    cases o with
    | none => exact gives_pure (forall_mem_nil _)
    | some a =>
      exact gives_bind ih fun as has => gives_pure (forall_mem_cons.mpr ⟨ho a rfl, has⟩)

end

/-- The items that are read. -/
def On (items : Array Item) (s : ReadState) : Prop := s.items = items

section

variable {items : Array Item}

lemma gives_next : next.Gives (On items) fun _ => True := by
  rintro s _ _ hs ⟨⟩
  exact ⟨hs, trivial⟩

lemma gives_bound : bound.Gives (On items) fun _ => True := by
  rintro s _ _ hs ⟨⟩
  exact ⟨hs, trivial⟩

lemma gives_item {p : Item → Prop} (h : ∀ i ∈ items, p i) (hnone : p default) :
    item.Gives (On items) p := by
  rintro s _ _ rfl ⟨⟩
  refine ⟨rfl, ?_⟩
  cases hi : s.items[s.at_]? with
  | none => exact hnone
  | some i => exact h i (Array.mem_of_getElem? hi)

lemma gives_token {p : Token → Prop} (h : ∀ i ∈ items, p i.token) (hnone : p default) :
    token.Gives (On items) p :=
  gives_bind (gives_item h hnone) fun _ => gives_pure

lemma gives_any_item : item.Gives (On items) fun _ => True :=
  gives_item (fun _ _ => trivial) trivial

lemma gives_any_token : token.Gives (On items) fun _ => True :=
  gives_token (fun _ _ => trivial) trivial

lemma gives_kind : kind.Gives (On items) fun _ => True :=
  gives_bind gives_any_token fun _ _ => gives_pure trivial

lemma gives_isKind (k : Kind) : (isKind k).Gives (On items) fun _ => True :=
  gives_bind gives_kind fun _ _ => gives_pure trivial

lemma gives_pos : pos.Gives (On items) fun _ => True :=
  gives_bind gives_any_token fun _ _ => gives_pure trivial

lemma gives_expect (k : Kind) : (expect k).Gives (On items) fun _ => True :=
  gives_bind gives_any_token fun _ _ => gives_ite
    (fun _ => gives_bind gives_next fun _ _ => gives_pure trivial) fun _ => gives_failure

lemma gives_semicolon : semicolon.Gives (On items) fun _ => True := by
  refine gives_bind gives_kind fun k _ => ?_
  split
  · exact gives_pure trivial
  · exact gives_pure trivial
  · exact gives_bind gives_next fun _ _ => gives_bind gives_any_item fun _ _ => gives_pure trivial
  · exact gives_bind gives_any_item fun _ _ => gives_bind gives_next fun _ _ => gives_pure trivial
  · exact gives_failure

end

/-- What a reader answers in any state. -/
abbrev Answers (r : Reader α) (post : α → Prop) : Prop := r.Gives (fun _ => True) post

lemma answers_bind {r : Reader β} {k : β → Reader α} (hk : ∀ b, (k b).Answers post) :
    (r >>= k).Answers post :=
  gives_bind (fun _ _ _ _ _ => ⟨trivial, trivial⟩) fun b _ => hk b

lemma answers_ite {p : Prop} [Decidable p] {a b : Reader α} (ha : a.Answers post)
    (hb : b.Answers post) : (if p then a else b).Answers post :=
  gives_ite (fun _ => ha) fun _ => hb

end Reader

/-- An import stands between two places. -/
structure ImportEntry.Within (start stop : Nat) (e : ImportEntry) : Prop where
  start_le : start ≤ e.start
  start_le_stop : e.start ≤ stop
  le_stop : start ≤ e.stop
  stop_le : e.stop ≤ stop

/-- A part of a declaration that is no import, or stands between two places. -/
def Spec.Within (start stop : Nat) (s : Spec) : Prop :=
  ∀ e, entryOf s = some e → e.Within start stop

/-- A declaration without imports, or with imports between two places. -/
def Decl.Within (start stop : Nat) (d : Decl) : Prop :=
  ∀ b, blockOf d = some b → ∀ e ∈ b.entries, e.Within start stop

namespace Grammar

open Reader

lemma importSpec_eq (listed : Bool) : importSpec listed = (do
    let i ← item
    let n ← match i.token.kind with
      | .ident => pure (some (← name))
      | .operator "." =>
        next
        pure (some ⟨⟨i.token.pos, after i.token.pos⟩, "."⟩)
      | _ => pure none
    let t ← token
    if t.kind == .string then
      next
      let tail ← semicolon
      return .imported n (.literal ⟨t.pos, t.stop⟩ t.kind t.text) Pos.none
        (if listed then i.lead else []) tail
    else failure) := by
  cases listed <;> rfl

section

variable {items : Array Item} {start stop : Nat}
  (h : ∀ i ∈ items, i.token.kind = .keyword "package" ∨ i.token.Within start stop)

include h

lemma gives_token_within : token.Gives (On items) fun t =>
    t.kind ≠ .eof → t.kind ≠ .keyword "package" → t.Within start stop :=
  gives_token (fun i hi _ hpackage => (h i hi).resolve_left hpackage)
    fun heof => absurd rfl heof

lemma gives_name : name.Gives (On items) fun n =>
    start ≤ n.span.start.offset ∧ n.span.start.offset ≤ stop := by
  refine gives_bind (gives_token_within h) fun t ht =>
    gives_ite (fun hkind => ?_) fun _ => gives_failure
  have hident : t.kind = .ident := eq_of_beq hkind
  have hwithin := ht (by simp [hident]) (by simp [hident])
  exact gives_bind gives_next fun _ _ => gives_pure ⟨hwithin.start_le, hwithin.le_stop⟩

lemma gives_importSpec (listed : Bool) :
    (importSpec listed).Gives (On items) (Spec.Within start stop) := by
  rw [importSpec_eq]
  refine gives_bind (gives_item (p := fun i => i.token.kind ≠ .eof →
    i.token.kind ≠ .keyword "package" → i.token.Within start stop)
    (fun i hi _ hpackage => (h i hi).resolve_left hpackage) fun heof => absurd rfl heof)
    fun i hi => ?_
  extract_lets path
  have hpath (n : Option Name)
      (hn : ∀ m ∈ n, start ≤ m.span.start.offset ∧ m.span.start.offset ≤ stop) :
      (path n).Gives (On items) (Spec.Within start stop) := by
    refine gives_bind (gives_token_within h) fun t ht =>
      gives_ite (fun hkind => ?_) fun _ => gives_failure
    have hstring : t.kind = .string := eq_of_beq hkind
    have hwithin := ht (by simp [hstring]) (by simp [hstring])
    refine gives_bind gives_next fun _ _ => gives_bind gives_semicolon fun tail _ => gives_pure ?_
    rintro e ⟨⟩
    have hstop : start ≤ t.pos.offset + t.text.utf8ByteSize ∧
        t.pos.offset + t.text.utf8ByteSize ≤ stop :=
      ⟨Nat.le_add_right_of_le hwithin.start_le, hwithin.string hstring⟩
    cases n with
    | none => exact ⟨hwithin.start_le, hwithin.le_stop, hstop.1, hstop.2⟩
    | some m => exact ⟨(hn m rfl).1, (hn m rfl).2, hstop.1, hstop.2⟩
  split
  · exact gives_bind (gives_name h) fun m hm => hpath _ fun _ hmem => mem_some.mp hmem ▸ hm
  · rename_i hkind
    have hwithin := hi (by simp [hkind]) (by simp [hkind])
    refine gives_bind gives_next fun _ _ => hpath _ fun _ hmem => ?_
    rw [← mem_some.mp hmem]
    exact ⟨hwithin.start_le, hwithin.le_stop⟩
  · exact hpath _ fun _ hmem => absurd hmem (not_mem_none _)

lemma gives_group (g : Grammar) :
    (g.group "import").Gives (On items) fun d => (Decl.group d).Within start stop := by
  have hentries {specs : List Spec} (hspecs : ∀ s ∈ specs, s.Within start stop) :
      ∀ e ∈ specs.filterMap entryOf, e.Within start stop := by
    intro e he
    obtain ⟨s, hs, hentry⟩ := mem_filterMap.mp he
    exact hspecs s hs e hentry
  have hspec (listed : Bool) : (g.spec "import" listed).Gives (On items) (Spec.Within start stop) :=
    gives_importSpec h listed
  refine gives_bind gives_any_item fun _ _ => gives_bind (gives_expect _) fun _ _ =>
    gives_bind (gives_isKind _) fun _ _ => gives_ite (fun _ => ?_) fun _ => ?_
  · refine gives_bind gives_pos fun _ _ => gives_bind gives_next fun _ _ =>
      gives_bind gives_bound fun _ _ =>
        gives_bind (gives_many (Spec.Within start stop) ?_ _) fun specs hspecs => ?_
    · exact gives_bind (gives_isKind _) fun _ _ =>
        gives_ite (fun _ => gives_none) fun _ => gives_some (hspec true)
    · refine gives_bind (gives_expect _) fun _ _ => gives_bind gives_semicolon fun _ _ =>
        gives_pure ?_
      rintro _ ⟨⟩
      exact hentries hspecs
  · refine gives_bind (hspec false) fun s hs => gives_pure ?_
    rintro _ ⟨⟩
    exact hentries (forall_mem_singleton.mpr hs)

lemma gives_imports (g : Grammar) :
    g.imports.Gives (On items) fun ds => ∀ d ∈ ds, d.Within start stop := by
  refine gives_bind gives_bound fun _ _ => gives_many (Decl.Within start stop) ?_ _
  exact gives_bind (gives_isKind _) fun _ _ =>
    gives_ite (fun _ => gives_bind (gives_group h g) fun d hd =>
      gives_pure fun _ hmem => mem_some.mp hmem ▸ hd) fun _ => gives_none

end

/-! Other declarations are no imports. -/

lemma answers_functionDecl (g : Grammar) : g.functionDecl.Answers fun d => blockOf d = none := by
  unfold functionDecl
  refine answers_bind fun _ => answers_bind fun _ => answers_bind fun _ => ?_
  extract_lets signature
  have hsignature (receiver : Option FieldList) :
      (signature receiver).Answers fun d => blockOf d = none := by
    refine answers_bind fun _ => answers_bind fun _ => ?_
    extract_lets body
    have hbody (typeParams : Option FieldList) :
        (body typeParams).Answers fun d => blockOf d = none :=
      answers_bind fun _ => answers_bind fun _ => answers_bind fun _ => answers_ite
        (answers_bind fun _ => answers_bind fun _ => gives_pure rfl)
        (answers_bind fun _ => answers_bind fun _ => answers_bind fun _ =>
          answers_ite gives_failure
            (answers_bind fun _ => answers_ite gives_failure (gives_pure rfl)))
    exact answers_ite
      (answers_bind fun _ => answers_bind fun _ => answers_bind fun _ => answers_bind fun _ =>
        answers_ite (answers_bind fun _ => hbody _) (hbody _))
      (hbody none)
  exact answers_ite (answers_bind fun _ => hsignature _) (hsignature none)

lemma answers_group (g : Grammar) {keyword : String} (hne : keyword ≠ "import") :
    (g.group keyword).Answers fun d => blockOf (.group d) = none := by
  have hnone (documented : Bool) (span : Span) (lparen rparen : Pos) (specs : List Spec) :
      blockOf (.group (.mk documented span keyword lparen specs rparen)) = none := by
    unfold blockOf
    split
    · rename_i heq
      cases heq
      exact absurd rfl hne
    · rfl
  exact answers_bind fun _ => answers_bind fun _ => answers_bind fun _ => answers_ite
    (answers_bind fun _ => answers_bind fun _ => answers_bind fun _ => answers_bind fun _ =>
      answers_bind fun _ => answers_bind fun _ => gives_pure (hnone ..))
    (answers_bind fun _ => gives_pure (hnone ..))

lemma answers_decl (g : Grammar) : g.decl.Answers fun d => blockOf d = none := by
  have hgroup {keyword : String} (hne : keyword ≠ "import") :
      (do return .group (← g.group keyword) : Reader Decl).Answers
        fun d => blockOf d = none :=
    gives_bind (answers_group g hne) fun _ hnone => gives_pure hnone
  refine answers_bind fun _ => ?_
  split
  · exact answers_functionDecl g
  · exact hgroup (by decide)
  · exact hgroup (by decide)
  · exact hgroup (by decide)
  · exact gives_failure

lemma gives_packageClause {items : Array Item} {start stop : Nat}
    (h : ∀ i ∈ items, i.token.kind = .keyword "package" ∨ i.token.Within start stop) :
    packageClause.Gives (On items) fun _ => True :=
  gives_bind (gives_expect _) fun _ _ => gives_bind (gives_name h) fun _ _ =>
    gives_bind gives_semicolon fun _ _ => gives_pure trivial

lemma pos_packageClause {s s' : ReadState} {p : Pos} {n : Name}
    (h : packageClause.run s = some ((p, n), s')) :
    p = ((s.items[s.at_]?).getD default).token.pos := by
  unfold packageClause at h
  rw [StateT.run_bind] at h
  obtain ⟨⟨q, s₁⟩, hword, h⟩ := bind_eq_some_iff.mp h
  have hclause : (do
      let n ← name
      let _ ← semicolon
      return (q, n) : Reader (Pos × Name)).Answers fun r => r.1 = q :=
    answers_bind fun _ => answers_bind fun _ => gives_pure rfl
  have hpos : p = q := (hclause s₁ _ _ trivial h).2
  unfold word expect at hword
  rw [StateT.run_bind] at hword
  obtain ⟨⟨t, s₂⟩, htoken, hword⟩ := bind_eq_some_iff.mp hword
  cases htoken
  split at hword
  · cases hword
    exact hpos
  · cases hword

section

variable {g : Grammar} {comments : List (List Comment)} {s s' : ReadState} {f : File}
  (h : (g.file comments).run s = some (f, s'))

include h

lemma pos_file : f.pos = ((s.items[s.at_]?).getD default).token.pos := by
  obtain ⟨⟨⟨p, n⟩, s₁⟩, hclause, h⟩ := bind_eq_some_iff.mp h
  have hrest : (do
      let imports ← g.imports
      let decls ← many (do
        if ← isKind .eof then return none else return some (← g.decl)) (← bound)
      return ⟨p, n, imports ++ decls, comments⟩ : Reader File).Answers fun f => f.pos = p :=
    answers_bind fun _ => answers_bind fun _ => answers_bind fun _ => gives_pure rfl
  exact (hrest s₁ f s' trivial h).2.trans (pos_packageClause hclause)

lemma comments_file : f.comments = comments := by
  have hfile : (g.file comments).Answers fun f => f.comments = comments :=
    answers_bind fun _ => answers_bind fun _ => answers_bind fun _ => answers_bind fun _ =>
      gives_pure rfl
  exact (hfile s f s' trivial h).2

lemma imports_file {start stop : Nat}
    (hitems : ∀ i ∈ s.items, i.token.kind = .keyword "package" ∨ i.token.Within start stop) :
    ∀ d ∈ f.decls, d.Within start stop := by
  obtain ⟨⟨⟨p, n⟩, s₁⟩, hclause, h⟩ := bind_eq_some_iff.mp h
  obtain ⟨⟨imports, s₂⟩, himports, h⟩ := bind_eq_some_iff.mp h
  have hs₁ := (gives_packageClause hitems s _ s₁ rfl hclause).1
  have hwithin := (gives_imports hitems g s₁ imports s₂ hs₁ himports).2
  have hrest : (do
      let decls ← many (do
        if ← isKind .eof then return none else return some (← g.decl)) (← bound)
      return ⟨p, n, imports ++ decls, comments⟩ : Reader File).Answers fun f =>
        ∀ d ∈ f.decls, d.Within start stop := by
    refine answers_bind fun _ => gives_bind (gives_many (fun d => blockOf d = none) ?_ _)
      fun decls hdecls => gives_pure (forall_mem_append.mpr ⟨hwithin, fun d hd b hb => ?_⟩)
    · exact answers_bind fun _ => answers_ite gives_none (gives_some (answers_decl g))
    · cases (hdecls d hd).symm.trans hb
  exact (hrest s₂ f s' trivial h).2

end

end Grammar

lemma Tokens.exists_run {t : Tokens} {f : File} (h : t.file? = some f) :
    ∃ s, ((Grammar.upTo t.depth).file t.comments).run ⟨t.items, 0, 0, false⟩ = some (f, s) := by
  obtain ⟨⟨f', s⟩, hrun, rfl⟩ := map_eq_some_iff.mp h
  exact ⟨s, hrun⟩

end ReactiveModel.Source
