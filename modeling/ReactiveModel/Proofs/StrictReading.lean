import ReactiveModel.Proofs.KnownKeys

/-! Keys of YAML documents. A mapping that is read as a record may take entries from other mappings,
which it merges, and any node may be a reference to another one. Where a reading ends without
complaint, each key that is a text is a field of the record that the mapping was read as. -/

namespace ReactiveModel

open List

namespace Yaml

variable {r : Record} {p : Part} {s : Text} {m : Meaning} {n : Node} {l : Nat} {t : String}

/-- The keys and values of a mapping. -/
abbrev Entries := List (Node × Node)

/-- The entries of a mapping itself. -/
def unmerged (es : Entries) : Entries := es.filter (!Decode.isMerge ·.1)

namespace Node

/-- The node itself, or the one that it refers to. -/
def pointee : Node → Node
  | .reference _ _ (some n) => n
  | n => n

/-- A scalar stands for a text with a meaning. -/
def Means (n : Node) (m : Meaning) (s : Text) : Prop :=
  ∃ l tag text, n.pointee = .scalar l tag text ∧ ∀ t, Decode.scalar tag text t = .ok ((m, s), t)

/-- A key names something unless it is null. -/
def Names (n : Node) (s : Text) : Prop := ∃ m, m ≠ .null ∧ n.Means m s

mutual

/-- The entries that a node adds where it is merged. -/
def merged : Node → Entries
  | .scalar .. => []
  | .sequence _ _ ns => mergedAll ns
  | .mapping _ _ es => unmerged es ++ mergedInto es
  | .reference _ _ none => []
  | .reference _ _ (some n) => merged n

def mergedAll : List Node → Entries
  | [] => []
  | n :: ns => merged n ++ mergedAll ns

/-- The entries that a mapping takes from others; its last merge counts. -/
def mergedInto : Entries → Entries
  | [] => []
  | (k, v) :: es =>
    if es.any (Decode.isMerge ·.1) then mergedInto es
    else if Decode.isMerge k then merged v else []

end

end Node

lemma mergedInto_eq (es : Entries) :
    Node.mergedInto es =
      ((es.filter (Decode.isMerge ·.1)).getLast?.map (Node.merged ·.2)).getD [] := by
  induction es with
  | nil => rfl
  | cons e es ih =>
    rw [Node.mergedInto, filter_cons]
    cases hrest : es.filter (Decode.isMerge ·.1) with
    | nil =>
      have hany : es.any (Decode.isMerge ·.1) = false := by
        simpa using hrest
      rw [hany]
      cases hk : Decode.isMerge e.1 <;> simp
    | cons e' rest =>
      have hmem : e' ∈ es.filter (Decode.isMerge ·.1) := hrest ▸ .head _
      rw [if_pos (any_eq_true.mpr ⟨e', mem_filter.mp hmem⟩), ih, hrest]
      cases hk : Decode.isMerge e.1 <;> simp

lemma merged_pointee (n : Node) : n.pointee.merged = n.merged := by
  cases n with
  | reference l name target =>
    cases target with
    | none => rfl
    | some m => rw [Node.pointee, Node.merged]
  | scalar | sequence | mapping => rfl

/-- The first entry with a name has a value. -/
inductive Leads (s : Text) (v : Node) : Entries → Prop
  | here {k : Node} {es : Entries} (h : k.Names s) : Leads s v ((k, v) :: es)
  | there {e : Node × Node} {es : Entries} (hne : ¬ e.1.Names s) (h : Leads s v es) :
      Leads s v (e :: es)

/-- A value is read under a name. Entries that are merged come last, and only the first of a name
among them counts, if the mapping has no such text as a key of its own. -/
inductive Reads (es : Entries) (s : Text) (v : Node) : Prop
  | own {k : Node} (hmem : (k, v) ∈ unmerged es) (h : k.Names s)
  | merged (h : Leads s v (Node.mergedInto es)) (hfree : ∀ e ∈ es, ¬ e.1.Means .text s)

/-- A mapping with the given entries is read as a record, somewhere in a node. Nothing in a count is
told. -/
inductive Holds : Part → Node → Record → Entries → Prop
  | here {n : Node} {l : Nat} {t : String} {r : Record} {es : Entries}
      (hn : n.pointee = .mapping l t es) : Holds (.one r) n r es
  | field {n v : Node} {l : Nat} {t : String} {r r' : Record} {es es' : Entries}
      {s : Text} {p : Part} (hn : n.pointee = .mapping l t es) (hreads : Reads es s v)
      (hpart : (s.shown, p) ∈ r.fields) (h : Holds p v r' es') : Holds (.one r) n r' es'
  | item {n i : Node} {l : Nat} {t : String} {ns : List Node} {r r' : Record}
      {es' : Entries} (hn : n.pointee = .sequence l t ns) (hmem : i ∈ ns)
      (h : Holds (.one r) i r' es') : Holds (.each r) n r' es'
  | entry {n v : Node} {l : Nat} {t : String} {r r' : Record} {es es' : Entries}
      {s : Text} (hn : n.pointee = .mapping l t es) (hreads : Reads es s v)
      (h : Holds (.one r) v r' es') : Holds (.named r) n r' es'

/-- The keys of a mapping and of those that it merges are fields of a record. Only a key that looks
like a merge is passed over where it is merged itself. -/
def FieldsOnly (r : Record) (es : Entries) : Prop :=
  (∀ e ∈ unmerged es, ∀ s, e.1.Names s → s.shown ∈ r.names) ∧
    ∀ e ∈ Node.mergedInto es, ∀ s, e.1.Names s → s.shown ∈ r.names ∨ s = "<<"

/-- All keys of records in a node are fields. -/
def KeysKnown (p : Part) (n : Node) : Prop := ∀ r es, Holds p n r es → FieldsOnly r es

variable {es : Entries}

lemma exists_leads (h : ∃ e ∈ es, e.1.Names s) : ∃ v, Leads s v es := by
  induction es with
  | nil =>
    obtain ⟨e, he, -⟩ := h
    nomatch he
  | cons e es ih =>
    by_cases hs : e.1.Names s
    · exact ⟨e.2, .here hs⟩
    · obtain ⟨e', he', hs'⟩ := h
      rcases mem_cons.mp he' with rfl | he'
      · exact absurd hs' hs
      · obtain ⟨v, hv⟩ := ih ⟨e', he', hs'⟩
        exact ⟨v, .there hs hv⟩

lemma leads_append {v : Node} {es' : Entries} (h : Leads s v (es ++ es')) :
    Leads s v es ∨ (Leads s v es' ∧ ∀ e ∈ es, ¬ e.1.Names s) := by
  induction es with
  | nil => exact .inr ⟨h, forall_mem_nil _⟩
  | cons e es ih =>
    cases h with
    | here hs => exact .inl (.here hs)
    | there hne h =>
      exact (ih h).imp (.there hne) fun ⟨hlater, hfree⟩ =>
        ⟨hlater, forall_mem_cons.mpr ⟨hne, hfree⟩⟩

lemma eq_of_isMerge {k : Node} (hk : Decode.isMerge k) (h : k.Means m s) : s = "<<" := by
  cases k with
  | scalar l tag text =>
    simp only [Decode.isMerge, Bool.and_eq_true, beq_iff_eq] at hk
    obtain ⟨rfl, rfl⟩ := hk
    obtain ⟨l', tag, text, hpointee, hrun⟩ := h
    cases hpointee
    have hmerge : Decode.scalar "!!merge" "<<" {} = .ok ((.text, "<<"), {}) := rfl
    cases (hrun {}).symm.trans hmerge
    rfl
  | sequence | mapping | reference => nomatch hk

lemma Node.Means.unique {m' : Meaning} {s' : Text} (h : n.Means m s) (h' : n.Means m' s') :
    m = m' ∧ s = s' := by
  obtain ⟨l, tag, text, hn, hrun⟩ := h
  obtain ⟨l', tag', text', hn', hrun'⟩ := h'
  cases hn.symm.trans hn'
  cases (hrun {}).symm.trans (hrun' {})
  exact ⟨rfl, rfl⟩

lemma fieldsOnly_of_reads (h : ∀ s v, Reads es s v → s.shown ∈ r.names) : FieldsOnly r es := by
  have hown : ∀ e ∈ unmerged es, ∀ s, e.1.Names s → s.shown ∈ r.names :=
    fun e he s hs => h s e.2 (.own he hs)
  refine ⟨hown, fun e he s hs => ?_⟩
  by_cases hfree : ∀ e ∈ es, ¬ e.1.Means .text s
  · obtain ⟨v, hv⟩ := exists_leads ⟨e, he, hs⟩
    exact .inl (h s v (.merged hv hfree))
  · push Not at hfree
    obtain ⟨e', he', hmeans⟩ := hfree
    cases hmerge : Decode.isMerge e'.1 with
    | true => exact .inr (eq_of_isMerge hmerge hmeans)
    | false =>
      exact .inl (hown e' (mem_filter.mpr ⟨he', by simp [hmerge]⟩) s ⟨.text, nofun, hmeans⟩)

lemma keysKnown_scalar (p : Part) (l : Nat) (tag text : String) :
    KeysKnown p (.scalar l tag text) := by
  intro r es hholds
  cases hholds <;> contradiction

lemma keysKnown_record
    (h : ∀ s v, Reads es s v → s.shown ∈ r.names ∧ ∀ p, (s.shown, p) ∈ r.fields → KeysKnown p v) :
    KeysKnown (.one r) (.mapping l t es) := by
  intro r' es' hholds
  cases hholds with
  | here hn =>
    cases hn
    exact fieldsOnly_of_reads fun s v hreads => (h s v hreads).1
  | field hn hreads hpart hholds =>
    cases hn
    exact (h _ _ hreads).2 _ hpart _ _ hholds

lemma keysKnown_each {ns : List Node} (h : ∀ n ∈ ns, KeysKnown (.one r) n) :
    KeysKnown (.each r) (.sequence l t ns) := by
  intro r' es' hholds
  cases hholds with
  | item hn hmem hholds =>
    cases hn
    exact h _ hmem _ _ hholds

lemma keysKnown_named (h : ∀ s v, Reads es s v → KeysKnown (.one r) v) :
    KeysKnown (.named r) (.mapping l t es) := by
  intro r' es' hholds
  cases hholds with
  | entry hn hreads hholds =>
    cases hn
    exact h _ _ hreads _ _ hholds

lemma KeysKnown.of_pointee (h : KeysKnown p n.pointee) : KeysKnown p n := by
  have htwice {m : Node} (hm : n.pointee = m) (hplain : m.pointee = m) :
      n.pointee.pointee = m := by rw [hm, hplain]
  intro r es hholds
  refine h r es ?_
  cases hholds with
  | here hn => exact .here (htwice hn rfl)
  | field hn hreads hpart hholds => exact .field (htwice hn rfl) hreads hpart hholds
  | item hn hmem hholds => exact .item (htwice hn rfl) hmem hholds
  | entry hn hreads hholds => exact .entry (htwice hn rfl) hreads hholds

namespace Decode

/-- Nothing is complained about. -/
abbrev Clean (t : Tally) : Prop := t.complaints = []

section

variable {α β : Type} {target : String} {xs : List α} {ofScalar : Meaning → Text → Option α}
  {ofItems : Option (List Node → Decoding α)} {read : Node → Decoding (Option α)}

lemma yields_complain (line : Nat) (message : String) (P : PUnit → Prop) :
    Yields Clean (complain line message) P := by
  intro t a t' hrun hclean
  cases hrun
  exact absurd hclean (append_ne_nil_of_right_ne_nil _ (cons_ne_nil _ _))

lemma yields_misfit (target : String) (n : Node) (P : Option α → Prop) :
    Yields Clean (misfit target n) P :=
  (yields_complain _ _ fun _ => False).bind fun _ => .pure False.elim

lemma yields_modify {f : Tally → Tally} (h : ∀ t, (f t).complaints = t.complaints) :
    Yields Clean (modify f : Decoding PUnit) fun _ => True := by
  intro t a t' hrun hclean
  cases hrun
  exact ⟨(h t).symm.trans hclean, trivial⟩

lemma yields_visit : Yields Clean visit fun _ => True := by
  refine (yields_modify (by intro; rfl)).bind fun _ =>
    Yields.bind (P := fun _ => True) ?_ fun t => ?_
  · intro t a t' hrun hclean
    cases hrun
    exact ⟨hclean, trivial⟩
  · split
    · exact .throw
    · exact .pure fun _ _ => trivial

lemma yields_follow {f : Node → Decoding α} {P : Node → α → Prop}
    (h : ∀ m, Yields Clean (f m) (P m)) (n : Node) : Yields Clean (follow f n) (P n.pointee) := by
  refine yields_visit.bind fun _ => ?_
  split
  · exact .throw
  · refine (yields_modify (by intro; rfl)).bind fun _ => yields_visit.bind fun _ =>
      (h _).bind fun a => ?_
    exact (yields_modify (by intro; rfl)).bind fun _ => .pure fun _ ha _ _ _ => ha
  · rename_i hsome
    have hn : n.pointee = n := by
      cases n with
      | reference l name target =>
        cases target with
        | none => rfl
        | some m => exact absurd rfl (hsome l name m)
      | scalar | sequence | mapping => rfl
    rw [hn]
    exact (h n).mono fun _ ha _ => ha

/-- A reading that neither looks at what came before nor leaves anything behind. -/
def Steady (x : Decoding α) : Prop := ∃ r : Except Stop α, ∀ t, x t = r.map (·, t)

lemma steady_pure (a : α) : Steady (pure a) := ⟨.ok a, fun _ => rfl⟩

lemma steady_throw (e : Stop) : Steady (throw e : Decoding α) := ⟨.error e, fun _ => rfl⟩

lemma Steady.yields {x : Decoding α} (h : Steady x) :
    Yields Clean x fun a => ∀ t, x t = .ok (a, t) := by
  obtain ⟨r, hr⟩ := h
  intro t a t' hrun hclean
  rw [hr] at hrun
  cases r with
  | error e => nomatch hrun
  | ok r =>
    cases hrun
    exact ⟨hclean, hr⟩

lemma steady_scalar (tag text : String) : Steady (scalar tag text) := by
  unfold scalar
  repeat' split
  all_goals first | exact steady_pure _ | exact steady_throw _

lemma yields_forIn {f : α → PUnit → Decoding (ForInStep PUnit)} {P : α → Prop}
    (h : ∀ x u, Yields Clean (f x u) fun r => r = .yield ⟨⟩ ∧ P x) :
    Yields Clean (forIn xs ⟨⟩ f) fun _ => ∀ x ∈ xs, P x := by
  induction xs with
  | nil => exact .pure (forall_mem_nil _)
  | cons x xs ih =>
    rw [forIn_cons]
    refine (h x _).bind fun r => ?_
    cases r with
    | done u => exact .pure fun hstep => nomatch hstep.1
    | yield u =>
      exact ih.mono fun _ hrest hstep => forall_mem_cons.mpr ⟨hstep.2, hrest⟩

lemma yields_filterMapM {f : α → Decoding (Option β)} {P : α → Option β → Prop}
    (h : ∀ x, Yields Clean (f x) (P x)) :
    Yields Clean (xs.filterMapM f) fun bs =>
      (∀ x ∈ xs, ∃ o, P x o) ∧ ∀ b ∈ bs, ∃ x ∈ xs, P x (some b) := by
  induction xs with
  | nil => exact .pure ⟨forall_mem_nil _, forall_mem_nil _⟩
  | cons x xs ih =>
    rw [filterMapM_cons]
    refine (h x).bind fun o => ?_
    have hlater {b : β} : (∃ y ∈ xs, P y (some b)) → ∃ y ∈ x :: xs, P y (some b) :=
      fun ⟨y, hy, hb⟩ => ⟨y, .tail _ hy, hb⟩
    cases o with
    | none =>
      exact ih.mono fun bs ⟨hall, hsome⟩ hx =>
        ⟨forall_mem_cons.mpr ⟨⟨none, hx⟩, hall⟩, fun b hb => hlater (hsome b hb)⟩
    | some c =>
      refine ih.bind fun bs => .pure fun ⟨hall, hsome⟩ hx =>
        ⟨forall_mem_cons.mpr ⟨⟨some c, hx⟩, hall⟩, forall_mem_cons.mpr ⟨?_, ?_⟩⟩
      · exact ⟨x, .head _, hx⟩
      · exact fun b hb => hlater (hsome b hb)

lemma yields_unique (es : Entries) : Yields Clean (unique es) (· = true) := by
  induction es with
  | nil => exact .pure rfl
  | cons e es ih =>
    refine (yields_forIn (P := fun _ => False) fun x _ => ?_).bind fun _ =>
      ih.bind fun b => .pure ?_
    · exact (yields_complain _ _ fun _ => False).bind fun _ => .pure False.elim
    · intro hb hnone
      rw [hb, Bool.true_and, List.isEmpty_iff]
      exact List.eq_nil_iff_forall_not_mem.mpr hnone

variable {ofEntries : Option (Entries → Decoding α)}

lemma yields_byKind {P : Node → Option α → Prop}
    (hnull : ∀ l tag text s, (∀ t, scalar tag text t = .ok ((.null, s), t)) →
      P (.scalar l tag text) none)
    (hscalar : ∀ l tag text m s, (∀ t, scalar tag text t = .ok ((m, s), t)) → m ≠ .null →
      ∀ a, ofScalar m s = some a → P (.scalar l tag text) (some a))
    (hitems : ∀ f ∈ ofItems, ∀ l t ns, Yields Clean (f ns) fun a => P (.sequence l t ns) (some a))
    (hentries : ∀ f ∈ ofEntries, ∀ l t es,
      Yields Clean (f es) fun a => P (.mapping l t es) (some a))
    (n : Node) : Yields Clean (byKind target ofScalar ofItems ofEntries n) (P n) := by
  cases n with
  | scalar l tag text =>
    refine (steady_scalar tag text).yields.bind fun r => ?_
    split
    · exact .pure (hnull l tag text _)
    · rename_i m s hne
      split
      · rename_i a ha
        exact .pure fun h => hscalar l tag text m s h hne a ha
      · exact yields_misfit _ _ _
  | sequence l t ns =>
    cases ofItems with
    | none => exact yields_misfit _ _ _
    | some f => exact (hitems f rfl l t ns).map fun _ => id
  | mapping l t es =>
    refine (yields_unique es).bind fun b => ?_
    split
    · cases ofEntries with
      | none => exact yields_misfit _ _ _
      | some f => exact (hentries f rfl l t es).map fun _ h _ => h
    · rename_i hb
      exact .pure fun h => absurd h hb
  | reference => exact .throw

/-! Keys and entries. -/

lemma yields_key (k : Node) :
    Yields Clean (follow text k) fun o => ∀ s, k.Names s ↔ o = some s := by
  refine (yields_follow (P := fun m o => ∀ n : Node, n.pointee = m → ∀ s, n.Names s ↔ o = some s)
    (yields_byKind ?_ ?_ (by nofun) (by nofun)) k).mono fun o h => h k rfl
  · refine fun l tag text s hrun n hn s' => ⟨fun ⟨m, hm, hmeans⟩ => ?_, nofun⟩
    exact absurd (hmeans.unique ⟨l, tag, text, hn, hrun⟩).1 hm
  · intro l tag text m s hrun hm a ha n hn s'
    cases ha
    refine ⟨fun ⟨m', _, hmeans⟩ => ?_, fun h => ?_⟩
    · rw [(hmeans.unique ⟨l, tag, text, hn, hrun⟩).2]
    · cases h
      exact ⟨m, hm, l, tag, text, hn, hrun⟩

lemma yields_textKeys (es : Entries) :
    Yields Clean (textKeys es) fun T => ∀ s ∈ T, ∃ e ∈ es, e.1.Means .text s := by
  refine (yields_filterMapM (P := fun e o => ∀ s, o = some s → e.1.Means .text s) fun e => ?_).mono
    fun T h s hs => (h.2 s hs).imp fun e he => ⟨he.1, he.2 s rfl⟩
  refine (yields_follow (P := fun m o => ∀ n : Node, n.pointee = m → ∀ s, o = some s →
    n.Means .text s) (fun m => ?_) e.1).mono fun o h => h e.1 rfl
  split
  · refine (steady_scalar _ _).yields.bind fun r => ?_
    split
    · refine .pure fun hrun n hn s hs => ?_
      cases hs
      exact ⟨_, _, _, hn, hrun⟩
    · exact .pure nofun
  · exact .pure nofun

lemma yields_mergeSources (v : Node) :
    Yields Clean (mergeSources v) fun ns => Node.mergedAll ns = v.merged := by
  unfold mergeSources
  split
  · refine (yields_forIn (P := fun _ => True) fun n _ => ?_).bind fun _ => .pure fun _ => ?_
    · split
      · exact .pure ⟨rfl, trivial⟩
      · exact .pure ⟨rfl, trivial⟩
      · exact .throw
    · rw [Node.merged]
  · exact .pure (append_nil _)
  · exact .pure (append_nil _)
  · exact .throw

variable {Q : Text → Node → Prop} {T T' T'' : List Text} {es es' : Entries}

/-- Entries were read past the names that are taken: the first of each other name, and all names
are taken then. -/
structure Covers (Q : Text → Node → Prop) (T : List Text) (es : Entries)
    (T' : List Text) : Prop where
  reads : ∀ s v, Leads s v es → s ∉ T → Q s v
  names : ∀ s, s ∈ T' ↔ s ∈ T ∨ ∃ e ∈ es, e.1.Names s

lemma Covers.nil : Covers Q T [] T := ⟨nofun, fun s => by simp⟩

lemma Covers.append (h : Covers Q T es T') (h' : Covers Q T' es' T'') :
    Covers Q T (es ++ es') T'' := by
  refine ⟨fun s v hleads hs => ?_, fun s => ?_⟩
  · rcases leads_append hleads with hfirst | ⟨hlater, hfree⟩
    · exact h.reads s v hfirst hs
    · refine h'.reads s v hlater fun hs' => ?_
      rcases (h.names s).mp hs' with hs' | ⟨e, he, hnames⟩
      · exact hs hs'
      · exact hfree e he hnames
  · simp only [h'.names, h.names, mem_append, or_assoc, or_and_right, exists_or]

lemma Covers.nameless {e : Node × Node} (h : Covers Q T es T') (he : ∀ s, ¬ e.1.Names s) :
    Covers Q T (e :: es) T' := by
  refine ⟨fun s v hleads hs => ?_, fun s => ?_⟩
  · cases hleads with
    | here hnames => exact absurd hnames (he s)
    | there _ hleads => exact h.reads s v hleads hs
  · simp only [h.names, exists_mem_cons_iff, he, false_or]

lemma Covers.named {k v : Node} {s : Text} (h : Covers Q T es T')
    (hk : ∀ s', k.Names s' ↔ s = s') (hT : ∀ s', s' ∈ T ↔ s = s' ∨ s' ∈ T'')
    (hread : s ∉ T'' → Q s v) : Covers Q T'' ((k, v) :: es) T' := by
  refine ⟨fun s' v' hleads hs => ?_, fun s' => ?_⟩
  · cases hleads with
    | here hnames =>
      obtain rfl := (hk s').mp hnames
      exact hread hs
    | there hne hleads =>
      refine h.reads s' v' hleads fun hmem => ?_
      rcases (hT s').mp hmem with heq | hmem
      · exact hne ((hk s').mpr heq)
      · exact hs hmem
  · rw [h.names, hT, exists_mem_cons_iff, hk, or_assoc, or_left_comm]

/-- Entries were read, all of them where no names are taken. -/
inductive Covered (Q : Text → Node → Prop) (es : Entries) :
    Option (List Text) → Option (List Text) → Prop
  | all (h : ∀ e ∈ es, ∀ s, e.1.Names s → Q s e.2) : Covered Q es none none
  | past {T T' : List Text} (h : Covers Q T es T') : Covered Q es (some T) (some T')

/-- A step through mappings that are merged. -/
def Merges (Q : Text → Node → Prop) (es : Entries) (taken taken' : Option (List Text)) :
    Prop :=
  ∀ T ∈ taken, ∃ T' ∈ taken', Covers Q T es T'

lemma yields_foldlM_merged
    {step : α × Option (List Text) → Node → Decoding (α × Option (List Text))}
    (h : ∀ r n, Yields Clean (step r n) fun r' => Merges Q n.merged r.2 r'.2) (ns : List Node)
    (r : α × Option (List Text)) :
    Yields Clean (ns.foldlM step r) fun r' => Merges Q (Node.mergedAll ns) r.2 r'.2 := by
  induction ns generalizing r with
  | nil => exact .pure fun T hT => ⟨T, hT, .nil⟩
  | cons n ns ih =>
    refine (h r n).bind fun r' => (ih r').mono fun r'' hrest hfirst T hT => ?_
    obtain ⟨T', hT', hcovers⟩ := hfirst T hT
    obtain ⟨T'', hT'', hcovers'⟩ := hrest T' hT'
    exact ⟨T'', hT'', hcovers.append hcovers'⟩

lemma yields_ofMapping {read : Entries → Decoding β} {otherwise : β} {P : Entries → β → Prop}
    (h : ∀ es, Yields Clean (read es) (P (unmerged es ++ Node.mergedInto es))) (n : Node) :
    Yields Clean (ofMapping read otherwise n) (P n.merged) := by
  cases n with
  | mapping l t es =>
    refine (yields_unique es).bind fun b => ?_
    split
    · exact (h es).mono fun _ hread _ => hread
    · rename_i hb
      exact .pure fun h => absurd h hb
  | scalar | sequence | reference => exact .throw

variable {entry : Entry α}
  (hentry : ∀ before s l v a, Yields Clean (entry before s l v a) fun _ => Q s v)

include hentry in
lemma yields_ownEntries (es : Entries) (before : List Text) (taken : Option (List Text)) (a : α) :
    Yields Clean (ownEntries entry es before taken a) fun r =>
      Covered Q (unmerged es) taken r.2 := by
  induction es generalizing before taken a with
  | nil =>
    cases taken with
    | none => exact .pure (.all (forall_mem_nil _))
    | some T => exact .pure (.past .nil)
  | cons e es ih =>
    obtain ⟨k, v⟩ := e
    rw [ownEntries]
    split
    · rename_i hk
      rw [unmerged, filter_cons_of_neg (by simp [hk])]
      exact ih before taken a
    · rename_i hk
      rw [unmerged, filter_cons_of_pos (by simp [hk])]
      refine (yields_key k).bind fun o => ?_
      cases o with
      | none =>
        refine (ih before taken a).mono fun ⟨_, taken'⟩ hcovered hnames => ?_
        have hnone (s : Text) : ¬ k.Names s := fun h => nomatch (hnames s).mp h
        cases hcovered with
        | all h => exact .all (forall_mem_cons.mpr ⟨fun s hs => absurd hs (hnone s), h⟩)
        | past h => exact .past (h.nameless hnone)
      | some name =>
        simp only [Option.some.injEq]
        cases taken with
        | none =>
          refine (hentry _ _ _ _ _).bind fun a =>
            (ih _ none a).mono fun ⟨_, taken'⟩ hcovered hread hnames => ?_
          cases hcovered with
          | all h =>
            exact .all (forall_mem_cons.mpr ⟨fun s hs => (hnames s).mp hs ▸ hread, h⟩)
        | some T =>
          split
          · rename_i hmem
            refine (ih before (some T) a).mono fun ⟨_, taken'⟩ hcovered hnames => ?_
            cases hcovered with
            | past h => exact .past (h.named hnames (by grind) (by grind))
          · refine (hentry _ _ _ _ _).bind fun a =>
              (ih _ (some (name :: T)) a).mono fun ⟨_, taken'⟩ hcovered hread hnames => ?_
            cases hcovered with
            | past h => exact .past (h.named hnames (by grind) fun _ => hread)

include hentry in
lemma yields_allEntries (fuel : Nat) (es : Entries) (taken : Option (List Text)) (a : α) :
    Yields Clean (allEntries entry fuel es taken a) fun r =>
      (taken = none → ∀ s v, Reads es s v → Q s v) ∧
        Merges Q (unmerged es ++ Node.mergedInto es) taken r.2 := by
  induction fuel generalizing es taken a with
  | zero => exact .throw
  | succ fuel ih =>
    refine (yields_ownEntries hentry es [] taken a).bind fun ⟨a', taken'⟩ => ?_
    dsimp only
    split
    · rename_i hlast
      have hnone : Node.mergedInto es = [] := by rw [mergedInto_eq, hlast]; rfl
      refine .pure fun hcovered => ?_
      rw [hnone, append_nil]
      cases hcovered with
      | all h =>
        refine ⟨fun _ s v hreads => ?_, nofun⟩
        cases hreads with
        | own hmem hs => exact h _ hmem s hs
        | merged hleads => rw [hnone] at hleads; nomatch hleads
      | past h =>
        refine ⟨nofun, fun T hT => ?_⟩
        cases hT
        exact ⟨_, rfl, h⟩
    · rename_i k source hlast
      have hmerged : Node.mergedInto es = source.merged := by rw [mergedInto_eq, hlast]; rfl
      rw [hmerged]
      have hstep (r : α × Option (List Text)) (n : Node) :
          Yields Clean (follow (ofMapping (allEntries entry fuel · r.2 r.1) r) n) fun r' =>
            Merges Q n.merged r.2 r'.2 := by
        rw [← merged_pointee n]
        refine yields_follow (P := fun m (r' : α × _) => Merges Q m.merged r.2 r'.2) (fun m => ?_) n
        exact yields_ofMapping (P := fun es (r' : α × _) => Merges Q es r.2 r'.2)
          (fun es => (ih es r.2 r.1).mono fun _ h => h.2) m
      cases taken' with
      | some T' =>
        refine (Yields.pure (P := (· = T')) rfl).bind fun first => (yields_mergeSources source).bind
          fun ns => (yields_foldlM_merged hstep ns _).bind fun r =>
            .pure fun hmerges hns hfirst hcovered => ?_
        cases hcovered with
        | past h =>
          refine ⟨nofun, fun T hT => ?_⟩
          cases hT
          cases hfirst
          obtain ⟨T'', hT'', h'⟩ := hmerges _ rfl
          exact ⟨T'', hT'', h.append (hns ▸ h')⟩
      | none =>
        refine (yields_textKeys es).bind fun first => (yields_mergeSources source).bind
          fun ns => (yields_foldlM_merged hstep ns _).bind fun r =>
            .pure fun hmerges hns hfirst hcovered => ?_
        cases hcovered with
        | all h =>
          refine ⟨fun _ s v hreads => ?_, nofun⟩
          obtain ⟨T'', -, h'⟩ := hmerges _ rfl
          cases hreads with
          | own hmem hs => exact h _ hmem s hs
          | merged hleads hfree =>
            refine h'.reads s v (hns ▸ hmerged ▸ hleads) fun hs => ?_
            obtain ⟨e, he, hmeans⟩ := hfirst s hs
            exact hfree e he hmeans

/-! Readers. -/

/-- Reading a node without complaint shows that its keys are known. -/
def Strict (p : Part) (read : Node → Decoding (Option α)) : Prop :=
  ∀ n, Yields Clean (read n) fun _ => KeysKnown p n

lemma Strict.follow (h : Strict p read) : Strict p (follow read) :=
  fun n => (yields_follow h n).mono fun _ => KeysKnown.of_pointee

lemma strict_byKind
    (hitems : ∀ f ∈ ofItems, ∀ l t ns, Yields Clean (f ns) fun _ => KeysKnown p (.sequence l t ns))
    (hentries : ∀ f ∈ ofEntries, ∀ l t es,
      Yields Clean (f es) fun _ => KeysKnown p (.mapping l t es)) :
    Strict p (byKind target ofScalar ofItems ofEntries) :=
  yields_byKind (fun l tag text _ _ => keysKnown_scalar p l tag text)
    (fun l tag text _ _ _ _ _ _ => keysKnown_scalar p l tag text) hitems hentries

lemma strict_optional (h : Strict p read) : Strict p (optional target read) := by
  intro n
  unfold optional
  split
  · split
    · exact (steady_scalar _ _).yields.bind fun _ => .pure fun _ => keysKnown_scalar p _ _ _
    · exact strict_byKind nofun nofun n
  · exact (h n).bind fun _ => .pure id

lemma strict_list {item : Node → Decoding (Option α)}
    (h : Strict (.one r) item) : Strict (.each r) (list target item) := by
  refine strict_byKind (fun f hf l t ns => ?_) nofun
  cases hf
  exact (yields_filterMapM h.follow).mono fun _ hitems =>
    keysKnown_each fun n hn => (hitems.1 n hn).choose_spec

/-- A field that is read strictly. -/
def StrictField (p : Part) (o : Option (Node → α → Decoding α)) : Prop :=
  ∃ set, o = some set ∧ ∀ n a, Yields Clean (set n a) fun _ => KeysKnown p n

lemma Strict.field {read : Node → Decoding (Option β)} (h : Strict p read) (set : β → α → α) :
    StrictField p (field read set) := by
  refine ⟨_, rfl, fun n a => (h.follow n).bind fun o => ?_⟩
  split
  · exact .pure id
  · exact .pure id

/-- A record is read strictly if all its fields are, and no others are known. -/
lemma strict_record {new : α} {fields : Fields α} {fuel : Nat}
    (h : r.fields.Forall fun e => StrictField e.2 (fields e.1))
    (hnames : ∀ f, (fields f).isSome → f ∈ r.names) :
    Strict (.one r) (record { fuel } target new fields) := by
  have hfields := forall_iff_forall_mem.mp h
  have hentry (before : List Text) (s : Text) (l : Nat) (v : Node) (a : α) :
      Yields Clean (fieldEntry true target fields before s l v a) fun _ =>
        s.shown ∈ r.names ∧ ∀ p, (s.shown, p) ∈ r.fields → KeysKnown p v := by
    unfold fieldEntry
    split
    · rename_i set hset
      have hmem : s.shown ∈ r.names := hnames _ (Option.isSome_of_mem hset)
      have hset' (p : Part) (hp : (s.shown, p) ∈ r.fields) :
          Yields Clean (set v a) fun _ => KeysKnown p v := by
        obtain ⟨set', hsome, hyields⟩ := hfields _ hp
        cases hset.symm.trans hsome
        exact hyields v a
      split
      · exact (yields_complain _ _ fun _ => False).bind fun _ => .pure False.elim
      · intro t b t' hrun hclean
        obtain ⟨p, hp⟩ := Record.exists_part hmem
        exact ⟨(hset' p hp t b t' hrun hclean).1, hmem,
          fun p hp => (hset' p hp t b t' hrun hclean).2⟩
    · exact (yields_complain _ _ fun _ => False).bind fun _ => .pure False.elim
  refine strict_byKind nofun fun f hf l t es => ?_
  cases hf
  exact (yields_allEntries hentry fuel es none new).bind fun _ => .pure fun hreads =>
    keysKnown_record (hreads.1 rfl)

end

/-! The parts of a description. -/

section

variable {fuel : Nat}

lemma strict_text : Strict .plain text := strict_byKind nofun nofun

lemma strict_flag : Strict .plain flag := strict_byKind nofun nofun

lemma strict_real : Strict .plain real := strict_byKind nofun nofun

lemma strict_count (m : Mode) : Strict .count (count m) := by
  intro n
  unfold count
  split
  · exact strict_byKind nofun nofun n
  · split
    · split
      · exact .pure nofun
      · exact .throw
    · intro t a t' hrun hclean
      split at hrun
      · nomatch hrun
      · cases hrun
        exact ⟨(append_eq_nil_iff.mp hclean).1, nofun⟩

lemma strict_binding : Strict (.one .binding) (binding { fuel }) := by
  have hdependency : Strict (.one .dependency) (dependency { fuel }) :=
    strict_record ⟨strict_text.field _, strict_text.field _⟩
      (by intro f; split <;> simp [Record.names, Record.fields])
  exact strict_record ⟨strict_text.field _, (strict_list hdependency).field _⟩
    (by intro f; split <;> simp [Record.names, Record.fields])

lemma strict_valueDescription : Strict (.one .value) (valueDescription { fuel }) :=
  strict_record
    ⟨(strict_optional strict_text).field _, (strict_optional strict_real).field _,
      (strict_optional strict_binding).field _⟩
    (by intro f; split <;> simp [Record.names, Record.fields])

lemma strict_properties : Strict (.named .value) (properties { fuel }) := by
  refine strict_byKind nofun fun f hf l t es => ?_
  cases hf
  have hread : Strict (.one .value) (optional "load.Value" (valueDescription { fuel })) :=
    strict_optional strict_valueDescription
  refine (yields_allEntries ?_ fuel es none []).bind
    fun _ => .pure fun hreads => keysKnown_named (hreads.1 rfl)
  intro _ _ _ v _
  refine (hread.follow v).bind fun o => ?_
  split
  · exact .pure id
  · exact .pure id

lemma strict_object (depth : Nat) : Strict (.one .object) (object { fuel } depth) := by
  induction depth with
  | zero => exact fun _ => .throw
  | succ depth ih =>
    refine fun n => (strict_optional (strict_record ?_ ?_) n).bind fun _ => .pure id
    · exact ⟨strict_text.field _, strict_text.field _, strict_properties.field _,
        (strict_list ih).field _⟩
    · intro f
      split <;> simp [Record.names, Record.fields]

lemma strict_classDescription : Strict (.one .classDescription) (classDescription { fuel }) := by
  have hproperty : Strict (.one .property) (property { fuel }) :=
    strict_record ⟨strict_text.field _, strict_text.field _⟩
      (by intro f; split <;> simp [Record.names, Record.fields])
  have hsignal : Strict (.one .signal) (signal { fuel }) :=
    strict_record ⟨strict_text.field _, strict_text.field _⟩
      (by intro f; split <;> simp [Record.names, Record.fields])
  have hfunction : Strict (.one .function) (function { fuel }) :=
    strict_record (strict_text.field _)
      (by intro f; split <;> simp [Record.names, Record.fields])
  have hresource : Strict (.one .resource) (resource { fuel }) :=
    strict_record ⟨strict_text.field _, strict_text.field _, strict_text.field _⟩
      (by intro f; split <;> simp [Record.names, Record.fields])
  have hreplicator : Strict (.one .replicator) (replicator { fuel }) :=
    strict_record
      ⟨strict_text.field _, strict_text.field _, (strict_count _).field _, strict_text.field _,
        strict_text.field _⟩
      (by intro f; split <;> simp [Record.names, Record.fields])
  exact strict_record
    ⟨strict_text.field _, strict_text.field _, strict_flag.field _, strict_text.field _,
      (strict_list hproperty).field _, (strict_list hsignal).field _,
      (strict_list hfunction).field _, (strict_list hresource).field _,
      (strict_list (strict_optional hreplicator)).field _, (strict_object fuel).field _⟩
    (by intro f; split <;> simp [Record.names, Record.fields])

lemma strict_description : Strict (.one .description) (description { fuel }) :=
  strict_record ((strict_list (strict_optional strict_classDescription)).field _)
    (by intro f; split <;> simp [Record.names, Record.fields])

/-- A document that is accepted has no other keys than fields, outside of its counts. -/
lemma keysKnown_of_document {n : Node} {d : Description}
    (h : document fuel n = .ok (d, [])) : KeysKnown (.one .description) n := by
  unfold document at h
  split at h
  · nomatch h
  · rename_i o t hrun
    obtain ⟨-, hclean⟩ := Prod.mk.inj (Except.ok.inj h)
    exact (strict_description.follow n _ o t hrun hclean).2

end

end Decode

end Yaml

lemma Json.Decode.count_cons_other {ms ms' : List (Text × Json)} {k : Text} {j : Json}
    (hk : fieldOf Record.value.names k = none) (old : ValueDraft) :
    count (.object (ms ++ (k, j) :: ms')) old = count (.object (ms ++ ms')) old := by
  have hvalue : valueDescription false (.object (ms ++ (k, j) :: ms')) old =
      valueDescription false (.object (ms ++ ms')) old := by
    have hk' : fieldOf ["string", "number", "binding"] k = none := hk
    simp [valueDescription, record, foldlM_append, hk']
  simp only [count, hvalue]

namespace Description

/-- In a document that is accepted all keys of records are fields, whether it is JSON or YAML, but
those of counts: there a key that is no field is passed over. -/
theorem accepted_keys_are_fields (bs : List UInt8) (d : Description) :
    (decode .json bs = .ok d →
      ∃ j, Json.read (Text.ofUtf8 bs) = .ok j ∧ Json.KeysKnown (.one .description) j) ∧
    (decode .yaml bs = .ok d →
      ∃ n, Yaml.document (.ofBytes bs) = some (some n) ∧ Yaml.KeysKnown (.one .description) n) ∧
    ∀ ms ms' k j old, Json.Decode.fieldOf Record.value.names k = none →
      Json.Decode.count (.object (ms ++ (k, j) :: ms')) old =
        Json.Decode.count (.object (ms ++ ms')) old := by
  refine ⟨fun h => ?_, fun h => ?_, fun ms ms' k j old hk => Json.Decode.count_cons_other hk old⟩
  · change ofJson _ = _ at h
    unfold ofJson at h
    split at h
    · cases h
    · cases h
    · rename_i j hread
      split at h
      · rename_i hdocument
        exact ⟨j, hread, Json.Decode.keysKnown_of_document hdocument⟩
      · cases h
      · cases h
  · change ofYaml bs = _ at h
    unfold ofYaml at h
    dsimp only at h
    split at h
    · cases h
    · cases h
    · rename_i n hread
      split at h
      · cases h
      · cases h
      · rename_i hdocument
        exact ⟨n, hread, Yaml.Decode.keysKnown_of_document hdocument⟩
      · cases h

/-- A document with cells of which there are so many. -/
def cellsText (count : String) : List UInt8 :=
  String.toUTF8 ("\x7b\"classes\":[\x7b\"replicators\":[\x7b\"count\":" ++ count ++
    "\x7d]\x7d]\x7d") |>.toList

theorem accepted_keys_cellsText :
    (∃ d, decode .json (cellsText "2") = .ok d ∧
      ∃ j, Json.read (Text.ofUtf8 (cellsText "2")) = .ok j ∧
        Json.KeysKnown (.one .description) j) ∧
    ∃ d, decode .yaml (cellsText "2") = .ok d ∧
      ∃ n, Yaml.document (.ofBytes (cellsText "2")) = some (some n) ∧
        Yaml.KeysKnown (.one .description) n := by
  have hok {f : Format} (h : (decode f (cellsText "2")).toBool = true) :
      ∃ d, decode f (cellsText "2") = .ok d := by
    cases hd : decode f (cellsText "2") with
    | error e =>
      rw [hd] at h
      nomatch h
    | ok d => exact ⟨d, rfl⟩
  obtain ⟨d, hd⟩ := hok (f := .json) (by decide +kernel)
  obtain ⟨d', hd'⟩ := hok (f := .yaml) (by decide +kernel)
  exact ⟨⟨d, hd, (accepted_keys_are_fields _ d).1 hd⟩,
    d', hd', (accepted_keys_are_fields _ d').2.1 hd'⟩

/-- A count may have a colour, and it says nothing. -/
theorem colour_of_count_is_accepted :
    "colour" ∉ Record.value.names ∧ ∀ f ∈ [Format.json, .yaml],
      (decode f (cellsText "\x7b\"colour\":1\x7d")).toBool = true ∧
      (decode f (cellsText "\x7b\"colour\":1\x7d")).toOption.bind json? =
        (decode f (cellsText "\x7b\x7d")).toOption.bind json? := by
  decide +kernel

end Description

end ReactiveModel
