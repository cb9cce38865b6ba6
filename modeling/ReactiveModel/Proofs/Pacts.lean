import ReactiveModel.Proofs.Interleaving

/-! Tasks that rely on each other. A task may rely on what the other tasks do to files between its
actions, and guarantees what its own actions do; when each task relies only on what the others
guarantee, all orders of their actions end as each task promises. -/

namespace ReactiveModel

open List

/-- What a task may rely on between its actions, and what it guarantees of each of them. -/
structure Terms where
  rely : Files → Files → Prop
  guarantee : Files → Files → Prop
  refl : ∀ f, rely f f
  trans : ∀ {f g h}, rely f g → rely g h → rely f h
  /-- To look at files is always allowed. -/
  look : ∀ f, guarantee f f

namespace Work

variable {α β : Type} {t : Work α} {post : α → Files → Prop}

/-- A task that, from given files on, keeps to terms and ends as promised. -/
def Upholds (c : Terms) (post : α → Files → Prop) : Work α → Files → Prop
  | .done a, f => ∀ g, c.rely f g → post a g
  | .read p next, f => ∀ g r, c.rely f g → g.read p = r → (next r).Upholds c post g
  | .list p next, f => ∀ g r, c.rely f g → g.list p = r → (next r).Upholds c post g
  | .act a next, f => ∀ g r g', c.rely f g → g.act a = (r, g') →
      c.guarantee g g' ∧ (next r).Upholds c post g'

variable {c : Terms} {f g : Files} {k : α → Work β} {p : String}
  {next : Option FileFailure → Work α}

lemma Upholds.of_rely (h : t.Upholds c post f) (hfg : c.rely f g) : t.Upholds c post g := by
  cases t with
  | done a => exact fun k hk => h k (c.trans hfg hk)
  | read p next | list p next => exact fun k r hk => h k r (c.trans hfg hk)
  | act a next =>
    exact fun k r k' hk => h k r k' (c.trans hfg hk)

lemma Upholds.mono {c' : Terms} {post post' : α → Files → Prop}
    (h : t.Upholds c post f) (hrely : ∀ f g, c'.rely f g → c.rely f g)
    (hguarantee : ∀ f g, c.guarantee f g → c'.guarantee f g)
    (hpost : ∀ a g, post a g → post' a g) : t.Upholds c' post' f := by
  induction t generalizing f with
  | done a => exact fun g hg => hpost a g (h g (hrely f g hg))
  | read p next ih | list p next ih =>
    exact fun g r hg hr => ih r (h g r (hrely f g hg) hr)
  | act a next ih =>
    exact fun g r g' hg hr => (h g r g' (hrely f g hg) hr).imp (hguarantee g g') (ih r)

lemma Upholds.bind {post' : β → Files → Prop} (h : t.Upholds c post f)
    (hk : ∀ a g, post a g → (k a).Upholds c post' g) : (t >>= k).Upholds c post' f := by
  induction t generalizing f with
  | done a => exact hk a f (h f (c.refl f))
  | read p next ih | list p next ih => exact fun g r hg hr => ih r (h g r hg hr)
  | act a next ih =>
    exact fun g r g' hg hr => (h g r g' hg hr).imp_right (ih r)

lemma Upholds.step {t u : Work α} (h : t.Upholds c post f)
    (hs : t.step? f = some (u, g)) : c.guarantee f g ∧ u.Upholds c post g := by
  cases t with
  | done a => nomatch hs
  | read p next | list p next =>
    cases hs
    exact ⟨c.look f, h f _ (c.refl f) rfl⟩
  | act a next =>
    cases hs
    exact h f _ _ (c.refl f) rfl

lemma Upholds.run (h : t.Upholds c post f) : post (t.run f).1 (t.run f).2 := by
  induction t generalizing f with
  | done a => exact h f (c.refl f)
  | read p next ih | list p next ih => exact ih _ (h f _ (c.refl f) rfl)
  | act a next ih =>
    exact ih _ (h f _ _ (c.refl f) rfl).2

/-! A task that only looks at files. -/

/-- A task that changes nothing, and gives what is promised whatever it finds. -/
def Looks (post : α → Prop) : Work α → Prop
  | .done a => post a
  | .read _ next => ∀ r, (next r).Looks post
  | .list _ next => ∀ r, (next r).Looks post
  | .act _ _ => False

lemma Looks.bind {post : β → Prop} (h : t.Looks fun a => (k a).Looks post) :
    (t.bind k).Looks post := by
  induction t with
  | done a => exact h
  | read p next ih | list p next ih => exact fun r => ih r (h r)
  | act => cases h

lemma Looks.mono {post post' : α → Prop} (h : t.Looks post) (hpost : ∀ a, post a → post' a) :
    t.Looks post' := by
  induction t with
  | done a => exact hpost a h
  | read p next ih | list p next ih => exact fun r => ih r (h r)
  | act => cases h

lemma Looks.upholds {post : α → Prop} (h : t.Looks post) :
    t.Upholds c (fun a g => post a ∧ c.rely f g) f := by
  induction t generalizing f with
  | done a => exact fun g hg => ⟨h, hg⟩
  | read p next ih | list p next ih =>
    exact fun g r hg _ => (ih r (h r)).mono (fun _ _ => id) (fun _ _ => id) fun a g' ha =>
      ⟨ha.1, c.trans hg ha.2⟩
  | act => cases h

/-! A task that does, whatever happens meanwhile, what it does alone. -/

/-- A task that gives from files `g` on what it gives alone from files `h` on, and leaves files that
are still alike. -/
def Mirrors (c : Terms) (alike : Files → Files → Prop) (t : Work α) (h g : Files) : Prop :=
  t.Upholds c (fun a g' => a = (t.run h).1 ∧ alike (t.run h).2 g') g

variable {alike : Files → Files → Prop} {h : Files}

lemma mirrors_done {a : α} (halike : ∀ g', c.rely g g' → alike h g') :
    (done a).Mirrors c alike h g :=
  fun g' hg => ⟨rfl, halike g' hg⟩

/-! An action that finds the same in both files. -/

lemma mirrors_read {next : Except FileFailure (List UInt8) → Work α}
    (hstep : ∀ g', c.rely g g' → g'.read p = h.read p ∧ (next (h.read p)).Mirrors c alike h g') :
    (read p next).Mirrors c alike h g := by
  intro g' r hg hr
  obtain ⟨hsame, hrest⟩ := hstep g' hg
  rw [← hr, hsame]
  exact hrest

lemma mirrors_act {a : FileAction}
    (hstep : ∀ g', c.rely g g' → c.guarantee g' (g'.act a).2 ∧
      (g'.act a).1 = (h.act a).1 ∧
      (next (h.act a).1).Mirrors c alike (h.act a).2 (g'.act a).2) :
    (act a next).Mirrors c alike h g := by
  intro g' r g'' hg hr
  obtain ⟨hguarantee, hsame, hrest⟩ := hstep g' hg
  obtain rfl := (congrArg Prod.fst hr).symm.trans hsame
  obtain rfl := congrArg Prod.snd hr
  exact ⟨hguarantee, hrest⟩

lemma mirrors_create_failed (hh : ∃ e, h.create p = (some e, h))
    (hg : ∀ g', c.rely g g' → ∃ e, g'.create p = (some e, g')) (hnext : ∀ e, next (some e) = t)
    (ht : ∀ g', c.rely g g' → t.Mirrors c alike h g') : (create p next).Mirrors c alike h g := by
  intro g' r g'' hgg' hr
  obtain ⟨e, he⟩ := hh
  obtain ⟨e', he'⟩ := hg g' hgg'
  have hrun : (create p next).run h = t.run h := by
    rw [run, Files.act, he, hnext]
  cases he'.symm.trans hr
  rw [hrun, hnext]
  exact ⟨c.look g', ht g' hgg'⟩

lemma mirrors_bind (ht : t.Mirrors c alike h g)
    (hk : ∀ g', alike (t.run h).2 g' → (k (t.run h).1).Mirrors c alike (t.run h).2 g') :
    (t >>= k).Mirrors c alike h g := by
  refine Upholds.bind ht ?_
  rintro a g' ⟨rfl, halike⟩
  have hrun : (t >>= k).run h = (k (t.run h).1).run (t.run h).2 := run_bind t k h
  rw [hrun]
  exact hk g' halike

end Work

/-- Terms, and what a task promises in the end. -/
structure Pact (α : Type) extends Terms where
  post : α → Files → Prop

/-- Each of two tasks guarantees what the other one relies on. -/
def Pact.Agree {α : Type} (p q : Pact α) : Prop :=
  (∀ f g, p.guarantee f g → q.rely f g) ∧ ∀ f g, q.guarantee f g → p.rely f g

namespace Run

variable {α : Type} {ts : List (Text × Work α)} {f g : Files} {os : List (Text × α)}

/-- Tasks that uphold pacts, each its own. -/
def AllUphold (ps : List (Pact α)) (ts : List (Text × Work α)) (f : Files) : Prop :=
  List.Forall₂ (fun p t => t.2.Upholds p.toTerms p.post f) ps ts

variable {ps : List (Pact α)}

/-- One action keeps all pacts, and is guaranteed by one of them. -/
lemma AllUphold.advance {us : List (Text × Work α)} (h : AllUphold ps ts f)
    (hagree : ps.Pairwise Pact.Agree) (ha : Advance ts f us g) :
    AllUphold ps us g ∧ ∃ p ∈ ps, p.guarantee f g := by
  induction ha generalizing ps with
  | first hs =>
    obtain _ | ⟨hp, hps⟩ := h
    rename_i p ps
    obtain ⟨hfirst, -⟩ := pairwise_cons.mp hagree
    obtain ⟨hguarantee, hrest⟩ := hp.step hs
    refine ⟨.cons hrest ?_, p, mem_cons_self, hguarantee⟩
    refine ((forall₂_and_left ps _).mpr ⟨hfirst, hps⟩).imp ?_
    exact fun q t ⟨hagree, hq⟩ => hq.of_rely (hagree.1 _ _ hguarantee)
  | later ha ih =>
    obtain _ | ⟨hp, hps⟩ := h
    obtain ⟨hfirst, hrest⟩ := pairwise_cons.mp hagree
    obtain ⟨hus, q, hq, hguarantee⟩ := ih hps hrest
    exact ⟨.cons (hp.of_rely ((hfirst q hq).2 _ _ hguarantee)) hus, q,
      mem_cons_of_mem _ hq, hguarantee⟩

/-- In any order of their actions tasks end as they promise, and what they guarantee together holds
of the whole run. -/
lemma Interleaved.upholds (h : Interleaved ts f os g) (hup : AllUphold ps ts f)
    (hagree : ps.Pairwise Pact.Agree) (all : Files → Files → Prop) (hrefl : ∀ f, all f f)
    (htrans : ∀ {f g h}, all f g → all g h → all f h)
    (hall : ∀ p ∈ ps, ∀ f g, p.guarantee f g → all f g) :
    List.Forall₂ (fun p o => p.post o.2 g) ps os ∧ all f g := by
  induction h with
  | done os f =>
    refine ⟨(forall₂_map_right_iff.mp hup).imp fun p o hp => ?_, hrefl f⟩
    exact hp f (p.refl f)
  | step ha _ ih =>
    obtain ⟨hus, p, hp, hguarantee⟩ := hup.advance hagree ha
    obtain ⟨hposts, hrest⟩ := ih hus
    exact ⟨hposts, htrans (hall p hp _ _ hguarantee) hrest⟩

/-! Tasks that keep an invariant together. -/

/-- Terms that carry an invariant only. -/
def keeping (inv : Files → Prop) : Terms where
  rely f g := inv f → inv g
  guarantee f g := inv f → inv g
  refl _ := id
  trans hfg hgh := hgh ∘ hfg
  look _ := id

lemma Interleaved.keeps {inv : Files → Prop} (h : Interleaved ts f os g)
    (hts : ∀ t ∈ ts, t.2.Upholds (keeping inv) (fun _ g => inv g) f) (hf : inv f) : inv g := by
  let pact : Pact α := { keeping inv with post := fun _ g => inv g }
  have hup : AllUphold (ts.map fun _ => pact) ts f :=
    forall₂_map_left_iff.mpr (forall₂_same.mpr hts)
  have hagree : (ts.map fun _ => pact).Pairwise Pact.Agree :=
    pairwise_map.mpr (pairwise_of_forall fun _ _ => ⟨fun _ _ h => h, fun _ _ h => h⟩)
  refine (h.upholds hup hagree (fun f g => inv f → inv g) (fun _ => id) (fun hfg hgh => hgh ∘ hfg)
    fun p hp => ?_).2 hf
  obtain ⟨t, -, rfl⟩ := mem_map.mp hp
  exact fun _ _ h => h

/-! Other files are looked at when imports are resolved, and that is all. -/

lemma looks_readFiles {post : List (List UInt8) → Prop} (dir : String) (names : List String)
    (hpost : ∀ contents, post contents) : (readFiles dir names).Looks post := by
  induction names generalizing post with
  | nil => exact hpost []
  | cons n ns ih => exact fun r => Work.Looks.bind (ih fun contents => hpost _)

lemma looks_resolveImports (path text : String) : (resolveImports path text).Looks fun r =>
    ∃ others, (Imports.isIncomplete text = false → others = []) ∧
      r = Imports.resolve others text := by
  unfold resolveImports
  cases hincomplete : Imports.isIncomplete text with
  | false => exact ⟨[], fun _ => rfl, rfl⟩
  | true =>
    intro listed
    refine Work.Looks.bind (Work.Looks.bind (looks_readFiles _ _ fun contents => ?_))
    exact ⟨_, nofun, rfl⟩

end Run

end ReactiveModel
