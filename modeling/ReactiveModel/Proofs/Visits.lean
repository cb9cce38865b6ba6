import ReactiveModel.Proofs.TreeWalk

/-! What a visitor is called with. A tour passes it the pre-order of the tree that is left when what
is below the skipped nodes is taken away, up to the first reply that stops, and ends with that
reply. -/

namespace ReactiveModel

open List
namespace Tree

variable {α σ ε : Type}

mutual

def preorder : Tree α → List α
  | .node a ts => a :: preorderAll ts

def preorderAll : List (Tree α) → List α
  | [] => []
  | t :: ts => t.preorder ++ preorderAll ts

end

lemma preorderAll_eq (ts : List (Tree α)) : preorderAll ts = ts.flatMap preorder := by
  induction ts with
  | nil => rfl
  | cons t ts ih => simp [preorderAll, ih]

lemma nodes_eq_preorder (t : Tree α) : t.nodes = t.preorder := by
  induction t using inductOn with
  | h a ts ih =>
    rw [nodes_node, preorder, preorderAll_eq]
    exact congrArg (a :: ·) (flatMap_congr ih)

/-! ### Searches -/

section
variable {p : α → Bool}

private def lookout (p : α → Bool) (a : α) (s : Option α) : Turn Unit × Option α :=
  if p a then (.stop (), some a) else (.descend, s)

/-- How a search ends that has `s` so far and has the nodes `as` to see. -/
private def outcome (p : α → Bool) (as : List α) (s : Option α) : Option Unit × Option α :=
  ((as.find? p).map fun _ => (), (as.find? p).or s)

private lemma walkAll_lookout (ts : List (Tree α))
    (h : ∀ t ∈ ts, ∀ s, t.walk (lookout p) s = outcome p t.preorder s) (s : Option α) :
    walkAll (lookout p) ts s = outcome p (preorderAll ts) s := by
  induction ts with
  | nil => rfl
  | cons t ts ih =>
    simp only [walkAll, preorderAll, h t mem_cons_self, outcome, find?_append]
    cases t.preorder.find? p with
    | none => simpa [outcome] using ih fun u hu => h u (mem_cons_of_mem _ hu)
    | some a => rfl

private lemma walk_lookout (t : Tree α) : ∀ s, t.walk (lookout p) s = outcome p t.preorder s := by
  induction t using inductOn with
  | h a ts ih =>
    cases hp : p a with
    | false => simp [walk, lookout, outcome, preorder, hp, walkAll_lookout ts ih]
    | true => simp [walk, lookout, outcome, preorder, hp]

lemma find?_eq_preorder (p : α → Bool) (t : Tree α) : t.find? p = t.preorder.find? p := by
  rw [← Option.or_none (o := t.preorder.find? p)]
  exact congrArg Prod.snd (t.walk_lookout none)

end

/-! ### Replies -/

/-- A reply that asks to leave out what is below, in whatever it is wrapped or joined. -/
inductive Reply.Asks : Reply ε → Prop
  | skipChildren : Asks .skipChildren
  | wrap (e : ε) {r : Reply ε} : Asks r → Asks (.wrap e r)
  | join {r : Reply ε} {rs : List (Reply ε)} : r ∈ rs → Asks r → Asks (.join rs)

lemma Reply.anySkips_eq (rs : List (Reply ε)) : anySkips rs = rs.any skips := by
  induction rs with
  | nil => rfl
  | cons r rs ih => simp [anySkips, ih]

lemma Reply.asks_of_skips : ∀ {r : Reply ε}, r.skips = true → r.Asks
  | .skipChildren, _ => .skipChildren
  | .wrap e _, h => .wrap e (asks_of_skips (by simpa only [skips] using h))
  | .join rs, h => by
    rw [skips, anySkips_eq, any_eq_true] at h
    obtain ⟨r, hr, hs⟩ := h
    exact .join hr (asks_of_skips hs)

lemma Reply.skips_iff_asks (r : Reply ε) : r.skips = true ↔ r.Asks := by
  refine ⟨asks_of_skips, fun h => ?_⟩
  induction h with
  | skipChildren => rfl
  | wrap e _ ih => rwa [skips]
  | join hr _ ih => rw [skips, anySkips_eq, any_eq_true]; exact ⟨_, hr, ih⟩

/-- A node that a visitor was called with, and what it said there. -/
abbrev Call (α ε : Type) := α × Option (Reply ε)

/-- The reply, if it ends the tour. -/
def stop? (call : Call α ε) : Option (Reply ε) := call.2.filter (!·.skips)

/-- The calls up to the first that ends the tour, with that call. -/
def upToStop : List (Call α ε) → List (Call α ε)
  | [] => []
  | c :: cs => if (stop? c).isSome then [c] else c :: upToStop cs

lemma upToStop_of_go {c : Call α ε} (h : stop? c = none) (cs : List (Call α ε)) :
    upToStop (c :: cs) = c :: upToStop cs := by simp [upToStop, h]

lemma findSome?_of_go {c : Call α ε} (h : stop? c = none) (cs : List (Call α ε)) :
    (c :: cs).findSome? stop? = cs.findSome? stop? := by rw [findSome?_cons, h]

lemma upToStop_append (xs ys : List (Call α ε)) :
    upToStop (xs ++ ys) = if ((upToStop xs).findSome? stop?).isSome then upToStop xs
      else upToStop xs ++ upToStop ys := by
  induction xs with
  | nil => rfl
  | cons c xs ih =>
    cases hc : stop? c with
    | none =>
      rw [cons_append, upToStop_of_go hc, upToStop_of_go hc, findSome?_of_go hc, ih]
      split <;> rfl
    | some r => simp [upToStop, hc]

/-- A tree in which each node has the reply given there, and nothing is left below the nodes that
were skipped. -/
inductive Trims : Tree α → Tree (Call α ε) → Prop
  | skipped (a : α) (ts : List (Tree α)) {r : Reply ε} (h : r.Asks) :
    Trims (.node a ts) (.node (a, some r) [])
  | kept (a : α) {ts : List (Tree α)} {r? : Option (Reply ε)} {us : List (Tree (Call α ε))}
    (h : ∀ r ∈ r?, ¬ r.Asks) (hs : List.Forall₂ Trims ts us) : Trims (.node a ts) (.node (a, r?) us)

/-- The calls one after the other, from one state to another, each with the reply of the visitor. -/
def Plays (visit : α → σ → Option (Reply ε) × σ) : σ → List (Call α ε) → σ → Prop
  | s, [], s' => s = s'
  | s, (a, r?) :: cs, s' => ∃ s₁, visit a s = (r?, s₁) ∧ Plays visit s₁ cs s'

lemma Plays.append {visit : α → σ → Option (Reply ε) × σ} {xs ys : List (Call α ε)} {s s₁ s₂ : σ}
    (h : Plays visit s xs s₁) (h' : Plays visit s₁ ys s₂) : Plays visit s (xs ++ ys) s₂ := by
  induction xs generalizing s with
  | nil => exact h ▸ h'
  | cons c xs ih =>
    obtain ⟨s₀, hc, hs⟩ := h
    exact ⟨s₀, hc, ih hs⟩

/-! ### Tours -/

/-- The visitor, with a list of the calls made so far. -/
def recorded (visit : α → σ → Option (Reply ε) × σ) (a : α) (s : σ × List (Call α ε)) :
    Option (Reply ε) × σ × List (Call α ε) :=
  let (r?, s') := visit a s.1
  (r?, s', s.2 ++ [(a, r?)])

def turning (visit : α → σ → Option (Reply ε) × σ) (a : α) (s : σ) : Turn (Reply ε) × σ :=
  (visit a s).map Reply.turn id

/-- From the state `s` the walk, one with a record and one without, makes the calls `calls`. -/
structure Runs (visit : α → σ → Option (Reply ε) × σ) (s s' : σ) (calls : List (Call α ε))
    (walk : σ → Option (Reply ε) × σ)
    (recording : σ × List (Call α ε) → Option (Reply ε) × σ × List (Call α ε)) : Prop where
  plays : Plays visit s calls s'
  ends : walk s = (calls.findSome? stop?, s')
  records : ∀ log, recording (s, log) = (calls.findSome? stop?, s', log ++ calls)

section
variable (visit : α → σ → Option (Reply ε) × σ)

/-- Subtrees one after the other: the first that stops ends the walk. -/
lemma runs_walkAll (ts : List (Tree α))
    (h : ∀ t ∈ ts, ∀ s, ∃ u s', Trims t u ∧ Runs visit s s' (upToStop u.preorder)
      (t.walk (turning visit)) (t.walk (turning (recorded visit)))) (s : σ) :
    ∃ us s', List.Forall₂ Trims ts us ∧ Runs visit s s' (upToStop (preorderAll us))
      (walkAll (turning visit) ts) (walkAll (turning (recorded visit)) ts) := by
  induction ts generalizing s with
  | nil => exact ⟨[], s, .nil, rfl, rfl, fun log => by simp [walkAll, preorderAll, upToStop]⟩
  | cons t ts ih =>
    obtain ⟨u, s₁, hu, hr⟩ := h t mem_cons_self s
    obtain ⟨us, s₂, hus, hrs⟩ := ih (fun v hv => h v (mem_cons_of_mem _ hv)) s₁
    cases hstop : (upToStop u.preorder).findSome? stop? with
    | some r =>
      refine ⟨u :: us, s₁, .cons hu hus, ?_⟩
      rw [preorderAll, upToStop_append, if_pos (by rw [hstop]; rfl)]
      exact ⟨hr.plays, by simp [walkAll, hr.ends, hstop], fun log => by
        simp [walkAll, hr.records, hstop]⟩
    | none =>
      refine ⟨u :: us, s₂, .cons hu hus, ?_⟩
      rw [preorderAll, upToStop_append, if_neg (by simp [hstop])]
      exact ⟨hr.plays.append hrs.plays, by simp [walkAll, hr.ends, hstop, hrs.ends], fun log => by
        simp [walkAll, hr.records, hstop, hrs.records]⟩

lemma runs_walk (t : Tree α) :
    ∀ s, ∃ u s', Trims t u ∧ Runs visit s s' (upToStop u.preorder)
      (t.walk (turning visit)) (t.walk (turning (recorded visit))) := by
  induction t using inductOn with
  | h a ts ih =>
    intro s
    obtain ⟨us, s', hus, hr⟩ := runs_walkAll visit ts ih (visit a s).2
    cases hv : visit a s with
    | mk r? s₁ =>
      rw [hv] at hr
      cases r? with
      | none =>
        have hgo : stop? (a, (none : Option (Reply ε))) = none := rfl
        refine ⟨.node (a, none) us, s', .kept a (by simp) hus, ?_⟩
        rw [preorder, upToStop_of_go hgo]
        refine ⟨⟨s₁, hv, hr.plays⟩, ?_, fun log => ?_⟩ <;> rw [findSome?_of_go hgo]
        · simp [walk, turning, hv, Reply.turn, hr.ends]
        · simp [walk, turning, recorded, hv, Reply.turn, hr.records]
      | some r =>
        cases hskip : r.skips with
        | true =>
          have hgo : stop? (a, some r) = none := by simp [stop?, hskip]
          refine ⟨.node (a, some r) [], s₁, .skipped a ts (r.skips_iff_asks.1 hskip), ?_, ?_,
            fun log => ?_⟩
          · simp [Plays, preorder, preorderAll, upToStop, hgo, hv]
          · simp [walk, turning, hv, Reply.turn, hskip, preorder, preorderAll, upToStop, hgo]
          · simp [walk, turning, recorded, hv, Reply.turn, hskip, preorder, preorderAll, upToStop,
              hgo]
        | false =>
          have hstop : stop? (a, some r) = some r := by simp [stop?, hskip]
          refine ⟨.node (a, some r) us, s₁, .kept a (by simp [← r.skips_iff_asks, hskip]) hus, ?_,
            ?_, fun log => ?_⟩
          · simp [Plays, preorder, upToStop, hstop, hv]
          · simp [walk, turning, hv, Reply.turn, hskip, preorder, upToStop, hstop]
          · simp [walk, turning, recorded, hv, Reply.turn, hskip, preorder, upToStop, hstop]

end

lemma skips_of_stop? {calls : List (Call α ε)} {r : Reply ε}
    (h : calls.findSome? stop? = some r) : r.skips = false := by
  obtain ⟨c, -, hc⟩ := exists_of_findSome?_eq_some h
  simpa using (Option.filter_eq_some_iff.1 hc).2

/-- A tour calls the visitor with the pre-order of the tree without what is below the skipped nodes,
up to the first reply that stops, and ends with that reply; a reply that asks to skip is none. The
nodes are the whole pre-order, and a search finds the first of them that fits. -/
theorem tour_calls_trimmed_preorder (visit : α → σ → Option (Reply ε) × σ) (t : Tree α) (s : σ) :
    (∃ u calls s', Trims t u ∧ calls = upToStop u.preorder ∧ Plays visit s calls s' ∧
      t.tour visit s = (calls.findSome? stop?, s') ∧
      t.tour (recorded visit) (s, []) = (calls.findSome? stop?, s', calls)) ∧
    (∀ r ∈ (t.tour visit s).1, ¬ r.Asks) ∧
    t.nodes = t.preorder ∧
    ∀ p, t.find? p = t.preorder.find? p ∧ (t.find? p = none ↔ ∀ a ∈ t.preorder, p a = false) := by
  obtain ⟨u, s', hu, hr⟩ := runs_walk visit t s
  have hfilter : ((upToStop u.preorder).findSome? stop?).filter (!·.skips) =
      (upToStop u.preorder).findSome? stop? := by
    cases h : (upToStop u.preorder).findSome? stop? with
    | none => rfl
    | some r => simp [skips_of_stop? h]
  have htour : t.tour visit s = ((upToStop u.preorder).findSome? stop?, s') := by
    rw [← hfilter]
    exact congrArg (fun q => (q.1.filter (!·.skips), q.2)) hr.ends
  have hrecorded : t.tour (recorded visit) (s, []) =
      ((upToStop u.preorder).findSome? stop?, s', upToStop u.preorder) := by
    rw [← hfilter]
    exact congrArg (fun q => (q.1.filter (!·.skips), q.2)) (hr.records [])
  refine ⟨⟨u, _, s', hu, rfl, hr.plays, htour, hrecorded⟩, ?_, t.nodes_eq_preorder, fun p => ?_⟩
  · intro r h
    rw [htour] at h
    rw [← r.skips_iff_asks, skips_of_stop? h]
    decide
  · rw [find?_eq_preorder]
    exact ⟨rfl, by simp⟩

end Tree
end ReactiveModel
