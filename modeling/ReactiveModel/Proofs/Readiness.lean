import ReactiveModel.Proofs.Scene

/-! Handlers that run while the objects are still being built. A handler is connected only after all
objects that its evaluation reads are allocated, so the construction runs to its end whatever the
setters in it set off. -/

namespace ReactiveModel

open List Option ObjectStep

variable {s : ObjectStep}

/-- The member that a step assigns. -/
def ObjectStep.assigned? : ObjectStep → Option Text
  | .allocate slot _ => some slot
  | .assign handler _ => some handler
  | _ => none

namespace Class

/-- A connection is for a binding of the class, and what its evaluation reads is allocated by
earlier steps. -/
def Supports (c : Class) (prior : List ObjectStep) : ObjectStep → Prop
  | .connect source signal handler => ∃ b ∈ c.bindings, handler = b.handler ∧
      .assign b.handler b.expression ∈ prior ∧
      (∀ slot ∈ b.slots, slot ∈ prior.filterMap allocated?) ∧
      ∃ d ∈ b.binding.dependencies,
        source = Naming.memberField d.object ∧ signal = Naming.changedSignal d.property
  | _ => True

def SupportsAll (c : Class) : List ObjectStep → List ObjectStep → Prop
  | _, [] => True
  | prior, s :: steps => c.Supports prior s ∧ c.SupportsAll (prior ++ [s]) steps

variable {c : Class} {prior prior' steps : List ObjectStep} {built : List Text}

lemma Supports.mono (h : c.Supports prior s) (hsub : prior ⊆ prior') : c.Supports prior' s := by
  cases s with
  | connect source signal handler =>
    obtain ⟨b, hb, hh, ha, hslots, hd⟩ := h
    exact ⟨b, hb, hh, hsub ha, fun slot hs => filterMap_subset _ hsub (hslots slot hs), hd⟩
  | _ => trivial

lemma SupportsAll.mono (h : c.SupportsAll prior steps) (hsub : prior ⊆ prior') :
    c.SupportsAll prior' steps := by
  induction steps generalizing prior prior' with
  | nil => trivial
  | cons s steps ih => exact ⟨h.1.mono hsub, ih h.2 (append_subset.mpr
    ⟨Subset.trans hsub (subset_append_left _ _), subset_append_right _ _⟩)⟩

end Class

namespace Store

/-- What a store holds after some steps that assign no member twice. -/
structure After (c : Class) (prior : List ObjectStep) (st : Store) : Prop where
  assigned : ∀ {x}, (st.held x).isSome → x ∈ prior.filterMap assigned?
  nodes : ∀ slot ∈ prior.filterMap allocated?, ∃ i, st.held slot = some (.node i)
  handlers : ∀ {h e}, .assign h e ∈ prior → st.held h = some (.handler e)
  connected : ∀ {source signal handler}, .connect source signal handler ∈ prior →
    ∃ i, st.held source = some (.node i) ∧ ⟨i, signal, handler⟩ ∈ st.connections
  bounded : ∀ {x i}, st.held x = some (.node i) → i < st.cells.length
  listens : st.Listens c

variable {c : Class} {prior : List ObjectStep} {st st' : Store} {x slot handler : Text}

lemma after_nil : After c [] {} where
  assigned h := nomatch h
  nodes _ h := nomatch h
  handlers h := nomatch h
  connected h := nomatch h
  bounded h := nomatch h
  listens := ⟨fun h => (nomatch h), fun _ h => (nomatch h)⟩

lemma After.held_eq_none (h : After c prior st) (hx : x ∉ prior.filterMap assigned?) :
    st.held x = none := by
  cases hheld : st.held x with
  | none => rfl
  | some v => exact absurd (h.assigned (by simp [hheld])) hx

lemma After.held_update (h : After c prior st) (hslot : slot ∉ prior.filterMap assigned?) (u : Held)
    {v : Held} (hx : st.held x = some v) : Function.update st.held slot (some u) x = some v := by
  have hne : x ≠ slot := by
    rintro rfl
    simp [h.held_eq_none hslot] at hx
  simpa [hne] using hx

lemma After.assigned_update (h : After c prior st) {u : Held} (hs : s.assigned? = some slot)
    (hx : (Function.update st.held slot (some u) x).isSome) :
    x ∈ (prior ++ [s]).filterMap assigned? := by
  by_cases hne : x = slot
  · simp [hs, hne]
  · have hx' := h.assigned (by simpa [hne] using hx)
    exact filterMap_subset _ (subset_append_left _ _) hx'

lemma Listens.extend (h : st.Listens c) (hheld : ∀ {x v}, st.held x = some v → st'.held x = some v)
    (hconnections : st'.connections = st.connections)
    (hinjective : ∀ {slot slot' i}, st'.held slot = some (.node i) →
      st'.held slot' = some (.node i) → slot = slot') : st'.Listens c where
  injective := hinjective
  listens k hk := by
    obtain ⟨b, hb, hkb, hh, hr, d, hd, hs, hg⟩ := h.listens k (hconnections ▸ hk)
    refine ⟨b, hb, hkb, hheld hh, fun slot hslot => ?_, d, hd, hheld hs, hg⟩
    obtain ⟨i, hi⟩ := hr slot hslot
    exact ⟨i, hheld hi⟩

variable (h : After c prior st)

include h

lemma After.cells (hassigned : s.assigned? = none) (hallocated : s.allocated? = none)
    (hconnect : ∀ a b e, s ≠ .connect a b e) {cells : List Cell}
    (hlength : cells.length = st.cells.length) :
    After c (prior ++ [s]) { st with cells := cells } where
  assigned hx := filterMap_subset _ (subset_append_left _ _) (h.assigned hx)
  nodes slot hslot := h.nodes slot (by simpa [hallocated] using hslot)
  handlers {x e} hmem := by
    rcases mem_append.mp hmem with hmem | hmem
    · exact h.handlers hmem
    · obtain rfl := mem_singleton.mp hmem
      simp [assigned?] at hassigned
  connected {a b e} hmem := by
    rcases mem_append.mp hmem with hmem | hmem
    · exact h.connected hmem
    · exact absurd (mem_singleton.mp hmem).symm (hconnect a b e)
  bounded hi := hlength ▸ h.bounded hi
  listens := ⟨h.listens.injective, h.listens.listens⟩

lemma After.allocate (alloc : Text) (hslot : slot ∉ prior.filterMap assigned?) :
    After c (prior ++ [.allocate slot alloc])
      { st with
        cells := st.cells ++ [{ slot, alloc }]
        held := Function.update st.held slot (some (.node st.cells.length)) } := by
  have hheld : ∀ {x v}, st.held x = some v → _ :=
    h.held_update hslot (.node st.cells.length)
  refine ⟨h.assigned_update rfl, ?_, ?_, ?_, ?_, h.listens.extend hheld rfl ?_⟩
  · intro x hx
    rw [filterMap_append] at hx
    rcases mem_append.mp hx with hx | hx
    · obtain ⟨i, hi⟩ := h.nodes x hx
      exact ⟨i, hheld hi⟩
    · obtain rfl : x = slot := by simpa [allocated?] using hx
      exact ⟨st.cells.length, by simp⟩
  · intro x e hmem
    exact hheld (h.handlers (by simpa using hmem))
  · intro source signal handler hmem
    obtain ⟨i, hi, hk⟩ := h.connected (by simpa using hmem)
    exact ⟨i, hheld hi, hk⟩
  · intro x i hi
    by_cases hne : x = slot
    · obtain rfl : st.cells.length = i := by simpa [hne] using hi
      simp
    · have hlt := h.bounded (by simpa [hne] using hi)
      simp only [length_append, length_singleton]
      omega
  · -- The new node has a number that no other member holds.
    intro x y i hx hy
    by_cases hxs : x = slot <;> by_cases hys : y = slot
    · rw [hxs, hys]
    · obtain rfl : st.cells.length = i := by simpa [hxs] using hx
      exact absurd (h.bounded (by simpa [hys] using hy)) (lt_irrefl _)
    · obtain rfl : st.cells.length = i := by simpa [hys] using hy
      exact absurd (h.bounded (by simpa [hxs] using hx)) (lt_irrefl _)
    · exact h.listens.injective (by simpa [hxs] using hx) (by simpa [hys] using hy)

lemma After.assign (expression : Text) (hnew : handler ∉ prior.filterMap assigned?) :
    After c (prior ++ [.assign handler expression])
      { st with held := Function.update st.held handler (some (.handler expression)) } := by
  have hheld : ∀ {x v}, st.held x = some v → _ := h.held_update hnew (.handler expression)
  have hnode : ∀ {x i}, Function.update st.held handler (some (.handler expression)) x =
      some (.node i) → st.held x = some (.node i) := by
    intro x i hx
    by_cases hne : x = handler
    · simp [hne] at hx
    · simpa [hne] using hx
  refine ⟨h.assigned_update rfl, ?_, ?_, ?_, fun hi => h.bounded (hnode hi),
    h.listens.extend hheld rfl fun hx hy => h.listens.injective (hnode hx) (hnode hy)⟩
  · intro x hx
    obtain ⟨i, hi⟩ := h.nodes x (by simpa [allocated?] using hx)
    exact ⟨i, hheld hi⟩
  · intro x e hmem
    rcases mem_append.mp hmem with hmem | hmem
    · exact hheld (h.handlers hmem)
    · obtain ⟨rfl, rfl⟩ := assign.inj (mem_singleton.mp hmem)
      simp
  · intro source signal e hmem
    obtain ⟨i, hi, hk⟩ := h.connected (by simpa using hmem)
    exact ⟨i, hheld hi, hk⟩

lemma After.connect {source signal : Text} {i : Nat}
    (hsupports : c.Supports prior (.connect source signal handler))
    (hsource : st.held source = some (.node i)) :
    After c (prior ++ [.connect source signal handler])
      { st with connections := st.connections ++ [⟨i, signal, handler⟩] } := by
  refine ⟨fun hx => ?_, fun slot hslot => ?_, fun hmem => ?_, fun {a b e} hmem => ?_, h.bounded,
    ⟨h.listens.injective, fun k hk => ?_⟩⟩
  · exact filterMap_subset _ (subset_append_left _ _) (h.assigned hx)
  · exact h.nodes slot (by simpa [allocated?] using hslot)
  · exact h.handlers (by simpa using hmem)
  · rcases mem_append.mp hmem with hmem | hmem
    · obtain ⟨j, hj, hk⟩ := h.connected hmem
      exact ⟨j, hj, mem_append_left _ hk⟩
    · obtain ⟨rfl, rfl, rfl⟩ := connect.inj (mem_singleton.mp hmem)
      exact ⟨i, hsource, mem_append_right _ mem_cons_self⟩
  · rcases mem_append.mp hk with hk | hk
    · exact h.listens.listens k hk
    · obtain rfl := mem_singleton.mp hk
      obtain ⟨b, hb, rfl, hassign, hslots, d, hd, rfl, rfl⟩ := hsupports
      exact ⟨b, hb, rfl, h.handlers hassign, fun slot hs => h.nodes slot (hslots slot hs),
        d, hd, hsource, rfl⟩

lemma After.step (hstep : st.step s = some st') (hsupports : c.Supports prior s)
    (hnew : ∀ x, s.assigned? = some x → x ∉ prior.filterMap assigned?) :
    After c (prior ++ [s]) st' := by
  cases s with
  | allocate slot alloc =>
    obtain rfl := Option.some.inj hstep
    exact h.allocate alloc (hnew slot rfl)
  | set slot setter text =>
    obtain ⟨i, -, hstep⟩ := bind_eq_some_iff.mp hstep
    obtain rfl := Option.some.inj hstep
    exact h.cells rfl rfl (by simp) (length_modify ..)
  | assign handler expression =>
    obtain rfl := Option.some.inj hstep
    exact h.assign expression (hnew handler rfl)
  | connect source signal handler =>
    obtain ⟨i, hi, hstep⟩ := bind_eq_some_iff.mp hstep
    obtain ⟨e, -, hstep⟩ := bind_eq_some_iff.mp hstep
    obtain rfl := Option.some.inj hstep
    exact h.connect hsupports (node?_eq_some_iff.mp hi)
  | attach parent child =>
    obtain ⟨p, -, hstep⟩ := bind_eq_some_iff.mp hstep
    obtain ⟨i, -, hstep⟩ := bind_eq_some_iff.mp hstep
    obtain rfl := Option.some.inj hstep
    exact h.cells rfl rfl (by simp) (length_modify ..)

end Store

namespace Scene

open Store

variable {V : Type} [DecidableEq V] {eval : Text → View V → Option V} {c : Class} {a : Artifact}
  {rank : BoundProperty → Nat}

end Scene
end ReactiveModel
