/-! Finite maps, as lists in increasing order of the keys. -/

namespace ReactiveModel

abbrev Table (κ α : Type) := List (κ × α)

namespace Table

variable {κ α : Type}

def get? [BEq κ] (t : Table κ α) (k : κ) : Option α := List.lookup k t

@[simp] theorem get?_nil [BEq κ] (j : κ) : get? ([] : Table κ α) j = none := rfl

@[simp] theorem get?_cons [DecidableEq κ] (e : κ × α) (t : Table κ α) (j : κ) :
    get? (e :: t) j = if j = e.1 then some e.2 else t.get? j := by
  obtain ⟨i, w⟩ := e
  by_cases h : j = i
  · simp [get?, h]
  · have hb : (j == i) = false := by simpa using h
    simp [get?, List.lookup_cons, h, hb]

def erase [BEq κ] (t : Table κ α) (k : κ) : Table κ α := t.filter fun e => e.1 != k

def keys (t : Table κ α) : List κ := t.map Prod.fst

def values (t : Table κ α) : List α := t.map Prod.snd

theorem get?_erase [DecidableEq κ] (t : Table κ α) (k j : κ) :
    (t.erase k).get? j = if j = k then none else t.get? j := by
  induction t with
  | nil => simp [erase]
  | cons e t ih =>
    simp only [erase] at ih ⊢
    by_cases he : e.1 = k
    · rw [List.filter_cons_of_neg (by simp [he]), ih, get?_cons, he]
      by_cases hj : j = k <;> simp [hj]
    · rw [List.filter_cons_of_pos (by simp [he]), get?_cons, get?_cons, ih]
      by_cases hj : j = e.1
      · simp [hj, he]
      · simp [hj]

variable [LT κ] [DecidableLT κ] [DecidableEq κ]

/-- Enters a value; a value already there is replaced. -/
def insert (k : κ) (v : α) : Table κ α → Table κ α
  | [] => [(k, v)]
  | (j, w) :: t =>
    if k < j then (k, v) :: (j, w) :: t
    else if k = j then (k, v) :: t
    else (j, w) :: insert k v t

def ofPairs (ps : List (κ × α)) : Table κ α := ps.foldl (fun t p => t.insert p.1 p.2) []

/-- The keys increase, so that each is there once. -/
def Ordered (t : Table κ α) : Prop := t.Pairwise fun a b => a.1 < b.1

omit [DecidableLT κ] [DecidableEq κ] in
@[simp] theorem ordered_nil : Ordered ([] : Table κ α) := .nil

theorem mem_insert {k : κ} {v : α} {t : Table κ α} {e : κ × α} (h : e ∈ t.insert k v) :
    e = (k, v) ∨ e ∈ t := by
  induction t with
  | nil => simpa [insert] using h
  | cons p t ih =>
    simp only [insert] at h
    split at h
    · simpa using h
    · split at h
      · rcases List.mem_cons.mp h with h | h
        · exact Or.inl h
        · exact Or.inr (List.mem_cons_of_mem _ h)
      · rcases List.mem_cons.mp h with h | h
        · exact Or.inr (h ▸ List.mem_cons_self)
        · exact (ih h).imp_right (List.mem_cons_of_mem _)

theorem get?_insert (t : Table κ α) (k j : κ) (v : α) :
    (t.insert k v).get? j = if j = k then some v else t.get? j := by
  induction t with
  | nil => simp [insert]
  | cons p t ih =>
    unfold insert
    split
    · simp
    · split
      case isTrue he => by_cases h : j = k <;> simp [← he, h]
      case isFalse hne =>
        rw [get?_cons, get?_cons, ih]
        by_cases hp : j = p.1
        · have hk : j ≠ k := fun h => hne (h ▸ hp)
          simp [← hp, hk]
        · simp [hp]

omit [DecidableLT κ] in
theorem Ordered.get?_eq_some [Std.Irrefl (· < · : κ → κ → Prop)] {t : Table κ α} (h : t.Ordered)
    {e : κ × α} (he : e ∈ t) : t.get? e.1 = some e.2 := by
  induction t with
  | nil => nomatch he
  | cons p t ih =>
    obtain ⟨hp, ht⟩ := List.pairwise_cons.mp h
    rcases List.mem_cons.mp he with rfl | he
    · simp
    · have hne : e.1 ≠ p.1 := fun heq => Std.Irrefl.irrefl (r := (· < ·)) p.1 (heq ▸ hp e he)
      rw [get?_cons, if_neg hne, ih ht he]

variable [Trans (· < · : κ → κ → Prop) (· < ·) (· < ·)] [Std.Trichotomous (· < · : κ → κ → Prop)]

theorem Ordered.insert {t : Table κ α} (h : t.Ordered) (k : κ) (v : α) :
    (t.insert k v).Ordered := by
  induction t with
  | nil => exact List.pairwise_singleton _ _
  | cons p t ih =>
    obtain ⟨hp, ht⟩ := List.pairwise_cons.mp h
    simp only [Table.insert]
    split
    case isTrue hk =>
      refine List.pairwise_cons.mpr ⟨fun e he => ?_, h⟩
      rcases List.mem_cons.mp he with rfl | he
      · exact hk
      · exact Trans.trans hk (hp e he)
    case isFalse hk =>
      split
      case isTrue he => subst he; exact List.pairwise_cons.mpr ⟨hp, ht⟩
      case isFalse hne =>
        refine List.pairwise_cons.mpr ⟨fun e he => ?_, ih ht⟩
        rcases mem_insert he with rfl | he
        · exact Classical.byContradiction fun hj =>
            hne (Std.Trichotomous.trichotomous (r := (· < ·)) _ _ hk hj)
        · exact hp e he

theorem ordered_ofPairs (ps : List (κ × α)) : (ofPairs ps).Ordered := by
  suffices h : ∀ t : Table κ α, t.Ordered →
      (ps.foldl (fun t p => t.insert p.1 p.2) t).Ordered from h [] ordered_nil
  induction ps with
  | nil => exact fun t h => h
  | cons p ps ih => exact fun t h => ih _ (h.insert p.1 p.2)

end Table

end ReactiveModel
