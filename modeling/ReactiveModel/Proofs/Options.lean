import Mathlib.Data.List.TakeWhile
import Mathlib.Tactic.Tauto
import ReactiveModel.Settings

/-! Settings made one after another. Each is accepted or rejected by itself, whatever was set before
it; so a list of them can be followed by looking at its members one at a time. -/

namespace ReactiveModel

open List

namespace Source

/-- A name or a keyword. -/
def IsIdentifier (s : String) : Prop :=
  (∃ c ∈ s.toList.head?, isNameStart c = true) ∧ ∀ c ∈ s.toList, isNamePart c = true

lemma isName_iff {s : String} : isName s = true ↔ IsIdentifier s ∧ isKeyword s = false := by
  unfold isName IsIdentifier
  cases s.toList <;> simp [isNamePart]
  tauto

end Source

namespace Settings

open Source

variable {s c : Settings} {o : Setting} {os : List Setting} {f : Failure} {n : String}
  {r : Settings → Option Failure × Settings}

/-! One setting. -/

lemma featureFault?_eq (s t : Settings) (n : String) : s.featureFault? n = t.featureFault? n := by
  unfold featureFault? featureEnabled
  cases Feature.ofName? n <;> rfl

lemma featureFault?_eq_none_iff : s.featureFault? n = none ↔ ∃ b, s.featureEnabled n = .ok b := by
  unfold featureFault?
  cases s.featureEnabled n <;> simp

/-- What a receiver may be called. -/
def IsReceiver (n : String) : Prop :=
  IsIdentifier n ∧ isKeyword n = false ∧ n ≠ "_" ∧ n ∉ generatedLocals

abbrev rejection? (s : Settings) (o : Setting) : Option Failure := (s.applyOne o).1

/-- A way to make a setting, which is rejected for what it asks for or changes settings. -/
def Decided (r : Settings → Option Failure × Settings) : Prop :=
  ∃ (fault : Option Failure) (change : Settings → Settings),
    ∀ s, r s = if fault = none then (none, change s) else (fault, s)

lemma Decided.fst_eq (hr : Decided r) (s t : Settings) : (r s).1 = (r t).1 := by
  obtain ⟨fault, change, hr⟩ := hr
  rw [hr, hr]
  split <;> rfl

lemma Decided.snd_eq (hr : Decided r) (h : (r s).1 ≠ none) : (r s).2 = s := by
  obtain ⟨fault, change, hr⟩ := hr
  rw [hr] at h ⊢
  by_cases hfault : fault = none
  · simp [hfault] at h
  · rw [if_neg hfault]

section

variable {isWrong : Bool} {option : String} {value : Option Shown} {message : String}

lemma decided_checked (isWrong : Bool) (option : String) (value : Option Shown) (message : String)
    (change : Settings → Settings) :
    Decided fun s => s.checked isWrong option value message (change s) := by
  cases isWrong with
  | true => exact ⟨some _, id, fun s => rfl⟩
  | false => exact ⟨none, change, fun s => rfl⟩

@[simp] lemma checked_fst_eq_none_iff :
    (s.checked isWrong option value message c).1 = none ↔ isWrong = false := by
  cases isWrong <;> simp [checked]

lemma checked_of_accepted (h : (s.checked isWrong option value message c).1 = none) :
    isWrong = false ∧ s.checked isWrong option value message c = (none, c) := by
  cases isWrong with
  | true => nomatch h
  | false => exact ⟨rfl, rfl⟩

end

lemma receiver_of_accepted (h : (s.withReceiver n).1 = none) :
    IsReceiver n ∧ s.withReceiver n = (none, { s with receiver := n }) := by
  unfold withReceiver at h ⊢
  split at h
  · nomatch h
  · rename_i hname
    obtain ⟨hlocal, hchanged⟩ := checked_of_accepted h
    rw [if_neg hname]
    simp only [Bool.or_eq_true, Bool.not_eq_true', beq_iff_eq, not_or, Bool.not_eq_false] at hname
    obtain ⟨hident, hkeyword⟩ := isName_iff.mp hname.1
    exact ⟨⟨hident, hkeyword, hname.2, by simpa using hlocal⟩, hchanged⟩

lemma features_of_accepted {ns : List String} (h : (s.withFeatures ns).1 = none) :
    (∀ n ∈ ns, s.featureFault? n = none) ∧
      s.withFeatures ns = (none, { s with features := s.features ++ ns }) := by
  unfold withFeatures at h ⊢
  split at h
  · nomatch h
  · rename_i hnone
    exact ⟨findSome?_eq_none_iff.mp hnone, rfl⟩

lemma decided_applyOne (o : Setting) : Decided (applyOne · o) := by
  cases o with
  | target d | header t => exact ⟨none, _, fun s => rfl⟩
  | package p | packageName n | runtime p | workers n | logger given => exact decided_checked ..
  | receiver n =>
    simp only [applyOne, withReceiver]
    split
    · exact ⟨some _, id, fun s => rfl⟩
    · exact decided_checked ..
  | features ns =>
    refine ⟨ns.findSome? (featureFault? {}), fun s => { s with features := s.features ++ ns },
      fun s => ?_⟩
    dsimp only [applyOne]
    rw [withFeatures, funext (featureFault?_eq s {})]
    cases ns.findSome? (featureFault? {}) <;> rfl

/-- What was set before does not matter. -/
lemma rejection?_eq (s t : Settings) (o : Setting) : s.rejection? o = t.rejection? o :=
  (decided_applyOne o).fst_eq s t

/-- A setting that is rejected changes nothing. -/
lemma applyOne_snd_of_rejected (h : s.rejection? o ≠ none) : (s.applyOne o).2 = s :=
  (decided_applyOne o).snd_eq h

lemma applyOne_of_rejected (h : s.rejection? o = some f) : s.applyOne o = (some f, s) :=
  Prod.ext h (applyOne_snd_of_rejected (by simp [h]))

lemma applyOne_of_accepted (h : s.rejection? o = none) : s.applyOne o = (none, (s.applyOne o).2) :=
  Prod.ext h rfl

/-! Lists of settings. -/

/-- The settings after each member of a list was tried. -/
def after (s : Settings) (os : List Setting) : Settings :=
  os.foldl (fun s o => (s.applyOne o).2) s

@[simp] lemma after_nil (s : Settings) : s.after [] = s := rfl

@[simp] lemma after_cons (s : Settings) (o : Setting) (os : List Setting) :
    s.after (o :: os) = (s.applyOne o).2.after os := rfl

/-- Rejected members of a list leave no trace. The rejections are taken from any settings. -/
lemma after_filter (t s : Settings) (os : List Setting) :
    s.after (os.filter fun o => (t.rejection? o).isNone) = s.after os := by
  induction os generalizing s with
  | nil => rfl
  | cons o os ih =>
    cases h : t.rejection? o with
    | none => rw [filter_cons_of_pos (by simp [h]), after_cons, after_cons, ih]
    | some f =>
      have hs : s.rejection? o ≠ none := by simp [rejection?_eq s t, h]
      rw [filter_cons_of_neg (by simp [h]), after_cons, applyOne_snd_of_rejected hs, ih]

lemma apply_eq (t s : Settings) (os : List Setting) : s.apply os =
    (os.findSome? t.rejection?, s.after (os.takeWhile fun o => (t.rejection? o).isNone)) := by
  induction os generalizing s with
  | nil => rfl
  | cons o os ih =>
    have hs := rejection?_eq s t o
    cases h : t.rejection? o with
    | none =>
      rw [findSome?_cons_of_isNone (by simp [h]), takeWhile_cons_of_pos (by simp [h]),
        after_cons, ← ih, apply, applyOne_of_accepted (hs.trans h)]
    | some f =>
      rw [findSome?_cons_of_isSome (by simp [h]), takeWhile_cons_of_neg (by simp [h]),
        after_nil, apply, applyOne_of_rejected (hs.trans h), h]

lemma apply_eq_of_accepted {t : Settings} (h : ∀ o ∈ os, t.rejection? o = none) :
    s.apply os = (none, s.after os) := by
  rw [apply_eq t, findSome?_eq_none_iff.mpr h,
    takeWhile_eq_self_iff.mpr fun o ho => by simp [h o ho]]

lemma applyAll_eq (t s : Settings) (os : List Setting) :
    s.applyAll os = (Failure.join? (os.map t.rejection?), s.after os) := by
  suffices hfold : ∀ (fs : List (Option Failure)) (s : Settings),
      os.foldl (fun r o => ((applyOne r.2 o).1 :: r.1, (applyOne r.2 o).2)) (fs, s) =
        ((os.map t.rejection?).reverse ++ fs, s.after os) by
    refine (congrArg (fun r => (Failure.join? r.1.reverse, r.2)) (hfold [] s)).trans ?_
    simp only [append_nil, reverse_reverse]
  induction os with
  | nil => exact fun fs s => rfl
  | cons o os ih =>
    intro fs s
    rw [foldl_cons, ih]
    simp [rejection?_eq s t o]

lemma ofList_eq_ok_iff : ofList os = .ok c ↔ apply {} os = (none, c) := by
  unfold ofList
  obtain ⟨f?, t⟩ := apply {} os
  cases f? <;> simp

/-- What every accepted setting keeps holds of settings made from a list. -/
lemma ofList_induction {P : Settings → Prop} (init : P {})
    (step : ∀ s o, s.rejection? o = none → P s → P (s.applyOne o).2) (h : ofList os = .ok c) :
    P c := by
  have hrun := ofList_eq_ok_iff.mp h
  clear h
  generalize ({} : Settings) = s at init hrun
  induction os generalizing s with
  | nil =>
    cases hrun
    exact init
  | cons o os ih =>
    cases ho : s.rejection? o with
    | none =>
      rw [apply, applyOne_of_accepted ho] at hrun
      exact ih _ (step s o ho init) hrun
    | some f =>
      rw [apply, applyOne_of_rejected ho] at hrun
      nomatch hrun

/-! What settings made from a list have in common. -/

structure Sound (s : Settings) : Prop where
  workers : 0 ≤ s.workers
  receiver : s.receiver = "" ∨ IsReceiver s.receiver
  features : ∀ n ∈ s.features, ∃ b, s.featureEnabled n = .ok b

lemma known_of_known (t : Settings) (h : ∃ b, s.featureEnabled n = .ok b) :
    ∃ b, t.featureEnabled n = .ok b := by
  rw [← featureFault?_eq_none_iff] at h ⊢
  rw [featureFault?_eq t s, h]

lemma Sound.applyOne (h : s.Sound) (ho : s.rejection? o = none) : (s.applyOne o).2.Sound := by
  have hfeatures (t : Settings) : ∀ n ∈ s.features, ∃ b, t.featureEnabled n = .ok b :=
    fun n hn => known_of_known t (h.features n hn)
  cases o with
  | target d | header t => exact ⟨h.workers, h.receiver, hfeatures _⟩
  | package p | packageName n | runtime p | logger given =>
    rw [Settings.applyOne, (checked_of_accepted ho).2]
    exact ⟨h.workers, h.receiver, hfeatures _⟩
  | workers n =>
    obtain ⟨hn, hchanged⟩ := checked_of_accepted ho
    rw [Settings.applyOne, hchanged]
    exact ⟨by simpa using hn, h.receiver, hfeatures _⟩
  | receiver n =>
    obtain ⟨hreceiver, hchanged⟩ := receiver_of_accepted ho
    rw [Settings.applyOne, hchanged]
    exact ⟨h.workers, .inr hreceiver, hfeatures _⟩
  | features ns =>
    obtain ⟨hknown, hchanged⟩ := features_of_accepted ho
    rw [Settings.applyOne, hchanged]
    refine ⟨h.workers, h.receiver, fun n hn => ?_⟩
    rcases mem_append.mp hn with hn | hn
    · exact hfeatures _ n hn
    · exact known_of_known _ (featureFault?_eq_none_iff.mp (hknown n hn))

lemma sound_ofList (h : ofList os = .ok c) : c.Sound :=
  ofList_induction ⟨Int.le_refl 0, .inl rfl, fun _ hn => absurd hn not_mem_nil⟩
    (fun _ _ ho hs => hs.applyOne ho) h

lemma join?_map (r : Setting → Option Failure) (os : List Setting) :
    Failure.join? (os.map r) =
      if (os.filterMap r).isEmpty then none else some (.join (os.filterMap r)) := by
  have hparts : (os.map r).filterMap id = os.filterMap r := by simp
  rw [Failure.join?, hparts]
  cases os.filterMap r <;> rfl

/-- A setting is rejected or made by itself. Trying all of them makes the accepted ones and joins
the rejections; stopping at the first rejection makes those before it. What comes of a list that is
accepted is sound. -/
theorem settings_tried_one_by_one (s : Settings) (os : List Setting) :
    (∀ o, (s.applyOne o).1 ≠ none → (s.applyOne o).2 = s) ∧
    (∀ t o, (Settings.applyOne t o).1 = (s.applyOne o).1) ∧
    (s.applyAll os).2 = (s.apply (os.filter fun o => (s.applyOne o).1.isNone)).2 ∧
    (s.applyAll os).1 = (let rejections := os.filterMap fun o => (s.applyOne o).1
      if rejections.isEmpty then none else some (.join rejections)) ∧
    s.apply os = (os.findSome? fun o => (s.applyOne o).1,
      s.after (os.takeWhile fun o => (s.applyOne o).1.isNone)) ∧
    ∀ c, ofList os = .ok c →
      0 ≤ c.workers ∧ (c.receiver = "" ∨ IsReceiver c.receiver) ∧
      ∀ n ∈ c.features, ∃ b, c.featureEnabled n = .ok b := by
  refine ⟨fun o => applyOne_snd_of_rejected, fun t o => rejection?_eq t s o, ?_, ?_,
    apply_eq s s os, fun c hc => ?_⟩
  · have haccepted : ∀ o ∈ os.filter fun o => (s.rejection? o).isNone, s.rejection? o = none :=
      fun o ho => by simpa using (List.mem_filter.mp ho).2
    rw [applyAll_eq s, apply_eq_of_accepted haccepted, after_filter]
  · rw [applyAll_eq s, join?_map]
  · have hsound := sound_ofList hc
    exact ⟨hsound.workers, hsound.receiver, hsound.features⟩

theorem settings_of_two_receivers :
    ∃ c, ofList [.receiver "row", .features ["goimports"], .workers 4, .receiver "self"] = .ok c ∧
      0 ≤ c.workers ∧ (c.receiver = "" ∨ IsReceiver c.receiver) ∧
      ∀ n ∈ c.features, ∃ b, c.featureEnabled n = .ok b := by
  obtain ⟨-, -, -, -, -, hsound⟩ := settings_tried_one_by_one {}
    [.receiver "row", .features ["goimports"], .workers 4, .receiver "self"]
  exact ⟨_, rfl, hsound _ rfl⟩

end Settings

end ReactiveModel
