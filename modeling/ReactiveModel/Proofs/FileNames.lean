import ReactiveModel.Naming
import ReactiveModel.Proofs.Case
import ReactiveModel.Proofs.Path
import ReactiveModel.Proofs.Utf8

/-! File names of classes. They are made from the words of a class name, so that two classes share
a file exactly when their names have the same words. -/

namespace ReactiveModel

open List ReactiveModel.Path

namespace Naming

variable {a b : Text} {c : Char} {w e : String} {ns : List String}

/-! Words. -/

lemma wordsFrom_ne_nil (word cs : List Char) : wordsFrom word cs ≠ [] := by
  induction cs generalizing word with
  | nil => simp [wordsFrom]
  | cons c cs ih =>
    simp only [wordsFrom]
    split
    · exact cons_ne_nil _ _
    · exact ih _

lemma mem_wordsFrom {word cs : List Char} (h : w ∈ wordsFrom word cs) (hc : c ∈ w.toList) :
    c ∈ word ∨ ∃ d ∈ cs, isSpacer d = false ∧ Text.toLower d = c := by
  induction cs generalizing word with
  | nil =>
    obtain rfl : w = String.ofList word.reverse := by simpa [wordsFrom] using h
    exact .inl (by simpa using hc)
  | cons d cs ih =>
    have hrest : ∀ word' : List Char, (∀ e ∈ word', e ∈ word) →
        w ∈ wordsFrom (if isSpacer d then word' else Text.toLower d :: word') cs →
        c ∈ word ∨ ∃ e ∈ d :: cs, isSpacer e = false ∧ Text.toLower e = c := by
      intro word' hsub hw
      rcases ih hw with hmem | ⟨e, he, hmatch⟩
      · cases hd : isSpacer d with
        | true => exact .inl (hsub c (by simpa [hd] using hmem))
        | false =>
          rw [hd, if_neg Bool.false_ne_true, List.mem_cons] at hmem
          rcases hmem with rfl | hmem
          · exact .inr ⟨d, mem_cons_self, hd, rfl⟩
          · exact .inl (hsub c hmem)
      · exact .inr ⟨e, mem_cons_of_mem _ he, hmatch⟩
    cases hended : (Text.isCapital d || isSpacer d) && !word.isEmpty with
    | true =>
      simp only [wordsFrom, hended, if_true, List.mem_cons] at h
      rcases h with rfl | h
      · exact .inl (by simpa using hc)
      · exact hrest [] (by simp) h
    | false =>
      simp only [wordsFrom, hended, Bool.false_eq_true, if_false] at h
      exact hrest word (fun _ he => he) h

lemma mem_words (h : w ∈ words a) (hc : c ∈ w.toList) :
    ∃ d ∈ a.shown.toList, isSpacer d = false ∧ Text.toLower d = c :=
  (mem_wordsFrom h hc).resolve_left (not_mem_nil)

lemma notMem_of_mem_words (h : w ∈ words a) (hc : c = '_' ∨ c = '-') : c ∉ w.toList := by
  intro hmem
  obtain ⟨d, -, hd, hlower⟩ := mem_words h hmem
  rcases hc with rfl | rfl <;>
    · obtain rfl := Text.eq_of_toLower hlower (by decide) (by decide)
      nomatch hd

lemma intercalate_words_inj (gap : String) (hgap : gap.toList = [c]) (hc : c = '_' ∨ c = '-')
    {a : Text} (h : gap.intercalate (words a) = gap.intercalate (words b)) : words a = words b := by
  have hsplit (n : Text) :
      ((gap.intercalate (words n)).toList.splitOn c).map String.ofList = words n :=
    splitOn_intercalate hgap (wordsFrom_ne_nil [] _) fun w hw => notMem_of_mem_words hw hc
  rw [← hsplit a, h, hsplit b]

lemma classFile_eq_iff {a : Text} : classFile a = classFile b ↔ words a = words b := by
  refine ⟨fun h => ?_, fun h => by rw [classFile, classFile, h]⟩
  refine intercalate_words_inj "_" rfl (.inl rfl) ?_
  have hlist := congrArg String.toList h
  rw [classFile, classFile, String.toList_append, String.toList_append] at hlist
  exact String.toList_inj.mp (append_cancel_right hlist)

/-! Names that are accepted. -/

lemma isNamePart_of_mem (h : isName a) (hc : c ∈ a.shown.toList) : Source.isNamePart c = true := by
  obtain ⟨s, hs, hname⟩ : ∃ s, a.toString? = some s ∧ Source.isName s = true := by
    simpa [isName, Option.any_eq_true] using h
  rw [Text.shown_of_toString? hs] at hc
  unfold Source.isName at hname
  cases hl : s.toList with
  | nil => simp [hl] at hc
  | cons d ds =>
    simp only [hl, Bool.and_eq_true, List.all_eq_true] at hname hc
    rcases List.mem_cons.mp hc with rfl | hc
    · simp [Source.isNamePart, hname.1.1]
    · exact hname.1.2 c hc

lemma notMem_words_of_isName (h : isName a) (hw : w ∈ words a)
    (hc : c = '/' ∨ c = '.') : c ∉ w.toList := by
  intro hmem
  obtain ⟨d, hd, -, hlower⟩ := mem_words hw hmem
  have hpart := isNamePart_of_mem h hd
  rcases hc with rfl | rfl <;>
    · obtain rfl := Text.eq_of_toLower hlower (by decide) (by decide)
      revert hpart
      decide

/-- The directory of a program; empty if the name has nothing to make one of. -/
def programName (a : Text) : String := "-".intercalate (words a)

lemma notMem_programName (h : isName a) (hc : c = '/' ∨ c = '.') : c ∉ (programName a).toList := by
  intro hmem
  rcases mem_intercalate hmem with hgap | ⟨w, hw, hmem⟩
  · rcases hc with rfl | rfl <;> simp at hgap
  · exact notMem_words_of_isName h hw hc hmem

/-- The elements of the directory of a program. -/
def programDir (a : Text) : List String :=
  "cmd" :: if programName a = "" then [] else [programName a]

lemma plain_of_mem_programDir (h : isName a) (he : e ∈ programDir a) : Plain e := by
  rcases List.mem_cons.mp he with rfl | he
  · exact ⟨by decide, by decide, by decide, by decide⟩
  · by_cases hempty : programName a = ""
    · simp [hempty] at he
    · obtain rfl : e = programName a := by simpa [hempty] using he
      have hdot := notMem_programName h (.inr rfl)
      exact ⟨hempty, fun heq => hdot (by simp [heq]), fun heq => hdot (by simp [heq]),
        notMem_programName h (.inl rfl)⟩

lemma plain_main : Plain "main.go" := ⟨by decide, by decide, by decide, by decide⟩

lemma steps_programName (h : isName a) : "cmd" :: steps (programName a) = programDir a := by
  rw [steps, parts_eq_singleton (notMem_programName h (.inl rfl)), programDir]
  by_cases hempty : programName a = ""
  · simp [hempty, isStep]
  · have hplain : Plain (programName a) :=
      plain_of_mem_programDir h (by simp [programDir, hempty])
    simp [isStep, hempty, hplain.ne_dot]

lemma steps_entryPointFile (h : isName a) :
    steps (entryPointFile a) = programDir a ++ ["main.go"] := by
  have hsteps : "cmd" :: steps (programName a ++ "/" ++ "main.go") =
      programDir a ++ ["main.go"] := by
    have hmain : steps "main.go" = ["main.go"] := by decide
    rw [steps_append, hmain, ← cons_append, steps_programName h]
  have hplain : ∀ e ∈ steps (programName a ++ "/" ++ "main.go"), Plain e := by
    intro e he
    have hmem : e ∈ programDir a ++ ["main.go"] := hsteps ▸ mem_cons_of_mem _ he
    rcases mem_append.mp hmem with hmem | hmem
    · exact plain_of_mem_programDir h hmem
    · exact mem_singleton.mp hmem ▸ plain_main
  have hjoin : entryPointFile a = Path.join ["cmd", programName a ++ "/" ++ "main.go"] := by
    simp [entryPointFile, programName, Path.join, String.intercalate_cons_cons,
      String.append_assoc]
  have helements : elements "cmd" = ["cmd"] := by decide
  rw [hjoin, join_eq_below (by decide) hplain, below,
    steps_ofElements ((normal_elements "cmd").append hplain), helements,
    singleton_append, hsteps]

lemma programDir_inj {a : Text} (h : programDir a = programDir b) : words a = words b := by
  have hname : programName a = programName b := by
    unfold programDir at h
    grind
  exact intercalate_words_inj "-" rfl (.inr rfl) hname

lemma entryPointFile_eq_iff {a : Text} (ha : isName a) (hb : isName b) :
    entryPointFile a = entryPointFile b ↔ words a = words b := by
  refine ⟨fun h => ?_, fun h => by rw [entryPointFile, entryPointFile, h]⟩
  have hsteps := congrArg steps h
  rw [steps_entryPointFile ha, steps_entryPointFile hb] at hsteps
  exact programDir_inj (append_cancel_right hsteps)

lemma classFile_append_ne {ending : String} (he : e.toList.length < 13) :
    classFile a ++ ending ≠ e := by
  rintro rfl
  have hsuffix : "_generated.go".toList.length = 13 := by decide
  simp only [classFile, String.toList_append, length_append, hsuffix] at he
  omega

lemma plain_classFile (h : isName a) (ending : String)
    (hending : '/' ∉ ending.toList) : Plain (classFile a ++ ending) := by
  refine ⟨classFile_append_ne (by decide), classFile_append_ne (by decide),
    classFile_append_ne (by decide), fun hmem => ?_⟩
  rw [String.toList_append, mem_append, classFile, String.toList_append,
    mem_append] at hmem
  rcases hmem with (hmem | hmem) | hmem
  · rcases mem_intercalate hmem with hgap | ⟨w, hw, hmem⟩
    · simp at hgap
    · exact notMem_words_of_isName h hw (.inl rfl) hmem
  · simp at hmem
  · exact hending hmem

/-! Where the files of a class stand, from the target directory on. -/

/-- The places that a class takes for its artifact and for its program. -/
def ownPlaces (a : Text) : List (List String) := [[classFile a], programDir a ++ ["main.go"]]

/-- The places of a program, of a program whose imports were not resolved, and of the directory that
goes with a program that is removed. -/
def programPlaces (a : Text) : List (List String) :=
  [programDir a ++ ["main.go"], programDir a ++ ["main.go.error"], programDir a]

/-- All places that the task of a class may change. -/
def reachedPlaces (a : Text) : List (List String) :=
  [classFile a] :: [classFile a ++ ".error"] :: programPlaces a

lemma mem_reachedPlaces_of_ownPlaces (h : ns ∈ ownPlaces a) : ns ∈ reachedPlaces a := by
  simp only [ownPlaces, List.mem_cons, not_mem_nil, or_false] at h
  rcases h with rfl | rfl <;> simp [reachedPlaces, programPlaces]

lemma plain_of_mem_reachedPlaces (h : isName a) (hns : ns ∈ reachedPlaces a) :
    ∀ n ∈ ns, Plain n := by
  have herror : Plain "main.go.error" := ⟨by decide, by decide, by decide, by decide⟩
  have hfile : Plain (classFile a) := by
    simpa using plain_classFile h "" (by simp)
  have hdir : ∀ n ∈ programDir a, Plain n := fun n hn => plain_of_mem_programDir h hn
  simp only [reachedPlaces, programPlaces, List.mem_cons, not_mem_nil, or_false] at hns
  rcases hns with rfl | rfl | rfl | rfl | rfl
  · simpa using hfile
  · simpa using plain_classFile h ".error" (by decide)
  · simpa [or_imp, forall_and] using ⟨hdir, plain_main⟩
  · simpa [or_imp, forall_and] using ⟨hdir, herror⟩
  · exact hdir

lemma programDir_ne_concat {a : Text} (hb : isName b) :
    programDir a ++ ["main.go"] ≠ programDir b := by
  intro h
  simp only [programDir, cons_append, List.cons.injEq, true_and] at h
  by_cases hempty : programName b = ""
  · simp [hempty] at h
  · rw [if_neg hempty, append_eq_singleton_iff] at h
    have hname : programName b = "main.go" := by
      rcases h with ⟨-, heq⟩ | ⟨-, heq⟩
      · simpa using heq.symm
      · simp at heq
    exact notMem_programName hb (.inr rfl) (by simp [hname])

/-- No artifact stands where a program is reached. -/
lemma classFile_notMem_programPlaces (a b : Text) : [classFile a] ∉ programPlaces b := by
  have hne : classFile a ++ "" ≠ "cmd" := classFile_append_ne (by decide)
  rw [String.append_empty] at hne
  simp [programPlaces, programDir, hne]

/-- Classes whose names have different words do not reach each other's places. -/
lemma ownPlaces_disjoint_reachedPlaces {a : Text} (hb : isName b) (h : words a ≠ words b) :
    ∀ ns ∈ ownPlaces a, ns ∉ reachedPlaces b := by
  intro ns hns
  simp only [ownPlaces, List.mem_cons, not_mem_nil, or_false] at hns
  rcases hns with rfl | rfl
  · have hfile : classFile a ≠ classFile b := fun heq => h (classFile_eq_iff.mp heq)
    have herror : classFile a ≠ classFile b ++ ".error" := by
      intro heq
      have hlast := congrArg (fun e => e.toList.getLast?) heq
      simp [classFile] at hlast
    simp [reachedPlaces, classFile_notMem_programPlaces, hfile, herror]
  · have hdir : programDir a ≠ programDir b := fun heq => h (programDir_inj heq)
    have hmain : programDir a ++ ["main.go"] ≠ programDir b := programDir_ne_concat hb
    have hlong (e : String) : programDir a ++ ["main.go"] ≠ [e] := by simp [programDir]
    simp [reachedPlaces, programPlaces, hdir, hmain, hlong]

end Naming

end ReactiveModel
