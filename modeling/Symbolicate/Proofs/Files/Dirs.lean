import Mathlib.Tactic.Common
import Symbolicate.Proofs.Files.Tree

/-!
# Making directories alongside others

Directories that can be made in some files can also be made when these have changed in between, as long as no directory
is gone and at most one file has changed, at a location where nothing of it is needed (`createDirs_alongside`). So it
does not matter that others have made some of the directories already.
-/

namespace Symbolicate.FileTree

variable {t t' u : FileTree} {l k next last : List String} {p : FilePath} {piece : String}

/-- A path that does not go up leads in older files to where it leads later, if there was something. -/
theorem IsTree.locate_of_old (h : t.IsTree)
    (hdirs : ∀ k, t'.entry? k = some .dir → (t.entry? k).isSome → t.entry? k = some .dir) (hup : ".." ∉ p.pieces)
    (hp : t'.locate p = .ok k) (hk : (t.entry? k).isSome) : t.locate p = .ok k := by
  obtain ⟨start, hstart, hfollow⟩ := locate_eq_ok.1 hp
  exact locate_eq_ok.2 ⟨start, hstart, h.follow_of_old hdirs hfollow hup hk⟩

/-- What lies elsewhere is read alongside. -/
theorem SameFilesBut.read {b : Bytes} (hbut : SameFilesBut l t u) (hread : t.read p = .ok b) (hl : t.locate p ≠ .ok l) :
    u.read p = .ok b := by
  obtain ⟨k, hk, hb⟩ := read_eq_ok.1 hread
  have hb' : u.contents? k = some b := (hbut.files k fun heq => hl (heq ▸ hk)).trans hb
  exact read_eq_ok.2 ⟨k, locate_of_dirs hbut.dirs hk (by rw [contents?_eq_some_iff.1 hb']; rfl), hb'⟩

theorem isFile_iff_read : t.isFile p = true ↔ ∃ b, t.read p = .ok b := by
  simp only [isFile_iff, read_eq_ok]
  exact exists_comm

theorem HoldsAt.read {b : Bytes} (h : t.HoldsAt p l b) : t.read p = .ok b :=
  read_eq_ok.2 ⟨l, h.locate, h.contents_eq⟩

/-- At most the file at its location has changed, if anything has. -/
theorem HoldsAt.sameFilesBut {b : Bytes} (h : t'.HoldsAt p l b) (hlast : t' = t ∨ SameFilesBut l t t') :
    SameFilesBut l t t' := by
  obtain rfl | hbut := hlast
  · exact ⟨fun _ h => h, fun _ _ => rfl, notDir_of_fileLocation h.place⟩
  · exact hbut

/-- Where both files have something, directories of the one are directories of the other. -/
theorem SameFilesBut.dir_of_other (h : SameFilesBut l t t') (h' : SameFilesBut l t u) (hk : u.entry? k = some .dir)
    (hsome : (t'.entry? k).isSome) : t'.entry? k = some .dir := by
  obtain ⟨e, he⟩ := Option.isSome_iff_exists.1 hsome
  cases e with
  | dir => exact he
  | file b =>
    have hkl : k ≠ l := fun heq => h'.notDir (heq ▸ hk)
    have hb : u.contents? k = some b := by
      rw [h'.files k hkl, ← h.files k hkl]
      exact contents?_eq_some_iff.2 he
    exact absurd hk (notDir_of_contents? hb)

theorem SameFilesBut.sameFiles (hbut : SameFilesBut l t t') (hsame : SameFiles t' u) (hl : u.entry? l ≠ some .dir) :
    SameFilesBut l t u :=
  ⟨fun k hk => hsame.dirs k (hbut.dirs k hk), fun k hk => (hsame.files k).trans (hbut.files k hk), hl⟩

/-- One goes on from directories only, and makes directories only in them. -/
theorem dir_of_enter (h : t.enter k piece = .ok (t', next)) (hk : (t.entry? k).isSome) : t.entry? k = some .dir := by
  unfold enter at h
  split at h
  · next hstep => exact (step_eq_ok hstep).1
  · next hstep => exact (step_notFound hstep hk).1
  · cases h

theorem enterAll_cons_eq_ok {rest : List String} (h : t.enterAll k (piece :: rest) = (t', .ok last)) :
    ∃ t₁ next, t.enter k piece = .ok (t₁, next) ∧ t₁.enterAll next rest = (t', .ok last) := by
  rw [enterAll] at h
  cases henter : t.enter k piece with
  | error e =>
    rw [henter] at h
    cases h
  | ok r =>
    rw [henter] at h
    exact ⟨r.1, r.2, rfl, h⟩

/-- All that leads to a directory is one. -/
theorem dir_of_enterAll {pieces : List String} (h : t.enterAll k pieces = (t', .ok last)) (hk : (t.entry? k).isSome)
    (hlast : t'.entry? last = some .dir) : t.entry? k = some .dir := by
  cases pieces with
  | nil =>
    cases h
    exact hlast
  | cons piece rest =>
    obtain ⟨t₁, next, henter, -⟩ := enterAll_cons_eq_ok h
    exact dir_of_enter henter hk

/-- What is not found where there is a directory is a name. -/
theorem isName_of_notFound (h : t.step k piece = .error .notFound) (hk : t.entry? k = some .dir) : IsName piece := by
  simp only [step, hk] at h
  split_ifs at h with hidle hup hlong
  · cases h
  · exact ⟨fun h => hidle (.inl h), fun h => hidle (.inr h), hup, hlong⟩

theorem step_eq_notFound (hname : IsName piece) (hk : t.entry? k = some .dir) (hfree : t.entry? (k ++ [piece]) = none) :
    t.step k piece = .error .notFound := by
  obtain ⟨hempty, hdot, hup, hlong⟩ := hname
  simp [step, hk, hempty, hdot, hup, hlong, hfree]

/-- What one piece of a path does, it does alongside others too. -/
theorem enter_alongside (hbut : SameFilesBut l t u) (hk : t.entry? k = some .dir)
    (h : t.enter k piece = .ok (t', next)) (hnext : t'.entry? next = some .dir) (hl : next ≠ l) :
    ∃ u', u.enter k piece = .ok (u', next) ∧ SameFilesBut l t' u' := by
  have huk : u.entry? k = some .dir := hbut.dirs k hk
  unfold enter at h
  split at h
  · next hstep =>
    cases h
    have hu : u.step k piece = .ok next := step_of_dir hstep huk (by rw [hbut.dirs next hnext]; rfl)
    exact ⟨u, by rw [enter, hu], hbut⟩
  · next hstep =>
    cases h
    have hname := isName_of_notFound hstep hk
    obtain ⟨-, hfree⟩ := step_notFound hstep (by rw [hk]; rfl)
    have hfiles := (sameFiles_set_dir hfree).files
    have hdirs : ∀ i, entry? (t.set (k ++ [piece]) .dir) i = some .dir → i ≠ k ++ [piece] → u.entry? i = some .dir :=
      fun i hi hne => hbut.dirs i (by rwa [entry?_set_of_ne _ hne] at hi)
    -- others may have made the directory, but no file
    have hnone : u.contents? (k ++ [piece]) = none := by
      rw [hbut.files _ hl]
      exact contents?_eq_none_iff.2 (.inl hfree)
    obtain hufree | hudir := contents?_eq_none_iff.1 hnone
    · have hsame := sameFiles_set_dir hufree
      refine ⟨u.set (k ++ [piece]) .dir, by rw [enter, step_eq_notFound hname huk hufree], ?_, ?_, ?_⟩
      · intro i hi
        by_cases hne : i = k ++ [piece]
        · rw [hne]
          exact entry?_set_self _ (not_isFixed_of_free hufree)
        · exact hsame.dirs i (hdirs i hi hne)
      · exact fun i hi => ((hsame.files i).trans (hbut.files i hi)).trans (hfiles i).symm
      · rw [entry?_set_of_ne _ (Ne.symm hl)]
        exact hbut.notDir
    · have hu : u.step k piece = .ok (k ++ [piece]) := step_name hname huk (by rw [hudir]; rfl)
      refine ⟨u, by rw [enter, hu], ?_, fun i hi => (hbut.files i hi).trans (hfiles i).symm, hbut.notDir⟩
      intro i hi
      by_cases hne : i = k ++ [piece]
      · rwa [hne]
      · exact hdirs i hi hne
  · cases h

theorem enterAll_alongside {pieces : List String} : ∀ {t u : FileTree} {k : List String}, t.IsTree →
    SameFilesBut l t u → (t.entry? k).isSome → t.enterAll k pieces = (t', .ok last) → t'.entry? last = some .dir →
      t'.entry? l ≠ some .dir → ∃ u', u.enterAll k pieces = (u', .ok last) ∧ SameFilesBut l t' u' := by
  induction pieces with
  | nil =>
    intro t u k _ hbut _ h _ _
    cases h
    exact ⟨u, rfl, hbut⟩
  | cons piece rest ih =>
    intro t u k htree hbut hk h hlast hl
    obtain ⟨t₁, next, henter, hrest⟩ := enterAll_cons_eq_ok h
    obtain ⟨htree₁, -, hnext⟩ := htree.enter hk henter
    have hsame : SameFiles t₁ t' := by
      have hall := (htree₁.enterAll rest hnext).2
      rwa [hrest] at hall
    have hdir : t₁.entry? next = some .dir := dir_of_enterAll hrest hnext hlast
    have hne : next ≠ l := fun heq => hl (heq ▸ hsame.dirs next hdir)
    obtain ⟨u₁, hu₁, hbut₁⟩ := enter_alongside hbut (dir_of_enter henter hk) henter hdir hne
    obtain ⟨u', hu', hbut'⟩ := ih htree₁ hbut₁ hnext hrest hlast hl
    exact ⟨u', by rw [enterAll, hu₁]; exact hu', hbut'⟩

/-- **Directories can be made alongside others.** -/
theorem createDirs_alongside (h : t.IsTree) (hbut : SameFilesBut l t u) (hdirs : t.createDirs p = (t', .ok ()))
    (hl : t'.entry? l ≠ some .dir) : ∃ u', u.createDirs p = (u', .ok ()) ∧ SameFilesBut l t' u' := by
  unfold createDirs at hdirs ⊢
  split at hdirs
  · next hempty =>
    cases hdirs
    exact ⟨u, if_pos hempty, hbut⟩
  · next hempty =>
    split at hdirs
    · cases hdirs
    · next start hstart =>
      have hsome : (t.entry? start).isSome := by rw [entry?_of_isFixed (isFixed_of_startOf hstart)]; rfl
      split at hdirs
      · cases hdirs
      · next t₁ last hall =>
        split at hdirs
        · next hlast =>
          cases hdirs
          obtain ⟨u', hu', hbut'⟩ := enterAll_alongside h hbut hsome hall hlast hl
          exact ⟨u', by simp only [if_neg hempty, hu', hbut'.dirs last hlast], hbut'⟩
        · cases hdirs

end Symbolicate.FileTree
