import Mathlib.Data.List.Basic
import Mathlib.Tactic.Common
import Symbolicate.Files.Tree

/-!
# What file operations keep

In a file tree every entry lies in a directory (`IsTree`). Two kinds of changes are told apart: those that leave all
files as they are and may add directories (`SameFiles`), and those that touch the file at one location besides
(`SameFilesBut`). Each operation is of one kind: directories are made without a change to files (`IsTree.createDirs`),
and a file is made, written and removed at the location its path leads to (`IsTree.create`, `HoldsAt.write_end`,
`HoldsAt.remove`).

Paths are followed through directories only, so a path that leads somewhere keeps to do so while directories stay
(`follow_of_dirs`). New directories can make a path lead somewhere; without two dots it then leads to something new
(`IsTree.follow_of_old`).
-/

namespace Symbolicate.FileTree

variable {t t' : FileTree} {l k : List String} {p : FilePath}

/-! ## Entries -/

/-- A location at which there always is a directory. -/
def IsFixed (location : List String) : Prop := isAbove location = true ∨ location = root

theorem isFixed_iff : (isAbove l || l == root) = true ↔ IsFixed l := by
  rw [Bool.or_eq_true, beq_iff_eq, IsFixed]

theorem entry?_of_isFixed (h : IsFixed l) : t.entry? l = some .dir := if_pos (isFixed_iff.2 h)

theorem entry?_of_not_isFixed (h : ¬ IsFixed l) : t.entry? l = (t.entries.find? (·.1 == l)).map (·.2) :=
  if_neg (isFixed_iff.not.2 h)

theorem not_isFixed_of_free (h : t.entry? l = none) : ¬ IsFixed l := fun hfixed => by
  rw [entry?_of_isFixed hfixed] at h
  cases h

theorem not_isFixed_of_notDir (h : t.entry? l ≠ some .dir) : ¬ IsFixed l := fun hfixed => h (entry?_of_isFixed hfixed)

/-- Replacing an entry keeps its location. -/
theorem find?_replace (entries : List (List String × FileEntry)) (e : FileEntry) (l k : List String) :
    (entries.map fun old => if old.1 = l then (l, e) else old).find? (·.1 == k) =
      (entries.find? (·.1 == k)).map fun old => if old.1 = l then (l, e) else old := by
  rw [List.find?_map]
  congr 2
  funext old
  by_cases hold : old.1 = l <;> simp [hold]

/-- What lies at other locations than a new entry stays as it is. -/
theorem entry?_set_of_ne (e : FileEntry) (h : k ≠ l) : entry? (t.set l e) k = t.entry? k := by
  by_cases hk : IsFixed k
  · rw [entry?_of_isFixed hk, entry?_of_isFixed hk]
  · rw [entry?_of_not_isFixed hk, entry?_of_not_isFixed hk, set]
    split
    · rw [find?_replace, Option.map_map]
      cases hfind : t.entries.find? (·.1 == k) with
      | none => rfl
      | some old =>
        have hold : old.1 = k := by simpa using List.find?_some hfind
        simp [hold, h]
    · rw [List.find?_append]
      simp [Ne.symm h]

/-- A new entry lies at its location. -/
theorem entry?_set_self (e : FileEntry) (h : ¬ IsFixed l) : entry? (t.set l e) l = some e := by
  rw [entry?_of_not_isFixed h, set]
  cases hfind : t.entries.find? (·.1 == l) with
  | none =>
    have hany : ¬ (t.entries.any (·.1 == l)) = true := by
      rw [List.any_eq_true]
      rintro ⟨old, hmem, hold⟩
      exact List.find?_eq_none.1 hfind old hmem hold
    rw [if_neg hany, List.find?_append, hfind]
    simp
  | some old =>
    have hold : old.1 = l := by simpa using List.find?_some hfind
    have hany : (t.entries.any (·.1 == l)) = true :=
      List.any_eq_true.2 ⟨old, List.mem_of_find?_eq_some hfind, beq_iff_eq.2 hold⟩
    rw [if_pos hany, find?_replace, hfind]
    simp [hold]

theorem entry?_erase_of_ne (h : k ≠ l) : entry? (t.erase l) k = t.entry? k := by
  by_cases hk : IsFixed k
  · rw [entry?_of_isFixed hk, entry?_of_isFixed hk]
  · rw [entry?_of_not_isFixed hk, entry?_of_not_isFixed hk, erase, List.find?_filter]
    congr 2
    funext e
    by_cases he : e.1 = k <;> simp [he, h]

theorem entry?_erase_self (h : ¬ IsFixed l) : entry? (t.erase l) l = none := by
  rw [entry?_of_not_isFixed h, erase, List.find?_filter]
  simp

theorem contents?_eq_some_iff {b : Bytes} : t.contents? l = some b ↔ t.entry? l = some (.file b) := by
  unfold contents?
  split <;> simp_all

/-- A file that lies somewhere is an entry of the tree. -/
theorem mem_entries_of_contents? {b : Bytes} (h : t.contents? l = some b) : (l, .file b) ∈ t.entries := by
  rw [contents?_eq_some_iff, entry?] at h
  split at h
  · cases h
  · obtain ⟨⟨k, e⟩, hfind, rfl⟩ := Option.map_eq_some_iff.1 h
    have hk : k = l := by simpa using List.find?_some hfind
    exact hk ▸ List.mem_of_find?_eq_some hfind

theorem contents?_eq_none_iff : t.contents? l = none ↔ t.entry? l = none ∨ t.entry? l = some .dir := by
  unfold contents?
  split
  · next h => simp [h]
  · next h =>
    cases he : t.entry? l with
    | none => simp
    | some e =>
      cases e with
      | dir => simp
      | file b => exact absurd he (h b)

/-! ## Trees -/

/-- Everything lies in a directory. -/
def IsTree (t : FileTree) : Prop := ∀ e ∈ t.entries, t.entry? e.1.dropLast = some .dir

instance (t : FileTree) : Decidable t.IsTree := inferInstanceAs (Decidable (∀ e ∈ t.entries, _))

theorem isFixed_of_isFixed_append {name : String} (h : IsFixed (l ++ [name])) : IsFixed l := by
  obtain h | h := h
  · simp only [isAbove, List.all_append, Bool.and_eq_true] at h
    exact .inl h.1
  · have hl : l = [] := by
      cases l with
      | nil => rfl
      | cons a l => simp [root] at h
    exact .inl (by rw [hl]; rfl)

/-- What lies at a location lies in the directory above it. -/
theorem isTree_iff : t.IsTree ↔ ∀ l name, (t.entry? (l ++ [name])).isSome → t.entry? l = some .dir := by
  constructor
  · intro h l name hsome
    by_cases hfixed : IsFixed (l ++ [name])
    · exact entry?_of_isFixed (isFixed_of_isFixed_append hfixed)
    · rw [entry?_of_not_isFixed hfixed, Option.isSome_map] at hsome
      obtain ⟨e, he⟩ := Option.isSome_iff_exists.1 hsome
      have hdir := h e (List.mem_of_find?_eq_some he)
      have heq : e.1 = l ++ [name] := by simpa using List.find?_some he
      rwa [heq, List.dropLast_concat] at hdir
  · intro h e he
    obtain hnil | ⟨l, name, heq⟩ := List.eq_nil_or_concat' e.1
    · rw [hnil]
      exact entry?_of_isFixed (.inl rfl)
    · rw [heq, List.dropLast_concat]
      refine h l name ?_
      by_cases hfixed : IsFixed (l ++ [name])
      · rw [entry?_of_isFixed hfixed]; rfl
      · rw [entry?_of_not_isFixed hfixed, Option.isSome_map]
        exact List.find?_isSome.2 ⟨e, he, by simp [heq]⟩

theorem IsTree.dir_of_isSome (h : t.IsTree) {name : String} (hsome : (t.entry? (l ++ [name])).isSome) :
    t.entry? l = some .dir := isTree_iff.1 h l name hsome

/-- The directory above a directory is one. -/
theorem IsTree.entry?_above (h : t.IsTree) (hl : t.entry? l = some .dir) : t.entry? (above l) = some .dir := by
  unfold above
  split
  · exact entry?_of_isFixed (.inr rfl)
  · split
    · next hup => exact entry?_of_isFixed (.inl (by simpa [isAbove] using hup))
    · next hup =>
      obtain rfl | ⟨k, name, rfl⟩ := List.eq_nil_or_concat' l
      · exact absurd rfl hup
      · rw [List.dropLast_concat]
        have hsome : (t.entry? (k ++ [name])).isSome := by rw [hl]; rfl
        exact h.dir_of_isSome hsome

theorem IsTree.set (h : t.IsTree) {name : String} (hl : t.entry? l = some .dir) {e : FileEntry}
    (he : e = .dir ∨ t.entry? (l ++ [name]) ≠ some .dir) : (t.set (l ++ [name]) e).IsTree := by
  refine isTree_iff.2 fun k other hsome => ?_
  -- only the new entry itself can be what lies above another one, and then it is a directory
  have hne : l ≠ l ++ [name] := by simp
  have hdir : t.entry? k = some .dir := by
    by_cases heq : k ++ [other] = l ++ [name]
    · obtain ⟨rfl, -⟩ := List.append_inj' heq rfl
      exact hl
    · rw [entry?_set_of_ne _ heq] at hsome
      exact h.dir_of_isSome hsome
  by_cases hk : k = l ++ [name]
  · subst hk
    obtain rfl | hfile := he
    · by_cases hfixed : IsFixed (l ++ [name])
      · exact entry?_of_isFixed hfixed
      · exact entry?_set_self _ hfixed
    · exact absurd hdir hfile
  · rwa [entry?_set_of_ne _ hk]

theorem IsTree.erase (h : t.IsTree) (hl : t.entry? l ≠ some .dir) : (t.erase l).IsTree := by
  refine isTree_iff.2 fun k name hsome => ?_
  have hsome' : (t.entry? (k ++ [name])).isSome := by
    by_cases heq : k ++ [name] = l
    · rw [heq, entry?_erase_self (not_isFixed_of_notDir hl)] at hsome
      cases hsome
    · rwa [entry?_erase_of_ne heq] at hsome
  have hk := h.dir_of_isSome hsome'
  have hne : k ≠ l := fun heq => hl (heq ▸ hk)
  rwa [entry?_erase_of_ne hne]

/-! ## Kinds of changes -/

/-- All files are as they were, and no directory is gone. -/
structure SameFiles (t t' : FileTree) : Prop where
  dirs : ∀ k, t.entry? k = some .dir → t'.entry? k = some .dir
  files : ∀ k, t'.contents? k = t.contents? k

theorem SameFiles.refl (t : FileTree) : SameFiles t t := ⟨fun _ h => h, fun _ => rfl⟩

theorem SameFiles.trans {u : FileTree} (h : SameFiles t t') (h' : SameFiles t' u) : SameFiles t u :=
  ⟨fun k hk => h'.dirs k (h.dirs k hk), fun k => (h'.files k).trans (h.files k)⟩

/-- All files but perhaps one are as they were, and no directory is gone. -/
structure SameFilesBut (l : List String) (t t' : FileTree) : Prop where
  dirs : ∀ k, t.entry? k = some .dir → t'.entry? k = some .dir
  files : ∀ k, k ≠ l → t'.contents? k = t.contents? k
  notDir : t'.entry? l ≠ some .dir

theorem SameFiles.but {u : FileTree} (h : SameFiles t t') (h' : SameFilesBut l t' u) : SameFilesBut l t u :=
  ⟨fun k hk => h'.dirs k (h.dirs k hk), fun k hk => (h'.files k hk).trans (h.files k), h'.notDir⟩

theorem SameFilesBut.trans {u : FileTree} (h : SameFilesBut l t t') (h' : SameFilesBut l t' u) : SameFilesBut l t u :=
  ⟨fun k hk => h'.dirs k (h.dirs k hk), fun k hk => (h'.files k hk).trans (h.files k hk), h'.notDir⟩

/-- What was there is of the same kind as before. -/
theorem SameFilesBut.dir_of_dir (h : SameFilesBut l t t') (hk : t'.entry? k = some .dir)
    (hsome : (t.entry? k).isSome) : t.entry? k = some .dir := by
  obtain ⟨e, he⟩ := Option.isSome_iff_exists.1 hsome
  cases e with
  | dir => exact he
  | file b =>
    have hne : k ≠ l := fun heq => h.notDir (heq ▸ hk)
    have hfile := (h.files k hne).trans (contents?_eq_some_iff.2 he)
    rw [contents?_eq_some_iff, hk] at hfile
    cases hfile

theorem contents?_set_of_ne (e : FileEntry) (h : k ≠ l) : (t.set l e).contents? k = t.contents? k := by
  simp only [contents?, entry?_set_of_ne e h]

theorem sameFilesBut_set (b : Bytes) (h : t.entry? l ≠ some .dir) : SameFilesBut l t (t.set l (.file b)) where
  dirs k hk := by
    have hne : k ≠ l := fun heq => h (heq ▸ hk)
    rwa [entry?_set_of_ne _ hne]
  files k hk := contents?_set_of_ne _ hk
  notDir := by
    rw [entry?_set_self _ (not_isFixed_of_notDir h)]
    simp

theorem sameFilesBut_erase (h : t.entry? l ≠ some .dir) : SameFilesBut l t (t.erase l) where
  dirs k hk := by
    have hne : k ≠ l := fun heq => h (heq ▸ hk)
    rwa [entry?_erase_of_ne hne]
  files k hk := by simp only [contents?, entry?_erase_of_ne hk]
  notDir := by
    rw [entry?_erase_self (not_isFixed_of_notDir h)]
    simp

/-! ## Following paths -/

/-- A piece of a path that is a name, and not too long for one. -/
def IsName (piece : String) : Prop := piece ≠ "" ∧ piece ≠ "." ∧ piece ≠ ".." ∧ ¬ isTooLong piece

/-- What one piece of a path leads to, from a directory. -/
theorem step_eq_ok {piece : String} (h : t.step l piece = .ok k) :
    t.entry? l = some .dir ∧
      ((piece = "" ∨ piece = ".") ∧ k = l ∨ piece = ".." ∧ k = above l ∨
        IsName piece ∧ k = l ++ [piece] ∧ (t.entry? k).isSome) := by
  unfold step at h
  split at h
  · cases h
  · cases h
  · next hdir =>
    refine ⟨hdir, ?_⟩
    split at h
    · next hstay => cases h; exact .inl ⟨hstay, rfl⟩
    · next hstay =>
      split at h
      · next hup => cases h; exact .inr (.inl ⟨hup, rfl⟩)
      · next hup =>
        split at h
        · cases h
        · next hlong =>
          split at h
          · next hsome =>
            cases h
            exact .inr (.inr ⟨⟨fun h => hstay (.inl h), fun h => hstay (.inr h), hup, hlong⟩, rfl, hsome⟩)
          · cases h

theorem step_name {piece : String} (hname : IsName piece) (hdir : t.entry? l = some .dir)
    (hsome : (t.entry? (l ++ [piece])).isSome) : t.step l piece = .ok (l ++ [piece]) := by
  obtain ⟨h1, h2, h3, h4⟩ := hname
  unfold step
  simp [hdir, h1, h2, h3, h4, hsome]

/-- A piece leads to the same place in another tree that has the directory and what it leads to. -/
theorem step_of_dir {piece : String} (h : t.step l piece = .ok k) (hdir : t'.entry? l = some .dir)
    (hk : (t'.entry? k).isSome) : t'.step l piece = .ok k := by
  obtain ⟨-, ⟨hstay, rfl⟩ | ⟨rfl, rfl⟩ | ⟨hname, rfl, -⟩⟩ := step_eq_ok h
  · simp [step, hdir, hstay]
  · simp [step, hdir]
  · exact step_name hname hdir hk

theorem follow_cons {piece : String} {rest : List String} :
    t.follow l (piece :: rest) = (t.step l piece).bind fun next => t.follow next rest := rfl

theorem follow_cons_eq_ok {piece : String} {rest : List String} :
    t.follow l (piece :: rest) = .ok k ↔ ∃ next, t.step l piece = .ok next ∧ t.follow next rest = .ok k := by
  rw [follow_cons]
  cases t.step l piece with
  | error e => simp [Except.bind]
  | ok next => simp [Except.bind]

/-- Where a piece leads does not depend on the files, if it leads anywhere. -/
theorem eq_of_step {piece : String} {k' : List String} (h : t.step l piece = .ok k) (h' : t'.step l piece = .ok k') :
    k = k' := by
  obtain ⟨-, ⟨hstay, rfl⟩ | ⟨rfl, rfl⟩ | ⟨hname, rfl, -⟩⟩ := step_eq_ok h
  · obtain ⟨-, ⟨-, rfl⟩ | ⟨rfl, -⟩ | ⟨hname', -⟩⟩ := step_eq_ok h'
    · rfl
    · simp at hstay
    · exact absurd hstay (not_or.2 ⟨hname'.1, hname'.2.1⟩)
  · obtain ⟨-, ⟨hstay', -⟩ | ⟨-, rfl⟩ | ⟨hname', -⟩⟩ := step_eq_ok h'
    · simp at hstay'
    · rfl
    · exact absurd rfl hname'.2.2.1
  · obtain ⟨-, ⟨hstay', -⟩ | ⟨rfl, -⟩ | ⟨-, rfl, -⟩⟩ := step_eq_ok h'
    · exact absurd hstay' (not_or.2 ⟨hname.1, hname.2.1⟩)
    · exact absurd rfl hname.2.2.1
    · rfl

theorem eq_of_follow {pieces : List String} {k' : List String} :
    ∀ {l}, t.follow l pieces = .ok k → t'.follow l pieces = .ok k' → k = k' := by
  induction pieces with
  | nil =>
    intro l h h'
    cases h
    cases h'
    rfl
  | cons piece rest ih =>
    intro l h h'
    obtain ⟨next, hstep, hrest⟩ := follow_cons_eq_ok.1 h
    obtain ⟨next', hstep', hrest'⟩ := follow_cons_eq_ok.1 h'
    obtain rfl := eq_of_step hstep hstep'
    exact ih hrest hrest'

/-- **Paths stay.** What leads somewhere does so as long as directories stay and something is there. -/
theorem follow_of_dirs (hdirs : ∀ k, t.entry? k = some .dir → t'.entry? k = some .dir) {pieces : List String} :
    ∀ {l}, t.follow l pieces = .ok k → (t'.entry? k).isSome → t'.follow l pieces = .ok k := by
  induction pieces with
  | nil => exact fun h _ => h
  | cons piece rest ih =>
    intro l h hk
    obtain ⟨next, hstep, hrest⟩ := follow_cons_eq_ok.1 h
    refine follow_cons_eq_ok.2 ⟨next, step_of_dir hstep (hdirs l (step_eq_ok hstep).1) ?_, ih hrest hk⟩
    cases rest with
    | nil => cases hrest; exact hk
    | cons piece' rest =>
      -- the next piece is taken from here, so this is a directory
      obtain ⟨_, hstep', -⟩ := follow_cons_eq_ok.1 hrest
      rw [hdirs next (step_eq_ok hstep').1]
      rfl

/-- In a tree, one arrives at something that is there. -/
theorem IsTree.isSome_after_step (h : t.IsTree) {piece : String} (hstep : t.step l piece = .ok k) :
    (t.entry? k).isSome := by
  obtain ⟨hdir, ⟨-, rfl⟩ | ⟨-, rfl⟩ | ⟨-, -, hk⟩⟩ := step_eq_ok hstep
  · rw [hdir]; rfl
  · rw [h.entry?_above hdir]; rfl
  · exact hk

theorem IsTree.isSome_after_follow (h : t.IsTree) {pieces : List String} :
    ∀ {l}, (t.entry? l).isSome → t.follow l pieces = .ok k → (t.entry? k).isSome := by
  induction pieces with
  | nil => rintro l hl h; cases h; exact hl
  | cons piece rest ih =>
    intro l _ hfollow
    obtain ⟨next, hstep, hrest⟩ := follow_cons_eq_ok.1 hfollow
    exact ih (h.isSome_after_step hstep) hrest

/-- Without two dots, one comes only from something that is there to something that is there. -/
theorem IsTree.isSome_before_step (h : t.IsTree) {piece : String} (hstep : t'.step l piece = .ok k) (hup : piece ≠ "..")
    (hk : (t.entry? k).isSome) : (t.entry? l).isSome := by
  obtain ⟨-, ⟨-, rfl⟩ | ⟨rfl, -⟩ | ⟨-, rfl, -⟩⟩ := step_eq_ok hstep
  · exact hk
  · exact absurd rfl hup
  · rw [h.dir_of_isSome hk]
    rfl

theorem IsTree.isSome_before_follow (h : t.IsTree) {pieces : List String} :
    ∀ {l}, t'.follow l pieces = .ok k → ".." ∉ pieces → (t.entry? k).isSome → (t.entry? l).isSome := by
  induction pieces with
  | nil => rintro l h - hk; cases h; exact hk
  | cons piece rest ih =>
    intro l hfollow hup hk
    obtain ⟨next, hstep, hrest⟩ := follow_cons_eq_ok.1 hfollow
    rw [List.mem_cons, not_or] at hup
    exact h.isSome_before_step hstep (Ne.symm hup.1) (ih hrest hup.2 hk)

/-- **New directories lead to new places.** A path without two dots that leads to something old did so before. -/
theorem IsTree.follow_of_old (h : t.IsTree)
    (hdirs : ∀ k, t'.entry? k = some .dir → (t.entry? k).isSome → t.entry? k = some .dir) {pieces : List String} :
    ∀ {l}, t'.follow l pieces = .ok k → ".." ∉ pieces → (t.entry? k).isSome → t.follow l pieces = .ok k := by
  induction pieces with
  | nil => exact fun h _ _ => h
  | cons piece rest ih =>
    intro l hfollow hup hk
    obtain ⟨next, hstep, hrest⟩ := follow_cons_eq_ok.1 hfollow
    rw [List.mem_cons, not_or] at hup
    have hnext := h.isSome_before_follow hrest hup.2 hk
    have hl := h.isSome_before_step hstep (Ne.symm hup.1) hnext
    exact follow_cons_eq_ok.2 ⟨next, step_of_dir hstep (hdirs l (step_eq_ok hstep).1 hl) hnext, ih hrest hup.2 hk⟩

theorem startOf_eq_ok (h : startOf p = .ok l) : l = if p.isAbsolute then root else [] := by
  unfold startOf at h
  split at h
  · cases h
  · split at h
    · cases h
    · split at h
      · cases h
      · cases h
        rfl

/-- Paths start at a directory that is always there. -/
theorem isFixed_of_startOf (h : startOf p = .ok l) : IsFixed l := by
  rw [startOf_eq_ok h]
  split
  · exact .inr rfl
  · exact .inl rfl

theorem locate_eq_ok : t.locate p = .ok k ↔ ∃ start, startOf p = .ok start ∧ t.follow start p.pieces = .ok k := by
  unfold locate
  cases startOf p with
  | error e => simp [bind, Except.bind]
  | ok start => simp [bind, Except.bind]

theorem IsTree.isSome_of_locate (h : t.IsTree) (hp : t.locate p = .ok k) : (t.entry? k).isSome := by
  obtain ⟨start, hstart, hfollow⟩ := locate_eq_ok.1 hp
  exact h.isSome_after_follow (by rw [entry?_of_isFixed (isFixed_of_startOf hstart)]; rfl) hfollow

theorem locate_of_dirs (hdirs : ∀ k, t.entry? k = some .dir → t'.entry? k = some .dir) (h : t.locate p = .ok k)
    (hk : (t'.entry? k).isSome) : t'.locate p = .ok k := by
  obtain ⟨start, hstart, hfollow⟩ := locate_eq_ok.1 h
  exact locate_eq_ok.2 ⟨start, hstart, follow_of_dirs hdirs hfollow hk⟩

/-- A path leads to one location at most, whatever the files are. -/
theorem eq_of_locate {k' : List String} (h : t.locate p = .ok k) (h' : t'.locate p = .ok k') : k = k' := by
  obtain ⟨start, hstart, hfollow⟩ := locate_eq_ok.1 h
  obtain ⟨start', hstart', hfollow'⟩ := locate_eq_ok.1 h'
  cases hstart.symm.trans hstart'
  exact eq_of_follow hfollow hfollow'

theorem isFile_iff : t.isFile p = true ↔ ∃ l b, t.locate p = .ok l ∧ t.contents? l = some b := by
  unfold isFile
  cases t.locate p with
  | error e => simp
  | ok l => cases he : t.entry? l with
    | none => simp [contents?, he]
    | some e => cases e <;> simp [contents?, he]

theorem read_eq_ok {b : Bytes} : t.read p = .ok b ↔ ∃ l, t.locate p = .ok l ∧ t.contents? l = some b := by
  unfold read
  cases t.locate p with
  | error e => simp [bind, Except.bind]
  | ok l =>
    cases he : t.entry? l with
    | none => simp [contents?, he, bind, Except.bind, throw, throwThe, MonadExceptOf.throw]
    | some e => cases e <;> simp [contents?, he, bind, Except.bind, throw, throwThe, MonadExceptOf.throw, pure, Except.pure]

/-! ## Making directories -/

theorem sameFiles_set_dir (h : t.entry? l = none) : SameFiles t (t.set l .dir) where
  dirs k hk := by
    have hne : k ≠ l := fun heq => by rw [heq, h] at hk; cases hk
    rwa [entry?_set_of_ne _ hne]
  files k := by
    by_cases hk : k = l
    · have hdir : FileTree.entry? (t.set l .dir) l = some .dir := entry?_set_self _ (not_isFixed_of_free h)
      rw [hk, contents?_eq_none_iff.2 (.inl h), contents?_eq_none_iff.2 (.inr hdir)]
    · exact contents?_set_of_ne _ hk

/-- A name that is not found from something that is there is free in a directory. -/
theorem step_notFound {piece : String} (h : t.step l piece = .error .notFound) (hl : (t.entry? l).isSome) :
    t.entry? l = some .dir ∧ t.entry? (l ++ [piece]) = none := by
  unfold step at h
  split at h
  · next hnone => rw [hnone] at hl; cases hl
  · cases h
  · next hdir =>
    refine ⟨hdir, ?_⟩
    split at h
    · cases h
    · split at h
      · cases h
      · split at h
        · cases h
        · split at h
          · cases h
          · next hnone => simpa using hnone

/-- Going one piece on, directories may be made, and one arrives at something that is there. -/
theorem IsTree.enter (h : t.IsTree) (hl : (t.entry? l).isSome) {piece : String}
    (henter : t.enter l piece = .ok (t', k)) : t'.IsTree ∧ SameFiles t t' ∧ (t'.entry? k).isSome := by
  unfold FileTree.enter at henter
  split at henter
  · next next hstep =>
    cases henter
    exact ⟨h, .refl t, h.isSome_after_step hstep⟩
  · next hstep =>
    cases henter
    obtain ⟨hdir, hnone⟩ := step_notFound hstep hl
    refine ⟨h.set hdir (.inl rfl), sameFiles_set_dir hnone, ?_⟩
    rw [entry?_set_self _ (not_isFixed_of_free hnone)]
    rfl
  · cases henter

theorem IsTree.enterAll (pieces : List String) : ∀ {t : FileTree} {l : List String}, t.IsTree → (t.entry? l).isSome →
    (t.enterAll l pieces).1.IsTree ∧ SameFiles t (t.enterAll l pieces).1 := by
  induction pieces with
  | nil => exact fun h _ => ⟨h, .refl _⟩
  | cons piece rest ih =>
    intro t l h hl
    unfold FileTree.enterAll
    split
    · exact ⟨h, .refl t⟩
    · next u next henter =>
      obtain ⟨hu, hsame, hnext⟩ := h.enter hl henter
      obtain ⟨htree, hsame'⟩ := ih hu hnext
      exact ⟨htree, hsame.trans hsame'⟩

/-- **Making directories leaves all files as they are**, whether it succeeds or not. -/
theorem IsTree.createDirs (h : t.IsTree) (p : FilePath) :
    (t.createDirs p).1.IsTree ∧ SameFiles t (t.createDirs p).1 := by
  unfold FileTree.createDirs
  split
  · exact ⟨h, .refl t⟩
  · split
    · exact ⟨h, .refl t⟩
    · next start hstart =>
      have hsome : (t.entry? start).isSome := by rw [entry?_of_isFixed (isFixed_of_startOf hstart)]; rfl
      have hall := h.enterAll p.pieces hsome
      split <;> next heq => rwa [heq] at hall

/-! ## Making, writing and removing files -/

/-- Where a path makes a file: under a name in a directory. -/
theorem fileLocation_eq_ok : t.fileLocation p = .ok l ↔
    ∃ start parent name, startOf p = .ok start ∧ t.follow start p.pieces.dropLast = .ok parent ∧
      p.pieces.getLast?.getD "" = name ∧ t.entry? parent = some .dir ∧ IsName name ∧ l = parent ++ [name] ∧
      t.entry? l ≠ some .dir := by
  unfold fileLocation
  cases hstart : startOf p with
  | error e => simp [bind, Except.bind]
  | ok start =>
    cases hparent : t.follow start p.pieces.dropLast with
    | error e => simp [bind, Except.bind, hparent]
    | ok parent =>
      simp only [bind, Except.bind, hparent, throw, throwThe, MonadExceptOf.throw, pure, Except.pure]
      constructor
      · intro h
        split at h
        · cases h
        · next hdir =>
          split at h
          · cases h
          · next hname =>
            split at h
            · cases h
            · next hlong =>
              split at h
              · cases h
              · next hnew =>
                cases h
                rw [not_or, not_or] at hname
                exact ⟨start, parent, _, rfl, hparent, rfl, not_not.1 hdir, ⟨hname.1, hname.2.1, hname.2.2, hlong⟩,
                  rfl, hnew⟩
      · rintro ⟨_, _, name, ⟨⟩, hparent', rfl, hdir, ⟨h1, h2, h3, h4⟩, rfl, hnew⟩
        rw [hparent] at hparent'
        cases hparent'
        simp [hdir, h1, h2, h3, h4, hnew]

/-- Where a path makes a file stays the same while directories stay and the place is free. -/
theorem fileLocation_of_dirs (hdirs : ∀ k, t.entry? k = some .dir → t'.entry? k = some .dir)
    (h : t.fileLocation p = .ok l) (hl : t'.entry? l ≠ some .dir) : t'.fileLocation p = .ok l := by
  obtain ⟨start, parent, name, hstart, hparent, hlast, hdir, hname, rfl, -⟩ := fileLocation_eq_ok.1 h
  have hdir' := hdirs parent hdir
  have hparent' : t'.follow start p.pieces.dropLast = .ok parent :=
    follow_of_dirs hdirs hparent (by rw [hdir']; rfl)
  exact fileLocation_eq_ok.2 ⟨start, parent, name, hstart, hparent', hlast, hdir', hname, rfl, hl⟩

theorem follow_append {pieces rest : List String} :
    t.follow l (pieces ++ rest) = (t.follow l pieces).bind fun next => t.follow next rest := by
  simp only [follow, List.foldlM_append]
  rfl

/-- A path leads to where it makes a file, if there is one. -/
theorem locate_of_fileLocation (h : t.fileLocation p = .ok l) (hl : (t.entry? l).isSome) : t.locate p = .ok l := by
  obtain ⟨start, parent, name, hstart, hparent, hlast, hdir, hname, rfl, -⟩ := fileLocation_eq_ok.1 h
  have hpieces : p.pieces = p.pieces.dropLast ++ [name] := by
    cases hpieces : p.pieces.getLast? with
    | none => rw [hpieces] at hlast; exact absurd hlast.symm hname.1
    | some last =>
      rw [hpieces] at hlast
      cases hlast
      exact (List.dropLast_append_getLast? _ hpieces).symm
  refine locate_eq_ok.2 ⟨start, hstart, ?_⟩
  rw [hpieces, follow_append, hparent]
  exact follow_cons_eq_ok.2 ⟨_, step_name hname hdir hl, rfl⟩

theorem notDir_of_fileLocation (h : t.fileLocation p = .ok l) : t.entry? l ≠ some .dir := by
  obtain ⟨_, _, _, -, -, -, -, -, -, hl⟩ := fileLocation_eq_ok.1 h
  exact hl

theorem notDir_of_contents? {b : Bytes} (h : t.contents? l = some b) : t.entry? l ≠ some .dir := by
  rw [contents?_eq_some_iff.1 h]
  simp

theorem contents?_set_self (b : Bytes) (h : t.entry? l ≠ some .dir) : (t.set l (.file b)).contents? l = some b :=
  contents?_eq_some_iff.2 (entry?_set_self _ (not_isFixed_of_notDir h))

/-- In a tree, a path makes a file at a location, and there is one with these contents. -/
structure HoldsAt (t : FileTree) (p : FilePath) (location : List String) (contents : Bytes) : Prop where
  isTree : t.IsTree
  place : t.fileLocation p = .ok location
  contents_eq : t.contents? location = some contents

theorem HoldsAt.locate {b : Bytes} (h : t.HoldsAt p l b) : t.locate p = .ok l :=
  locate_of_fileLocation h.place (by rw [contents?_eq_some_iff.1 h.contents_eq]; rfl)

theorem IsTree.holdsAt_set (h : t.IsTree) (hl : t.fileLocation p = .ok l) (b : Bytes) :
    (t.set l (.file b)).HoldsAt p l b ∧ SameFilesBut l t (t.set l (.file b)) := by
  have hbut := sameFilesBut_set b (notDir_of_fileLocation hl)
  obtain ⟨_, _, _, -, -, -, hdir, -, rfl, hnew⟩ := fileLocation_eq_ok.1 hl
  exact ⟨⟨h.set hdir (.inr hnew), fileLocation_of_dirs hbut.dirs hl hbut.notDir, contents?_set_self b hnew⟩, hbut⟩

/-- Making a file gives an empty one, or nothing has changed. -/
theorem IsTree.create (h : t.IsTree) (p : FilePath) :
    (∃ e, t.create p = (t, .error e)) ∨
      ∃ l t', t.create p = (t', .ok ()) ∧ t'.HoldsAt p l [] ∧ SameFilesBut l t t' := by
  unfold FileTree.create
  cases hl : t.fileLocation p with
  | error e => exact .inl ⟨e, rfl⟩
  | ok l => exact .inr ⟨l, _, rfl, h.holdsAt_set hl []⟩

theorem overwrite_end (c b : Bytes) : overwrite c c.length b = c ++ b := by
  simp [overwrite]

/-- Writing at the end of a file adds to it. -/
theorem HoldsAt.write_end {c : Bytes} (h : t.HoldsAt p l c) (b : Bytes) :
    ∃ t', t.write p c.length b = (t', .ok ()) ∧ t'.HoldsAt p l (c ++ b) ∧ SameFilesBut l t t' := by
  refine ⟨_, ?_, h.isTree.holdsAt_set h.place (c ++ b)⟩
  simp only [write, h.locate, contents?_eq_some_iff.1 h.contents_eq, overwrite_end]

/-- Removing reaches the file that the path leads to, and nothing else. -/
theorem remove_eq {b : Bytes} (h : t.locate p = .ok l) (hl : t.contents? l = some b) : t.remove p = t.erase l := by
  simp only [remove, h, contents?_eq_some_iff.1 hl]

theorem remove_eq_self (h : ∀ l b, t.locate p = .ok l → t.contents? l ≠ some b) : t.remove p = t := by
  unfold remove
  split
  · next l hl =>
    split
    · next b hb => exact absurd (contents?_eq_some_iff.2 hb) (h l b hl)
    · rfl
  · rfl

/-- After its file has been removed, a path makes a file where it did. -/
theorem HoldsAt.remove {b : Bytes} (h : t.HoldsAt p l b) :
    (t.remove p).IsTree ∧ (t.remove p).fileLocation p = .ok l ∧ (t.remove p).contents? l = none ∧
      SameFilesBut l t (t.remove p) := by
  have hnew := notDir_of_fileLocation h.place
  have hbut := sameFilesBut_erase hnew
  rw [remove_eq h.locate h.contents_eq]
  exact ⟨h.isTree.erase hnew, fileLocation_of_dirs hbut.dirs h.place hbut.notDir,
    contents?_eq_none_iff.2 (.inl (entry?_erase_self (not_isFixed_of_notDir hnew))), hbut⟩

/-! ## Removing several files -/

/-- Some files are gone, but not the one at a location. -/
structure FewerFiles (l : List String) (t t' : FileTree) : Prop where
  dirs : ∀ k, t'.entry? k = some .dir ↔ t.entry? k = some .dir
  files : ∀ k b, t'.contents? k = some b → t.contents? k = some b
  kept : t'.contents? l = t.contents? l

theorem FewerFiles.refl (l : List String) (t : FileTree) : FewerFiles l t t :=
  ⟨fun _ => .rfl, fun _ _ h => h, rfl⟩

theorem FewerFiles.trans {u : FileTree} (h : FewerFiles l t t') (h' : FewerFiles l t' u) : FewerFiles l t u :=
  ⟨fun k => (h'.dirs k).trans (h.dirs k), fun k b hb => h.files k b (h'.files k b hb), h'.kept.trans h.kept⟩

theorem fewerFiles_erase (hk : t.entry? k ≠ some .dir) (hl : l ≠ k) : FewerFiles l t (t.erase k) where
  dirs i := by
    by_cases hi : i = k
    · subst hi
      simp [entry?_erase_self (not_isFixed_of_notDir hk), hk]
    · rw [entry?_erase_of_ne hi]
  files i b hb := by
    by_cases hi : i = k
    · subst hi
      simp [contents?, entry?_erase_self (not_isFixed_of_notDir hk)] at hb
    · simpa only [contents?, entry?_erase_of_ne hi] using hb
  kept := by simp only [contents?, entry?_erase_of_ne hl]

theorem fewerFiles_remove (hl : t.locate p ≠ .ok l) : FewerFiles l t (t.remove p) := by
  by_cases h : ∃ k b, t.locate p = .ok k ∧ t.contents? k = some b
  · obtain ⟨k, b, hk, hb⟩ := h
    rw [remove_eq hk hb]
    exact fewerFiles_erase (notDir_of_contents? hb) fun heq => hl (heq ▸ hk)
  · rw [remove_eq_self fun k b hk hb => h ⟨k, b, hk, hb⟩]
    exact .refl l t

/-- Where a path leads when some files are gone, it led before, if something is left there. -/
theorem FewerFiles.locate {b : Bytes} (h : FewerFiles l t t') (hk : t'.locate p = .ok k) (hb : t'.contents? k = some b) :
    t.locate p = .ok k ∧ t.contents? k = some b := by
  have hold := h.files k b hb
  exact ⟨locate_of_dirs (fun i => (h.dirs i).1) hk (by rw [contents?_eq_some_iff.1 hold]; rfl), hold⟩

/-- Removing files other than the one at a location keeps this one. -/
theorem fewerFiles_removeAll {b : Bytes} (hb : t.contents? l = some b) :
    ∀ {paths : List FilePath}, (∀ path ∈ paths, t.locate path ≠ .ok l) →
      FewerFiles l t (paths.foldl FileTree.remove t) := by
  intro paths
  induction paths generalizing t with
  | nil => exact fun _ => .refl l t
  | cons path rest ih =>
    intro h
    have hfirst := fewerFiles_remove (h path List.mem_cons_self)
    have hb' := hfirst.kept.trans hb
    exact hfirst.trans (ih hb' fun other hother hl =>
      h other (List.mem_cons_of_mem _ hother) (hfirst.locate hl hb').1)

end Symbolicate.FileTree
