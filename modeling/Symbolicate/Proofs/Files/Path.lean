import Mathlib.Tactic.Common
import Symbolicate.Proofs.Files.Tree
import Symbolicate.Proofs.Text.Ascii

/-!
# Joined paths

The pieces of a joined path are those that lead to the directory, then those of the other path (`FilePath.pieces_join`).
So a path that leads on from a directory leads there first (`FileTree.locate_of_follow_lead`).
-/

namespace Symbolicate

namespace FilePath

variable {p q : FilePath}

/-- The pieces that lead to a directory in which another path follows. -/
def lead (p : FilePath) : List String :=
  if p.text = "" then [] else if p.text.toList.getLast? = some '/' then p.pieces.dropLast else p.pieces

theorem pieces_of_append_slash {p : FilePath} {front rest : String} (h : p.text = front ++ "/" ++ rest) :
    p.pieces = FilePath.pieces ⟨front⟩ ++ FilePath.pieces ⟨rest⟩ := by
  have hlist : p.text.toList = front.toList ++ '/' :: rest.toList := by simp [h]
  simp only [pieces, hlist, Text.splitOn_append_cons, List.map_append]

/-- Behind a slash comes one more, empty, piece. -/
theorem exists_of_isOpen (h : p.text.toList.getLast? = some '/') :
    ∃ front : String, p.text = front ++ "/" ∧ p.pieces = FilePath.pieces ⟨front⟩ ++ [""] := by
  obtain ⟨cs, hcs⟩ := List.getLast?_eq_some_iff.1 h
  have htext : p.text = String.ofList cs ++ "/" := by
    rw [← String.toList_inj, hcs]
    simp
  refine ⟨String.ofList cs, htext, ?_⟩
  have hsplit : p.text = String.ofList cs ++ "/" ++ "" := by rw [htext, String.append_empty]
  rw [pieces_of_append_slash hsplit]
  rfl

/-- The pieces of a joined path are those that lead to the directory, then those of the other path. -/
theorem pieces_join (h : q.isAbsolute = false) : (p.join q).pieces = p.lead ++ q.pieces := by
  unfold join lead
  by_cases hempty : p.text = ""
  · simp [h, hempty]
  · by_cases hopen : p.text.toList.getLast? = some '/'
    · obtain ⟨front, htext, hpieces⟩ := exists_of_isOpen hopen
      simp only [h, hempty, hopen, or_true, if_true, if_false, Bool.false_eq_true]
      rw [hpieces, List.dropLast_concat]
      exact pieces_of_append_slash (congrArg (· ++ q.text) htext)
    · have hlist : p.text.toList.isEmpty = false := by simpa using hempty
      simp only [h, hempty, hopen, hlist, or_self, if_false, Bool.false_eq_true]
      exact pieces_of_append_slash rfl

theorem pieces_of_notMem {name : String} (h : '/' ∉ name.toList) : FilePath.pieces ⟨name⟩ = [name] := by
  simp [pieces, Text.splitOn_of_notMem h]

theorem isAbsolute_of_notMem {name : String} (h : '/' ∉ name.toList) : FilePath.isAbsolute ⟨name⟩ = false := by
  cases hcs : name.toList with
  | nil => simp [isAbsolute, hcs]
  | cons c cs =>
    rw [hcs, List.mem_cons, not_or] at h
    simpa [isAbsolute, hcs] using Ne.symm h.1

/-- A plain name leads into the directory with this name. -/
theorem lead_of_notMem {name : String} (h : '/' ∉ name.toList) (hname : name ≠ "") :
    FilePath.lead ⟨name⟩ = [name] := by
  have hlast : name.toList.getLast? ≠ some '/' := fun hlast => h (List.mem_of_getLast? hlast)
  simp [lead, hname, hlast, pieces_of_notMem h]

/-- A joined path is the two texts, with a slash between them or without. -/
theorem text_join (hq : q.isAbsolute = false) : ∃ sep, (p.join q).text = p.text ++ (sep ++ q.text) := by
  unfold join
  rw [hq]
  split
  · simp [*] at *
  · split
    · exact ⟨"", by simp⟩
    · exact ⟨"/", String.append_assoc ..⟩

theorem isAbsolute_join (hp : p.text ≠ "") (hq : q.isAbsolute = false) : (p.join q).isAbsolute = p.isAbsolute := by
  have hne : p.text.toList ≠ [] := by simpa using hp
  obtain ⟨c, cs, hcs⟩ := List.exists_cons_of_ne_nil hne
  obtain ⟨sep, htext⟩ := text_join (p := p) hq
  simp [isAbsolute, htext, hcs]

theorem isAbsolute_join_eq_false (hp : p.isAbsolute = false) (hq : q.isAbsolute = false) :
    (p.join q).isAbsolute = false := by
  by_cases hempty : p.text = ""
  · simp [join, hq, hempty]
  · rw [isAbsolute_join hempty hq, hp]

/-- A path that ends with a name leads into the directory with this name. -/
theorem lead_join {name : String} (hname : '/' ∉ name.toList) (hne : name ≠ "") :
    (p.join ⟨name⟩).lead = p.lead ++ [name] := by
  have habs := isAbsolute_of_notMem hname
  obtain ⟨sep, htext⟩ := text_join (p := p) habs
  have hlist : name.toList ≠ [] := by simpa using hne
  have hlast : (p.join ⟨name⟩).text.toList.getLast? ≠ some '/' := by
    rw [htext, String.toList_append, String.toList_append, ← List.append_assoc, List.getLast?_append_of_ne_nil _ hlist]
    exact fun h => hname (List.mem_of_getLast? h)
  have hsome : (p.join ⟨name⟩).text ≠ "" := by
    rw [htext]
    simp [hne]
  rw [lead, if_neg hsome, if_neg hlast, pieces_join habs, pieces_of_notMem hname]

end FilePath

namespace FileTree

variable {t : FileTree} {p q : FilePath} {l start : List String}

/-- Paths that lead on from a directory start where it does. -/
theorem startOf_of_join (hp : p.text ≠ "") (hq : q.isAbsolute = false) (h : startOf (p.join q) = .ok start) :
    startOf p = .ok start := by
  obtain ⟨sep, htext⟩ := FilePath.text_join (p := p) hq
  unfold startOf at h ⊢
  rw [FilePath.isAbsolute_join hp hq, htext, String.toList_append, String.utf8ByteSize_append] at h
  split at h
  · cases h
  · next hnul =>
    split at h
    · cases h
    · next hlong =>
      split at h
      · cases h
      · rw [List.mem_append, not_or] at hnul
        rw [if_neg hnul.1, if_neg (by omega), if_neg hp]
        exact h

/-- A path that leads on from a directory leads there first. -/
theorem locate_of_follow_lead (hp : p.text ≠ "") (hstart : startOf p = .ok start)
    (h : t.follow start p.lead = .ok l) (hl : t.entry? l = some .dir) : t.locate p = .ok l := by
  refine locate_eq_ok.2 ⟨start, hstart, ?_⟩
  rw [FilePath.lead, if_neg hp] at h
  split at h
  · next hopen =>
    obtain ⟨front, -, hpieces⟩ := FilePath.exists_of_isOpen hopen
    rw [hpieces, List.dropLast_concat] at h
    -- the empty piece behind the last slash stays where it is
    rw [hpieces, follow_append, h]
    exact follow_cons_eq_ok.2 ⟨l, by simp [step, hl], rfl⟩
  · exact h

end FileTree

end Symbolicate
