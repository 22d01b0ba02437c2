import Symbolicate.Proofs.PortablePdb.Layout
import Symbolicate.Proofs.PortablePdb.Parts

/-!
# Truncated files

A file that grows at its end is read as before (`read_append`), since all that is read lies in front of its old end:
slices are checked, and a name that the old end cuts short has its entry end behind it. So a file that was cut off is
refused, or was not missing anything that look-ups need.
-/

namespace Symbolicate.PortablePdb

variable {b : Bytes} (more : Bytes)

/-! ## One entry -/

theorem aligned?_append {align pos size : Nat} {header : Bytes} (h : aligned? b align pos size = some header) :
    aligned? (b ++ more) align pos size = some header := by
  unfold aligned? at h ⊢
  split at h
  · rw [if_pos ‹_›, Bytes.slice?_append_of_eq h more]
  · cases h

/-- The name of an entry that ends inside of the file. Either all of the 32 bytes that may hold the name are there, or
the file ends among them and the name in front of this end, at a NUL. -/
theorem entryName_append {pos : Nat} (h : entryStop b pos ≤ b.length) :
    entryName (b ++ more) pos = entryName b pos := by
  have hpadding := Draft.le_roundUp4 ((entryName b pos).length + 1)
  unfold entryStop at h
  have hsplit : ((b ++ more).drop (pos + 8)).take 32 =
      (b.drop (pos + 8)).take 32 ++ more.take (32 - (b.drop (pos + 8)).length) := by
    rw [List.drop_append_of_le_length (by omega), List.take_append]
  have hlength : (b.drop (pos + 8)).length = b.length - (pos + 8) := List.length_drop
  rw [entryName, entryName, hsplit]
  by_cases hfull : 32 ≤ (b.drop (pos + 8)).length
  · rw [Nat.sub_eq_zero_of_le hfull, List.take_zero, List.append_nil]
  · refine Bytes.untilNul_append_of_lt ?_ _
    rw [← entryName, List.length_take]
    omega

theorem directoryEntry_append {pos start next : Nat} {name : List Char} {contents : Bytes}
    (h : directoryEntry b pos = .ok (name, start, contents, next)) :
    directoryEntry (b ++ more) pos = .ok (name, start, contents, next) := by
  obtain ⟨header, hheader, hname, rfl, hstop, hstart, hcontents⟩ := directoryEntry_eq_ok_iff.1 h
  have hsame := entryName_append more hstop
  refine directoryEntry_eq_ok_iff.2 ⟨header, aligned?_append more hheader, hsame ▸ hname, ?_, ?_, hstart,
    Bytes.slice?_append_of_eq hcontents more⟩
  · rw [entryStop, entryStop, hsame]
  · rw [List.length_append]
    omega

/-! ## The file -/

theorem readDirectory_append {count pos : Nat} {s t : Streams} (h : readDirectory b count pos s = .ok t) :
    readDirectory (b ++ more) count pos s = .ok t := by
  induction count generalizing pos s with
  | zero => exact h
  | succ count ih =>
    obtain ⟨⟨name, start, contents, next⟩, hentry, h⟩ := exists_of_bind h
    obtain ⟨s', hadd, h⟩ := exists_of_bind h
    simp only [readDirectory, directoryEntry_append more hentry, ok_bind, hadd, ih h]

theorem readRoot_append {r : Root} (h : readRoot b = .ok r) : readRoot (b ++ more) = .ok r := by
  unfold readRoot at h
  obtain ⟨head, hhead, h⟩ := exists_of_bind h
  unfold readRoot
  rw [Bytes.slice?_append_of_eq (eq_some_of_require hhead) more, require_some, ok_bind]
  dsimp only at h ⊢
  split at h
  · cases h
  rename_i hsignature
  rw [if_neg hsignature]
  obtain ⟨versionBytes, hversionBytes, h⟩ := exists_of_bind h
  obtain ⟨version, hversion, h⟩ := exists_of_bind h
  obtain ⟨counts, hcounts, h⟩ := exists_of_bind h
  simp only [Bytes.slice?_append_of_eq (eq_some_of_require hversionBytes) more, hversion,
    aligned?_append more (eq_some_of_require hcounts), require_some, ok_bind]
  exact h

/-- **A file that grows at its end is read as before.** -/
theorem read_append {p : PortablePdb} (h : read b = .ok p) : read (b ++ more) = .ok p := by
  obtain ⟨r, s, hroot, hdirectory, hfinish⟩ := exists_of_read h
  rw [read_eq, readRoot_append more hroot, ok_bind, readDirectory_append more hdirectory, ok_bind, hfinish]

/-- **Truncation never gives wrong answers.** If a file is read, it is read with anything behind it as well, with the
same version and the same answers. So a file that is read is refused when its end is missing, or gives its answers all
the same. -/
theorem truncation_keeps_answers :
    (∀ (b more : Bytes) (p : PortablePdb), read b = .ok p →
      ∃ q, read (b ++ more) = .ok q ∧ q.version = p.version ∧ SameAnswers q p) ∧
    ∀ (front full : Bytes) (q : PortablePdb), front <+: full → read full = .ok q →
      (∃ e, read front = .error e) ∨ ∃ p, read front = .ok p ∧ p.version = q.version ∧ SameAnswers p q := by
  constructor
  · intro b more p h
    exact ⟨p, read_append more h, rfl, .of_eq rfl rfl rfl⟩
  · rintro front _ q ⟨more, rfl⟩ hq
    cases hfront : read front with
    | error e => exact .inl ⟨e, rfl⟩
    | ok p =>
      obtain rfl : p = q := Except.ok.inj ((read_append more hfront).symm.trans hq)
      exact .inr ⟨p, rfl, rfl, .of_eq rfl rfl rfl⟩

/-- A file with one method, which has one point in its one document. -/
def oneMethod : Bytes := (⟨Guid.nil, ["a.cs"], [⟨1, [⟨0, some 10, none⟩]⟩]⟩ : Draft).write

/-- A small file gives the same answers with bytes behind it, and is refused or gives them without its last bytes. -/
theorem truncation_keeps_answers_oneMethod :
    (∃ p q, read oneMethod = .ok p ∧ read (oneMethod ++ [1, 2, 3]) = .ok q ∧ q.version = p.version ∧
      SameAnswers q p) ∧
    ∃ q, read oneMethod = .ok q ∧ ((∃ e, read (oneMethod.take 150) = .error e) ∨
      ∃ p, read (oneMethod.take 150) = .ok p ∧ p.version = q.version ∧ SameAnswers p q) := by
  obtain ⟨p, hp⟩ : ∃ p, read oneMethod = .ok p := ⟨_, Draft.read_write (by decide) (by decide) (by decide +kernel)⟩
  obtain ⟨q, hq⟩ := truncation_keeps_answers.1 oneMethod [1, 2, 3] p hp
  exact ⟨⟨p, q, hp, hq⟩, p, hp, truncation_keeps_answers.2 _ oneMethod p (List.take_prefix 150 oneMethod) hp⟩

end Symbolicate.PortablePdb
