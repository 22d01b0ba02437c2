import Mathlib.Data.Option.Basic
import Mathlib.Tactic.Common
import Symbolicate.NativePdb.Basic
import Symbolicate.Proofs.Bytes.Slices
import Symbolicate.Proofs.NativePdb.Retries

/-!
# Line numbers of native debug files

Line numbers take three bytes in a file (`line_lt_of_mem_entries`), and reading only moves them into the index, so an
index that has been read has no number that is too large (`fits_of_read?`). What a look-up gives is a number of the
index that is neither zero nor a marker (`exists_of_sourceLocation`).
-/

namespace Symbolicate.NativePdb

/-! ## Numbers in a file -/

namespace LineProgram

/-- A line number has three bytes. -/
theorem line_lt_of_mem_entries {file base : Nat} : ∀ {b : Bytes}, ∀ e ∈ entries file base b, e.line < 2 ^ 24
  | _ :: _ :: _ :: _ :: x :: y :: z :: _ :: rest => by
    refine List.forall_mem_cons.2 ⟨?_, line_lt_of_mem_entries (b := rest)⟩
    have hnumber : Bytes.le [x, y, z] < 256 ^ 3 := Bytes.le_lt [x, y, z]
    dsimp only
    omega
  | [] | [_] | [_, _] | [_, _, _] | [_, _, _, _] | [_, _, _, _, _] | [_, _, _, _, _, _] | [_, _, _, _, _, _, _] =>
    List.forall_mem_nil _

theorem line_lt_of_mem_blockEntries? {base fuel : Nat} {b : Bytes} {all : List Entry}
    (h : blockEntries? base fuel b = some all) : ∀ e ∈ all, e.line < 2 ^ 24 := by
  induction fuel generalizing b all with
  | zero =>
    cases h
    exact List.forall_mem_nil _
  | succ fuel ih =>
    rw [blockEntries?] at h
    split at h
    · cases h
      exact List.forall_mem_nil _
    · simp only [Option.bind_eq_bind, Option.bind_eq_some_iff, Option.pure_def, Option.some.injEq] at h
      obtain ⟨file, _, count, _, size, _, _, _, block, _, rest, hrest, rfl⟩ := h
      intro e he
      rcases List.mem_append.1 he with hfirst | hlater
      · exact line_lt_of_mem_entries e hfirst
      · exact ih hrest e hlater

/-- A record has the number of a line that is stored. -/
theorem line_eq_of_mem_records? {p : LineProgram} {names : Option NameTable} {stop : Nat} {all : List Entry}
    {records : List LineRecord} (h : p.records? names stop all = some records) :
    ∀ r ∈ records, ∃ e ∈ all, r.line = e.line := by
  induction all generalizing records with
  | nil =>
    cases h
    exact List.forall_mem_nil _
  | cons e rest ih =>
    simp only [records?, Option.bind_eq_bind, Option.bind_eq_some_iff, Option.pure_def, Option.some.injEq] at h
    obtain ⟨file, _, others, hothers, rfl⟩ := h
    refine List.forall_mem_cons.2 ⟨⟨e, List.mem_cons_self, rfl⟩, ?_⟩
    intro r hr
    obtain ⟨other, hother, hline⟩ := ih hothers r hr
    exact ⟨other, List.mem_cons_of_mem _ hother, hline⟩

theorem line_lt_of_linesAt? {p : LineProgram} {names : Option NameTable} {address : Address} {lines : List LineRecord}
    (h : p.linesAt? names address = some lines) : ∀ r ∈ lines, r.line < 2 ^ 24 := by
  rw [linesAt?] at h
  split at h
  · cases h
    exact List.forall_mem_nil _
  · simp only [Option.bind_eq_bind, Option.bind_eq_some_iff, Option.pure_def, Option.some.injEq] at h
    obtain ⟨all, hall, records, hrecords, rfl⟩ := h
    intro r hr
    obtain ⟨e, he, hline⟩ := line_eq_of_mem_records? hrecords r (List.mem_mergeSort.1 hr)
    rw [hline]
    exact line_lt_of_mem_blockEntries? hall e (List.mem_filter.1 he).1

end LineProgram

/-! ## Numbers in an index -/

/-- Line numbers have 32 bits, as they have in every index that is read. -/
def LineIndex.Fits (i : LineIndex) : Prop := ∀ method ∈ i.methods, ∀ r ∈ method.2.lines, r.line < 2 ^ 32

instance (i : LineIndex) : Decidable i.Fits :=
  inferInstanceAs (Decidable (∀ method ∈ i.methods, ∀ r ∈ method.2.lines, r.line < 2 ^ 32))

theorem LineIndex.Fits.insert {i : LineIndex} (h : i.Fits) (token : UInt32) {m : ManagedMethod}
    (hm : ∀ r ∈ m.lines, r.line < 2 ^ 32) : (i.insert token m).Fits := by
  intro method hmethod
  rcases List.mem_append.1 hmethod with hold | hnew
  · exact h method (List.mem_filter.1 hold).1
  · cases List.mem_singleton.1 hnew
    exact hm

theorem fits_addProcedure {names : Option NameTable} {program : LineProgram} {i : LineIndex} (h : i.Fits)
    (p : Procedure) : (addProcedure names program i p).Fits := by
  rw [addProcedure]
  split
  · next lines hlines =>
    apply h.insert
    intro r hr
    exact Nat.lt_trans (LineProgram.line_lt_of_linesAt? hlines r hr) (by decide)
  · exact h

theorem fits_addModule {c : Container} {names : Option NameTable} {i i' : LineIndex} {m : Module} (h : i.Fits)
    (hadd : addModule c names i m = some i') : i'.Fits := by
  rw [addModule] at hadd
  split at hadd
  · cases hadd
    exact h
  · simp only [Option.bind_eq_bind, Option.bind_eq_some_iff, Option.pure_def, Option.some.injEq] at hadd
    obtain ⟨b, _, _, _, found, _, program, _, symbols, _, rfl⟩ := hadd
    exact List.foldlRecOn _ _ h fun i hi p _ => fits_addProcedure hi p

theorem fits_addModules {c : Container} {names : Option NameTable} {modules : List Module} {i i' : LineIndex}
    (h : i.Fits) (hadd : modules.foldlM (addModule c names) i = some i') : i'.Fits := by
  induction modules generalizing i with
  | nil =>
    cases hadd
    exact h
  | cons m rest ih =>
    rw [List.foldlM_cons, Option.bind_eq_bind, Option.bind_eq_some_iff] at hadd
    obtain ⟨next, hnext, hrest⟩ := hadd
    exact ih (fits_addModule h hnext) hrest

/-- **The line numbers of a file that has been read have 32 bits.** -/
theorem fits_of_read? {b : Bytes} {file : NativePdb} (h : read? b = some file) : file.index.Fits := by
  simp only [read?, Option.bind_eq_bind, Option.bind_eq_some_iff, Option.pure_def, Option.some.injEq] at h
  obtain ⟨c, _, _, _, i, _, _, _, p, _, names, _, modules, _, index, hindex, rfl⟩ := h
  refine fits_addModules ?_ hindex
  intro method hmethod
  cases hmethod

/-! ## Numbers that look-ups give -/

theorem mem_of_lineAt? {m : ManagedMethod} {address : Nat} {r : LineRecord} (h : m.lineAt? address = some r) :
    r ∈ m.lines := by
  rw [ManagedMethod.lineAt?] at h
  split at h
  · next found hfound =>
    cases h
    exact List.mem_of_find?_eq_some hfound
  · exact List.mem_reverse.1 (List.mem_of_find?_eq_some h)

namespace LineIndex

/-- However many tries are left, they end at a line that is no marker, or find nothing. -/
theorem exists_of_resolve {lineAt? : Nat → Option LineRecord} {tries offset : Nat} {l : SourceLocation}
    (h : resolve lineAt? tries offset = some l) :
    ∃ last r, lineAt? last = some r ∧ ¬ marksNoSource r.line = true ∧
      SourceLocation.of? r.file (UInt32.ofNat r.line) = some l := by
  induction tries generalizing offset with
  | zero => cases h
  | succ tries ih =>
    rw [resolve] at h
    split at h
    · cases h
    · next r hline =>
      split at h
      · -- a marker, so the line comes from a later try
        split at h
        · exact ih h
        · cases h
      · next hmarks => exact ⟨offset, r, hline, hmarks, h⟩

/-- **A look-up gives a line of the index** that is neither zero nor a marker. -/
theorem exists_of_sourceLocation {i : LineIndex} {token offset : UInt32} {l : SourceLocation}
    (h : i.sourceLocation token offset = some l) :
    ∃ m r, i.method? token = some m ∧ r ∈ m.lines ∧ ¬ marksNoSource r.line = true ∧ UInt32.ofNat r.line ≠ 0 ∧
      l = ⟨r.file, UInt32.ofNat r.line⟩ := by
  obtain ⟨last, r, hline, hmarks, hl⟩ := exists_of_resolve h
  rw [SourceLocation.of?_eq_some_iff] at hl
  rw [lineAt?] at hline
  split at hline
  · next m hm =>
    split at hline
    · exact ⟨m, r, hm, mem_of_lineAt? hline, hmarks, hl⟩
    · cases hline
  · cases hline

theorem mem_of_method? {i : LineIndex} {token : UInt32} {m : ManagedMethod} (h : i.method? token = some m) :
    (token, m) ∈ i.methods := by
  rw [method?, Option.map_eq_some_iff] at h
  obtain ⟨⟨found, _⟩, hfound, rfl⟩ := h
  have htoken := List.find?_some hfound
  rw [beq_iff_eq] at htoken
  rw [← htoken]
  exact List.mem_of_find?_eq_some hfound

/-- The line of a location is no marker, if no number of the index is cut off. -/
theorem Fits.line_of_sourceLocation {i : LineIndex} (hfits : i.Fits) {token offset : UInt32} {l : SourceLocation}
    (h : i.sourceLocation token offset = some l) : l.line ≠ 0 ∧ l.line ≠ 0xfeefee ∧ l.line ≠ 0xf00f00 := by
  obtain ⟨m, r, hm, hr, hmarks, hzero, rfl⟩ := exists_of_sourceLocation h
  have hline : r.line < 2 ^ 32 := hfits _ (mem_of_method? hm) r hr
  have hnumber : (UInt32.ofNat r.line).toNat = r.line := UInt32.toNat_ofNat_of_lt' hline
  rw [marksNoSource_iff, not_or, ← hnumber] at hmarks
  obtain ⟨hhidden, hthrough⟩ := hmarks
  refine ⟨hzero, ?_, ?_⟩
  · intro heq
    exact hhidden (congrArg UInt32.toNat heq)
  · intro heq
    exact hthrough (congrArg UInt32.toNat heq)

end LineIndex

end Symbolicate.NativePdb
