import Mathlib.Data.List.Nodup
import Mathlib.Tactic.Common
import Symbolicate.NativePdb.LineProgram

/-!
# The line at an address

The lines of a procedure stand in the order of their offsets, and those with the same offset in the order in which the
program has them (`linesAt?_ordered`). Among records in this order a look-up goes by two searches, one forward for a
record that covers the address (`lineAt?_of_covered`) and one backward for a record that starts at it or before
(`lineAt?_of_uncovered`). Where no record reaches into a later one both give the same (`lineAt?_of_separate`), and only in
front of all records there is no line.
-/

namespace Symbolicate.NativePdb

/-! ## Addresses of a record -/

/-- A record covers the bytes of its code, and without a length only the address where it starts. -/
def LineRecord.Covers (r : LineRecord) (address : Nat) : Prop :=
  (r.length = none ∧ r.offset = address) ∨
    ∃ length, r.length = some length ∧ r.offset ≤ address ∧ address < r.offset + length

theorem LineRecord.covers_iff {r : LineRecord} {address : Nat} : r.covers address = true ↔ r.Covers address := by
  unfold LineRecord.covers LineRecord.Covers
  cases r.length with
  | none => simp
  | some length => simp

instance (r : LineRecord) (address : Nat) : Decidable (r.Covers address) := decidable_of_iff _ LineRecord.covers_iff

theorem LineRecord.Covers.offset_le {r : LineRecord} {address : Nat} (h : r.Covers address) : r.offset ≤ address := by
  rcases h with ⟨_, rfl⟩ | ⟨_, _, hle, _⟩
  · exact Nat.le_refl _
  · exact hle

/-! ## The order of the records -/

/-- Offsets never decrease. -/
def Ordered (lines : List LineRecord) : Prop := lines.Pairwise (·.offset ≤ ·.offset)

instance (lines : List LineRecord) : Decidable (Ordered lines) := inferInstanceAs (Decidable (List.Pairwise _ _))

namespace LineProgram

/-- The lines of the procedure at `address` in the order of the program. -/
def unorderedLinesAt? (p : LineProgram) (names : Option NameTable) (address : Address) : Option (List LineRecord) :=
  (p.stretchFor? address).elim (some []) fun s =>
    (blockEntries? s.start.offset s.blocks.length s.blocks).bind fun entries =>
      p.records? names ((s.start.offset + s.codeSize) % offsetModulus)
        (entries.filter fun e => ! LineIndex.marksNoSource e.line)

theorem linesAt?_eq (p : LineProgram) (names : Option NameTable) (address : Address) :
    p.linesAt? names address =
      (p.unorderedLinesAt? names address).map (·.mergeSort fun a b => a.offset ≤ b.offset) := by
  unfold linesAt? unorderedLinesAt?
  cases p.stretchFor? address with
  | none => simp
  | some s =>
    simp only [Option.elim_some]
    cases blockEntries? s.start.offset s.blocks.length s.blocks with
    | none => rfl
    | some entries =>
      simp only [Option.bind_eq_bind, Option.bind_some]
      cases p.records? names _ _ <;> rfl

/-- Sorting by offset puts records in order, and keeps the order of those with the same offset. -/
theorem mergeSort_ordered (lines : List LineRecord) :
    Ordered (lines.mergeSort fun a b => a.offset ≤ b.offset) ∧
      ∀ offset, (lines.mergeSort fun a b => a.offset ≤ b.offset).filter (·.offset = offset) =
        lines.filter (·.offset = offset) := by
  have htrans : ∀ a b c : LineRecord, decide (a.offset ≤ b.offset) = true → decide (b.offset ≤ c.offset) = true →
      decide (a.offset ≤ c.offset) = true := by
    intro a b c hab hbc
    rw [decide_eq_true_eq] at hab hbc ⊢
    omega
  have htotal : ∀ a b : LineRecord, (decide (a.offset ≤ b.offset) || decide (b.offset ≤ a.offset)) = true := by
    intro a b
    rw [Bool.or_eq_true, decide_eq_true_eq, decide_eq_true_eq]
    omega
  constructor
  · simpa [Ordered] using List.pairwise_mergeSort htrans htotal lines
  · intro offset
    -- records with one offset are in order as they are, so sorting keeps them as a sublist
    have hties : (lines.filter (·.offset = offset)).Pairwise fun a b => decide (a.offset ≤ b.offset) = true := by
      refine List.pairwise_of_forall_mem_list ?_
      intro a ha b hb
      have ha' : a.offset = offset := by simpa using (List.mem_filter.1 ha).2
      have hb' : b.offset = offset := by simpa using (List.mem_filter.1 hb).2
      rw [decide_eq_true_eq]
      omega
    have hsub := (List.sublist_mergeSort htrans htotal hties List.filter_sublist).filter (·.offset = offset)
    rw [List.filter_filter] at hsub
    simp only [Bool.and_self] at hsub
    refine (hsub.eq_of_length ?_).symm
    exact ((List.mergeSort_perm lines _).filter _).length_eq.symm

/-- **The lines of a procedure are ordered**, and those at one offset stand as the program has them. -/
theorem linesAt?_ordered {p : LineProgram} {names : Option NameTable} {address : Address} {lines : List LineRecord}
    (h : p.linesAt? names address = some lines) :
    Ordered lines ∧ ∃ found, p.unorderedLinesAt? names address = some found ∧
      ∀ offset, lines.filter (·.offset = offset) = found.filter (·.offset = offset) := by
  rw [linesAt?_eq, Option.map_eq_some_iff] at h
  obtain ⟨found, hfound, rfl⟩ := h
  obtain ⟨hordered, hties⟩ := mergeSort_ordered found
  exact ⟨hordered, found, hfound, hties⟩

end LineProgram

/-! ## The two searches -/

namespace ManagedMethod

variable {m : ManagedMethod} {address : Nat}

/-- The first record that covers an address goes before everything else. -/
theorem lineAt?_of_covered (h : ∃ r ∈ m.lines, r.Covers address) :
    ∃ r, m.lineAt? address = some r ∧ (m.lines.filter (·.Covers address)).head? = some r := by
  obtain ⟨r, hr, hcovers⟩ := h
  have hsome : (m.lines.find? (·.covers address)).isSome = true :=
    List.find?_isSome.2 ⟨r, hr, LineRecord.covers_iff.2 hcovers⟩
  obtain ⟨first, hfirst⟩ := Option.isSome_iff_exists.1 hsome
  refine ⟨first, ?_, ?_⟩
  · rw [lineAt?, hfirst]
  · rw [List.head?_filter, ← hfirst]
    congr 1
    funext q
    rw [Bool.eq_iff_iff, decide_eq_true_eq, LineRecord.covers_iff]

/-- Where no record covers an address, the last one that starts before it counts. -/
theorem lineAt?_of_uncovered (h : ∀ r ∈ m.lines, ¬ r.Covers address) :
    m.lineAt? address = (m.lines.filter (·.offset ≤ address)).getLast? := by
  have hnone : m.lines.find? (·.covers address) = none := by
    rw [List.find?_eq_none]
    intro r hr hcovers
    exact h r hr (LineRecord.covers_iff.1 hcovers)
  rw [lineAt?, hnone, List.getLast?_filter]

/-- There is no line in front of all records only. -/
theorem lineAt?_eq_none_iff : m.lineAt? address = none ↔ ∀ r ∈ m.lines, address < r.offset := by
  constructor
  · intro h r hr
    have huncovered : ∀ q ∈ m.lines, ¬ q.Covers address := by
      intro q hq hcovers
      obtain ⟨_, hsome, _⟩ := lineAt?_of_covered ⟨q, hq, hcovers⟩
      rw [h] at hsome
      cases hsome
    rw [lineAt?_of_uncovered huncovered, List.getLast?_eq_none_iff, List.filter_eq_nil_iff] at h
    have hstart := h r hr
    rw [decide_eq_true_eq] at hstart
    omega
  · intro h
    have huncovered : ∀ q ∈ m.lines, ¬ q.Covers address := by
      intro q hq hcovers
      have hlt := h q hq
      have hle := hcovers.offset_le
      omega
    rw [lineAt?_of_uncovered huncovered, List.getLast?_eq_none_iff, List.filter_eq_nil_iff]
    intro r hr hstart
    rw [decide_eq_true_eq] at hstart
    have hlt := h r hr
    omega

/-- In order, the last of the records that start at an address or before has the greatest offset of them. -/
theorem offset_le_of_getLast? {lines : List LineRecord} (hordered : Ordered lines) {r : LineRecord}
    (h : (lines.filter (·.offset ≤ address)).getLast? = some r) :
    ∀ q ∈ lines, q.offset ≤ address → q.offset ≤ r.offset := by
  obtain ⟨front, hfront⟩ := List.getLast?_eq_some_iff.1 h
  have hpair : (front ++ [r]).Pairwise (·.offset ≤ ·.offset) := hfront ▸ hordered.filter _
  intro q hq hle
  have hmem : q ∈ front ++ [r] := by
    rw [← hfront]
    exact List.mem_filter.2 ⟨hq, decide_eq_true hle⟩
  rcases List.mem_append.1 hmem with hmem | hmem
  · exact (List.pairwise_append.1 hpair).2.2 q hmem r (List.mem_singleton_self r)
  · exact Nat.le_of_eq (congrArg LineRecord.offset (List.mem_singleton.1 hmem))

/-! ## Records that do not overlap -/

/-- Different offsets, and no code that reaches past the start of a later record. -/
structure Separate (lines : List LineRecord) : Prop where
  distinct : (lines.map (·.offset)).Nodup
  reach : lines.Pairwise fun r q => r.offset < q.offset → ∀ length, r.length = some length → r.offset + length ≤ q.offset

instance (lines : List LineRecord) : Decidable (Separate lines) :=
  decidable_of_iff
    ((lines.map (·.offset)).Nodup ∧
      lines.Pairwise fun r q => r.offset < q.offset → ∀ length ∈ r.length, r.offset + length ≤ q.offset)
    ⟨fun ⟨distinct, reach⟩ => ⟨distinct, reach⟩, fun h => ⟨h.distinct, h.reach⟩⟩

/-- Of separate records, one that covers an address is the last that starts at it or before. -/
theorem getLast?_of_covers {lines : List LineRecord} (hordered : Ordered lines) (hseparate : Separate lines)
    {r : LineRecord} (hr : r ∈ lines) (hcovers : r.Covers address) :
    (lines.filter (·.offset ≤ address)).getLast? = some r := by
  obtain ⟨front, back, rfl⟩ := List.append_of_mem hr
  have hbehind : ∀ q ∈ back, address < q.offset := by
    intro q hq
    have hle : r.offset ≤ q.offset := (List.pairwise_cons.1 (List.pairwise_append.1 hordered).2.1).1 q hq
    have hne : r.offset ≠ q.offset := by
      have hdistinct := hseparate.distinct
      rw [List.map_append, List.map_cons] at hdistinct
      have hnotMem := (List.nodup_cons.1 hdistinct.of_append_right).1
      intro heq
      exact hnotMem (List.mem_map.2 ⟨q, hq, heq.symm⟩)
    have hreach := (List.pairwise_cons.1 (List.pairwise_append.1 hseparate.reach).2.1).1 q hq (by omega)
    rcases hcovers with ⟨_, rfl⟩ | ⟨length, hlength, _, hlt⟩
    · omega
    · have hend := hreach length hlength
      omega
  have hback : back.filter (·.offset ≤ address) = [] := by
    rw [List.filter_eq_nil_iff]
    intro q hq hle
    have hlt := hbehind q hq
    rw [decide_eq_true_eq] at hle
    omega
  have hstart : decide (r.offset ≤ address) = true := decide_eq_true hcovers.offset_le
  rw [List.filter_append, List.filter_cons, if_pos hstart, hback]
  exact List.getLast?_concat

/-- Among separate records both searches give the same. -/
theorem lineAt?_of_separate (hordered : Ordered m.lines) (hseparate : Separate m.lines) :
    m.lineAt? address = (m.lines.filter (·.offset ≤ address)).getLast? := by
  by_cases h : ∃ r ∈ m.lines, r.Covers address
  · obtain ⟨r, hline, hfirst⟩ := lineAt?_of_covered h
    have hmem := List.mem_filter.1 (List.mem_of_head? hfirst)
    rw [hline, getLast?_of_covers hordered hseparate hmem.1 (of_decide_eq_true hmem.2)]
  · refine lineAt?_of_uncovered ?_
    intro r hr hcovers
    exact h ⟨r, hr, hcovers⟩

/-! ## The line of an address -/

/-- **The line at an address among records in order**, which is how the records of a procedure are left. There is none
in front of all records only. Otherwise it is the first record that covers the address, and if none does the last one
that starts before it, which has the greatest offset of these. Separate records need only the second search. -/
theorem lineAt?_of_ordered :
    (∀ (p : LineProgram) (names : Option NameTable) (start : Address) (lines : List LineRecord),
      p.linesAt? names start = some lines →
        Ordered lines ∧ ∃ found, p.unorderedLinesAt? names start = some found ∧
          ∀ offset, lines.filter (·.offset = offset) = found.filter (·.offset = offset)) ∧
    ∀ m : ManagedMethod, Ordered m.lines → ∀ address : Nat,
      (m.lineAt? address = none ↔ ∀ r ∈ m.lines, address < r.offset) ∧
      ((∃ r ∈ m.lines, r.Covers address) →
        ∃ r, m.lineAt? address = some r ∧ (m.lines.filter (·.Covers address)).head? = some r) ∧
      ((∀ r ∈ m.lines, ¬ r.Covers address) → (∃ r ∈ m.lines, r.offset ≤ address) →
        ∃ r, m.lineAt? address = some r ∧ (m.lines.filter (·.offset ≤ address)).getLast? = some r ∧
          ∀ q ∈ m.lines, q.offset ≤ address → q.offset ≤ r.offset) ∧
      (Separate m.lines → m.lineAt? address = (m.lines.filter (·.offset ≤ address)).getLast?) := by
  refine ⟨fun p names start lines => LineProgram.linesAt?_ordered, ?_⟩
  intro m hordered address
  refine ⟨lineAt?_eq_none_iff, lineAt?_of_covered, ?_, lineAt?_of_separate hordered⟩
  rintro huncovered ⟨q, hq, hle⟩
  obtain ⟨r, hr⟩ : ∃ r, m.lineAt? address = some r := by
    rw [← Option.ne_none_iff_exists', ne_eq, lineAt?_eq_none_iff]
    intro hbefore
    have hlt := hbefore q hq
    omega
  have hlast := lineAt?_of_uncovered huncovered
  rw [hr] at hlast
  exact ⟨r, hr, hlast.symm, offset_le_of_getLast? hordered hlast.symm⟩

/-- A method with three lines, and a gap in front of the last. -/
def threeLines : ManagedMethod :=
  ⟨0x100, [⟨0x100, some 4, 10, none⟩, ⟨0x104, some 8, 11, none⟩, ⟨0x120, some 2, 12, none⟩]⟩

/-- Two lines, the later one first. -/
def twoLines : LineProgram :=
  ⟨[⟨⟨1, 0x100⟩, 0x30, [0, 0, 0, 0, 2, 0, 0, 0, 28, 0, 0, 0, 4, 0, 0, 0, 11, 0, 0, 0, 0, 0, 0, 0, 10, 0, 0, 0]⟩],
    [0, 0, 0, 0, 0, 0, 0, 0]⟩

theorem isSome_linesAt?_twoLines : (twoLines.linesAt? none ⟨1, 0x100⟩).isSome = true := by
  rw [LineProgram.linesAt?_eq, Option.isSome_map]
  decide

/-- The lines of a method at a covered address, in the gap, behind the last and in front of the first. -/
theorem lineAt?_of_ordered_threeLines :
    (∃ lines, twoLines.linesAt? none ⟨1, 0x100⟩ = some lines ∧ Ordered lines) ∧
      Ordered threeLines.lines ∧ Separate threeLines.lines ∧
      threeLines.lineAt? 0x106 = threeLines.lines[1]? ∧ threeLines.lineAt? 0x110 = threeLines.lines[1]? ∧
      threeLines.lineAt? 0x130 = threeLines.lines[2]? ∧ threeLines.lineAt? 0xff = none := by
  have hordered : Ordered threeLines.lines := by decide
  have hseparate : Separate threeLines.lines := by decide
  obtain ⟨hleft, hline⟩ := lineAt?_of_ordered
  obtain ⟨lines, hlines⟩ := Option.isSome_iff_exists.1 isSome_linesAt?_twoLines
  refine ⟨⟨lines, hlines, (hleft _ _ _ _ hlines).1⟩, hordered, hseparate, ?_, ?_, ?_, ?_⟩
  · obtain ⟨r, hr, hfirst⟩ := (hline threeLines hordered 0x106).2.1 (by decide)
    rw [hr, ← hfirst]
    decide
  · obtain ⟨r, hr, hlast, _⟩ := (hline threeLines hordered 0x110).2.2.1 (by decide) (by decide)
    rw [hr, ← hlast]
    decide
  · rw [(hline threeLines hordered 0x130).2.2.2 hseparate]
    decide
  · rw [(hline threeLines hordered 0xff).1]
    decide

end ManagedMethod

end Symbolicate.NativePdb
