import Mathlib.Tactic.Common
import Symbolicate.PortablePdb.Writer
import Symbolicate.Proofs.NativePdb.LineNumbers
import Symbolicate.Proofs.PortablePdb.Records
import Symbolicate.Proofs.Store.Symbols

/-!
# Markers are never line numbers

Hidden code has a marker instead of a line number (`markerLines`). In a portable file the points of hidden code have no
span at all, and a span that would start at the marker is a fault of the file (`PortablePdb.line_of_lookup`). In a native
file the marker stands in the index, and look-ups move on from it (`LineIndex.Fits.line_of_sourceLocation`). So no
location of either format has a marker (`DebugFile.line_notMem_markerLines`), whatever bytes it is found in
(`DebugFile.line_notMem_markerLines_inPlace`), and none is written into a report.
-/

namespace Symbolicate

/-- What is never the line of a location: zero, and the numbers that mark code without a source. -/
def markerLines : FileFormat → List UInt32
  | .native => [0, 0xfeefee, 0xf00f00]
  | _ => [0, 0xfeefee]

/-! ## Portable files -/

namespace PortablePdb

variable {p : PortablePdb} {token offset : UInt32} {info : LineInfo}

/-- Where a line is found, the token is that of a method whose points can be read. -/
theorem exists_sequencePoints_of_lookup (h : p.lookup token offset = .ok (some info)) :
    ∃ row points, IsMethodToken token row ∧ p.sequencePoints row = .ok points := by
  by_cases hkind : token.toNat / 0x1000000 = TableKind.methodDef.number
  · simp only [lookup, hkind, ne_eq, not_true_eq_false, if_false] at h
    obtain ⟨s, _, h⟩ := exists_of_bind h
    split at h
    · cases h
    · obtain ⟨points, hpoints, _⟩ := exists_of_bind h
      exact ⟨_, points, ⟨hkind, rfl⟩, hpoints⟩
  · rw [lookup, if_pos hkind] at h
    cases h

/-- A line that is found is where a visible point of some method starts. -/
theorem exists_of_lookup (h : p.lookup token offset = .ok (some info)) :
    ∃ row points, p.sequencePoints row = .ok points ∧
      ∃ point ∈ points, ∃ span, point.span = some span ∧ info.line = span.startLine := by
  obtain ⟨row, points, htoken, hpoints⟩ := exists_sequencePoints_of_lookup h
  refine ⟨row, points, hpoints, ?_⟩
  rw [lookup_of_sequencePoints hpoints htoken] at h
  cases hlast : (points.filter (SequencePoint.applies offset.toNat)).getLast? with
  | none =>
    rw [hlast] at h
    cases h
  | some point =>
    have hmem := List.mem_of_mem_filter (List.mem_of_getLast? hlast)
    rw [hlast, Option.elim_some] at h
    cases hspan : point.span with
    | none =>
      rw [hspan] at h
      cases h
    | some span =>
      rw [hspan, Option.elim_some] at h
      cases hname : p.documentName point.document with
      | error e =>
        rw [hname] at h
        cases h
      | ok name =>
        rw [hname] at h
        cases h
        exact ⟨point, hmem, span, hspan, rfl⟩

/-- **A line of a portable file is not hidden**, and is small. -/
theorem line_of_lookup (h : p.lookup token offset = .ok (some info)) : info.line < 2 ^ 29 ∧ info.line ≠ hiddenLine := by
  obtain ⟨row, points, hpoints, point, hpoint, span, hspan, hline⟩ := exists_of_lookup h
  obtain ⟨initial, data, hdecodes, _⟩ := decodes_of_sequencePoints hpoints
  rw [hline]
  exact (hdecodes.valid point hpoint span hspan).startLine

end PortablePdb

/-! ## Files of either format -/

namespace DebugFile

variable {file : DebugFile} {token offset : UInt32} {l : SourceLocation}

theorem line_of_portable {p : PortablePdb} {id : DebugId}
    (h : (portable p id).sourceLocation token offset = some l) : l.line ≠ 0 ∧ l.line ≠ 0xfeefee := by
  simp only [sourceLocation] at h
  split at h
  · next info hlookup =>
    rw [SourceLocation.of?_eq_some_iff] at h
    obtain ⟨hzero, rfl⟩ := h
    obtain ⟨hlt, hhidden⟩ := PortablePdb.line_of_lookup hlookup
    have hnumber : (UInt32.ofNat info.line).toNat = info.line := UInt32.toNat_ofNat_of_lt' (Nat.lt_trans hlt (by decide))
    refine ⟨hzero, ?_⟩
    intro hmarker
    exact hhidden (hnumber.symm.trans (congrArg UInt32.toNat hmarker))
  · cases h

/-- The native files that are read have an index whose numbers are not cut off. -/
theorem fits_of_read {b : Bytes} {pdb : NativePdb} (h : read b = .ok (native pdb)) : pdb.index.Fits := by
  rw [read] at h
  split at h
  · split at h
    · next hread =>
      cases h
      exact NativePdb.fits_of_read? hread
    · cases h
  · split at h
    · cases h
    · split at h <;> cases h
  · cases h

/-- **No location of a file that has been read has a marker for its line.** -/
theorem line_notMem_markerLines {b : Bytes} (hread : read b = .ok file)
    (h : file.sourceLocation token offset = some l) : l.line ∉ markerLines file.format := by
  cases file with
  | native pdb =>
    have hline := (fits_of_read hread).line_of_sourceLocation h
    simpa [markerLines, format] using hline
  | portable p id =>
    have hline := line_of_portable h
    simpa [markerLines, format] using hline

/-- Whatever bytes are found in place of those that were read, no location has a marker for its line. -/
theorem line_notMem_markerLines_inPlace {b now : Bytes} {places : PortablePdb.Places} (hread : read b = .ok file)
    (h : (file.inPlace places now).sourceLocation token offset = some l) : l.line ∉ markerLines file.format := by
  cases file with
  | native pdb => exact line_notMem_markerLines hread h
  | portable p id =>
    have hline := line_of_portable h
    simpa [markerLines, format] using hline

end DebugFile

/-! ## Reports -/

namespace SymbolStore

open Translate

/-- **No location is a marker**, neither one that a file gives, also when its bytes have changed since it was read, nor
one that an index gives, nor one that is written into a report. -/
theorem lines_are_no_markers :
    (∀ (b : Bytes) (file : DebugFile), DebugFile.read b = .ok file → ∀ (token offset : UInt32) (l : SourceLocation),
      file.sourceLocation token offset = some l → l.line ∉ markerLines file.format) ∧
    (∀ (b : Bytes) (file : DebugFile), DebugFile.read b = .ok file →
      ∀ (places : PortablePdb.Places) (now : Bytes) (token offset : UInt32) (l : SourceLocation),
        (file.inPlace places now).sourceLocation token offset = some l → l.line ∉ markerLines file.format) ∧
    (∀ i : NativePdb.LineIndex, i.Fits → ∀ (token offset : UInt32) (l : SourceLocation),
      i.sourceLocation token offset = some l → l.line ∉ markerLines .native) ∧
    ∀ (store : SymbolStore) (input : Bytes) (t : FileTree), ∃ locations stats,
      ((translate store.load ⟨input, none⟩ .unlimited : StateM FileTree _).run t).1 =
        (⟨render (footerModules input) (bodyLines input) locations, none, false⟩, .ok stats) ∧
      locations.length = (bodyLines input).length ∧
      ∀ (i : Nat) (l : SourceLocation), locations[i]? = some (some l) →
        ∃ b file now, DebugFile.read b = .ok file ∧
          (∃ token offset, (file.inPlace (.of b) now).sourceLocation token offset = some l) ∧
          l.line ∉ markerLines file.format := by
  refine ⟨?_, ?_, ?_, ?_⟩
  · intro b file hread token offset l h
    exact DebugFile.line_notMem_markerLines hread h
  · intro b file hread places now token offset l h
    exact DebugFile.line_notMem_markerLines_inPlace hread h
  · intro i hfits token offset l h
    have hline := hfits.line_of_sourceLocation h
    simpa [markerLines] using hline
  · intro store input t
    obtain ⟨stats, hrun⟩ := exists_run_translate store.load t input
    refine ⟨_, stats, hrun, length_foundLocations store.load t input, ?_⟩
    intro i l hl
    obtain ⟨_, frame, _, _, _, _, b, file, -, -, -, -, -, hloaded, hfound⟩ := exists_loaded_of_foundLocations hl
    exact ⟨b, file.opened, _, hloaded.read, ⟨frame.token, frame.offset, hfound⟩,
      DebugFile.line_notMem_markerLines_inPlace hloaded.read hfound⟩

/-- A file with one method: line 7 at offset 2, and hidden code at 9. -/
def hiddenTail : PortablePdb.Draft := ⟨Guid.nil, ["a"], [⟨1, [⟨2, some 7, none⟩, ⟨9, none, none⟩]⟩]⟩

/-- Hidden code, then line 7, then code to be stepped through. -/
def hiddenStart : NativePdb.LineIndex :=
  ⟨[(0x06000001, ⟨0, [⟨0, some 32, 0xfeefee, none⟩, ⟨32, some 32, 7, none⟩, ⟨64, some 32, 0xf00f00, none⟩]⟩)]⟩

theorem exists_read_hiddenTail : ∃ file, DebugFile.read hiddenTail.write = .ok file ∧
    file.sourceLocation 0x06000001 9 = some ⟨some "a", 7⟩ := by
  have hline : (DebugFile.read hiddenTail.write).toOption.bind (·.sourceLocation 0x06000001 9) = some ⟨some "a", 7⟩ := by
    decide +kernel
  cases hread : DebugFile.read hiddenTail.write with
  | error e =>
    rw [hread] at hline
    cases hline
  | ok file =>
    rw [hread] at hline
    exact ⟨file, rfl, hline⟩

/-- In hidden code the line in front of it or behind it is found, and this is no marker. -/
theorem lines_are_no_markers_hidden :
    (∃ file, DebugFile.read hiddenTail.write = .ok file ∧ file.sourceLocation 0x06000001 9 = some ⟨some "a", 7⟩ ∧
      7 ∉ markerLines file.format) ∧
    hiddenStart.Fits ∧ hiddenStart.sourceLocation 0x06000001 5 = some ⟨none, 7⟩ ∧ 7 ∉ markerLines .native := by
  obtain ⟨hfile, -, hindex, -⟩ := lines_are_no_markers
  obtain ⟨file, hread, hline⟩ := exists_read_hiddenTail
  have hfits : hiddenStart.Fits := by decide
  have hretried : hiddenStart.sourceLocation 0x06000001 5 = some ⟨none, 7⟩ := by decide
  exact ⟨⟨file, hread, hline, hfile _ file hread _ _ _ hline⟩, hfits, hretried, hindex _ hfits _ _ _ hretried⟩

end SymbolStore

end Symbolicate
