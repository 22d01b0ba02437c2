import Mathlib.Tactic.Common
import Symbolicate.DebugFile.Mapped
import Symbolicate.Proofs.PortablePdb.Streams

/-!
# What reading in place finds

The rows and the heap of a portable file that is read in place are looked for where they were when it was read. As long
as the file has the bytes that were read then, they are found there (`inPlace_self`), so look-ups into the file answer
what was read.
-/

namespace Symbolicate

namespace PortablePdb

/-! ## Rows -/

namespace TableStream

/-- Handing out rows depends on the sizes of the tables, which do not change by it. -/
theorem fill_fill (ts : List Table) (rows other : Bytes) : fill (fill ts other) rows = fill ts rows := by
  induction ts generalizing rows other with
  | nil => rfl
  | cons t ts ih => exact congrArg (_ :: ·) (ih _ _)

/-- What stands behind the rows is handed to no table. -/
theorem fill_append {ts : List Table} {rows : Bytes} (h : Bytes.total (ts.map Table.size) ≤ rows.length)
    (more : Bytes) : fill ts (rows ++ more) = fill ts rows := by
  induction ts generalizing rows with
  | nil => rfl
  | cons t ts ih =>
    rw [List.map_cons, Bytes.total_cons] at h
    rw [fill, fill, List.take_append_of_le_length (by omega), List.drop_append_of_le_length (by omega),
      ih (by rw [List.length_drop]; omega)]

/-- The tables of a stream are filled with what stands at its rows, whatever is behind the stream. -/
theorem fill_of_read {b more : Bytes} {start : Nat} {referenced : List Nat} {s : TableStream}
    (h : read b start referenced = .ok s) : fill s.tables ((b ++ more).drop (rowsOffset b)) = s.tables := by
  unfold read at h
  obtain ⟨header, hheader, h⟩ := exists_of_bind h
  obtain ⟨⟨counts, stop⟩, hcounts, h⟩ := exists_of_bind h
  obtain ⟨tables, -, h⟩ := exists_of_bind h
  dsimp only at h
  split at h
  · cases h
  · next hsize =>
    cases h
    have hbytes : header = b.take 24 := by
      have hslice := eq_some_of_require hheader
      split at hslice
      · exact (Bytes.take_drop_of_slice? hslice).symm
      · cases hslice
    have hvalid : (header.drop 8).take 8 = (b.drop 8).take 8 := by
      rw [hbytes, List.drop_take, List.take_take]
      rfl
    have hoffset : rowsOffset b = stop := by
      have hcounts := eq_some_of_require hcounts
      rw [hvalid] at hcounts
      rw [rowsOffset, hcounts, Option.elim_some]
    rw [hoffset, fill_fill, List.drop_append, fill_append (by omega)]

end TableStream

/-! ## Places of streams -/

theorem lastNamed_cons (name : String) (n : List Char) (contents : Bytes) (streams : List (List Char × Bytes)) :
    lastNamed name ((n, contents) :: streams) =
      (lastNamed name streams).or (if n = name.toList then some contents else none) := by
  rw [lastNamed, lastNamed, List.reverse_cons, List.find?_append]
  cases streams.reverse.find? fun stream => stream.1 = name.toList with
  | some stream => rfl
  | none => by_cases h : n = name.toList <;> simp [h]

/-- The last stream with a name is the last one in the directory. -/
theorem lastStream?_eq (b : Bytes) (name : String) (count pos : Nat) :
    (lastStream? b name count pos).map (·.2) = lastNamed name (directoryFrom b count pos) := by
  induction count generalizing pos with
  | zero => rfl
  | succ count ih =>
    rw [lastStream?, directoryFrom]
    cases directoryEntry b pos with
    | error e => rfl
    | ok entry =>
      obtain ⟨n, start, contents, next⟩ := entry
      simp only [lastNamed_cons, ← ih, Option.map_or]
      split <;> rfl

/-- A stream stands where it starts. -/
theorem take_drop_of_lastStream? {b contents : Bytes} {name : String} {count pos start : Nat}
    (h : lastStream? b name count pos = some (start, contents)) : (b.drop start).take contents.length = contents := by
  induction count generalizing pos with
  | zero => cases h
  | succ count ih =>
    rw [lastStream?] at h
    cases hentry : directoryEntry b pos with
    | error e => rw [hentry] at h; cases h
    | ok entry =>
      obtain ⟨n, start', contents', next⟩ := entry
      simp only [hentry] at h
      rcases Option.or_eq_some_iff.1 h with hlater | ⟨-, hhere⟩
      · exact ih hlater
      · split at hhere
        · cases hhere
          obtain ⟨header, -, -, -, -, -, hslice⟩ := directoryEntry_eq_ok_iff.1 hentry
          rw [Bytes.length_slice? hslice, Bytes.take_drop_of_slice? hslice]
        · cases hhere

/-! ## The whole file -/

/-- **As long as the bytes are those that were read**, look-ups in place find what was read. -/
theorem inPlace_self {b : Bytes} {p : PortablePdb} (h : read b = .ok p) : p.inPlace (.of b) b = p := by
  obtain ⟨-, htables, hblobs⟩ := parts_of_read h
  obtain ⟨r, -, hroot, -⟩ := exists_of_read h
  obtain ⟨versionLength, hlength, hcount, hpos⟩ := exists_of_readRoot hroot
  have hplaces : Places.of b = {
      rows := (lastStream? b "#~" r.count r.pos).elim 0 fun stream => stream.1 + TableStream.rowsOffset stream.2
      heap := (lastStream? b "#Blob" r.count r.pos).elim 0 (·.1) } := by
    simp only [Places.of, hlength, Option.getD_some, hcount, hpos]
  rw [directory_of_readRoot hroot, ← lastStream?_eq] at htables hblobs
  have hstands : ∀ {name contents start}, lastStream? b name r.count r.pos = some (start, contents) →
      b.drop start = contents ++ (b.drop start).drop contents.length := by
    intro name contents start hlast
    conv_lhs => rw [← List.take_append_drop contents.length (b.drop start), take_drop_of_lastStream? hlast]
  have hrows : (p.tables.map fun s => (⟨TableStream.fill s.tables (b.drop (Places.of b).rows)⟩ : TableStream)) =
      p.tables := by
    cases hlast : lastStream? b "#~" r.count r.pos with
    | none => rw [htables, hlast]; rfl
    | some stream =>
      obtain ⟨start, contents⟩ := stream
      rw [hlast, Option.map_some, Option.bind_some] at htables
      cases hread : TableStream.read contents 0 (p.id.elim (List.replicate 64 0) (·.referenced)) with
      | error e => rw [htables, hread]; rfl
      | ok s =>
        rw [htables, hread, hplaces, hlast]
        simp only [Option.elim_some, Except.toOption, Option.map_some, ← List.drop_drop]
        rw [hstands hlast, TableStream.fill_of_read hread]
  have hheap : (p.blobs.map fun heap => (b.drop (Places.of b).heap).take heap.length) = p.blobs := by
    cases hlast : lastStream? b "#Blob" r.count r.pos with
    | none => rw [hblobs, hlast]; rfl
    | some stream =>
      rw [hblobs, hplaces, hlast, Option.map_some, Option.map_some, Option.elim_some,
        take_drop_of_lastStream? hlast]
  rw [inPlace, hrows, hheap]

end PortablePdb

/-- A debug file that still has the bytes it was read from gives what was read. -/
theorem DebugFile.inPlace_self {b : Bytes} {file : DebugFile} (h : DebugFile.read b = .ok file) :
    file.inPlace (.of b) b = file := by
  rw [DebugFile.read] at h
  split at h
  · split at h <;> cases h
    rfl
  · split at h
    · cases h
    · next p hread =>
      split at h <;> cases h
      rw [DebugFile.inPlace, PortablePdb.inPlace_self hread]
  · cases h

/-- A native file does not need its map. -/
theorem DebugFile.inPlace_of_native {file : DebugFile} (h : file.format = .native) (places : PortablePdb.Places)
    (now : Bytes) : file.inPlace places now = file := by
  cases file with
  | native _ => rfl
  | portable _ _ => cases h

end Symbolicate
