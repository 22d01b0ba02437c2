import Symbolicate.PortablePdb.Basic
import Symbolicate.PortablePdb.Lookup
import Symbolicate.Proofs.Bytes.Slices
import Symbolicate.Proofs.PortablePdb.SequencePoints

/-!
# The parts of a file

A file is read in three steps: what stands in front of the directory (`readRoot`), the directory itself, and the tables,
which wait until the identity is known (`Root.finish`). That the reader is these steps is `read_eq`, and what it takes
for one entry of the directory to be read is `directoryEntry_eq_ok_iff`. What a file answers depends on its identity, its
tables and its heap only (`SameAnswers.of_eq`).
-/

namespace Symbolicate.PortablePdb

theorem le_of_aligned? {b header : Bytes} {align pos size : Nat} (h : aligned? b align pos size = some header) :
    pos + size ≤ b.length ∧ header.length = size := by
  unfold aligned? at h
  split at h
  · exact ⟨Bytes.le_of_slice? h, Bytes.length_slice? h⟩
  · cases h

/-! ## In front of the directory -/

/-- What stands in front of the directory, how many entries this has, and where it starts. -/
structure Root where
  header : RootHeader
  version : String
  count : Nat
  pos : Nat

/-- Reads everything up to the directory. -/
def readRoot (b : Bytes) : Except FormatError Root := do
  let head ← require .invalidHeader (Bytes.slice? b 0 16)
  let header : RootHeader := {
    signature := Bytes.le (head.take 4), majorVersion := Bytes.le ((head.drop 4).take 2),
    minorVersion := Bytes.le ((head.drop 6).take 2), reserved := Bytes.le ((head.drop 8).take 4),
    versionLength := Bytes.le (head.drop 12) }
  if header.signature ≠ signature then throw (.plain .invalidSignature)
  let versionBytes ← require .invalidLength (Bytes.slice? b 16 header.versionLength)
  let version ← requireText .invalidVersionString (Utf8.toString? (Bytes.untilNul versionBytes))
  let counts ← require .invalidHeader (aligned? b 2 (16 + header.versionLength) 4)
  return ⟨header, version, Bytes.le (counts.drop 2), 16 + header.versionLength + 4⟩

/-- Reads the tables of the streams that the directory gave, and puts the file together. -/
def Root.finish (r : Root) (s : Streams) : Except FormatError PortablePdb := do
  let referenced := s.id.elim (List.replicate 64 0) (·.referenced)
  let tables ← s.tables.mapM fun (start, contents) => TableStream.read contents start referenced
  return ⟨r.header, r.version, s.id, tables, s.blobs⟩

/-- **A file is read in three steps.** -/
theorem read_eq (b : Bytes) :
    read b = readRoot b >>= fun r => readDirectory b r.count r.pos ⟨none, none, none⟩ >>= r.finish := by
  unfold read readRoot
  cases Bytes.slice? b 0 16 with
  | none => rfl
  | some head =>
    simp only [require_some, ok_bind]
    split
    · rfl
    cases Bytes.slice? b 16 (Bytes.le (head.drop 12)) with
    | none => rfl
    | some versionBytes =>
      simp only [require_some, ok_bind]
      cases Utf8.toString? (Bytes.untilNul versionBytes) with
      | none => rfl
      | some version =>
        simp only [requireText_some, ok_bind]
        cases aligned? b 2 (16 + Bytes.le (head.drop 12)) 4 <;> rfl

/-- A file that was read went through the three steps. -/
theorem exists_of_read {b : Bytes} {p : PortablePdb} (h : read b = .ok p) :
    ∃ r s, readRoot b = .ok r ∧ readDirectory b r.count r.pos ⟨none, none, none⟩ = .ok s ∧ r.finish s = .ok p := by
  rw [read_eq] at h
  obtain ⟨r, hr, h⟩ := exists_of_bind h
  obtain ⟨s, hs, h⟩ := exists_of_bind h
  exact ⟨r, s, hr, hs, h⟩

/-! ## Entries of the directory -/

/-- The bytes of the name of the entry at `pos`: 32 bytes at most, as far as the file has them, up to a NUL. -/
def entryName (b : Bytes) (pos : Nat) : Bytes := Bytes.untilNul ((b.drop (pos + 8)).take 32)

/-- Where the entry behind the one at `pos` starts. -/
def entryStop (b : Bytes) (pos : Nat) : Nat := pos + 8 + Bytes.roundUp4 ((entryName b pos).length + 1)

/-- **What it takes to read an entry of the directory.** -/
theorem directoryEntry_eq_ok_iff {b contents : Bytes} {pos start next : Nat} {name : List Char} :
    directoryEntry b pos = .ok (name, start, contents, next) ↔
      ∃ header, aligned? b 4 pos 8 = some header ∧ Utf8.decode? (entryName b pos) = some name ∧
        next = entryStop b pos ∧ next ≤ b.length ∧ start = Bytes.le (header.take 4) ∧
        Bytes.slice? b start (Bytes.le (header.drop 4)) = some contents := by
  have hentry : directoryEntry b pos = do
      let header ← require .invalidStreamHeader (aligned? b 4 pos 8)
      let name ← requireText .invalidStreamName (Utf8.decode? (entryName b pos))
      let _ ← require .invalidLength (Bytes.from? b (entryStop b pos))
      let contents ← require .invalidLength
        (Bytes.slice? b (Bytes.le (header.take 4)) (Bytes.le (header.drop 4)))
      return (name, Bytes.le (header.take 4), contents, entryStop b pos) := rfl
  rw [hentry]
  constructor
  · intro h
    obtain ⟨header, hheader, h⟩ := exists_of_bind h
    obtain ⟨name', hname, h⟩ := exists_of_bind h
    obtain ⟨rest, hrest, h⟩ := exists_of_bind h
    obtain ⟨contents', hcontents, h⟩ := exists_of_bind h
    cases h
    refine ⟨header, eq_some_of_require hheader, eq_some_of_requireText hname, rfl, ?_, rfl,
      eq_some_of_require hcontents⟩
    have hfrom := eq_some_of_require hrest
    unfold Bytes.from? at hfrom
    split at hfrom
    · assumption
    · cases hfrom
  · rintro ⟨header, hheader, hname, rfl, hnext, rfl, hcontents⟩
    simp only [hheader, hname, Bytes.from?, if_pos hnext, hcontents, require_some, requireText_some, ok_bind]
    rfl

/-! ## Answers -/

/-- Files that say the same about themselves and about every offset of every method. -/
structure SameAnswers (p q : PortablePdb) : Prop where
  guid : p.id.map (·.guid) = q.id.map (·.guid)
  debugId : p.debugId? = q.debugId?
  lookup : ∀ token offset, p.lookup token offset = q.lookup token offset

namespace SameAnswers

variable {p q : PortablePdb}

theorem nameParts_eq (hblobs : p.blobs = q.blobs) (fuel : Nat) (data : Bytes) :
    p.nameParts fuel data = q.nameParts fuel data := by
  have hblob : p.blob = q.blob := funext fun offset => by rw [blob, blob, hblobs]
  induction fuel generalizing data with
  | zero => cases data <;> rfl
  | succ fuel ih =>
    cases data with
    | nil => rfl
    | cons b rest => simp only [nameParts, hblob, ih]

/-- **Answers depend on the identity, the tables and the heap**, and not on the header and the version. -/
theorem of_eq (hid : p.id = q.id) (htables : p.tables = q.tables) (hblobs : p.blobs = q.blobs) : SameAnswers p q where
  guid := by rw [hid]
  debugId := by rw [debugId?, debugId?, hid]
  lookup token offset := by
    have hblob : p.blob = q.blob := funext fun offset => by rw [blob, blob, hblobs]
    have hstream : p.tableStream = q.tableStream := by rw [tableStream, tableStream, htables]
    have hcell : p.cell = q.cell := funext fun k => funext fun row => funext fun col => by rw [cell, cell, hstream]
    have hname : p.nameAt = q.nameAt := funext fun offset => by simp only [nameAt, hblob, nameParts_eq hblobs]
    have hdocument : p.documentName = q.documentName := funext fun row => by
      simp only [documentName, hcell, hname]
    have hpoints : p.sequencePoints = q.sequencePoints := funext fun row => by
      simp only [sequencePoints, hcell, hblob]
    simp only [PortablePdb.lookup, hstream, hdocument, hpoints]

end SameAnswers

end Symbolicate.PortablePdb
