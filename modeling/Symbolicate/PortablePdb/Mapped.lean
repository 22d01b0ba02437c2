import Symbolicate.PortablePdb.Basic

/-!
# Portable debug files that are read in place

Reading a portable debug file copies its identity, the row counts of its tables and the widths of their columns. The rows
and the heap stay where they are: look-ups find them in the bytes that the file has by then (`PortablePdb.inPlace`).
-/

namespace Symbolicate.PortablePdb

/-- Where in a file the rows of its tables and its heap start. -/
structure Places where
  rows : Nat
  heap : Nat
  deriving DecidableEq, Repr

/-- The start and the contents of the last stream with a name, among as many entries of the directory as told, from `pos`
on. -/
def lastStream? (b : Bytes) (name : String) : Nat → Nat → Option (Nat × Bytes)
  | 0, _ => none
  | count + 1, pos =>
    match directoryEntry b pos with
    | .error _ => none
    | .ok (other, start, contents, next) =>
      (lastStream? b name count next).or (if other = name.toList then some (start, contents) else none)

/-- Where the rows of a table stream start, behind its header and the row counts. -/
def TableStream.rowsOffset (stream : Bytes) : Nat :=
  (rowCounts? stream (bits64 (Bytes.le ((stream.drop 8).take 8))) 24).elim 0 (·.2)

/-- The places of a file that can be read. -/
def Places.of (b : Bytes) : Places :=
  let tail := 16 + (Bytes.u32? b 12).getD 0
  let last (name : String) := lastStream? b name ((Bytes.u16? b (tail + 2)).getD 0) (tail + 4)
  { rows := (last "#~").elim 0 fun (start, stream) => start + TableStream.rowsOffset stream
    heap := (last "#Blob").elim 0 (·.1) }

/-- The file with the rows and the heap that bytes have in its places. -/
def inPlace (p : PortablePdb) (places : Places) (now : Bytes) : PortablePdb where
  header := p.header
  version := p.version
  id := p.id
  tables := p.tables.map fun s => ⟨TableStream.fill s.tables (now.drop places.rows)⟩
  blobs := p.blobs.map fun heap => (now.drop places.heap).take heap.length

end Symbolicate.PortablePdb
