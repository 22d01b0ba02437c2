import Symbolicate.Bytes.Basic
import Symbolicate.PortablePdb.Error

/-!
# The table stream

The `#~` stream: a header, the row counts of the tables present, and the rows of these tables one after the other. The
width of a column that holds an offset or a row depends on the heap flags of the header and on how many rows the table
it refers to has, here or in the assembly.
-/

namespace Symbolicate.PortablePdb

/-! ## Row counts -/

/-- The first 64 bits of a bit vector, lowest first. -/
def bits64 (mask : Nat) : List Bool := (List.range 64).map mask.testBit

/-- Row counts from `pos` on, one for each bit that is set and zero for the others, and where they end. -/
def rowCounts? (b : Bytes) : List Bool → Nat → Option (List Nat × Nat)
  | [], pos => some ([], pos)
  | false :: bits, pos => (rowCounts? b bits pos).map fun (counts, stop) => (0 :: counts, stop)
  | true :: bits, pos =>
    match Bytes.u32? b pos, rowCounts? b bits (pos + 4) with
    | some n, some (counts, stop) => some (n :: counts, stop)
    | _, _ => none

/-! ## Column widths -/

/-- What the widths of columns depend on: the flags of wide heaps, and the rows of each table by number. -/
structure IndexSizes where
  heapFlags : Nat
  rows : List Nat

namespace IndexSizes

def rowsOf (s : IndexSizes) (k : TableKind) : Nat := s.rows.getD k.number 0

/-- Two bytes, or four when `isWide` holds. -/
def narrowUnless (isWide : Bool) : Nat := if isWide then 4 else 2

def width (s : IndexSizes) : Column → Nat
  | .fixed width => width
  | .stringHeap => narrowUnless (s.heapFlags.testBit 0)
  | .guidHeap => narrowUnless (s.heapFlags.testBit 1)
  | .blobHeap => narrowUnless (s.heapFlags.testBit 2)
  | .row k => narrowUnless (! s.rowsOf k < 0x10000)
  | .coded c => narrowUnless (! c.targets.all fun k => s.rowsOf k < 1 <<< (16 - c.tagBits))

end IndexSizes

/-! ## Tables -/

/-- A table with rows: its columns' widths and the bytes of its rows. -/
structure Table where
  kind : TableKind
  rows : Nat
  widths : List Nat
  contents : Bytes

namespace Table

def rowSize (t : Table) : Nat := Bytes.total t.widths

def size (t : Table) : Nat := t.rows * t.rowSize

/-- The cell of a row and a column, both counted from one. -/
def cell (t : Table) (row col : Nat) : Except FormatError Nat :=
  if row = 0 ∨ row > t.rows then .error (.plain (.rowIndexOutOfBounds t.kind row))
  else if col = 0 ∨ col > t.widths.length then .error (.plain (.colIndexOutOfBounds t.kind col))
  else
    let width := t.widths.getD (col - 1) 0
    match Bytes.slice? t.contents ((row - 1) * t.rowSize + Bytes.total (t.widths.take (col - 1))) width with
    | none => .error (.plain (.rowIndexOutOfBounds t.kind row))
    | some cell =>
      if width = 1 ∨ width = 2 ∨ width = 4 then .ok (Bytes.le cell)
      else .error (.plain (.colIndexOutOfBounds t.kind col))

end Table

/-- The tables with rows, by increasing number. -/
structure TableStream where
  tables : List Table

namespace TableStream

def table? (s : TableStream) (k : TableKind) : Option Table := s.tables.find? (·.kind == k)

def rowsOf (s : TableStream) (k : TableKind) : Nat := (s.table? k).elim 0 (·.rows)

/-- The cell of a table. A table without rows goes by the name of the first table. -/
def cell (s : TableStream) (k : TableKind) (row col : Nat) : Except FormatError Nat :=
  match s.table? k with
  | some t => t.cell row col
  | none => .error (.plain (.rowIndexOutOfBounds .moduleDef row))

/-! ## Reading -/

/-- The tables for row counts that start at table `number`, still without contents. A table with rows has to be part of
the schema. -/
def shapes (sizes : IndexSizes) : Nat → List Nat → Except FormatError (List Table)
  | _, [] => .ok []
  | number, 0 :: counts => shapes sizes (number + 1) counts
  | number, rows :: counts => do
    let kind ← require (.unknownTable number) (TableKind.ofNumber? number)
    let rest ← shapes sizes (number + 1) counts
    return ⟨kind, rows, kind.columns.map sizes.width, []⟩ :: rest

/-- Hands each table its share of the rows' bytes. -/
def fill : List Table → Bytes → List Table
  | [], _ => []
  | t :: rest, rows => { t with contents := rows.take t.size } :: fill rest (rows.drop t.size)

/-- Reads the table stream `b`, which starts at offset `start` of the file and refers to tables of the assembly with
the row counts `referenced`. -/
def read (b : Bytes) (start : Nat) (referenced : List Nat) : Except FormatError TableStream := do
  let header ← require .invalidHeader (if start % 4 = 0 then Bytes.slice? b 0 24 else none)
  let valid := Bytes.le ((header.drop 8).take 8)
  let (counts, stop) ← require .invalidLength (rowCounts? b (bits64 valid) 24)
  let sizes : IndexSizes := ⟨Bytes.le ((header.drop 6).take 1), List.zipWith max counts referenced⟩
  let tables ← shapes sizes 0 counts
  let rows := b.drop stop
  let required := Bytes.total (tables.map Table.size)
  if rows.length < required then
    throw (.plain (.insufficientTableData required rows.length))
  return ⟨fill tables rows⟩

end TableStream

end Symbolicate.PortablePdb
