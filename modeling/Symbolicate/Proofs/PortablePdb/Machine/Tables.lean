import Symbolicate.PortablePdb.TableStream
import Symbolicate.Proofs.Bytes.Slices
import Symbolicate.Proofs.PortablePdb.Machine.Words

/-!
# Tables on machine words

The table stream is kept in 64 places, one for each table number, and a table keeps the places of its columns in an
array of six. Rows are counted with 32 bits and have at most six columns of at most eight bytes, so no size, no sum of
sizes and no address of a cell leaves 64 bits (`Table.size_of`, `requiredSize_eq`, `Table.cell_of`), and because the
rows of all tables together are there, each table is cut off what is left (`fill_eq`).
-/

namespace Symbolicate.PortablePdb.Machine

/-! ## Row counts -/

/-- Row counts for the table numbers `numbers`, and the bytes behind them. -/
def rowCounts (mask : Nat) : List Nat → Bytes → Machine (List Nat × Bytes)
  | [], data => return ([], data)
  | i :: numbers, data => do
    if (← shiftRight 64 mask i) % 2 = 0 then
      let (counts, data) ← rowCounts mask numbers data
      return (0 :: counts, data)
    else
      let (count, data) ← answer (require .invalidLength (← readU32 data))
      let (counts, data) ← rowCounts mask numbers data
      return (count :: counts, data)

/-- The row counts that decide about widths: for each table the greater one of those here and in the assembly. -/
def greaterCounts (counts referenced : List Nat) : Machine (List Nat) :=
  (List.range 64).mapM fun i => return max (← get counts i) (← get referenced i)

/-! ## Widths -/

/-- The width of a column. -/
def width (s : IndexSizes) : Column → Machine Nat
  | .fixed width => return width
  | .stringHeap => return IndexSizes.narrowUnless (s.heapFlags.testBit 0)
  | .guidHeap => return IndexSizes.narrowUnless (s.heapFlags.testBit 1)
  | .blobHeap => return IndexSizes.narrowUnless (s.heapFlags.testBit 2)
  | .row k => return IndexSizes.narrowUnless (! (← get s.rows k.number) < 0x10000)
  | .coded c => do
    let limit ← usize (← shiftLeft 64 1 (← minus 16 c.tagBits))
    let isSmall ← c.targets.allM fun k => return decide ((← get s.rows k.number) < limit)
    return IndexSizes.narrowUnless (! isSmall)

/-- Where a column stands in a row. -/
structure Place where
  offset : Nat
  width : Nat

/-- The array of places with the places of columns, which start at `offset`, and where the last of them ends. -/
def layOut (s : IndexSizes) : List Place → List Column → Nat → Machine (List Place × Nat)
  | _ :: places, column :: columns, offset => do
    let width ← width s column
    let next ← usize (offset + width)
    let (places, stop) ← layOut s places columns next
    return (⟨offset, width⟩ :: places, stop)
  | places, _, offset => return (places, offset)

/-! ## Tables -/

/-- A table in its place, which has no kind if the table has no rows. -/
structure Table where
  kind : Option TableKind
  rows : Nat
  rowSize : Nat
  columns : List Place
  columnCount : Nat
  contents : Bytes

namespace Table

def noColumns : List Place := List.replicate 6 ⟨0, 0⟩

/-- A table without rows. -/
def empty : Table := ⟨none, 0, 0, noColumns, 0, []⟩

/-- A table with rows, still without contents. -/
def shape (s : IndexSizes) (kind : TableKind) (rows : Nat) : Machine Table := do
  let (columns, rowSize) ← layOut s noColumns kind.columns 0
  return ⟨some kind, rows, rowSize, columns, kind.columns.length, []⟩

def size (t : Table) : Machine Nat := usize (t.rows * t.rowSize)

/-- The number in a cell. -/
def number? : Bytes → Option Nat
  | [a] => some a.toNat
  | [a, b] => some (Bytes.le [a, b])
  | [a, b, c, d] => some (Bytes.le [a, b, c, d])
  | _ => none

/-- The cell of a row and a column, both counted from one. -/
def cell (t : Table) (row col : Nat) : Machine Nat := do
  let kind := t.kind.getD .moduleDef
  if row = 0 ∨ row > t.rows then throw (.plain (.rowIndexOutOfBounds kind row))
  else if col = 0 ∨ col > t.columnCount then throw (.plain (.colIndexOutOfBounds kind col))
  else
    let column ← get t.columns (← minus col 1)
    let start ← usize ((← usize ((← minus row 1) * t.rowSize)) + column.offset)
    let stop ← usize (start + column.width)
    let cell ← answer (require (.rowIndexOutOfBounds kind row) (range? t.contents start stop))
    answer (require (.colIndexOutOfBounds kind col) (number? cell))

end Table

/-! ## The table stream -/

/-- The array of tables with the tables for row counts that start at table `number`. -/
def shapes (s : IndexSizes) : Nat → List Nat → List Table → Machine (List Table)
  | _, [], tables => return tables
  | number, rows :: counts, tables => do
    if rows = 0 then shapes s (number + 1) counts tables
    else
      let kind ← answer (require (.unknownTable number) (TableKind.ofNumber? number))
      let tables ← put tables number (← Table.shape s kind rows)
      shapes s (number + 1) counts tables

/-- The size of all tables together. -/
def requiredSize (tables : List Table) : Machine Nat := sumFrom 0 Table.size tables

/-- Hands each table its share of the rows' bytes. -/
def fill : List Table → Bytes → Machine (List Table)
  | [], _ => return []
  | t :: tables, rows => do
    let (contents, rows) ← splitAt rows (← t.size)
    return { t with contents } :: (← fill tables rows)

/-- Reads the table stream `b`, which starts at offset `start` of the file. -/
def readTables (b : Bytes) (start : Nat) (referenced : List Nat) : Machine (List Table) := do
  let header ← answer (require .invalidHeader (if start % 4 = 0 then Bytes.slice? b 0 24 else none))
  let valid := Bytes.le ((header.drop 8).take 8)
  let (counts, rows) ← rowCounts valid (List.range 64) (b.drop 24)
  let sizes : IndexSizes := ⟨Bytes.le ((header.drop 6).take 1), ← greaterCounts counts referenced⟩
  let tables ← shapes sizes 0 counts (List.replicate 64 .empty)
  let required ← requiredSize tables
  if rows.length < required then throw (.plain (.insufficientTableData required rows.length))
  else fill tables rows

/-! ## Row counts are read -/

theorem lt_of_u32? {b : Bytes} {pos n : Nat} (h : Bytes.u32? b pos = some n) : n < 0x100000000 := by
  obtain ⟨bytes, hslice, rfl⟩ := Option.map_eq_some_iff.1 h
  have hlt := Bytes.le_lt bytes
  rwa [Bytes.length_slice? hslice] at hlt

theorem rowCounts_eq (mask : Nat) (b : Bytes) {numbers : List Nat} (h : ∀ i ∈ numbers, i < 64) (pos : Nat) :
    rowCounts mask numbers (b.drop pos) =
      answer ((require .invalidLength (rowCounts? b (numbers.map mask.testBit) pos)).map fun r => (r.1, b.drop r.2)) := by
  induction numbers generalizing pos with
  | nil => rfl
  | cons i numbers ih =>
    have hrest := ih fun j hj => h j (List.mem_cons_of_mem i hj)
    have hbit : mask.testBit i = ! decide ((mask >>> i) % 2 = 0) := by
      rw [Nat.testBit, Nat.one_and_eq_mod_two]
      rcases Nat.mod_two_eq_zero_or_one (mask >>> i) with hmod | hmod <;> simp [hmod]
    rw [rowCounts, shiftRight_of_lt (h i List.mem_cons_self), pure_bind, List.map_cons]
    by_cases hzero : (mask >>> i) % 2 = 0
    · have hclear : mask.testBit i = false := by simp [hbit, hzero]
      simp only [if_pos hzero, hclear, rowCounts?, hrest]
      cases rowCounts? b (numbers.map mask.testBit) pos <;> rfl
    · have hset : mask.testBit i = true := by simp [hbit, hzero]
      have hread : Bytes.u32? (b.drop pos) 0 = Bytes.u32? b pos := by
        simp only [Bytes.u32?, Bytes.slice?, List.length_drop, List.drop_zero]
        congr 1
        exact if_congr (by omega) rfl rfl
      simp only [if_neg hzero, hset, rowCounts?, readU32_eq, hread, pure_bind, List.drop_drop]
      cases Bytes.u32? b pos with
      | none => rfl
      | some n =>
        simp only [Option.map_some, require_some, answer_ok, pure_bind, hrest]
        cases rowCounts? b (numbers.map mask.testBit) (pos + 4) <;> rfl

theorem bounds_of_rowCounts? {b : Bytes} {bits : List Bool} {pos stop : Nat} {counts : List Nat}
    (h : rowCounts? b bits pos = some (counts, stop)) :
    counts.length = bits.length ∧ ∀ n ∈ counts, n < 0x100000000 := by
  induction bits generalizing pos stop counts with
  | nil =>
    cases h
    exact ⟨rfl, List.forall_mem_nil _⟩
  | cons bit bits ih =>
    cases bit with
    | false =>
      obtain ⟨r, hrest, heq⟩ := Option.map_eq_some_iff.1 h
      cases heq
      obtain ⟨hlength, hlt⟩ := ih hrest
      exact ⟨by simp [hlength], List.forall_mem_cons.2 ⟨by omega, hlt⟩⟩
    | true =>
      rw [rowCounts?] at h
      split at h
      · next n rest stop' hn hrest =>
        cases h
        obtain ⟨hlength, hlt⟩ := ih hrest
        exact ⟨by simp [hlength], List.forall_mem_cons.2 ⟨lt_of_u32? hn, hlt⟩⟩
      · cases h

theorem greaterCounts_eq {counts referenced : List Nat} (hcounts : counts.length = 64)
    (hreferenced : referenced.length = 64) :
    greaterCounts counts referenced = pure (List.zipWith max counts referenced) := by
  have hsteps : ∀ numbers : List Nat, (∀ i ∈ numbers, i < 64) →
      (numbers.mapM fun i => return max (← get counts i) (← get referenced i) : Machine (List Nat)) =
        pure (numbers.map fun i => max (counts.getD i 0) (referenced.getD i 0)) := by
    intro numbers h
    induction numbers with
    | nil => rfl
    | cons i numbers ih =>
      have hi := h i List.mem_cons_self
      rw [List.mapM_cons, ih fun j hj => h j (List.mem_cons_of_mem i hj),
        get_of_eq (List.getElem?_eq_getElem (hcounts ▸ hi)), get_of_eq (List.getElem?_eq_getElem (hreferenced ▸ hi))]
      simp [List.getD_eq_getElem?_getD, hcounts, hreferenced, hi]
  rw [greaterCounts, hsteps _ fun i hi => List.mem_range.1 hi]
  congr 1
  refine List.ext_getElem (by simp [hcounts, hreferenced]) fun i h₁ h₂ => ?_
  rw [List.length_map, List.length_range] at h₁
  simp [List.getD_eq_getElem?_getD, hcounts, hreferenced, h₁]

/-! ## Widths are found -/

theorem number_lt (k : TableKind) : k.number < 64 := by
  cases k <;> decide

/-- What columns of the schema keep: constants have at most eight bytes, and there is room for the bits that choose a
table. -/
def isSound : Column → Bool
  | .fixed width => width ≤ 8
  | .coded c => c.tagBits ≤ 16
  | _ => true

theorem isSound_of_mem {k : TableKind} {column : Column} (h : column ∈ k.columns) : isSound column = true := by
  have hall : k.columns.all isSound = true := by
    cases k <;> rfl
  exact List.all_eq_true.1 hall column h

theorem length_columns_le (k : TableKind) : k.columns.length ≤ 6 := by
  cases k <;> decide

theorem width_le (s : IndexSizes) {column : Column} (h : isSound column = true) : s.width column ≤ 8 := by
  have hnarrow : ∀ isWide, IndexSizes.narrowUnless isWide ≤ 8 := by decide
  cases column with
  | fixed width => exact of_decide_eq_true h
  | stringHeap => exact hnarrow _
  | guidHeap => exact hnarrow _
  | blobHeap => exact hnarrow _
  | row k => exact hnarrow _
  | coded c => exact hnarrow _

theorem get_rows {s : IndexSizes} (h : s.rows.length = 64) (k : TableKind) :
    get s.rows k.number = pure (s.rowsOf k) := by
  have hk : k.number < s.rows.length := h ▸ number_lt k
  rw [get_of_eq (List.getElem?_eq_getElem hk), IndexSizes.rowsOf, List.getD_eq_getElem?_getD,
    List.getElem?_eq_getElem hk, Option.getD_some]

/-- **The width of a column is found without stopping.** -/
theorem width_eq {s : IndexSizes} (h : s.rows.length = 64) {column : Column} (hsound : isSound column = true) :
    width s column = pure (s.width column) := by
  cases column with
  | fixed width => rfl
  | stringHeap => rfl
  | guidHeap => rfl
  | blobHeap => rfl
  | row k => rw [width, get_rows h, pure_bind]; rfl
  | coded c =>
    have hbits : c.tagBits ≤ 16 := of_decide_eq_true hsound
    have hlimit : (1 : Nat) <<< (16 - c.tagBits) < 0x10000000000000000 := by
      rw [Nat.one_shiftLeft]
      exact Nat.lt_of_le_of_lt (Nat.pow_le_pow_right (by omega) (Nat.sub_le 16 _)) (by omega)
    rw [width, minus_of_le hbits, pure_bind, shiftLeft_of_lt (by omega), pure_bind, usize_of_lt hlimit]
    simp only [pure_bind, get_rows h, List.allM_pure]
    rfl

/-! ## Columns are laid out -/

/-- The places of columns of the given widths, from `offset` on. -/
def placesFrom : Nat → List Nat → List Place
  | _, [] => []
  | offset, width :: widths => ⟨offset, width⟩ :: placesFrom (offset + width) widths

theorem layOut_eq {s : IndexSizes} (hrows : s.rows.length = 64) {places : List Place} {columns : List Column}
    (hsound : ∀ column ∈ columns, isSound column = true) (hlength : columns.length ≤ places.length) {offset : Nat}
    (hoffset : offset + 8 * columns.length < 0x10000000000000000) :
    layOut s places columns offset = pure (placesFrom offset (columns.map s.width) ++ places.drop columns.length,
      offset + Bytes.total (columns.map s.width)) := by
  induction columns generalizing places offset with
  | nil => cases places <;> rfl
  | cons column columns ih =>
    cases places with
    | nil => cases hlength
    | cons place places =>
      rw [List.forall_mem_cons] at hsound
      rw [List.length_cons] at hoffset hlength
      rw [List.length_cons, Nat.succ_le_succ_iff] at hlength
      have hwidth := width_le s hsound.1
      rw [layOut, width_eq hrows hsound.1, pure_bind, usize_of_lt (by omega), pure_bind,
        ih hsound.2 hlength (by omega)]
      simp [placesFrom, Nat.add_assoc]

theorem length_placesFrom (offset : Nat) (widths : List Nat) : (placesFrom offset widths).length = widths.length := by
  induction widths generalizing offset with
  | nil => rfl
  | cons width widths ih => simp [placesFrom, ih]

theorem getElem?_placesFrom (offset : Nat) {widths : List Nat} {i : Nat} (h : i < widths.length) :
    (placesFrom offset widths)[i]? = some ⟨offset + Bytes.total (widths.take i), widths.getD i 0⟩ := by
  induction widths generalizing offset i with
  | nil => exact absurd h (Nat.not_lt_zero i)
  | cons width widths ih =>
    cases i with
    | zero => rfl
    | succ i =>
      rw [List.length_cons, Nat.succ_lt_succ_iff] at h
      simp [placesFrom, ih _ h, Nat.add_assoc]

/-! ## Tables in their places -/

/-- The limits that a table keeps: rows are counted with 32 bits, and there are at most six columns of at most eight
bytes. -/
structure TableInLimits (t : PortablePdb.Table) : Prop where
  rows_lt : t.rows < 0x100000000
  length_le : t.widths.length ≤ 6
  width_le : ∀ width ∈ t.widths, width ≤ 8

namespace TableInLimits

variable {t : PortablePdb.Table} (h : TableInLimits t)
include h

theorem total_take_le (n : Nat) : Bytes.total (t.widths.take n) ≤ 48 := by
  have hsum : Bytes.total (t.widths.take n) ≤ (t.widths.take n).length * 8 :=
    total_le fun width hwidth => h.width_le width (List.mem_of_mem_take hwidth)
  have htake := List.length_take_le' n t.widths
  have hlength := h.length_le
  omega

theorem rowSize_le : t.rowSize ≤ 48 := by
  have hall := h.total_take_le t.widths.length
  rwa [List.take_length] at hall

theorem size_lt : t.size < 0x4000000000 := by
  have hrows : t.rows ≤ 0xFFFFFFFF := Nat.le_of_lt_succ h.rows_lt
  have hmul := Nat.mul_le_mul hrows h.rowSize_le
  rw [PortablePdb.Table.size]
  omega

/-- The width that a table has for a column, if it has one. -/
theorem getD_widths_le (col : Nat) : t.widths.getD col 0 ≤ 8 := by
  rw [List.getD_eq_getElem?_getD]
  cases hwidth : t.widths[col]? with
  | none => exact Nat.zero_le 8
  | some width => exact h.width_le width (List.mem_of_getElem? hwidth)

end TableInLimits

namespace Table

/-- What stands in the place of a table, or where no table is. -/
def of : Option PortablePdb.Table → Table
  | none => empty
  | some t => ⟨some t.kind, t.rows, t.rowSize, placesFrom 0 t.widths ++ noColumns.drop t.widths.length,
      t.widths.length, t.contents⟩

theorem of_some_kind (t : PortablePdb.Table) : (of (some t)).kind = some t.kind := rfl

theorem of_some_rowSize (t : PortablePdb.Table) : (of (some t)).rowSize = t.rowSize := rfl

theorem of_some_contents (t : PortablePdb.Table) : (of (some t)).contents = t.contents := rfl

/-- The place of a column. -/
theorem getElem?_columns_of {t : PortablePdb.Table} {col : Nat} (h : col < t.widths.length) :
    (of (some t)).columns[col]? = some ⟨Bytes.total (t.widths.take col), t.widths.getD col 0⟩ := by
  show (placesFrom 0 t.widths ++ noColumns.drop t.widths.length)[col]? = _
  rw [List.getElem?_append_left (by rwa [length_placesFrom]), getElem?_placesFrom 0 h, Nat.zero_add]

theorem size_of {t : Option PortablePdb.Table} (h : ∀ u, t = some u → TableInLimits u) :
    (of t).size = pure (t.elim 0 (·.size)) := by
  cases t with
  | none => rfl
  | some t =>
    have hsize := (h t rfl).size_lt
    exact usize_of_lt (Nat.lt_trans hsize (by omega))

/-- A cell that is as wide as it says is a number if it has one, two or four bytes. -/
theorem number?_eq (b : Bytes) :
    number? b = if b.length = 1 ∨ b.length = 2 ∨ b.length = 4 then some (Bytes.le b) else none := by
  rcases b with _ | ⟨_, _ | ⟨_, _ | ⟨_, _ | ⟨_, _ | ⟨_, _⟩⟩⟩⟩⟩
  all_goals simp [number?, Bytes.le]

/-- **A cell is read without stopping.** -/
theorem cell_of {t : Option PortablePdb.Table} (h : ∀ u, t = some u → TableInLimits u) (row col : Nat) :
    (of t).cell row col =
      answer (t.elim (.error (.plain (.rowIndexOutOfBounds .moduleDef row))) (·.cell row col)) := by
  cases t with
  | none =>
    have hrow : row = 0 ∨ row > empty.rows := by
      show row = 0 ∨ row > 0
      omega
    rw [of, cell, if_pos hrow]
    rfl
  | some t =>
    have hrows := (h t rfl).rows_lt
    have hrowSize := (h t rfl).rowSize_le
    show cell (of (some t)) row col = answer (t.cell row col)
    unfold cell
    split
    · next hrow =>
      have hrow' : row = 0 ∨ row > t.rows := hrow
      rw [PortablePdb.Table.cell, if_pos hrow']
      rfl
    split
    · next hrow hcol =>
      have hrow' : ¬ (row = 0 ∨ row > t.rows) := hrow
      have hcol' : col = 0 ∨ col > t.widths.length := hcol
      rw [PortablePdb.Table.cell, if_neg hrow', if_pos hcol']
      rfl
    · next hrow hcol =>
      have hrow' : ¬ (row = 0 ∨ row > t.rows) := hrow
      have hcol' : ¬ (col = 0 ∨ col > t.widths.length) := hcol
      rw [PortablePdb.Table.cell, if_neg hrow', if_neg hcol']
      -- a row begins below 2^32 · 48, and its cells lie within 48 bytes
      have hplace := getElem?_columns_of (show col - 1 < t.widths.length by omega)
      have hwidth := (h t rfl).getD_widths_le (col - 1)
      have hoffset := (h t rfl).total_take_le (col - 1)
      have hstart : (row - 1) * t.rowSize ≤ 0xFFFFFFFF * 48 := Nat.mul_le_mul (by omega) hrowSize
      rw [minus_of_le (by omega), pure_bind, get_of_eq hplace, pure_bind, minus_of_le (by omega), pure_bind,
        of_some_kind, of_some_rowSize, of_some_contents]
      dsimp only
      rw [usize_of_lt (by omega), pure_bind, usize_of_lt (by omega), pure_bind, usize_of_lt (by omega), pure_bind,
        range?_eq]
      cases hslice : Bytes.slice? t.contents ((row - 1) * t.rowSize + Bytes.total (t.widths.take (col - 1)))
          (t.widths.getD (col - 1) 0) with
      | none => rfl
      | some bytes =>
        rw [require_some, answer_ok, pure_bind, number?_eq, Bytes.length_slice? hslice]
        dsimp only
        split <;> rfl

end Table

/-! ## The tables of a stream -/

/-- Tables in their places, for row counts that start at table `number`. -/
def slots (s : IndexSizes) : Nat → List Nat → List (Option PortablePdb.Table)
  | _, [] => []
  | number, rows :: counts =>
    (if rows = 0 then none
      else (TableKind.ofNumber? number).map fun kind => ⟨kind, rows, kind.columns.map s.width, []⟩) ::
      slots s (number + 1) counts

/-- The tables that stand in places. -/
def present (places : List (Option PortablePdb.Table)) : List PortablePdb.Table :=
  places.filterMap fun place => place

@[simp] theorem present_nil : present [] = [] := rfl

@[simp] theorem present_none (places : List (Option PortablePdb.Table)) :
    present (none :: places) = present places := rfl

@[simp] theorem present_some (t : PortablePdb.Table) (places : List (Option PortablePdb.Table)) :
    present (some t :: places) = t :: present places := rfl

/-- Tables in their places have the numbers of these. -/
def Numbered (number : Nat) (places : List (Option PortablePdb.Table)) : Prop :=
  ∀ i t, places[i]? = some (some t) → t.kind.number = number + i

/-- All tables in places keep the limits. -/
def AllInLimits (places : List (Option PortablePdb.Table)) : Prop := ∀ t, some t ∈ places → TableInLimits t

theorem shape_eq {s : IndexSizes} (hrows : s.rows.length = 64) (kind : TableKind) (rows : Nat) :
    Table.shape s kind rows = pure (.of (some ⟨kind, rows, kind.columns.map s.width, []⟩)) := by
  have hlength := length_columns_le kind
  rw [Table.shape, layOut_eq hrows (fun column h => isSound_of_mem h) (by exact hlength) (by omega), pure_bind]
  simp [Table.of, PortablePdb.Table.rowSize]

theorem number_of_ofNumber? {number : Nat} {kind : TableKind} (h : TableKind.ofNumber? number = some kind) :
    kind.number = number := by
  have := List.find?_some h
  simpa using this

theorem shapes_eq {s : IndexSizes} (hrows : s.rows.length = 64) {number : Nat} {counts : List Nat} {front : List Table}
    (hfront : front.length = number) :
    shapes s number counts (front ++ List.replicate counts.length .empty) =
      answer ((TableStream.shapes s number counts).map fun _ => front ++ (slots s number counts).map .of) := by
  induction counts generalizing number front with
  | nil => rfl
  | cons rows counts ih =>
    rw [List.length_cons, List.replicate_succ, shapes]
    cases rows with
    | zero =>
      have hrest := @ih (number + 1) (front ++ [.empty]) (by simp [hfront])
      rw [List.append_assoc, List.singleton_append] at hrest
      rw [if_pos rfl, hrest, TableStream.shapes]
      simp [slots, Table.of]
    | succ n =>
      rw [if_neg (Nat.succ_ne_zero n), TableStream.shapes]
      · cases hkind : TableKind.ofNumber? number with
        | none => rfl
        | some kind =>
          have hput : ∀ t, put (front ++ .empty :: List.replicate counts.length .empty) number t =
              pure ((front ++ [t]) ++ List.replicate counts.length .empty) := by
            intro t
            rw [put, if_pos (by simp [hfront]), ← hfront, List.set_append_right _ _ (Nat.le_refl _), Nat.sub_self,
              List.set_cons_zero, List.append_assoc, List.singleton_append]
          simp only [require_some, answer_ok, pure_bind, ok_bind, shape_eq hrows, hput]
          rw [ih (by simp [hfront])]
          cases TableStream.shapes s (number + 1) counts with
          | error e => rfl
          | ok rest => simp [Except.map, slots, hkind]
      · exact Nat.succ_ne_zero n

/-- The tables of a stream are those in their places. -/
theorem eq_present_slots {s : IndexSizes} {number : Nat} {counts : List Nat} {tables : List PortablePdb.Table}
    (h : TableStream.shapes s number counts = .ok tables) : tables = present (slots s number counts) := by
  induction counts generalizing number tables with
  | nil =>
    cases h
    rfl
  | cons rows counts ih =>
    cases rows with
    | zero =>
      rw [TableStream.shapes] at h
      simp [slots, ih h]
    | succ n =>
      rw [TableStream.shapes] at h
      · obtain ⟨kind, hkind, h⟩ := exists_of_bind h
        obtain ⟨rest, hrest, h⟩ := exists_of_bind h
        cases h
        simp [slots, eq_some_of_require hkind, ih hrest]
      · exact Nat.succ_ne_zero n

theorem numbered_slots (s : IndexSizes) (number : Nat) (counts : List Nat) :
    Numbered number (slots s number counts) := by
  induction counts generalizing number with
  | nil => intro i t h; cases h
  | cons rows counts ih =>
    intro i t h
    cases i with
    | zero =>
      rw [slots, List.getElem?_cons_zero, Option.some.injEq] at h
      split at h
      · cases h
      · obtain ⟨kind, hkind, rfl⟩ := Option.map_eq_some_iff.1 h
        exact number_of_ofNumber? hkind
    | succ i =>
      have hnumber := ih (number + 1) i t h
      omega

theorem allInLimits_slots (s : IndexSizes) (number : Nat) {counts : List Nat} (h : ∀ n ∈ counts, n < 0x100000000) :
    AllInLimits (slots s number counts) := by
  induction counts generalizing number with
  | nil => intro t ht; cases ht
  | cons rows counts ih =>
    rw [List.forall_mem_cons] at h
    intro t ht
    rw [slots, List.mem_cons] at ht
    rcases ht with ht | ht
    · split at ht
      · cases ht
      · obtain ⟨kind, -, rfl⟩ := Option.map_eq_some_iff.1 ht.symm
        refine ⟨h.1, by simpa using length_columns_le kind, fun width hwidth => ?_⟩
        obtain ⟨column, hcolumn, rfl⟩ := List.mem_map.1 hwidth
        exact width_le s (isSound_of_mem hcolumn)
    · exact ih (number + 1) h.2 t ht

theorem total_sizes (places : List (Option PortablePdb.Table)) :
    Bytes.total (places.map (·.elim 0 (·.size))) = Bytes.total ((present places).map (·.size)) := by
  induction places with
  | nil => rfl
  | cons place places ih => cases place <;> simp [ih]

/-- **The size of all tables is found without stopping.** -/
theorem requiredSize_eq {places : List (Option PortablePdb.Table)} (h : AllInLimits places)
    (hlength : places.length ≤ 64) :
    requiredSize (places.map .of) = pure (Bytes.total ((present places).map (·.size))) := by
  have hplaces : ∀ place ∈ places, ∀ t, place = some t → TableInLimits t := fun place hplace t ht => h t (ht ▸ hplace)
  have hsizes : ∀ size ∈ places.map (·.elim 0 (·.size)), size ≤ 0x4000000000 := by
    intro size hsize
    obtain ⟨place, hplace, rfl⟩ := List.mem_map.1 hsize
    cases place with
    | none => exact Nat.zero_le _
    | some t => exact Nat.le_of_lt (hplaces _ hplace t rfl).size_lt
  have htotal : Bytes.total (places.map (·.elim 0 (·.size))) ≤ 64 * 0x4000000000 :=
    Nat.le_trans (total_le hsizes) (Nat.mul_le_mul_right _ (by rwa [List.length_map]))
  have hsum : sumFrom 0 (fun place => (Table.of place).size) places =
      pure (0 + Bytes.total (places.map (·.elim 0 (·.size)))) :=
    sumFrom_eq (fun place hplace => Table.size_of (hplaces place hplace)) (by omega)
  rw [total_sizes, Nat.zero_add] at hsum
  rw [requiredSize, sumFrom, List.foldlM_map]
  exact hsum

/-! ## Rows are handed out -/

/-- Tables in their places with their shares of the rows' bytes. -/
def fillSlots : List (Option PortablePdb.Table) → Bytes → List (Option PortablePdb.Table)
  | [], _ => []
  | none :: places, rows => none :: fillSlots places rows
  | some t :: places, rows =>
    some { t with contents := rows.take t.size } :: fillSlots places (rows.drop t.size)

theorem present_fillSlots (places : List (Option PortablePdb.Table)) (rows : Bytes) :
    present (fillSlots places rows) = TableStream.fill (present places) rows := by
  induction places generalizing rows with
  | nil => rfl
  | cons place places ih =>
    cases place with
    | none => simp [fillSlots, ih]
    | some t => simp [fillSlots, TableStream.fill, ih]

/-- A table with its rows stands where the table stood without them. -/
theorem exists_of_fillSlots {places : List (Option PortablePdb.Table)} {rows : Bytes} {i : Nat} {t : PortablePdb.Table}
    (h : (fillSlots places rows)[i]? = some (some t)) :
    ∃ u, places[i]? = some (some u) ∧ t.kind = u.kind ∧ t.rows = u.rows ∧ t.widths = u.widths := by
  induction places generalizing rows i with
  | nil => cases h
  | cons place places ih =>
    cases place with
    | none =>
      cases i with
      | zero => cases h
      | succ i => exact ih h
    | some u =>
      cases i with
      | zero =>
        cases h
        exact ⟨u, rfl, rfl, rfl, rfl⟩
      | succ i => exact ih h

theorem Numbered.fillSlots {number : Nat} {places : List (Option PortablePdb.Table)} (h : Numbered number places)
    (rows : Bytes) : Numbered number (fillSlots places rows) := by
  intro i t ht
  obtain ⟨u, hu, hkind, -⟩ := exists_of_fillSlots ht
  rw [hkind]
  exact h i u hu

theorem AllInLimits.fillSlots {places : List (Option PortablePdb.Table)} (h : AllInLimits places) (rows : Bytes) :
    AllInLimits (fillSlots places rows) := by
  intro t ht
  obtain ⟨i, hi⟩ := List.mem_iff_getElem?.1 ht
  obtain ⟨u, hu, -, hrows, hwidths⟩ := exists_of_fillSlots hi
  obtain ⟨h₁, h₂, h₃⟩ := h u (List.mem_of_getElem? hu)
  exact ⟨hrows ▸ h₁, hwidths ▸ h₂, hwidths ▸ h₃⟩

/-- **Every table is cut off what is left of the rows**, because the rows of all tables are there. -/
theorem fill_eq {places : List (Option PortablePdb.Table)} (h : AllInLimits places) {rows : Bytes}
    (hrows : Bytes.total ((present places).map (·.size)) ≤ rows.length) :
    fill (places.map .of) rows = pure ((fillSlots places rows).map .of) := by
  induction places generalizing rows with
  | nil => rfl
  | cons place places ih =>
    have hrest : AllInLimits places := fun t ht => h t (List.mem_cons_of_mem _ ht)
    have hplace : ∀ u, place = some u → TableInLimits u := fun u hu => h u (hu ▸ List.mem_cons_self)
    rw [List.map_cons, fill, Table.size_of hplace, pure_bind]
    cases place with
    | none =>
      rw [Option.elim_none, splitAt_of_le (Nat.zero_le _), pure_bind]
      dsimp only
      rw [List.drop_zero, ih hrest hrows, pure_bind]
      rfl
    | some t =>
      rw [present_some, List.map_cons, Bytes.total_cons] at hrows
      rw [Option.elim_some, splitAt_of_le (by omega), pure_bind]
      dsimp only
      rw [ih hrest (by rw [List.length_drop]; omega), pure_bind]
      rfl

/-! ## The table stream is read -/

theorem number_injective {j k : TableKind} (h : j.number = k.number) : j = k :=
  Option.some.inj ((TableKind.ofNumber?_number j).symm.trans (h ▸ TableKind.ofNumber?_number k))

/-- A table is found in its place. -/
theorem find?_present {number : Nat} {places : List (Option PortablePdb.Table)} (h : Numbered number places)
    (k : TableKind) : (present places).find? (·.kind == k) =
      if number ≤ k.number then places[k.number - number]?.join else none := by
  induction places generalizing number with
  | nil => simp
  | cons place places ih =>
    have hrest : Numbered (number + 1) places := fun i t ht => by
      have := h (i + 1) t ht
      omega
    have hstep : ∀ u, place = some u → u.kind.number = number := fun u hu => h 0 u (hu ▸ rfl)
    have htail : number < k.number → (place :: places)[k.number - number]? = places[k.number - (number + 1)]? := by
      intro hlt
      rw [show k.number - number = k.number - (number + 1) + 1 by omega, List.getElem?_cons_succ]
    by_cases heq : k.number = number
    · rw [if_pos (by omega), heq, Nat.sub_self, List.getElem?_cons_zero]
      cases place with
      | none =>
        rw [present_none, ih hrest, if_neg (by omega)]
        rfl
      | some t =>
        have hkind : t.kind = k := number_injective ((hstep t rfl).trans heq.symm)
        rw [present_some, List.find?_cons_of_pos (by simp [hkind])]
        rfl
    · have hskip : (present (place :: places)).find? (·.kind == k) = (present places).find? (·.kind == k) := by
        cases place with
        | none => rfl
        | some t =>
          have hkind : t.kind ≠ k := fun hk => heq (hk ▸ hstep t rfl)
          rw [present_some, List.find?_cons_of_neg (by simp [hkind])]
      rw [hskip, ih hrest]
      by_cases hle : number + 1 ≤ k.number
      · rw [if_pos hle, if_pos (by omega), htail hle]
      · rw [if_neg hle, if_neg (by omega)]

/-- An array of tables serves look-ups in a table stream: in the place of every table there is this table. -/
structure Serves (tables : List Table) (s : TableStream) : Prop where
  getElem? : ∀ k : TableKind, tables[k.number]? = some (.of (s.table? k))
  limits : ∀ t ∈ s.tables, TableInLimits t

theorem length_slots (s : IndexSizes) (number : Nat) (counts : List Nat) :
    (slots s number counts).length = counts.length := by
  induction counts generalizing number with
  | nil => rfl
  | cons rows counts ih => simp [slots, ih]

theorem length_fillSlots (places : List (Option PortablePdb.Table)) (rows : Bytes) :
    (fillSlots places rows).length = places.length := by
  induction places generalizing rows with
  | nil => rfl
  | cons place places ih => cases place <;> simp [fillSlots, ih]

/-- Tables that stand in 64 places serve look-ups. -/
theorem serves_of_places {places : List (Option PortablePdb.Table)} (hlength : places.length = 64)
    (hnumbered : Numbered 0 places) (hlimits : AllInLimits places) : Serves (places.map .of) ⟨present places⟩ where
  getElem? k := by
    have hk : k.number < places.length := hlength ▸ number_lt k
    rw [TableStream.table?, find?_present hnumbered, if_pos (Nat.zero_le _), Nat.sub_zero, List.getElem?_map,
      List.getElem?_eq_getElem hk]
    rfl
  limits t ht := by
    obtain ⟨place, hplace, rfl⟩ := List.mem_filterMap.1 ht
    exact hlimits t hplace

/-- Row counts are read as they are without words; there are 64, of 32 bits. -/
theorem rowCounts_agrees (b : Bytes) (mask pos : Nat) :
    Agrees (fun r s => r = (s.1, b.drop s.2) ∧ s.1.length = 64 ∧ ∀ n ∈ s.1, n < 0x100000000)
      (rowCounts mask (List.range 64) (b.drop pos)) (require .invalidLength (rowCounts? b (bits64 mask) pos)) := by
  rw [rowCounts_eq mask b (fun i hi => List.mem_range.1 hi) pos, ← bits64]
  cases hcounts : rowCounts? b (bits64 mask) pos with
  | none => exact .of_error _ _
  | some r =>
    obtain ⟨hlength, hlt⟩ := bounds_of_rowCounts? hcounts
    exact .of_pure ⟨rfl, by rw [hlength, bits64, List.length_map, List.length_range], hlt⟩

theorem shapes_agrees {s : IndexSizes} (hrows : s.rows.length = 64) {counts : List Nat} (hcounts : counts.length = 64) :
    Agrees (fun tables ts => tables = (slots s 0 counts).map .of ∧ ts = present (slots s 0 counts))
      (shapes s 0 counts (List.replicate 64 .empty)) (TableStream.shapes s 0 counts) := by
  have hshapes := @shapes_eq s hrows 0 counts [] rfl
  rw [List.nil_append, hcounts] at hshapes
  rw [hshapes]
  cases htables : TableStream.shapes s 0 counts with
  | error e => exact .of_error _ e
  | ok ts => exact .of_pure ⟨rfl, eq_present_slots htables⟩

/-- **The table stream is read without stopping.** -/
theorem readTables_agrees (b : Bytes) (start : Nat) {referenced : List Nat} (hreferenced : referenced.length = 64) :
    Agrees Serves (readTables b start referenced) (TableStream.read b start referenced) := by
  refine Agrees.bind_answer fun header _ => ?_
  refine Agrees.bind (rowCounts_agrees b _ 24) ?_
  rintro _ ⟨counts, stop⟩ ⟨rfl, hlength, hlt⟩
  dsimp only
  rw [greaterCounts_eq hlength hreferenced, pure_bind]
  have hrows : (List.zipWith max counts referenced).length = 64 := by
    rw [List.length_zipWith, hlength, hreferenced, Nat.min_self]
  refine Agrees.bind (shapes_agrees hrows hlength) ?_
  rintro _ _ ⟨rfl, rfl⟩
  have hplaces (s : IndexSizes) : (slots s 0 counts).length = 64 := (length_slots s 0 counts).trans hlength
  have hlimits (s : IndexSizes) : AllInLimits (slots s 0 counts) := allInLimits_slots s 0 hlt
  have hserves (s : IndexSizes) := serves_of_places ((length_fillSlots _ (b.drop stop)).trans (hplaces s))
    ((numbered_slots s 0 counts).fillSlots (b.drop stop)) ((hlimits s).fillSlots (b.drop stop))
  rw [requiredSize_eq (hlimits _) (Nat.le_of_eq (hplaces _)), pure_bind]
  split
  · exact .of_error _ _
  · next henough =>
    rw [fill_eq (hlimits _) (Nat.le_of_not_lt henough), ← present_fillSlots]
    exact .of_pure (hserves _)

end Symbolicate.PortablePdb.Machine
