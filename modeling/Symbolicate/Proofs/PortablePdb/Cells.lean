import Mathlib.Tactic.Common
import Symbolicate.Proofs.PortablePdb.Machine.Tables

/-!
# Where cells lie

The address of a cell, said without reading tables: row counts follow the header in the order of the tables' numbers, the
rows of all tables follow the row counts in the same order, and in a row the columns of the schema follow each other
(`cellStart`). The tables that are read lie at these addresses (`table?_of_read`), because each is handed what those in
front of it leave over (`getElem?_fillSlots`).
-/

namespace Symbolicate.PortablePdb.TableStream

/-! ## Addresses -/

section Addresses

variable (b : Bytes) (referenced : List Nat)

/-- Whether a table has a row count: a bit of the eight bytes at offset eight. -/
def isPresent (n : Nat) : Bool := (Bytes.le ((b.drop 8).take 8)).testBit n

/-- How many row counts stand in front of that of a table. -/
def countsBefore (n : Nat) : Nat := (List.range n).countP (isPresent b)

/-- The row count of a table, which is zero unless it stands behind the header. -/
def declaredRows (n : Nat) : Nat :=
  if isPresent b n then Bytes.le ((b.drop (24 + 4 * countsBefore b n)).take 4) else 0

/-- Where the row counts end and the rows begin. -/
def rowsStart : Nat := 24 + 4 * countsBefore b 64

/-- The rows that a reference to a table may mean: as many as are here, or as many as the assembly has. -/
def greaterRows (k : TableKind) : Nat := max (declaredRows b k.number) (referenced.getD k.number 0)

/-- Whether the flag of a wide heap is set. -/
def isWideHeap (flag : Nat) : Bool := (Bytes.le ((b.drop 6).take 1)).testBit flag

/-- The width of a column in bytes. -/
def columnWidth (column : Column) : Nat :=
  match column with
  | .fixed width => width
  | .stringHeap => if isWideHeap b 0 then 4 else 2
  | .guidHeap => if isWideHeap b 1 then 4 else 2
  | .blobHeap => if isWideHeap b 2 then 4 else 2
  | .row k => if greaterRows b referenced k < 2 ^ 16 then 2 else 4
  | .coded c => if ∀ k ∈ c.targets, greaterRows b referenced k < 2 ^ (16 - c.tagBits) then 2 else 4

/-- The width of some columns together. -/
def columnsWidth (columns : List Column) : Nat := Bytes.total (columns.map (columnWidth b referenced))

/-- The size of a row of the table with a number, if there is such a table. -/
def rowWidth (n : Nat) : Nat := (TableKind.ofNumber? n).elim 0 fun k => columnsWidth b referenced k.columns

/-- The size of all tables with numbers below `n`. -/
def sizeBefore (n : Nat) : Nat :=
  Bytes.total ((List.range n).map fun m => declaredRows b m * rowWidth b referenced m)

/-- Where a cell lies: behind the row counts, the tables with lower numbers, the rows in front and the columns in front. -/
def cellStart (k : TableKind) (row col : Nat) : Nat :=
  rowsStart b + sizeBefore b referenced k.number + (row - 1) * rowWidth b referenced k.number +
    columnsWidth b referenced (k.columns.take (col - 1))

end Addresses

/-! ## Row counts -/

theorem u32?_eq (b : Bytes) (pos : Nat) :
    Bytes.u32? b pos = if pos + 4 ≤ b.length then some (Bytes.le ((b.drop pos).take 4)) else none := by
  unfold Bytes.u32? Bytes.slice?
  split <;> rfl

/-- Row counts from `pos` on: behind each bit that is set in front there is one of four bytes. -/
theorem rowCounts?_eq (b : Bytes) (bits : List Bool) {pos : Nat} (hpos : pos ≤ b.length) :
    rowCounts? b bits pos = if pos + 4 * bits.count true ≤ b.length then
        some ((List.range bits.length).map fun i => if bits.getD i false then
          Bytes.le ((b.drop (pos + 4 * (bits.take i).count true)).take 4) else 0, pos + 4 * bits.count true)
      else none := by
  induction bits generalizing pos with
  | nil => simp [rowCounts?, hpos]
  | cons bit bits ih =>
    rw [List.length_cons, List.range_succ_eq_map, List.map_cons, List.map_map]
    cases bit with
    | false =>
      rw [rowCounts?, ih hpos]
      simp only [List.count_cons_of_ne (by decide : false ≠ true)]
      split
      · simp [Function.comp_def]
      · rfl
    | true =>
      have hstop : pos + 4 * (true :: bits).count true = pos + 4 + 4 * bits.count true := by
        rw [List.count_cons_self]
        omega
      have hplace : ∀ i, pos + 4 * ((bits.take i).count true + 1) = pos + 4 + 4 * (bits.take i).count true :=
        fun i => by omega
      rw [rowCounts?, u32?_eq, hstop]
      by_cases hnext : pos + 4 ≤ b.length
      · rw [ih hnext, if_pos hnext]
        by_cases hall : pos + 4 + 4 * bits.count true ≤ b.length
        · simp [hall, hplace, Function.comp_def]
        · rw [if_neg hall, if_neg hall]
      · rw [if_neg hnext, if_neg (by omega)]

theorem count_bits64 (b : Bytes) {n : Nat} (hn : n ≤ 64) :
    ((bits64 (Bytes.le ((b.drop 8).take 8))).take n).count true = countsBefore b n := by
  rw [bits64, ← List.map_take, List.take_range, Nat.min_eq_left hn, List.count_eq_countP, List.countP_map]
  refine List.countP_congr fun i _ => ?_
  simp [isPresent]

/-- **The row counts of a stream** are those that it declares. -/
theorem rowCounts?_bits64 {b : Bytes} (hb : 24 ≤ b.length) :
    rowCounts? b (bits64 (Bytes.le ((b.drop 8).take 8))) 24 =
      if rowsStart b ≤ b.length then some ((List.range 64).map (declaredRows b), rowsStart b) else none := by
  have hlength : (bits64 (Bytes.le ((b.drop 8).take 8))).length = 64 := by
    rw [bits64, List.length_map, List.length_range]
  have hcount := count_bits64 b (Nat.le_refl 64)
  rw [List.take_of_length_le (Nat.le_of_eq hlength)] at hcount
  rw [rowCounts?_eq b _ hb, hcount, hlength, ← rowsStart]
  refine if_congr Iff.rfl (congrArg some (Prod.ext (List.map_congr_left fun i hi => ?_) rfl)) rfl
  have hi : i < 64 := List.mem_range.1 hi
  have hbit : (bits64 (Bytes.le ((b.drop 8).take 8))).getD i false = isPresent b i := by
    simp [bits64, isPresent, List.getD_eq_getElem?_getD, hi]
  rw [declaredRows, count_bits64 b (Nat.le_of_lt hi), hbit]

/-! ## Sizes -/

/-- What the widths of columns depend on in a stream that refers to tables with the row counts `referenced`. -/
def sizesOf (b : Bytes) (referenced : List Nat) : IndexSizes :=
  ⟨Bytes.le ((b.drop 6).take 1), List.zipWith max ((List.range 64).map (declaredRows b)) referenced⟩

/-- **Columns have the widths of the format.** -/
theorem width_sizesOf (b : Bytes) {referenced : List Nat} (h : referenced.length = 64) (column : Column) :
    (sizesOf b referenced).width column = columnWidth b referenced column := by
  have hrows : ∀ k : TableKind, (sizesOf b referenced).rowsOf k = greaterRows b referenced k := fun k => by
    have hk := Machine.number_lt k
    simp [IndexSizes.rowsOf, sizesOf, greaterRows, List.getD_eq_getElem?_getD, hk, h]
  have hnarrow : ∀ (p : Prop) [Decidable p], IndexSizes.narrowUnless (! decide p) = if p then 2 else 4 := by
    intro p _
    by_cases hp : p <;> simp [IndexSizes.narrowUnless, hp]
  cases column with
  | fixed width => rfl
  | stringHeap => rfl
  | guidHeap => rfl
  | blobHeap => rfl
  | row k =>
    rw [IndexSizes.width, hrows, hnarrow, columnWidth]
    rfl
  | coded c =>
    have hall : (c.targets.all fun k => decide ((sizesOf b referenced).rowsOf k < 1 <<< (16 - c.tagBits))) =
        decide (∀ k ∈ c.targets, greaterRows b referenced k < 2 ^ (16 - c.tagBits)) := by
      rw [Bool.eq_iff_iff]
      simp [hrows, Nat.one_shiftLeft]
    rw [IndexSizes.width, hall, hnarrow, columnWidth]

/-- A table in its place, still without contents, if it has rows and is part of the schema. -/
def place (s : IndexSizes) (n rows : Nat) : Option Table :=
  if rows = 0 then none else (TableKind.ofNumber? n).map fun kind => ⟨kind, rows, kind.columns.map s.width, []⟩

theorem slots_eq (s : IndexSizes) (number : Nat) (rows : Nat → Nat) (m : Nat) :
    Machine.slots s number ((List.range m).map rows) = (List.range m).map fun i => place s (number + i) (rows i) := by
  induction m generalizing number rows with
  | zero => rfl
  | succ m ih =>
    have hrest := ih (number + 1) fun i => rows (i + 1)
    simp only [List.range_succ_eq_map, List.map_cons, List.map_map, Machine.slots, Function.comp_def]
    rw [hrest]
    simp only [place, Nat.add_zero, Nat.add_assoc, Nat.add_comm 1]

/-- The tables of a stream in their places. -/
def places (b : Bytes) (referenced : List Nat) : List (Option Table) :=
  (List.range 64).map fun n => place (sizesOf b referenced) n (declaredRows b n)

theorem size_place (b : Bytes) {referenced : List Nat} (h : referenced.length = 64) (n : Nat) :
    (place (sizesOf b referenced) n (declaredRows b n)).elim 0 (·.size) =
      declaredRows b n * rowWidth b referenced n := by
  unfold place rowWidth
  split
  · next hrows => rw [hrows, Nat.zero_mul, Option.elim_none]
  · cases TableKind.ofNumber? n with
    | none => rfl
    | some k =>
      have hwidth : (sizesOf b referenced).width = columnWidth b referenced := funext (width_sizesOf b h)
      simp only [Option.map_some, Option.elim_some, Table.size, Table.rowSize, columnsWidth, hwidth]

/-- The tables in front of a number take the bytes that they declare. -/
theorem total_places_take (b : Bytes) {referenced : List Nat} (h : referenced.length = 64) {n : Nat} (hn : n ≤ 64) :
    Bytes.total (((places b referenced).take n).map (·.elim 0 (·.size))) = sizeBefore b referenced n := by
  rw [places, ← List.map_take, List.take_range, Nat.min_eq_left hn, List.map_map, sizeBefore]
  exact congrArg Bytes.total (List.map_congr_left fun i _ => size_place b h i)

/-! ## Tables -/

/-- Either all tables with rows are part of the schema, or the first one that is not stops the reader. -/
theorem shapes_cases (s : IndexSizes) (number : Nat) (counts : List Nat) :
    ((∀ i rows, counts[i]? = some rows → rows ≠ 0 → (TableKind.ofNumber? (number + i)).isSome) ∧
      shapes s number counts = .ok (Machine.present (Machine.slots s number counts))) ∨
    ∃ i rows, counts[i]? = some rows ∧ rows ≠ 0 ∧ TableKind.ofNumber? (number + i) = none ∧
      shapes s number counts = .error (.plain (.unknownTable (number + i))) := by
  induction counts generalizing number with
  | nil => exact .inl ⟨(fun _ _ h => nomatch h), rfl⟩
  | cons rows counts ih =>
    have hnumber : ∀ i, number + 1 + i = number + (i + 1) := fun i => by omega
    cases rows with
    | zero =>
      rw [shapes, Machine.slots, if_pos rfl, Machine.present_none]
      rcases ih (number + 1) with ⟨hknown, hshapes⟩ | ⟨i, rows, hi, hrows, hnone, hshapes⟩
      · refine .inl ⟨fun i rows hi hrows => ?_, hshapes⟩
        cases i with
        | zero =>
          cases hi
          exact absurd rfl hrows
        | succ i => exact hnumber i ▸ hknown i rows hi hrows
      · rw [hnumber] at hnone hshapes
        exact .inr ⟨i + 1, rows, hi, hrows, hnone, hshapes⟩
    | succ n =>
      have hstep : shapes s number ((n + 1) :: counts) = do
          let kind ← require (.unknownTable number) (TableKind.ofNumber? number)
          let rest ← shapes s (number + 1) counts
          return ⟨kind, n + 1, kind.columns.map s.width, []⟩ :: rest := by
        rw [shapes]
        exact Nat.succ_ne_zero n
      rw [hstep, Machine.slots, if_neg (Nat.succ_ne_zero n)]
      cases hkind : TableKind.ofNumber? number with
      | none => exact .inr ⟨0, n + 1, rfl, Nat.succ_ne_zero n, hkind, rfl⟩
      | some kind =>
        rw [require_some, ok_bind, Option.map_some, Machine.present_some]
        rcases ih (number + 1) with ⟨hknown, hshapes⟩ | ⟨i, rows, hi, hrows, hnone, hshapes⟩
        · refine .inl ⟨fun i rows hi hrows => ?_, by rw [hshapes]; rfl⟩
          cases i with
          | zero => rw [Nat.add_zero, hkind]; rfl
          | succ i => exact hnumber i ▸ hknown i rows hi hrows
        · rw [hnumber] at hnone
          exact .inr ⟨i + 1, rows, hi, hrows, hnone, by rw [hshapes, hnumber]; rfl⟩

/-- **What is read from a stream** in terms of what it declares. -/
theorem read_eq_steps (b : Bytes) (start : Nat) (referenced : List Nat) :
    read b start referenced =
      if start % 4 = 0 ∧ 24 ≤ b.length then
        if rowsStart b ≤ b.length then
          shapes (sizesOf b referenced) 0 ((List.range 64).map (declaredRows b)) >>= fun tables =>
            if b.length - rowsStart b < Bytes.total (tables.map Table.size) then
              .error (.plain (.insufficientTableData (Bytes.total (tables.map Table.size)) (b.length - rowsStart b)))
            else .ok ⟨fill tables (b.drop (rowsStart b))⟩
        else .error (.plain .invalidLength)
      else .error (.plain .invalidHeader) := by
  by_cases hheader : start % 4 = 0 ∧ 24 ≤ b.length
  · have hslice : Bytes.slice? b 0 24 = some (b.take 24) := if_pos hheader.2
    have hvalid : ((b.take 24).drop 8).take 8 = (b.drop 8).take 8 := by
      rw [List.drop_take, List.take_take]
      rfl
    have hflags : ((b.take 24).drop 6).take 1 = (b.drop 6).take 1 := by
      rw [List.drop_take, List.take_take]
      rfl
    rw [if_pos hheader, read, if_pos hheader.1, hslice, require_some, ok_bind]
    dsimp only
    rw [hvalid, hflags, rowCounts?_bits64 hheader.2]
    split
    · rw [require_some, ok_bind]
      refine congrArg _ (funext fun tables => ?_)
      rw [List.length_drop]
      split <;> rfl
    · rfl
  · have hnone : (if start % 4 = 0 then Bytes.slice? b 0 24 else none) = none := by
      unfold Bytes.slice?
      split
      · exact if_neg (by omega)
      · rfl
    rw [if_neg hheader, read, hnone]
    rfl

/-- A table with its rows stands behind the tables in front of it. -/
theorem getElem?_fillSlots (places : List (Option Table)) (rows : Bytes) (i : Nat) :
    (Machine.fillSlots places rows)[i]? = places[i]?.map fun place => place.map fun t =>
      { t with contents := (rows.drop (Bytes.total ((places.take i).map (·.elim 0 (·.size))))).take t.size } := by
  induction places generalizing rows i with
  | nil => rfl
  | cons place places ih =>
    cases i with
    | zero => cases place <;> rfl
    | succ i =>
      cases place with
      | none => simp [Machine.fillSlots, ih]
      | some t => simp [Machine.fillSlots, ih]

theorem slots_declaredRows (b : Bytes) (referenced : List Nat) :
    Machine.slots (sizesOf b referenced) 0 ((List.range 64).map (declaredRows b)) = places b referenced := by
  rw [slots_eq, places]
  simp only [Nat.zero_add]

/-- Every table with rows is part of the schema. -/
def AllKnown (b : Bytes) : Prop := ∀ n < 64, 0 < declaredRows b n → ∃ k : TableKind, k.number = n

/-- The tables of a stream are known, or one that is not stops the reader. -/
theorem shapes_declaredRows (b : Bytes) (referenced : List Nat) :
    (AllKnown b ∧ shapes (sizesOf b referenced) 0 ((List.range 64).map (declaredRows b)) =
        .ok (Machine.present (places b referenced))) ∨
      ¬ AllKnown b ∧ ∃ n, shapes (sizesOf b referenced) 0 ((List.range 64).map (declaredRows b)) =
        .error (.plain (.unknownTable n)) := by
  have hcount : ∀ {i rows}, ((List.range 64).map (declaredRows b))[i]? = some rows → i < 64 ∧ declaredRows b i = rows :=
    fun {i rows} hi => by
      rw [List.getElem?_map] at hi
      obtain ⟨j, hj, hrows⟩ := Option.map_eq_some_iff.1 hi
      obtain ⟨hlt, hget⟩ := List.getElem?_eq_some_iff.1 hj
      rw [List.getElem_range] at hget
      exact ⟨by simpa using hlt, hget ▸ hrows⟩
  rcases shapes_cases (sizesOf b referenced) 0 ((List.range 64).map (declaredRows b)) with
    ⟨hknown, hshapes⟩ | ⟨i, rows, hi, hrows, hnone, hshapes⟩
  · rw [slots_declaredRows] at hshapes
    refine .inl ⟨fun n hn hpos => ?_, hshapes⟩
    have hsome := hknown n (declaredRows b n) (by simp [hn]) (by omega)
    rw [Nat.zero_add] at hsome
    obtain ⟨k, hk⟩ := Option.isSome_iff_exists.1 hsome
    exact ⟨k, Machine.number_of_ofNumber? hk⟩
  · refine .inr ⟨fun hall => ?_, _, hshapes⟩
    obtain ⟨hlt, rfl⟩ := hcount hi
    obtain ⟨k, hk⟩ := hall i hlt (by omega)
    rw [Nat.zero_add, ← hk, TableKind.ofNumber?_number] at hnone
    cases hnone

/-- The tables together are as large as the stream declares. -/
theorem total_present (b : Bytes) {referenced : List Nat} (h : referenced.length = 64) :
    Bytes.total ((Machine.present (places b referenced)).map Table.size) = sizeBefore b referenced 64 := by
  have hall := total_places_take b h (Nat.le_refl 64)
  rwa [List.take_of_length_le (by rw [places, List.length_map, List.length_range]), Machine.total_sizes] at hall

/-- **The tables of a stream that was read.** The rows that it declares lie within it, and each table with rows is found
with the bytes behind those of the tables in front of it. -/
theorem table?_of_read {b : Bytes} {start : Nat} {referenced : List Nat} (h : referenced.length = 64) {s : TableStream}
    (hread : read b start referenced = .ok s) :
    rowsStart b + sizeBefore b referenced 64 ≤ b.length ∧ ∀ k : TableKind,
      s.table? k = if declaredRows b k.number = 0 then none
        else some ⟨k, declaredRows b k.number, k.columns.map (columnWidth b referenced),
          (b.drop (rowsStart b + sizeBefore b referenced k.number)).take
            (declaredRows b k.number * rowWidth b referenced k.number)⟩ := by
  rw [read_eq_steps] at hread
  split at hread
  · split at hread
    · obtain ⟨tables, hshapes, hread⟩ := exists_of_bind hread
      rcases shapes_declaredRows b referenced with ⟨-, hok⟩ | ⟨-, _, herror⟩
      · cases hok.symm.trans hshapes
        rw [total_present b h] at hread
        split at hread
        · cases hread
        · cases hread
          refine ⟨by omega, fun k => ?_⟩
          have hk := Machine.number_lt k
          have hnumbered : Machine.Numbered 0 (places b referenced) :=
            slots_declaredRows b referenced ▸ Machine.numbered_slots (sizesOf b referenced) 0 _
          have hplace : (places b referenced)[k.number]? =
              some (place (sizesOf b referenced) k.number (declaredRows b k.number)) := by
            simp [places, hk]
          have hwidth : (sizesOf b referenced).width = columnWidth b referenced := funext (width_sizesOf b h)
          rw [table?, ← Machine.present_fillSlots, Machine.find?_present (hnumbered.fillSlots _),
            if_pos (Nat.zero_le _), Nat.sub_zero, getElem?_fillSlots, hplace, total_places_take b h (Nat.le_of_lt hk),
            List.drop_drop, place]
          split
          · rfl
          · simp only [TableKind.ofNumber?_number, Option.map_some, Option.join_some, Table.size, Table.rowSize, hwidth,
              rowWidth, Option.elim_some, columnsWidth]
      · rw [herror] at hshapes
        cases hshapes
    · cases hread
  · cases hread

/-! ## Cells -/

section Cells

variable {b : Bytes} {start : Nat} {referenced : List Nat} {s : TableStream} {k : TableKind}

theorem rowWidth_number (b : Bytes) (referenced : List Nat) (k : TableKind) :
    rowWidth b referenced k.number = columnsWidth b referenced k.columns := by
  rw [rowWidth, TableKind.ofNumber?_number, Option.elim_some]

/-- The rows of a table end in front of the end of all rows. -/
theorem sizeBefore_add_le (b : Bytes) (referenced : List Nat) {n : Nat} (hn : n < 64) :
    sizeBefore b referenced n + declaredRows b n * rowWidth b referenced n ≤ sizeBefore b referenced 64 := by
  have hle := Bytes.total_take_add_le ((List.range 64).map fun m => declaredRows b m * rowWidth b referenced m)
    (i := n) (by simpa using hn)
  rw [← List.map_take, List.take_range, Nat.min_eq_left (Nat.le_of_lt hn)] at hle
  simpa [sizeBefore, List.getD_eq_getElem?_getD, hn] using hle

/-- A cell lies in its row. -/
theorem columnsWidth_take_add_le (b : Bytes) (referenced : List Nat) {columns : List Column} {i : Nat} {column : Column}
    (h : columns[i]? = some column) :
    columnsWidth b referenced (columns.take i) + columnWidth b referenced column ≤ columnsWidth b referenced columns := by
  obtain ⟨hi, -⟩ := List.getElem?_eq_some_iff.1 h
  have hle := Bytes.total_take_add_le (columns.map (columnWidth b referenced)) (i := i) (by simpa using hi)
  rw [← List.map_take] at hle
  simpa [columnsWidth, List.getD_eq_getElem?_getD, h] using hle

/-- **A cell is the number at its address**, and its address lies in the stream. -/
theorem cell_of_read (h : referenced.length = 64) (hread : read b start referenced = .ok s) {row col : Nat}
    {column : Column} (hrow : 1 ≤ row) (hrows : row ≤ declaredRows b k.number) (hcol : 1 ≤ col)
    (hcolumn : k.columns[col - 1]? = some column) :
    cellStart b referenced k row col + columnWidth b referenced column ≤ b.length ∧
      s.cell k row col =
        if columnWidth b referenced column = 1 ∨ columnWidth b referenced column = 2 ∨
            columnWidth b referenced column = 4 then
          .ok (Bytes.le ((b.drop (cellStart b referenced k row col)).take (columnWidth b referenced column)))
        else .error (.plain (.colIndexOutOfBounds k col)) := by
  obtain ⟨hlength, htable⟩ := table?_of_read h hread
  have hsize := sizeBefore_add_le b referenced (Machine.number_lt k)
  have hcell := columnsWidth_take_add_le b referenced hcolumn
  obtain ⟨hi, -⟩ := List.getElem?_eq_some_iff.1 hcolumn
  rw [← rowWidth_number] at hcell
  have hall : row * rowWidth b referenced k.number ≤ declaredRows b k.number * rowWidth b referenced k.number :=
    Nat.mul_le_mul_right _ hrows
  have hbefore : row * rowWidth b referenced k.number =
      (row - 1) * rowWidth b referenced k.number + rowWidth b referenced k.number := by
    rw [← Nat.succ_mul, Nat.succ_eq_add_one, Nat.sub_add_cancel hrow]
  refine ⟨by rw [cellStart]; omega, ?_⟩
  have hwidth : (k.columns.map (columnWidth b referenced)).getD (col - 1) 0 = columnWidth b referenced column := by
    simp [List.getD_eq_getElem?_getD, hcolumn]
  have hslice : Bytes.slice? ((b.drop (rowsStart b + sizeBefore b referenced k.number)).take
        (declaredRows b k.number * rowWidth b referenced k.number))
      ((row - 1) * rowWidth b referenced k.number + columnsWidth b referenced (k.columns.take (col - 1)))
      (columnWidth b referenced column) =
        some ((b.drop (cellStart b referenced k row col)).take (columnWidth b referenced column)) := by
    rw [Bytes.slice?, if_pos (by rw [List.length_take, List.length_drop]; omega), List.drop_take, List.take_take,
      List.drop_drop, Nat.min_eq_left (by omega), cellStart, Nat.add_assoc (rowsStart b + _)]
  have hrowSize : Bytes.total (k.columns.map (columnWidth b referenced)) = rowWidth b referenced k.number :=
    (rowWidth_number b referenced k).symm
  have hfront : Bytes.total ((k.columns.map (columnWidth b referenced)).take (col - 1)) =
      columnsWidth b referenced (k.columns.take (col - 1)) := by
    rw [← List.map_take, columnsWidth]
  have hvalid : ¬ (row = 0 ∨ row > declaredRows b k.number) := by omega
  have hinside : ¬ (col = 0 ∨ col > (k.columns.map (columnWidth b referenced)).length) := by
    rw [List.length_map]
    omega
  rw [cell, htable, if_neg (by omega)]
  dsimp only
  rw [Table.cell, if_neg hvalid, if_neg hinside]
  simp only [Table.rowSize, hwidth, hrowSize, hfront, hslice]

/-- Rows that a table does not have. A table without any goes by the name of the first table. -/
theorem cell_of_row (h : referenced.length = 64) (hread : read b start referenced = .ok s) {row : Nat}
    (hrow : row = 0 ∨ declaredRows b k.number < row) (col : Nat) :
    s.cell k row col = .error (.plain (.rowIndexOutOfBounds
      (if declaredRows b k.number = 0 then .moduleDef else k) row)) := by
  obtain ⟨-, htable⟩ := table?_of_read h hread
  rw [cell, htable]
  by_cases hrows : declaredRows b k.number = 0
  · rw [if_pos hrows, if_pos hrows]
  · rw [if_neg hrows, if_neg hrows]
    exact if_pos hrow

/-- Columns that a table does not have. -/
theorem cell_of_column (h : referenced.length = 64) (hread : read b start referenced = .ok s) {row col : Nat}
    (hrow : 1 ≤ row) (hrows : row ≤ declaredRows b k.number) (hcol : col = 0 ∨ k.columns.length < col) :
    s.cell k row col = .error (.plain (.colIndexOutOfBounds k col)) := by
  obtain ⟨-, htable⟩ := table?_of_read h hread
  have hvalid : ¬ (row = 0 ∨ row > declaredRows b k.number) := by omega
  have houtside : col = 0 ∨ col > (k.columns.map (columnWidth b referenced)).length := by
    rw [List.length_map]
    omega
  rw [cell, htable, if_neg (by omega)]
  dsimp only
  rw [Table.cell, if_neg hvalid, if_pos houtside]

/-- **When the rows are missing.** -/
theorem read_eq_insufficient_iff (h : referenced.length = 64) {required available : Nat} :
    read b start referenced = .error (.plain (.insufficientTableData required available)) ↔
      start % 4 = 0 ∧ 24 ≤ b.length ∧ rowsStart b ≤ b.length ∧ AllKnown b ∧
        required = sizeBefore b referenced 64 ∧ available = b.length - rowsStart b ∧ available < required := by
  rw [read_eq_steps]
  by_cases hheader : start % 4 = 0 ∧ 24 ≤ b.length
  · rw [if_pos hheader]
    by_cases hcounts : rowsStart b ≤ b.length
    · rw [if_pos hcounts]
      rcases shapes_declaredRows b referenced with ⟨hknown, hshapes⟩ | ⟨hunknown, n, hshapes⟩
      · rw [hshapes, ok_bind, total_present b h]
        by_cases hlt : b.length - rowsStart b < sizeBefore b referenced 64
        · rw [if_pos hlt, Except.error.injEq, FormatError.plain.injEq, FormatErrorKind.insufficientTableData.injEq]
          constructor
          · rintro ⟨rfl, rfl⟩
            exact ⟨hheader.1, hheader.2, hcounts, hknown, rfl, rfl, hlt⟩
          · rintro ⟨-, -, -, -, hrequired, havailable, -⟩
            exact ⟨hrequired.symm, havailable.symm⟩
        · rw [if_neg hlt]
          constructor
          · intro heq
            cases heq
          · rintro ⟨-, -, -, -, hrequired, havailable, hmissing⟩
            rw [hrequired, havailable] at hmissing
            exact absurd hmissing hlt
      · rw [hshapes]
        constructor
        · intro heq
          cases heq
        · rintro ⟨-, -, -, hknown, -⟩
          exact absurd hknown hunknown
    · rw [if_neg hcounts]
      constructor
      · intro heq
        cases heq
      · rintro ⟨-, -, hle, -⟩
        exact absurd hle hcounts
  · rw [if_neg hheader]
    constructor
    · intro heq
      cases heq
    · rintro ⟨hstart, hle, -⟩
      exact absurd ⟨hstart, hle⟩ hheader

end Cells

/-- **Cells are read from where the format puts them.** In a stream that is read, tables have the rows and widths that it
declares, and a cell of two or four bytes is the number at its address (`cellStart`), which lies in the stream. Rows and
columns that there are not are faults, and with a row that there is the fault is never that of the row, as it would be if
a table lacked some of its bytes. Rows that take more bytes than are left behind the row counts are the fault of the
stream if it is in order up to there. -/
theorem cells_lie_as_declared {referenced : List Nat} (h : referenced.length = 64) (b : Bytes) (start : Nat) :
    (∀ s, read b start referenced = .ok s →
      (∀ (k : TableKind) (t : Table), s.table? k = some t →
        t.rows = declaredRows b k.number ∧ t.widths = k.columns.map (columnWidth b referenced)) ∧
      (∀ (k : TableKind) (row col : Nat) (column : Column), 1 ≤ row → row ≤ declaredRows b k.number → 1 ≤ col →
        k.columns[col - 1]? = some column →
        columnWidth b referenced column = 2 ∨ columnWidth b referenced column = 4 →
        cellStart b referenced k row col + columnWidth b referenced column ≤ b.length ∧ s.cell k row col =
          .ok (Bytes.le ((b.drop (cellStart b referenced k row col)).take (columnWidth b referenced column)))) ∧
      (∀ (k : TableKind) (row col : Nat), row = 0 ∨ declaredRows b k.number < row →
        s.cell k row col = .error (.plain (.rowIndexOutOfBounds
          (if declaredRows b k.number = 0 then .moduleDef else k) row))) ∧
      (∀ (k : TableKind) (row col : Nat), 1 ≤ row → row ≤ declaredRows b k.number →
        col = 0 ∨ k.columns.length < col → s.cell k row col = .error (.plain (.colIndexOutOfBounds k col))) ∧
      ∀ (k k' : TableKind) (row row' col : Nat), 1 ≤ row → row ≤ declaredRows b k.number →
        s.cell k row col ≠ .error (.plain (.rowIndexOutOfBounds k' row'))) ∧
    ∀ required available : Nat,
      read b start referenced = .error (.plain (.insufficientTableData required available)) ↔
        start % 4 = 0 ∧ 24 ≤ b.length ∧ rowsStart b ≤ b.length ∧ AllKnown b ∧
          required = sizeBefore b referenced 64 ∧ available = b.length - rowsStart b ∧ available < required := by
  refine ⟨fun s hread => ⟨?_, ?_, ?_, ?_, ?_⟩, fun required available => read_eq_insufficient_iff h⟩
  · intro k t ht
    rw [(table?_of_read h hread).2 k] at ht
    split at ht <;> cases ht
    exact ⟨rfl, rfl⟩
  · intro k row col column hrow hrows hcol hcolumn hwidth
    obtain ⟨hinside, hcell⟩ := cell_of_read h hread hrow hrows hcol hcolumn
    rw [if_pos (.inr hwidth)] at hcell
    exact ⟨hinside, hcell⟩
  · intro k row col hrow
    exact cell_of_row h hread hrow col
  · intro k row col hrow hrows hcol
    exact cell_of_column h hread hrow hrows hcol
  · intro k k' row row' col hrow hrows heq
    by_cases hcol : col = 0 ∨ k.columns.length < col
    · rw [cell_of_column h hread hrow hrows hcol] at heq
      cases heq
    · have hcolumn := List.getElem?_eq_getElem (show col - 1 < k.columns.length by omega)
      obtain ⟨-, hcell⟩ := cell_of_read h hread hrow hrows (by omega) hcolumn
      rw [hcell] at heq
      split at heq <;> cases heq

/-- A stream with one row in the table of methods: the fifth document, and the offset seven. -/
def oneRow : Bytes :=
  (List.replicate 8 0 : Bytes) ++ Bytes.ofLe 8 (1 <<< 0x31) ++ List.replicate 8 0 ++ Bytes.ofLe 4 1 ++ [5, 0, 7, 0]

/-- The cells of a small stream, and what is wrong with it when its last byte is missing. -/
theorem cells_lie_as_declared_oneRow :
    (∃ s, read oneRow 0 (List.replicate 64 0) = .ok s ∧ s.cell .methodDebugInformation 1 2 = .ok 7 ∧
      s.cell .methodDebugInformation 2 1 = .error (.plain (.rowIndexOutOfBounds .methodDebugInformation 2)) ∧
      s.cell .methodDebugInformation 1 3 = .error (.plain (.colIndexOutOfBounds .methodDebugInformation 3))) ∧
    read (oneRow.take 31) 0 (List.replicate 64 0) = .error (.plain (.insufficientTableData 4 3)) := by
  have hlength : (List.replicate 64 0).length = 64 := rfl
  obtain ⟨s, hs⟩ : ∃ s, read oneRow 0 (List.replicate 64 0) = .ok s := by
    have hok : (read oneRow 0 (List.replicate 64 0)).isOk = true := by decide +kernel
    cases h : read oneRow 0 (List.replicate 64 0) with
    | error e =>
      rw [h] at hok
      cases hok
    | ok s => exact ⟨s, rfl⟩
  obtain ⟨-, hcell, hrow, hcolumn, -⟩ := (cells_lie_as_declared hlength oneRow 0).1 s hs
  have hrows : declaredRows oneRow TableKind.methodDebugInformation.number = 1 := by decide +kernel
  have hshort : ∀ n < 64, 0 < declaredRows (oneRow.take 31) n → n = 0x31 := by decide +kernel
  refine ⟨⟨s, hs, ?_, ?_, ?_⟩, ?_⟩
  · refine (hcell .methodDebugInformation 1 2 .blobHeap (by decide) hrows.ge (by decide) rfl ?_).2.trans ?_
    · exact .inl (by decide +kernel)
    · decide +kernel
  · have hfault := hrow .methodDebugInformation 2 1 (.inr (by omega))
    rwa [if_neg (by omega)] at hfault
  · exact hcolumn .methodDebugInformation 1 3 (by decide) hrows.ge (.inr (by decide))
  · refine ((cells_lie_as_declared hlength (oneRow.take 31) 0).2 4 3).2 ⟨rfl, by decide, by decide +kernel, ?_, ?_⟩
    · exact fun n hn hpos => ⟨.methodDebugInformation, (hshort n hn hpos).symm⟩
    · decide +kernel

end Symbolicate.PortablePdb.TableStream
