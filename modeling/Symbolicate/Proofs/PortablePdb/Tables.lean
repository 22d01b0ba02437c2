import Mathlib.Tactic.Common
import Symbolicate.PortablePdb.TableStream
import Symbolicate.PortablePdb.Writer
import Symbolicate.Proofs.Bytes.Slices
import Symbolicate.Proofs.PortablePdb.SequencePoints

/-!
# The tables read back

The table stream of a draft holds the table of documents and the table of methods, each if it has rows
(`read_tableStream`). A cell of the table of documents is the offset of a name (`cell_document`), and the cells of the
table of methods are the document and the offset of the points (`cell_method_document`, `cell_method_offset`).
-/

namespace Symbolicate.PortablePdb.Draft

/-! ## Row counts -/

theorem rowCounts?_replicate (b : Bytes) (bits : List Bool) (pos : Nat) : ∀ n,
    rowCounts? b (List.replicate n false ++ bits) pos =
      (rowCounts? b bits pos).map fun r => (List.replicate n 0 ++ r.1, r.2)
  | 0 => by simp
  | n + 1 => by
    rw [List.replicate_succ, List.cons_append, rowCounts?, rowCounts?_replicate b bits pos n]
    simp [List.replicate_succ, Function.comp_def]

/-- A row count, which is left out when it is zero. -/
def countBytes (n : Nat) : Bytes := if n = 0 then [] else Bytes.ofLe 4 n

theorem rowCounts?_cons {b pre post : Bytes} {n pos : Nat} (hn : n < 2 ^ 32)
    (h : b = pre ++ (countBytes n ++ post)) (hpos : pre.length = pos) (bits : List Bool) :
    rowCounts? b (decide (n ≠ 0) :: bits) pos =
      (rowCounts? b bits (pos + (countBytes n).length)).map fun r => (n :: r.1, r.2) := by
  by_cases h0 : n = 0
  · subst h0
    simp [rowCounts?, countBytes]
  · simp only [countBytes, if_neg h0, Bytes.length_ofLe] at h ⊢
    rw [show decide (n ≠ 0) = true by simpa using h0, rowCounts?, Bytes.u32?_of_eq h hpos hn]
    cases rowCounts? b bits (pos + 4) <;> rfl

/-! ## The tables of a draft -/

/-- The width of an offset in the heap. -/
def offsetWidth (isWide : Bool) : Nat := if isWide then 4 else 2

/-- The row of a document: its name, and nothing else. -/
def documentRow (isWide : Bool) (name : Nat) : Bytes :=
  Bytes.ofLe (offsetWidth isWide) name ++ Bytes.ofLe 2 0 ++ Bytes.ofLe (offsetWidth isWide) 0 ++ Bytes.ofLe 2 0

/-- The row of a method: its document and its points. -/
def methodRow (isWide : Bool) (row : Nat × Nat) : Bytes :=
  Bytes.ofLe 2 row.1 ++ Bytes.ofLe (offsetWidth isWide) row.2

/-- The table of documents as it is read. -/
def documentTable (isWide : Bool) (names : List Nat) : Table :=
  ⟨.document, names.length, [offsetWidth isWide, 2, offsetWidth isWide, 2], names.flatMap (documentRow isWide)⟩

/-- The table of methods as it is read. -/
def methodTable (isWide : Bool) (rows : List (Nat × Nat)) : Table :=
  ⟨.methodDebugInformation, rows.length, [2, offsetWidth isWide], rows.flatMap (methodRow isWide)⟩

/-- A table that is left out when it has no rows. -/
def ifRows (t : Table) : List Table := if t.rows = 0 then [] else [t]

theorem length_documentRow (isWide : Bool) (names : List Nat) (name : Nat) :
    (documentRow isWide name).length = (documentTable isWide names).rowSize := by
  simp [documentRow, Bytes.length_ofLe, Table.rowSize, documentTable]

theorem length_methodRow (isWide : Bool) (rows : List (Nat × Nat)) (row : Nat × Nat) :
    (methodRow isWide row).length = (methodTable isWide rows).rowSize := by
  simp [methodRow, Bytes.length_ofLe, Table.rowSize, methodTable]

/-! ## Cells -/

/-- **A cell is the number written there**, in a table whose rows are written one after the other. -/
theorem cell_of_rows {α : Type} {t : Table} {f : α → Bytes} {xs : List α} (hc : t.contents = xs.flatMap f)
    (hr : t.rows = xs.length) (hf : ∀ a ∈ xs, (f a).length = t.rowSize) {i : Nat} {a : α} (h : xs[i]? = some a)
    {j width : Nat} (hcol : t.widths[j]? = some width) (hw : width = 2 ∨ width = 4) {pre part post : Bytes}
    (hrow : f a = pre ++ (part ++ post)) (hpre : pre.length = Bytes.total (t.widths.take j)) (hpart : part.length = width) :
    t.cell (i + 1) (j + 1) = .ok (Bytes.le part) := by
  obtain ⟨hi, _⟩ := List.getElem?_eq_some_iff.1 h
  obtain ⟨hj, _⟩ := List.getElem?_eq_some_iff.1 hcol
  have hslice := Bytes.slice?_flatMap hf h hrow hpre hpart
  rw [Table.cell, if_neg (by omega), if_neg (by omega)]
  simp only [Nat.add_sub_cancel, List.getD_eq_getElem?_getD, hcol, Option.getD_some, hc, hslice]
  rw [if_pos (.inr hw)]

theorem offsetWidth_eq (isWide : Bool) : offsetWidth isWide = 2 ∨ offsetWidth isWide = 4 := by
  cases isWide <;> simp [offsetWidth]

theorem cell_document {isWide : Bool} {names : List Nat} {i name : Nat} (h : names[i]? = some name)
    (hname : name < 256 ^ offsetWidth isWide) : (documentTable isWide names).cell (i + 1) 1 = .ok name := by
  have hrow : documentRow isWide name = [] ++ (Bytes.ofLe (offsetWidth isWide) name ++
      (Bytes.ofLe 2 0 ++ (Bytes.ofLe (offsetWidth isWide) 0 ++ Bytes.ofLe 2 0))) := by
    simp only [documentRow, List.append_assoc, List.nil_append]
  have hcell := cell_of_rows (t := documentTable isWide names) rfl rfl (fun a _ => length_documentRow isWide names a)
    h (j := 0) rfl (offsetWidth_eq isWide) hrow rfl (Bytes.length_ofLe _ _)
  rw [hcell, Bytes.le_ofLe hname]

/-- The first cell of a method is its document, cut to two bytes. -/
theorem cell_method_document {isWide : Bool} {rows : List (Nat × Nat)} {i : Nat} {row : Nat × Nat}
    (h : rows[i]? = some row) :
    (methodTable isWide rows).cell (i + 1) 1 = .ok (Bytes.le (Bytes.ofLe 2 row.1)) := by
  have hrow : methodRow isWide row = [] ++ (Bytes.ofLe 2 row.1 ++ Bytes.ofLe (offsetWidth isWide) row.2) := rfl
  exact cell_of_rows (t := methodTable isWide rows) rfl rfl (fun a _ => length_methodRow isWide rows a) h (j := 0) rfl
    (.inl rfl) hrow rfl (Bytes.length_ofLe _ _)

theorem cell_method_offset {isWide : Bool} {rows : List (Nat × Nat)} {i : Nat} {row : Nat × Nat}
    (h : rows[i]? = some row) (hoffset : row.2 < 256 ^ offsetWidth isWide) :
    (methodTable isWide rows).cell (i + 1) 2 = .ok row.2 := by
  have hrow : methodRow isWide row = Bytes.ofLe 2 row.1 ++ (Bytes.ofLe (offsetWidth isWide) row.2 ++ []) := by
    rw [List.append_nil, methodRow]
  have hcell := cell_of_rows (t := methodTable isWide rows) rfl rfl (fun a _ => length_methodRow isWide rows a)
    h (j := 1) rfl (offsetWidth_eq isWide) hrow (Bytes.length_ofLe _ _) (Bytes.length_ofLe _ _)
  rw [hcell, Bytes.le_ofLe hoffset]

/-! ## Reading the tables -/

theorem shapes_replicate (sizes : IndexSizes) (counts : List Nat) : ∀ (n number : Nat),
    TableStream.shapes sizes number (List.replicate n 0 ++ counts) = TableStream.shapes sizes (number + n) counts
  | 0, number => by simp
  | n + 1, number => by
    rw [List.replicate_succ, List.cons_append, TableStream.shapes, shapes_replicate sizes counts n]
    congr 1
    omega

/-- A table of the schema is read with the widths of its columns. -/
theorem shapes_cons (sizes : IndexSizes) (k : TableKind) (rows : Nat) (counts : List Nat) :
    TableStream.shapes sizes k.number (rows :: counts) =
      (TableStream.shapes sizes (k.number + 1) counts >>= fun rest =>
        .ok (ifRows ⟨k, rows, k.columns.map sizes.width, []⟩ ++ rest)) := by
  cases rows with
  | zero =>
    rw [TableStream.shapes]
    cases TableStream.shapes sizes (k.number + 1) counts <;> rfl
  | succ n =>
    rw [TableStream.shapes, TableKind.ofNumber?_number, require_some, ok_bind]
    · rfl
    · simp

theorem fill_ifRows {t : Table} (h : t.contents.length = t.size) (rest : List Table) (more : Bytes) :
    TableStream.fill (ifRows { t with contents := [] } ++ rest) (t.contents ++ more) =
      ifRows t ++ TableStream.fill rest more := by
  by_cases h0 : t.rows = 0
  · have hnil : t.contents = [] := by
      rw [← List.length_eq_zero_iff, h, Table.size, h0, Nat.zero_mul]
    simp [ifRows, h0, hnil]
  · simp only [ifRows, if_neg h0, List.singleton_append, TableStream.fill]
    have hsize : Table.size { t with contents := [] } = t.contents.length := h.symm
    rw [hsize, List.take_left, List.drop_left]

theorem sum_size_ifRows (t : Table) (rest : List Table) :
    Bytes.total ((ifRows t ++ rest).map Table.size) = t.size + Bytes.total (rest.map Table.size) := by
  by_cases h0 : t.rows = 0 <;> simp [ifRows, Table.size, h0]

theorem length_documentTable (isWide : Bool) (names : List Nat) :
    (documentTable isWide names).contents.length = (documentTable isWide names).size :=
  Bytes.length_flatMap_rows fun name _ => length_documentRow isWide names name

theorem length_methodTable (isWide : Bool) (rows : List (Nat × Nat)) :
    (methodTable isWide rows).contents.length = (methodTable isWide rows).size :=
  Bytes.length_flatMap_rows fun row _ => length_methodRow isWide rows row

/-- The row counts that the identity stream gives for the tables of the assembly. -/
def referenced (methods : Nat) : List Nat := List.replicate 6 0 ++ methods :: List.replicate 57 0

/-- The bits that say which of the tables of a file with `n` documents and `m` methods have rows. -/
def tableBits (n m : Nat) : Nat := (if n = 0 then 0 else 1 <<< 48) + if m = 0 then 0 else 1 <<< 49

theorem tableBits_lt (n m : Nat) : tableBits n m < 256 ^ 8 := by
  unfold tableBits
  split <;> split <;> omega

/-- The fixed header of the table stream of a file with `n` documents and `m` methods. -/
def tableHeader (isWide : Bool) (n m : Nat) : Bytes :=
  Bytes.ofLe 4 0 ++ [2, 0, if isWide then 4 else 0, 1] ++
    Bytes.ofLe 8 (tableBits n m) ++ Bytes.ofLe 8 0

/-- The table stream is its header, the row counts, and the rows of the two tables. -/
theorem tableStream_eq (d : Draft) (isWide : Bool) (names : List Nat) (rows : List (Nat × Nat)) :
    d.tableStream isWide names rows = tableHeader isWide d.documents.length d.methods.length ++
      (countBytes d.documents.length ++ (countBytes d.methods.length ++
        ((documentTable isWide names).contents ++ (methodTable isWide rows).contents))) := by
  have hbit : ∀ {α : Type} (xs : List α) (k : Nat),
      (if decide (xs ≠ []) then 1 <<< k else 0) = if xs.length = 0 then 0 else 1 <<< k := by
    intro α xs k
    cases xs <;> simp
  have hrow : documentRow isWide = fun name => Bytes.ofLe (offsetWidth isWide) name ++
      (Bytes.ofLe 2 0 ++ (Bytes.ofLe (offsetWidth isWide) 0 ++ Bytes.ofLe 2 0)) := by
    funext name
    simp only [documentRow, List.append_assoc]
  simp only [tableStream, tableHeader, tableBits, countBytes, documentTable, methodTable, List.append_assoc, hbit, hrow]
  rfl

/-- The bits of the header say which of the two tables have rows. -/
theorem bits64_tableHeader (n m : Nat) :
    bits64 (tableBits n m) = List.replicate 48 false ++ decide (n ≠ 0) :: decide (m ≠ 0) :: List.replicate 14 false := by
  by_cases hn : n = 0 <;> by_cases hm : m = 0 <;> simp only [tableBits, hn, hm, if_true, if_false, ne_eq, not_true_eq_false,
    not_false_eq_true, decide_true, decide_false] <;> decide +kernel

/-- The row counts of the two tables by number. -/
def counts (n m : Nat) : List Nat := List.replicate 48 0 ++ n :: m :: List.replicate 14 0

theorem length_tableHeader (isWide : Bool) (n m : Nat) : (tableHeader isWide n m).length = 24 := by
  simp [tableHeader, Bytes.length_ofLe]

theorem rowCounts?_tableHeader {isWide : Bool} {n m : Nat} (hn : n < 2 ^ 32) (hm : m < 2 ^ 32) {b : Bytes} (rest : Bytes)
    (hb : b = tableHeader isWide n m ++ (countBytes n ++ (countBytes m ++ rest))) :
    rowCounts? b (bits64 (tableBits n m)) 24 =
      some (counts n m, 24 + (countBytes n).length + (countBytes m).length) := by
  have hb' : b = (tableHeader isWide n m ++ countBytes n) ++ (countBytes m ++ rest) := by
    rw [hb, List.append_assoc]
  have hlen : (tableHeader isWide n m ++ countBytes n).length = 24 + (countBytes n).length := by
    rw [List.length_append, length_tableHeader]
  have hzero := rowCounts?_replicate b [] (24 + (countBytes n).length + (countBytes m).length) 14
  rw [List.append_nil] at hzero
  rw [bits64_tableHeader, rowCounts?_replicate, rowCounts?_cons hn hb (length_tableHeader isWide n m),
    rowCounts?_cons hm hb' hlen, hzero]
  rfl

/-- The two tables are the ones with rows, and their columns are two bytes wide but for offsets in a wide heap. -/
theorem shapes_counts {isWide : Bool} {n m : Nat} (hn : n < 2 ^ 16) (names : List Nat) (rows : List (Nat × Nat))
    (hnames : names.length = n) (hrows : rows.length = m) :
    TableStream.shapes ⟨if isWide then 4 else 0, List.zipWith max (counts n m) (referenced m)⟩ 0 (counts n m) =
      .ok (ifRows { documentTable isWide names with contents := [] } ++
        (ifRows { methodTable isWide rows with contents := [] } ++ [])) := by
  set sizes : IndexSizes := ⟨if isWide then 4 else 0, List.zipWith max (counts n m) (referenced m)⟩ with hsizes
  have hblob : sizes.width .blobHeap = offsetWidth isWide := by
    have hbit : (if isWide then 4 else 0).testBit 2 = isWide := by cases isWide <;> decide
    simp only [IndexSizes.width, hsizes, hbit, IndexSizes.narrowUnless, offsetWidth]
  have hguid : sizes.width .guidHeap = 2 := by
    have hbit : (if isWide then 4 else 0).testBit 1 = false := by cases isWide <;> decide
    simp [IndexSizes.width, hsizes, hbit, IndexSizes.narrowUnless]
  have hrow : sizes.width (.row .document) = 2 := by
    have hdocuments : sizes.rowsOf .document = n := by
      simp [IndexSizes.rowsOf, hsizes, TableKind.number, counts, referenced]
    have hsmall : n < 0x10000 := by omega
    simp only [IndexSizes.width, IndexSizes.narrowUnless, hdocuments, hsmall, decide_true]
    rfl
  have hdocument : (TableKind.document.columns).map sizes.width = [offsetWidth isWide, 2, offsetWidth isWide, 2] := by
    simp only [TableKind.columns, List.map_cons, List.map_nil, hblob, hguid]
  have hmethod : (TableKind.methodDebugInformation.columns).map sizes.width = [2, offsetWidth isWide] := by
    simp only [TableKind.columns, List.map_cons, List.map_nil, hblob, hrow]
  have hzero := shapes_replicate sizes [] 14 50
  rw [List.append_nil] at hzero
  rw [counts, shapes_replicate, show 0 + 48 = TableKind.document.number from rfl, shapes_cons,
    show TableKind.document.number + 1 = TableKind.methodDebugInformation.number from rfl, shapes_cons,
    show TableKind.methodDebugInformation.number + 1 = 50 from rfl, hzero, hdocument, hmethod, ← hnames, ← hrows]
  rfl

/-- **The table stream reads as the two tables**, whatever padding follows. -/
theorem read_tableStream {d : Draft} {names : List Nat} {rows : List (Nat × Nat)}
    (hnames : names.length = d.documents.length) (hrows : rows.length = d.methods.length)
    (hn : d.documents.length < 2 ^ 16) (hm : d.methods.length < 2 ^ 32) {start : Nat} (hs : start % 4 = 0)
    (isWide : Bool) (pad : Bytes) :
    TableStream.read (d.tableStream isWide names rows ++ pad) start (referenced d.methods.length) =
      .ok ⟨ifRows (documentTable isWide names) ++ ifRows (methodTable isWide rows)⟩ := by
  have hb : d.tableStream isWide names rows ++ pad = tableHeader isWide d.documents.length d.methods.length ++
      (countBytes d.documents.length ++ (countBytes d.methods.length ++
        ((documentTable isWide names).contents ++ ((methodTable isWide rows).contents ++ pad)))) := by
    simp only [tableStream_eq, List.append_assoc]
  generalize d.documents.length = n at *
  generalize d.methods.length = m at *
  generalize d.tableStream isWide names rows ++ pad = b at *
  have hheader : Bytes.slice? b 0 24 = some (tableHeader isWide n m) := by
    have hb' : b = [] ++ (tableHeader isWide n m ++ _) := hb
    exact Bytes.slice?_of_eq hb' rfl (length_tableHeader isWide n m)
  have hvalid : Bytes.le (((tableHeader isWide n m).drop 8).take 8) = tableBits n m := by
    have hsplit : tableHeader isWide n m = (Bytes.ofLe 4 0 ++ [2, 0, if isWide then 4 else 0, 1]) ++
        (Bytes.ofLe 8 (tableBits n m) ++ Bytes.ofLe 8 0) := by
      simp only [tableHeader, List.append_assoc]
    exact Bytes.le_take_drop hsplit (by simp [Bytes.length_ofLe]) (tableBits_lt n m)
  have hflag : Bytes.le (((tableHeader isWide n m).drop 6).take 1) = if isWide then 4 else 0 := by
    cases isWide <;> rfl
  have hstop : b.drop (24 + (countBytes n).length + (countBytes m).length) =
      (documentTable isWide names).contents ++ ((methodTable isWide rows).contents ++ pad) := by
    have hb' : b = (tableHeader isWide n m ++ (countBytes n ++ countBytes m)) ++
        ((documentTable isWide names).contents ++ ((methodTable isWide rows).contents ++ pad)) := by
      simp only [hb, List.append_assoc]
    rw [hb', List.drop_left' (by simp only [List.length_append, length_tableHeader]; omega)]
  have hfill : TableStream.fill (ifRows { documentTable isWide names with contents := [] } ++
      (ifRows { methodTable isWide rows with contents := [] } ++ []))
      ((documentTable isWide names).contents ++ ((methodTable isWide rows).contents ++ pad)) =
      ifRows (documentTable isWide names) ++ ifRows (methodTable isWide rows) := by
    rw [fill_ifRows (length_documentTable isWide names), fill_ifRows (length_methodTable isWide rows),
      TableStream.fill, List.append_nil]
  have hsum : ¬ ((documentTable isWide names).contents ++ ((methodTable isWide rows).contents ++ pad)).length <
      Bytes.total ((ifRows { documentTable isWide names with contents := [] } ++
        (ifRows { methodTable isWide rows with contents := [] } ++ [])).map Table.size) := by
    have hd := length_documentTable isWide names
    have hm := length_methodTable isWide rows
    simp only [sum_size_ifRows, List.map_nil, Bytes.total_nil, List.length_append]
    simp only [Table.size, Table.rowSize] at hd hm ⊢
    omega
  simp only [TableStream.read, if_pos hs, hheader, require_some, ok_bind, hvalid, hflag,
    rowCounts?_tableHeader (by omega : n < 2 ^ 32) hm _ hb, shapes_counts hn names rows hnames hrows, hstop, if_neg hsum,
    hfill]
  rfl

/-! ## Finding a table -/

theorem table?_methods {isWide : Bool} {names : List Nat} {rows : List (Nat × Nat)} (h : rows ≠ []) :
    TableStream.table? ⟨ifRows (documentTable isWide names) ++ ifRows (methodTable isWide rows)⟩
      .methodDebugInformation = some (methodTable isWide rows) := by
  cases names <;> cases rows <;> simp_all [TableStream.table?, ifRows, documentTable, methodTable]

theorem table?_documents {isWide : Bool} {names : List Nat} {rows : List (Nat × Nat)} (h : names ≠ []) :
    TableStream.table? ⟨ifRows (documentTable isWide names) ++ ifRows (methodTable isWide rows)⟩ .document =
      some (documentTable isWide names) := by
  cases names <;> simp_all [TableStream.table?, ifRows, documentTable]

theorem rowsOf_methods (isWide : Bool) (names : List Nat) (rows : List (Nat × Nat)) :
    TableStream.rowsOf ⟨ifRows (documentTable isWide names) ++ ifRows (methodTable isWide rows)⟩
      .methodDebugInformation = rows.length := by
  cases rows with
  | nil => cases names <;> simp [TableStream.rowsOf, TableStream.table?, ifRows, documentTable, methodTable]
  | cons row rows =>
    rw [TableStream.rowsOf, table?_methods (by simp)]
    rfl

end Symbolicate.PortablePdb.Draft
