import Mathlib.Data.List.Forall2
import Mathlib.Tactic.Common
import Symbolicate.PortablePdb.Lookup
import Symbolicate.Proofs.Bytes.Slices
import Symbolicate.Proofs.PortablePdb.Machine.Points
import Symbolicate.Proofs.PortablePdb.SequencePoints

/-!
# Records of a blob, and look-ups in their points

A blob holds records (`Stores`): some switch to another document, and each of the others stands for a point. `Describes`
says what a point has from its record and the records in front. Reading goes record by record (`Decodes`), and one
induction each shows that offsets do not decrease (`Decodes.ordered`), that visible points are valid (`Decodes.valid`)
and that every point is described by its record (`Decodes.described`). So a look-up gives the last visible point at or
before the offset (`lookup_of_sequencePoints`).
-/

namespace Symbolicate.PortablePdb

open SequencePoint (unsigned signed)

/-! ## Records as they are stored -/

/-- What a record stores of a point: how far its offset is behind that of the record before, how many lines and columns
its range spans, and where that starts. A range starts at a line and a column if it is the first in its blob, else at
these distances from the one before. A hidden record stores no start, and has zeros for it here. -/
structure PointRecord where
  delta : Nat
  lines : Nat
  columns : Int
  line : Int
  column : Int

/-- A record: a switch to the document in a row, or a point. -/
inductive BlobRecord where
  | document (row : Nat)
  | point (record : PointRecord)

namespace BlobRecord

def document? : BlobRecord → Option Nat
  | document row => some row
  | point _ => none

def point? : BlobRecord → Option PointRecord
  | document _ => none
  | point record => some record

end BlobRecord

/-- The two numbers for the start of a range. They are signed when they are distances. -/
def readStart (isDistance : Bool) (data : Bytes) : Except FormatError (Int × Int × Bytes) :=
  if isDistance then do
    let (line, data) ← signed data
    let (column, data) ← signed data
    return (line, column, data)
  else do
    let (line, data) ← unsigned data
    let (column, data) ← unsigned data
    return (line, column, data)

/-- The record of a point. -/
def PointRecord.read (isDistance : Bool) (data : Bytes) : Except FormatError (PointRecord × Bytes) := do
  let (delta, data) ← unsigned data
  let (lines, data) ← unsigned data
  let (columns, data) ← Machine.columnsOf lines data
  if lines = 0 ∧ columns = 0 then return (⟨delta, lines, columns, 0, 0⟩, data)
  else do
    let (line, column, data) ← readStart isDistance data
    return (⟨delta, lines, columns, line, column⟩, data)

/-- The records that bytes hold. The first flag tells whether the record of a point stands in front of them, the second
whether a visible one does. Behind the first point, a zero byte starts a switch. -/
inductive Stores : Bool → Bool → Bytes → List BlobRecord → Prop
  | done (hasPoint hasRange : Bool) : Stores hasPoint hasRange [] []
  | document {hasRange : Bool} {row : Nat} {rest data : Bytes} {records : List BlobRecord}
      (hrow : unsigned rest = .ok (row, data)) (h : Stores true hasRange data records) :
      Stores true hasRange (0 :: rest) (.document row :: records)
  | point {hasPoint hasRange : Bool} {b : UInt8} {rest data : Bytes} {r : PointRecord} {records : List BlobRecord}
      (hb : ¬ (hasPoint = true ∧ b = 0)) (hr : PointRecord.read hasRange (b :: rest) = .ok (r, data))
      (h : Stores true (hasRange || decide (¬ (r.lines = 0 ∧ r.columns = 0))) data records) :
      Stores hasPoint hasRange (b :: rest) (.point r :: records)

/-- A blob whose row names `document` holds records, the first of them in the document `initial`. -/
def BlobStores (document : Nat) (blob : Bytes) (initial : Nat) (records : List BlobRecord) : Prop :=
  ∃ signature data, unsigned blob = .ok (signature, data) ∧
    if document = 0 then ∃ rest, unsigned data = .ok (initial, rest) ∧ Stores false false rest records
    else initial = document ∧ Stores false false data records

/-- The records of the method in a row of the `MethodDebugInformation` table. A method without a blob has none. -/
def RowStores (p : PortablePdb) (row initial : Nat) (records : List BlobRecord) : Prop :=
  ∃ document offset, p.cell .methodDebugInformation row 1 = .ok document ∧
    p.cell .methodDebugInformation row 2 = .ok offset ∧
    if offset = 0 then initial = document ∧ records = []
    else ∃ blob, p.blob offset = .ok blob ∧ BlobStores document blob initial records

/-! ## Points and their records -/

/-- The document in force behind records: that of the latest switch, or else the initial one. -/
def documentBehind (initial : Nat) (front : List BlobRecord) : Nat :=
  (front.filterMap BlobRecord.document?).getLast?.getD initial

/-- The offset that is reached behind records. -/
def offsetBehind (front : List BlobRecord) : Nat := Bytes.total ((front.filterMap BlobRecord.point?).map (·.delta))

/-- The line and column where the last range in front starts. Hidden records have zeros, and so change nothing. -/
def startBehind (front : List BlobRecord) : Int × Int :=
  (front.filterMap BlobRecord.point?).foldl (fun s r => (s.1 + r.line, s.2 + r.column)) (0, 0)

/-- The records of points, each with all records in front of it. -/
def pointRecords : List BlobRecord → List BlobRecord → List (List BlobRecord × PointRecord)
  | _, [] => []
  | front, .document row :: rest => pointRecords (front ++ [.document row]) rest
  | front, .point r :: rest => (front, r) :: pointRecords (front ++ [.point r]) rest

/-- What a point has from its record and the records in front. It is hidden, by its missing range as well as by the
line number that it is kept with, exactly if the record spans no line and no column. -/
structure Describes (initial : Nat) (front : List BlobRecord) (r : PointRecord) (p : SequencePoint) : Prop where
  offset : p.offset = offsetBehind front + r.delta
  document : p.document = documentBehind initial front
  hidden : p.isHidden = true ↔ r.lines = 0 ∧ r.columns = 0
  kept : (Machine.Point.of p).isHidden = true ↔ r.lines = 0 ∧ r.columns = 0
  range : ∀ span, p.span = some span →
    span.startLine = (startBehind front).1 + r.line ∧ span.startColumn = (startBehind front).2 + r.column ∧
      (span.endLine : Int) = span.startLine + r.lines ∧ (span.endColumn : Int) = span.startColumn + r.columns

/-- The limits of the format for a visible point, and a range that is not empty. -/
structure Valid (p : SequencePoint) (span : Span) : Prop where
  offset : p.offset < 0x20000000
  startLine : span.startLine < 0x20000000 ∧ span.startLine ≠ hiddenLine
  endLine : span.endLine < 0x20000000 ∧ span.endLine ≠ hiddenLine
  startColumn : span.startColumn < 0x10000
  endColumn : span.endColumn < 0x10000
  notEmpty : span.startLine < span.endLine ∨ span.startLine = span.endLine ∧ span.startColumn < span.endColumn

/-! ## One record -/

/-- The numbers of `Span.of?` are those of the range. -/
theorem eq_of_span_of? {startLine startColumn endLine endColumn : Int} {span : Span}
    (h : Span.of? startLine startColumn endLine endColumn = some span) :
    span.startLine = startLine ∧ span.startColumn = startColumn ∧ span.endLine = endLine ∧
      span.endColumn = endColumn := by
  unfold Span.of? at h
  split at h
  · cases h
    dsimp only
    omega
  · cases h

theorem valid_of_span_of? {startLine startColumn endLine endColumn : Int} {span : Span} {p : SequencePoint}
    (h : Span.of? startLine startColumn endLine endColumn = some span) (hoffset : p.offset < 0x20000000) :
    Valid p span := by
  unfold Span.of? at h
  split at h
  · cases h
    refine ⟨hoffset, ⟨?_, ?_⟩, ⟨?_, ?_⟩, ?_, ?_, ?_⟩
    all_goals
      dsimp only
      omega
  · cases h

/-- The start of a range, from the two numbers stored for it. -/
theorem start_eq (before : Option Span) (data : Bytes) :
    SequencePoint.start before data = (readStart before.isSome data).map fun (line, column, rest) =>
      (before.elim 0 (fun s => (s.startLine : Int)) + line, before.elim 0 (fun s => (s.startColumn : Int)) + column,
        rest) := by
  cases before with
  | none =>
    simp only [SequencePoint.start, readStart, Option.isSome_none, Bool.false_eq_true, if_false, Option.elim_none,
      Int.zero_add]
    cases unsigned data with
    | error e => rfl
    | ok r =>
      simp only [ok_bind]
      cases unsigned r.2 <;> rfl
  | some span =>
    simp only [SequencePoint.start, readStart, Option.isSome_some, if_true, Option.elim_some]
    cases signed data with
    | error e => rfl
    | ok r =>
      simp only [ok_bind]
      cases signed r.2 <;> rfl

/-- What reading a record says of its point: behind a range that starts at `before`, if there is one. -/
structure ReadsAs (offset : Option Nat) (before : Option Span) (document : Nat) (r : PointRecord) (p : SequencePoint) :
    Prop where
  offset : p.offset = offset.getD 0 + r.delta
  document : p.document = document
  hidden : p.span = none ↔ r.lines = 0 ∧ r.columns = 0
  noStart : p.span = none → r.line = 0 ∧ r.column = 0
  range : ∀ span, p.span = some span → Valid p span ∧
    span.startLine = before.elim 0 (fun s => (s.startLine : Int)) + r.line ∧
    span.startColumn = before.elim 0 (fun s => (s.startColumn : Int)) + r.column ∧
    (span.endLine : Int) = span.startLine + r.lines ∧ (span.endColumn : Int) = span.startColumn + r.columns

theorem exists_of_record {offset : Option Nat} {before : Option Span} {document : Nat} {data rest : Bytes}
    {p : SequencePoint} (h : SequencePoint.record offset before document data = .ok (p, rest)) :
    ∃ r, PointRecord.read before.isSome data = .ok (r, rest) ∧ ReadsAs offset before document r p := by
  rw [Machine.record_eq_steps] at h
  obtain ⟨⟨delta, data₁⟩, hdelta, h⟩ := exists_of_bind h
  dsimp only at h
  split at h
  · cases h
  · obtain ⟨⟨lines, data₂⟩, hlines, h⟩ := exists_of_bind h
    obtain ⟨⟨columns, data₃⟩, hcolumns, h⟩ := exists_of_bind h
    dsimp only at h
    by_cases hzero : lines = 0 ∧ columns = 0
    · rw [if_pos hzero] at h
      cases h
      refine ⟨⟨delta, lines, columns, 0, 0⟩, ?_, rfl, rfl, ?_, ?_, ?_⟩
      · simp only [PointRecord.read, hdelta, ok_bind, hlines, hcolumns, if_pos hzero]
        rfl
      · simp [hzero]
      · simp
      · simp
    · rw [if_neg hzero, start_eq] at h
      cases hstart : readStart before.isSome data₃ with
      | error e =>
        rw [hstart] at h
        cases h
      | ok s =>
        obtain ⟨line, column, data₄⟩ := s
        rw [hstart] at h
        simp only [Except.map, ok_bind] at h
        obtain ⟨span, hspan, h⟩ := exists_of_bind h
        have hspan := eq_some_of_require hspan
        split at h
        · cases h
        · next hoffset =>
          cases h
          refine ⟨⟨delta, lines, columns, line, column⟩, ?_, rfl, rfl, ?_, ?_, ?_⟩
          · simp only [PointRecord.read, hdelta, ok_bind, hlines, hcolumns, if_neg hzero, hstart]
            rfl
          · simp [hzero]
          · simp
          · intro s hs
            cases hs
            obtain ⟨hline, hcolumn, hendLine, hendColumn⟩ := eq_of_span_of? hspan
            refine ⟨valid_of_span_of? hspan (Nat.lt_of_not_le hoffset), hline, hcolumn, ?_, ?_⟩
            · rw [hendLine, hline]
            · rw [hendColumn, hcolumn]

/-! ## All records -/

/-- The points that records are read as: `offset` is that of the point before, `before` the last range, `document` the
one in force. -/
inductive Decodes : Option Nat → Option Span → Nat → Bytes → List SequencePoint → Prop
  | done (offset : Option Nat) (before : Option Span) (document : Nat) : Decodes offset before document [] []
  | switch {offset : Nat} {before : Option Span} {document row : Nat} {rest data : Bytes} {points : List SequencePoint}
      (hrow : unsigned rest = .ok (row, data)) (h : Decodes (some offset) before row data points) :
      Decodes (some offset) before document (0 :: rest) points
  | point {offset : Option Nat} {before : Option Span} {document : Nat} {b : UInt8} {rest data : Bytes}
      {p : SequencePoint} {points : List SequencePoint} (hb : ¬ (offset.isSome = true ∧ b = 0))
      (hp : SequencePoint.record offset before document (b :: rest) = .ok (p, data))
      (h : Decodes (some p.offset) (p.span <|> before) document data points) :
      Decodes offset before document (b :: rest) (p :: points)

/-- Each record takes at least one byte, so as many steps as there are bytes are enough to read them all. -/
theorem decodes_of_records {fuel : Nat} {offset : Option Nat} {before : Option Span} {document : Nat} {data : Bytes}
    {points : List SequencePoint} (hfuel : data.length ≤ fuel) (hbefore : Machine.InLimits before)
    (h : SequencePoint.records fuel offset before document data = .ok points) :
    Decodes offset before document data points := by
  induction fuel generalizing offset before document data points with
  | zero =>
    cases List.length_eq_zero_iff.1 (Nat.le_zero.1 hfuel)
    cases h
    exact .done _ _ _
  | succ fuel ih =>
    cases data with
    | nil =>
      cases h
      exact .done _ _ _
    | cons b rest =>
      rw [List.length_cons, Nat.succ_le_succ_iff] at hfuel
      rw [SequencePoint.records] at h
      split at h
      · next hswitch =>
        obtain ⟨hsome, rfl⟩ := hswitch
        obtain ⟨o, rfl⟩ := Option.isSome_iff_exists.1 hsome
        obtain ⟨⟨row, data⟩, hrow, h⟩ := exists_of_bind h
        have hlength := (Machine.bounds_of_unsigned hrow).2
        exact .switch hrow (ih (by omega) hbefore h)
      · next hpoint =>
        obtain ⟨⟨p, data⟩, hp, h⟩ := exists_of_bind h
        obtain ⟨others, hothers, h⟩ := exists_of_bind h
        obtain ⟨hlimits, hlength⟩ := Machine.bounds_of_record hbefore hp
        rw [List.length_cons] at hlength
        cases h
        exact .point hpoint hp (ih (by omega) (hlimits.orElse hbefore) hothers)

namespace Decodes

variable {offset : Option Nat} {before : Option Span} {document : Nat} {data : Bytes} {points : List SequencePoint}

/-- **Offsets never decrease**, neither among the points nor from what stands in front of them. -/
theorem ordered (h : Decodes offset before document data points) :
    (∀ p ∈ points, offset.getD 0 ≤ p.offset) ∧ points.Pairwise (·.offset ≤ ·.offset) := by
  induction h with
  | done => exact ⟨List.forall_mem_nil _, .nil⟩
  | switch _ _ ih => exact ih
  | point _ hp _ ih =>
    obtain ⟨r, _, hreads⟩ := exists_of_record hp
    have hstart := hreads.offset
    simp only [Option.getD_some] at ih
    refine ⟨List.forall_mem_cons.2 ⟨by omega, fun q hq => ?_⟩, List.pairwise_cons.2 ih⟩
    have hnext := ih.1 q hq
    omega

/-- **Visible points are valid.** -/
theorem valid (h : Decodes offset before document data points) :
    ∀ p ∈ points, ∀ span, p.span = some span → Valid p span := by
  induction h with
  | done => exact List.forall_mem_nil _
  | switch _ _ ih => exact ih
  | point _ hp _ ih =>
    obtain ⟨r, _, hreads⟩ := exists_of_record hp
    exact List.forall_mem_cons.2 ⟨fun span hspan => (hreads.range span hspan).1, ih⟩

end Decodes

/-! ## What stands behind one more record -/

section Behind

variable (initial : Nat) (front : List BlobRecord)

theorem documentBehind_document (row : Nat) : documentBehind initial (front ++ [.document row]) = row := by
  simp [documentBehind, BlobRecord.document?]

theorem documentBehind_point (r : PointRecord) :
    documentBehind initial (front ++ [.point r]) = documentBehind initial front := by
  simp [documentBehind, BlobRecord.document?]

theorem offsetBehind_document (row : Nat) : offsetBehind (front ++ [.document row]) = offsetBehind front := by
  simp [offsetBehind, List.filterMap_cons, BlobRecord.point?]

theorem offsetBehind_point (r : PointRecord) :
    offsetBehind (front ++ [.point r]) = offsetBehind front + r.delta := by
  simp [offsetBehind, BlobRecord.point?, Bytes.total_append]

theorem startBehind_document (row : Nat) : startBehind (front ++ [.document row]) = startBehind front := by
  simp [startBehind, List.filterMap_cons, BlobRecord.point?]

theorem startBehind_point (r : PointRecord) : startBehind (front ++ [.point r]) =
    ((startBehind front).1 + r.line, (startBehind front).2 + r.column) := by
  simp [startBehind, BlobRecord.point?]

end Behind

/-- What is kept of the records in front when the next one is read. -/
structure Stands (initial : Nat) (front : List BlobRecord) (offset : Option Nat) (before : Option Span)
    (document : Nat) : Prop where
  offset : offset.getD 0 = offsetBehind front
  document : document = documentBehind initial front
  line : before.elim 0 (fun s => (s.startLine : Int)) = (startBehind front).1
  column : before.elim 0 (fun s => (s.startColumn : Int)) = (startBehind front).2

theorem stands_start (initial : Nat) : Stands initial [] none none initial := ⟨rfl, rfl, rfl, rfl⟩

theorem Stands.switch {initial row : Nat} {front : List BlobRecord} {offset : Option Nat} {before : Option Span}
    {document : Nat} (h : Stands initial front offset before document) :
    Stands initial (front ++ [.document row]) offset before row where
  offset := by rw [offsetBehind_document, h.offset]
  document := (documentBehind_document initial front row).symm
  line := by rw [startBehind_document, h.line]
  column := by rw [startBehind_document, h.column]

section Point

variable {initial : Nat} {front : List BlobRecord} {offset : Option Nat} {before : Option Span} {document : Nat}
  {r : PointRecord} {p : SequencePoint}

theorem Stands.point (h : Stands initial front offset before document) (hreads : ReadsAs offset before document r p) :
    Stands initial (front ++ [.point r]) (some p.offset) (p.span <|> before) document where
  offset := by rw [offsetBehind_point, ← h.offset, ← hreads.offset, Option.getD_some]
  document := by rw [documentBehind_point, h.document]
  line := by
    rw [startBehind_point, ← h.line]
    cases hspan : p.span with
    | none => simp [(hreads.noStart hspan).1]
    | some span => simp [(hreads.range span hspan).2.1]
  column := by
    rw [startBehind_point, ← h.column]
    cases hspan : p.span with
    | none => simp [(hreads.noStart hspan).2]
    | some span => simp [(hreads.range span hspan).2.2.1]

theorem Stands.describes (h : Stands initial front offset before document)
    (hreads : ReadsAs offset before document r p) : Describes initial front r p where
  offset := by rw [hreads.offset, h.offset]
  document := by rw [hreads.document, h.document]
  hidden := by rw [SequencePoint.isHidden, Option.isNone_iff_eq_none, hreads.hidden]
  kept := by
    have hlimits : Machine.InLimits p.span := by
      intro span hspan
      obtain ⟨hvalid, _⟩ := hreads.range span hspan
      exact ⟨hvalid.startLine.1, hvalid.startColumn, hvalid.startLine.2⟩
    rw [Machine.isHidden_of hlimits, SequencePoint.isHidden, Option.isNone_iff_eq_none, hreads.hidden]
  range := by
    intro span hspan
    obtain ⟨_, hline, hcolumn, hends⟩ := hreads.range span hspan
    exact ⟨by rw [hline, h.line], by rw [hcolumn, h.column], hends⟩

/-- Whether a range has been met tells whether the next start is a distance. -/
theorem isSome_of_readsAs (hreads : ReadsAs offset before document r p) :
    (before.isSome || decide (¬ (r.lines = 0 ∧ r.columns = 0))) = (p.span <|> before).isSome := by
  simp only [← hreads.hidden]
  cases p.span <;> simp

end Point

/-- **The records that points are read from describe them**, whatever stands in front. -/
theorem Decodes.described {initial : Nat} {offset : Option Nat} {before : Option Span} {document : Nat} {data : Bytes}
    {points : List SequencePoint} (h : Decodes offset before document data points) {front : List BlobRecord}
    (hfront : Stands initial front offset before document) :
    ∃ records, Stores offset.isSome before.isSome data records ∧
      List.Forall₂ (fun r p => Describes initial r.1 r.2 p) (pointRecords front records) points := by
  induction h generalizing front with
  | done => exact ⟨[], .done _ _, .nil⟩
  | switch hrow _ ih =>
    obtain ⟨records, hstores, hdescribes⟩ := ih hfront.switch
    exact ⟨_, .document hrow hstores, hdescribes⟩
  | point hb hp _ ih =>
    obtain ⟨r, hr, hreads⟩ := exists_of_record hp
    obtain ⟨records, hstores, hdescribes⟩ := ih (hfront.point hreads)
    rw [← isSome_of_readsAs hreads] at hstores
    exact ⟨.point r :: records, .point hb hr hstores, .cons (hfront.describes hreads) hdescribes⟩

/-! ## The points of a method -/

section Method

variable {p : PortablePdb} {row : Nat} {points : List SequencePoint}

theorem row_of_cell {k : TableKind} {col n : Nat} (h : p.cell k row col = .ok n) :
    ∃ s, p.tableStream = .ok s ∧ ¬ (row = 0 ∨ row > s.rowsOf k) := by
  obtain ⟨s, hs, h⟩ := exists_of_bind h
  refine ⟨s, hs, ?_⟩
  rw [TableStream.cell] at h
  rw [TableStream.rowsOf]
  cases htable : s.table? k with
  | none =>
    rw [htable] at h
    cases h
  | some t =>
    rw [htable] at h
    intro hrow
    have herror : t.cell row col = .error (.plain (.rowIndexOutOfBounds t.kind row)) := if_pos hrow
    dsimp only at h
    rw [herror] at h
    cases h

/-- The points of a method are read from the records of its row. -/
theorem decodes_of_sequencePoints (h : p.sequencePoints row = .ok points) :
    ∃ initial data, Decodes none none initial data points ∧
      ∀ records, Stores false false data records → RowStores p row initial records := by
  obtain ⟨document, hdocument, h⟩ := exists_of_bind h
  obtain ⟨offset, hoffset, h⟩ := exists_of_bind h
  by_cases hzero : offset = 0
  · rw [if_pos hzero] at h
    cases h
    refine ⟨document, [], .done _ _ _, fun records hstores => ⟨document, offset, hdocument, hoffset, ?_⟩⟩
    cases hstores
    rw [if_pos hzero]
    exact ⟨rfl, rfl⟩
  · rw [if_neg hzero] at h
    obtain ⟨blob, hblob, h⟩ := exists_of_bind h
    obtain ⟨⟨signature, data⟩, hsignature, h⟩ := exists_of_bind h
    dsimp only at h
    have hall : ∀ initial rest, SequencePoint.records rest.length none none initial rest = .ok points →
        Decodes none none initial rest points := fun initial rest hrecords =>
      decodes_of_records (Nat.le_refl _) Machine.inLimits_none hrecords
    by_cases hinitial : document = 0
    · rw [if_pos hinitial] at h
      obtain ⟨⟨initial, rest⟩, hfirst, h⟩ := exists_of_bind h
      refine ⟨initial, rest, hall initial rest h, fun records hstores => ⟨document, offset, hdocument, hoffset, ?_⟩⟩
      rw [if_neg hzero]
      refine ⟨blob, hblob, signature, data, hsignature, ?_⟩
      rw [if_pos hinitial]
      exact ⟨rest, hfirst, hstores⟩
    · rw [if_neg hinitial] at h
      refine ⟨document, data, hall document data h, fun records hstores => ⟨document, offset, hdocument, hoffset, ?_⟩⟩
      rw [if_neg hzero]
      refine ⟨blob, hblob, signature, data, hsignature, ?_⟩
      rw [if_neg hinitial]
      exact ⟨rfl, hstores⟩

/-- The token of the method in a row. -/
def IsMethodToken (token : UInt32) (row : Nat) : Prop :=
  token.toNat / 0x1000000 = TableKind.methodDef.number ∧ token.toNat % 0x1000000 = row

instance (token : UInt32) (row : Nat) : Decidable (IsMethodToken token row) := inferInstanceAs (Decidable (_ ∧ _))

/-- **A look-up gives the last visible point at or before the offset.** -/
theorem lookup_of_sequencePoints (h : p.sequencePoints row = .ok points) {token : UInt32}
    (htoken : IsMethodToken token row) (offset : UInt32) :
    p.lookup token offset = ((points.filter (SequencePoint.applies offset.toNat)).getLast?).elim (.ok none) fun point =>
      point.span.elim (.ok none) fun span =>
        (p.documentName point.document).map fun name => some ⟨name, span.startLine⟩ := by
  obtain ⟨hkind, hrow⟩ := htoken
  obtain ⟨document, hdocument, _⟩ := exists_of_bind h
  obtain ⟨s, hs, hin⟩ := row_of_cell hdocument
  obtain ⟨initial, data, hdecodes, _⟩ := decodes_of_sequencePoints h
  rw [← SequencePoint.best?_eq_getLast? hdecodes.ordered.2]
  simp only [lookup, hkind, hrow, ne_eq, not_true_eq_false, if_false, hs, ok_bind, if_neg hin, h]
  rcases SequencePoint.best? offset.toNat points with - | ⟨_, document, - | span⟩
  · rfl
  · rfl
  · simp only [Option.elim_some]
    cases p.documentName document <;> rfl

theorem applies_iff {offset : Nat} {q : SequencePoint} :
    SequencePoint.applies offset q = true ↔ q.isHidden = false ∧ q.offset ≤ offset := by
  simp [SequencePoint.applies]

/-- If a visible point is at an offset or before, there is a last one. -/
theorem exists_last {offset : Nat} {q : SequencePoint} (hq : q ∈ points) (hvisible : q.isHidden = false)
    (hle : q.offset ≤ offset) :
    ∃ point span, (points.filter (SequencePoint.applies offset)).getLast? = some point ∧ point.span = some span := by
  have hne : points.filter (SequencePoint.applies offset) ≠ [] :=
    List.ne_nil_of_mem (List.mem_filter.2 ⟨hq, applies_iff.2 ⟨hvisible, hle⟩⟩)
  obtain ⟨point, hlast⟩ := Option.isSome_iff_exists.1 (List.getLast?_isSome.2 hne)
  obtain ⟨_, happlies⟩ := List.mem_filter.1 (List.mem_of_getLast? hlast)
  have hpoint := (applies_iff.1 happlies).1
  rw [SequencePoint.isHidden, Option.isNone_eq_false_iff] at hpoint
  obtain ⟨span, hspan⟩ := Option.isSome_iff_exists.1 hpoint
  exact ⟨point, span, hlast, hspan⟩

/-- There is a line unless every visible point comes later. -/
theorem lookup_eq_none_iff (h : p.sequencePoints row = .ok points) {token : UInt32} (htoken : IsMethodToken token row)
    (offset : UInt32) :
    p.lookup token offset = .ok none ↔ ∀ q ∈ points, q.isHidden = false → offset.toNat < q.offset := by
  rw [lookup_of_sequencePoints h htoken]
  constructor
  · intro hnone q hq hvisible
    by_contra hle
    obtain ⟨point, span, hlast, hspan⟩ := exists_last hq hvisible (Nat.le_of_not_lt hle)
    rw [hlast, Option.elim_some, hspan, Option.elim_some] at hnone
    cases hname : p.documentName point.document with
    | error e =>
      rw [hname] at hnone
      cases hnone
    | ok name =>
      rw [hname] at hnone
      cases hnone
  · intro hlater
    have hnil : points.filter (SequencePoint.applies offset.toNat) = [] := by
      rw [List.filter_eq_nil_iff]
      intro q hq happlies
      obtain ⟨hvisible, hle⟩ := applies_iff.1 happlies
      have hlt := hlater q hq hvisible
      omega
    rw [hnil]
    rfl

/-- **The points of a method, and what look-ups make of them.** The offsets never decrease; each point is described by
its record; visible points are valid. A look-up with the method's token takes the line and the document of the last
visible point at or before the offset, so it gives the same for offsets between which no visible point lies. -/
theorem lookup_in_method (h : p.sequencePoints row = .ok points) :
    points.Pairwise (·.offset ≤ ·.offset) ∧
    (∃ initial records, RowStores p row initial records ∧
      List.Forall₂ (fun r point => Describes initial r.1 r.2 point) (pointRecords [] records) points) ∧
    (∀ point ∈ points, ∀ span, point.span = some span → Valid point span) ∧
    ∀ token : UInt32, IsMethodToken token row →
      (∀ offset : UInt32,
        (p.lookup token offset = .ok none ↔ ∀ q ∈ points, q.isHidden = false → offset.toNat < q.offset) ∧
        ((∃ q ∈ points, q.isHidden = false ∧ q.offset ≤ offset.toNat) →
          ∃ point span, (points.filter fun q => ! q.isHidden && decide (q.offset ≤ offset.toNat)).getLast? = some point ∧
            point.span = some span ∧ p.lookup token offset =
              (p.documentName point.document).map fun name => some ⟨name, span.startLine⟩)) ∧
      ∀ offset offset' : UInt32, offset.toNat ≤ offset'.toNat →
        (∀ q ∈ points, q.isHidden = false → ¬ (offset.toNat < q.offset ∧ q.offset ≤ offset'.toNat)) →
          p.lookup token offset' = p.lookup token offset := by
  obtain ⟨initial, data, hdecodes, hrowStores⟩ := decodes_of_sequencePoints h
  obtain ⟨records, hstores, hdescribes⟩ := hdecodes.described (stands_start initial)
  refine ⟨hdecodes.ordered.2, ⟨initial, records, hrowStores records hstores, hdescribes⟩, hdecodes.valid, ?_⟩
  intro token htoken
  refine ⟨fun offset => ⟨lookup_eq_none_iff h htoken offset, ?_⟩, ?_⟩
  · rintro ⟨q, hq, hvisible, hle⟩
    obtain ⟨point, span, hlast, hspan⟩ := exists_last hq hvisible hle
    refine ⟨point, span, hlast, hspan, ?_⟩
    rw [lookup_of_sequencePoints h htoken, hlast, Option.elim_some, hspan, Option.elim_some]
  · intro offset offset' hle hbetween
    have hsame : points.filter (SequencePoint.applies offset'.toNat) =
        points.filter (SequencePoint.applies offset.toNat) := by
      refine List.filter_congr fun q hq => ?_
      rw [Bool.eq_iff_iff, applies_iff, applies_iff]
      constructor
      · rintro ⟨hvisible, hle'⟩
        have hnot := hbetween q hq hvisible
        exact ⟨hvisible, by omega⟩
      · rintro ⟨hvisible, hle'⟩
        exact ⟨hvisible, by omega⟩
    rw [lookup_of_sequencePoints h htoken, lookup_of_sequencePoints h htoken, hsame]

end Method

/-- A file with one method: line 10 of `a` at offset 2, hidden code at 7, and line 12 of `b` at 10. -/
def switchedDocument : PortablePdb where
  header := ⟨signature, 1, 1, 0, 0⟩
  version := ""
  id := none
  tables := some ⟨[⟨.document, 2, [2, 2, 2, 2], [22, 0, 0, 0, 0, 0, 0, 0, 25, 0, 0, 0, 0, 0, 0, 0]⟩,
    ⟨.methodDebugInformation, 1, [2, 2], [1, 0, 1, 0]⟩]⟩
  blobs := some [0, 16, 0, 2, 0, 1, 10, 1, 5, 0, 0, 0, 2, 3, 0, 1, 4, 0, 1, 0x61, 1, 0x62, 2, 0, 18, 2, 0, 20]

def switchedPoints : List SequencePoint :=
  [⟨2, 1, some ⟨10, 1, 10, 2⟩⟩, ⟨7, 1, none⟩, ⟨10, 2, some ⟨12, 1, 12, 2⟩⟩]

theorem sequencePoints_switchedDocument : switchedDocument.sequencePoints 1 = .ok switchedPoints := by
  decide

theorem documentName_switchedDocument : switchedDocument.documentName 2 = .ok "b" := by
  decide

/-- In front of the first point there is no line, in hidden code that of the point before, and at a point its own. -/
theorem lookup_in_method_switchedDocument :
    switchedDocument.sequencePoints 1 = .ok switchedPoints ∧ IsMethodToken 0x06000001 1 ∧
      switchedPoints.Pairwise (·.offset ≤ ·.offset) ∧ switchedDocument.lookup 0x06000001 1 = .ok none ∧
      switchedDocument.lookup 0x06000001 9 = switchedDocument.lookup 0x06000001 2 ∧
      switchedDocument.lookup 0x06000001 10 = .ok (some ⟨"b", 12⟩) := by
  have htoken : IsMethodToken 0x06000001 1 := by decide
  obtain ⟨hordered, _, _, hlookup⟩ := lookup_in_method sequencePoints_switchedDocument
  obtain ⟨hat, hsame⟩ := hlookup 0x06000001 htoken
  refine ⟨sequencePoints_switchedDocument, htoken, hordered, (hat 1).1.2 (by decide), hsame 2 9 (by decide) (by decide), ?_⟩
  obtain ⟨point, span, hlast, hspan, hline⟩ := (hat 10).2 ⟨⟨10, 2, some ⟨12, 1, 12, 2⟩⟩, by decide, rfl, by decide⟩
  have hpoint : some point = some ⟨10, 2, some ⟨12, 1, 12, 2⟩⟩ := hlast.symm.trans (by decide)
  cases hpoint
  cases hspan
  rw [hline, documentName_switchedDocument]
  rfl

end Symbolicate.PortablePdb
